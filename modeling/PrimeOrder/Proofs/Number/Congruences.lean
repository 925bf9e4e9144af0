import Mathlib
import PrimeOrder.Proofs.Number.Inverse

namespace PrimeOrder.Number

/-- Whether there are as many residues as moduli, at least one, and no modulus below one. -/
structure IsWellPosed (residues moduli : List Number) : Prop where
  length_eq : residues.length = moduli.length
  ne_nil : moduli ≠ []
  pos : ∀ m ∈ moduli, 0 < m.toInt

/-- Whether any two of the moduli are coprime. -/
def ArePairwiseCoprime (moduli : List Number) : Prop :=
  moduli.Pairwise fun m n => IsCoprime m.toInt n.toInt

/-- The product of the moduli divided by one of them. -/
def cofactor (moduli : List Number) (m : Number) : Number :=
  resultOf moduli ((moduli.map toInt).prod.fdiv m.toInt)

/-- Whether a modulus is the first that has something in common with the product of the others. -/
def IsFirstFactor (moduli : List Number) (m : Number) : Prop :=
  ∃ before after, moduli = before ++ m :: after ∧ ¬IsCoprime (cofactor moduli m).toInt m.toInt ∧
    ∀ n ∈ before, IsCoprime (cofactor moduli n).toInt n.toInt

theorem IsFirstFactor.mem {moduli : List Number} {m : Number} (hfirst : IsFirstFactor moduli m) :
    m ∈ moduli := by
  obtain ⟨before, after, hmoduli, -⟩ := hfirst
  rw [hmoduli]
  exact List.mem_append_right _ List.mem_cons_self

/-- Whether a number solves congruences as the least from zero on. -/
def SolvesLeast (x : Number) (residues moduli : List Number) : Prop :=
  Integer.SolvesLeast x.toInt (residues.map toInt) (moduli.map toInt)

/-- How the search for an inverse of the product of the other moduli fails, in the words of the
    congruences. -/
def refusal? (moduli : List Number) (m : Number) : Option Error :=
  match modInverse (cofactor moduli m) m with
  | .ok _ => none
  | .error e => some (if e.shown = e then .notCoprime else e.shown)

section Factor

variable {moduli : List Number}

theorem arePairwiseCoprime_iff :
    ArePairwiseCoprime moduli ↔ (moduli.map toInt).Pairwise IsCoprime :=
  List.pairwise_map.symm

theorem toInt_cofactor (m : Number) :
    (cofactor moduli m).toInt = (moduli.map toInt).prod.fdiv m.toInt :=
  toInt_resultOf _ _

theorem commonFactor_eq_getD :
    commonFactor moduli = (moduli.findSome? (refusal? moduli)).getD .notCoprime := by
  rw [commonFactor, ← List.foldl_map, ← List.prod_eq_foldl]
  rfl

theorem refusal?_eq_none {m : Number} (hm : 0 < m.toInt)
    (hcoprime : IsCoprime (cofactor moduli m).toInt m.toInt) : refusal? moduli m = none := by
  obtain ⟨inverse, hinverse, -⟩ := exists_modInverse_eq_ok hm hcoprime
  rw [refusal?, hinverse]

theorem refusal?_eq_some {m : Number} (hm : 0 < m.toInt)
    (hfactor : ¬IsCoprime (cofactor moduli m).toInt m.toInt) :
    refusal? moduli m =
      some (if m.isLong || (cofactor moduli m).isLong then .decimalTooLong else .notCoprime) := by
  obtain ⟨divisor, herror, -, hshown⟩ := exists_modInverse_eq_error hm hfactor
  rw [Bool.or_comm] at hshown
  simp only [refusal?, herror, hshown]
  by_cases hlong : (m.isLong || (cofactor moduli m).isLong) = true
  · simp only [if_pos hlong, reduceCtorEq, if_false]
  · simp only [if_neg hlong, if_true]

variable (hpos : ∀ m ∈ moduli, 0 < m.toInt)
include hpos

theorem arePairwiseCoprime_iff_cofactors :
    ArePairwiseCoprime moduli ↔ ∀ m ∈ moduli, IsCoprime (cofactor moduli m).toInt m.toInt := by
  rw [arePairwiseCoprime_iff, Integer.pairwise_isCoprime_iff (List.forall_mem_map.mpr hpos)]
  simp only [List.forall_mem_map, toInt_cofactor]

/-- Moduli that are not coprime in pairs are refused because of the first that is not coprime to the
    product of the others. -/
theorem exists_commonFactor_eq (hcommon : ¬ArePairwiseCoprime moduli) :
    ∃ m, IsFirstFactor moduli m ∧ commonFactor moduli =
      if m.isLong || (cofactor moduli m).isLong then .decimalTooLong else .notCoprime := by
  have hfound : (moduli.findSome? (refusal? moduli)).isSome = true := by
    rw [arePairwiseCoprime_iff_cofactors hpos] at hcommon
    push Not at hcommon
    obtain ⟨n, hn, hfactor⟩ := hcommon
    exact List.findSome?_isSome_iff.mpr ⟨n, hn, by rw [refusal?_eq_some (hpos n hn) hfactor]; rfl⟩
  obtain ⟨e, he⟩ := Option.isSome_iff_exists.mp hfound
  obtain ⟨before, m, after, hmoduli, hm, hbefore⟩ := List.findSome?_eq_some_iff.mp he
  have hm0 : 0 < m.toInt := hpos m (by rw [hmoduli]; exact List.mem_append_right _ List.mem_cons_self)
  have hfactor : ¬IsCoprime (cofactor moduli m).toInt m.toInt := by
    intro hcoprime
    rw [refusal?_eq_none hm0 hcoprime] at hm
    cases hm
  have hfirst : ∀ n ∈ before, IsCoprime (cofactor moduli n).toInt n.toInt := by
    intro n hn
    by_contra hnfactor
    have hn0 : 0 < n.toInt := hpos n (by rw [hmoduli]; exact List.mem_append_left _ hn)
    have hnone := hbefore n hn
    rw [refusal?_eq_some hn0 hnfactor] at hnone
    cases hnone
  refine ⟨m, ⟨before, after, hmoduli, hfactor, hfirst⟩, ?_⟩
  rw [refusal?_eq_some hm0 hfactor, Option.some.injEq] at hm
  rw [commonFactor_eq_getD, he, Option.getD_some, hm]

end Factor

section Reordering

variable {residues moduli residues' moduli' : List Number}
  (hlength : residues.length = moduli.length) (hlength' : residues'.length = moduli'.length)
  (hperm : (residues'.zip moduli').Perm (residues.zip moduli))
include hlength hlength' hperm

theorem perm_moduli : moduli'.Perm moduli := by
  have := hperm.map Prod.snd
  rwa [List.map_snd_zip hlength.ge, List.map_snd_zip hlength'.ge] at this

theorem perm_residues : residues'.Perm residues := by
  have := hperm.map Prod.fst
  rwa [List.map_fst_zip hlength.le, List.map_fst_zip hlength'.le] at this

/-- The form of a result does not depend on the order of its operands. -/
theorem resultOf_reordered (n : ℤ) :
    resultOf (residues' ++ moduli') n = resultOf (residues ++ moduli) n := by
  have hany : (residues' ++ moduli').any isNative = (residues ++ moduli).any isNative :=
    ((perm_residues hlength hlength' hperm).append (perm_moduli hlength hlength' hperm)).any_eq
  rw [resultOf, resultOf, hany]

/-- What solves congruences solves them in any order. -/
theorem SolvesLeast.of_reordered {x : Number} (hx : SolvesLeast x residues' moduli') :
    SolvesLeast x residues moduli := by
  have hmoduli := (perm_moduli hlength hlength' hperm).map toInt
  refine ⟨hx.nonneg, hmoduli.prod_eq ▸ hx.lt_prod, ?_⟩
  intro c hc
  apply hx.modEq
  rw [List.zip_map] at hc ⊢
  exact (hperm.map _).mem_iff.mpr hc

theorem IsWellPosed.of_reordered (hposed : IsWellPosed residues moduli) :
    IsWellPosed residues' moduli' := by
  have hmoduli := perm_moduli hlength hlength' hperm
  refine ⟨hlength', ?_, fun m hm => hposed.pos m (hmoduli.mem_iff.mp hm)⟩
  intro hnil
  rw [hnil] at hmoduli
  exact hposed.ne_nil hmoduli.nil_eq.symm

theorem ArePairwiseCoprime.of_reordered (hcoprime : ArePairwiseCoprime moduli) :
    ArePairwiseCoprime moduli' :=
  ((perm_moduli hlength hlength' hperm).pairwise_iff fun h => h.symm).mpr hcoprime

end Reordering

section Outcome

variable {residues moduli : List Number}

/-- What is not posed well is refused as such. -/
theorem exists_crt_eq_error (hposed : ¬IsWellPosed residues moduli) :
    ∃ e, crt residues moduli = .error e ∧ e.report.1 = .invalidArgument := by
  unfold crt Integer.crt
  split_ifs with hlength hempty hnonpos
  · exact ⟨_, rfl, rfl⟩
  · exact ⟨_, rfl, rfl⟩
  · exact ⟨_, rfl, rfl⟩
  · refine absurd ⟨by simpa using hlength, by simpa using hempty, ?_⟩ hposed
    simpa [List.any_eq_true] using hnonpos

variable (hposed : IsWellPosed residues moduli)
include hposed

/-- What is posed well is solved or refused for the moduli. -/
theorem crt_cases :
    (ArePairwiseCoprime moduli ∧ ∃ n, crt residues moduli = .ok (resultOf (residues ++ moduli) n) ∧
      SolvesLeast (resultOf (residues ++ moduli) n) residues moduli) ∨
    ¬ArePairwiseCoprime moduli ∧ crt residues moduli = .error (commonFactor moduli) := by
  have hlength : (residues.map toInt).length = (moduli.map toInt).length := by
    rw [List.length_map, List.length_map, hposed.length_eq]
  have hne : moduli.map toInt ≠ [] := by
    rw [Ne, List.map_eq_nil_iff]
    exact hposed.ne_nil
  rw [arePairwiseCoprime_iff]
  rcases Integer.crt_cases hlength hne (List.forall_mem_map.mpr hposed.pos) with
    ⟨hcoprime, n, hn, hsolves⟩ | ⟨hcommon, herror⟩
  · refine .inl ⟨hcoprime, n, by rw [crt, hn], ?_⟩
    rwa [SolvesLeast, toInt_resultOf]
  · exact .inr ⟨hcommon, by rw [crt, herror]⟩

/-- Moduli with something in common are refused for that, unless the refusal cannot be written. -/
theorem exists_crt_eq_refusal (hcommon : ¬ArePairwiseCoprime moduli) :
    ∃ m e, IsFirstFactor moduli m ∧ crt residues moduli = .error e ∧
      e.report = if m.isLong || (cofactor moduli m).isLong then Error.decimalTooLong.report
        else (.arithmeticDomain, "moduli are not pairwise coprime") := by
  obtain ⟨m, hfirst, hm⟩ := exists_commonFactor_eq hposed.pos hcommon
  rcases crt_cases hposed with ⟨hcoprime, -⟩ | ⟨-, herror⟩
  · exact absurd hcoprime hcommon
  · refine ⟨m, _, hfirst, herror, ?_⟩
    rw [hm]
    split_ifs <;> rfl

theorem exists_crt_eq_ok (hcoprime : ArePairwiseCoprime moduli) :
    ∃ n, crt residues moduli = .ok (resultOf (residues ++ moduli) n) ∧
      SolvesLeast (resultOf (residues ++ moduli) n) residues moduli := by
  rcases crt_cases hposed with ⟨-, hsolved⟩ | ⟨hcommon, -⟩
  · exact hsolved
  · exact absurd hcoprime hcommon

/-- There is no second solution below the product. -/
theorem SolvesLeast.toInt_eq {x y : Number} (hcoprime : ArePairwiseCoprime moduli)
    (hx : SolvesLeast x residues moduli) (hy : SolvesLeast y residues moduli) :
    x.toInt = y.toInt := by
  refine Integer.SolvesLeast.eq ?_ (arePairwiseCoprime_iff.mp hcoprime) hx hy
  rw [List.length_map, List.length_map, hposed.length_eq]

/-- The solution does not depend on the order of the congruences. -/
theorem crt_reordered (hcoprime : ArePairwiseCoprime moduli) {residues' moduli' : List Number}
    (hlength' : residues'.length = moduli'.length)
    (hperm : (residues'.zip moduli').Perm (residues.zip moduli)) :
    crt residues' moduli' = crt residues moduli := by
  have hlength := hposed.length_eq
  obtain ⟨n, hn, hsolves⟩ := exists_crt_eq_ok hposed hcoprime
  obtain ⟨n', hn', hsolves'⟩ :=
    exists_crt_eq_ok (hposed.of_reordered hlength hlength' hperm)
      (hcoprime.of_reordered hlength hlength' hperm)
  have heq : n' = n := by
    have h := (hsolves'.of_reordered hlength hlength' hperm).toInt_eq hposed hcoprime hsolves
    rwa [toInt_resultOf, toInt_resultOf] at h
  rw [hn, hn', heq, resultOf_reordered hlength hlength' hperm]

end Outcome

/-- Congruences are refused as ill posed exactly if they are. -/
theorem exists_crt_eq_error_iff {residues moduli : List Number} :
    (∃ e, crt residues moduli = .error e ∧ e.report.1 = .invalidArgument) ↔
      ¬IsWellPosed residues moduli := by
  refine ⟨?_, exists_crt_eq_error⟩
  rintro ⟨e, he, hkind⟩ hposed
  by_cases hcoprime : ArePairwiseCoprime moduli
  · obtain ⟨n, hn, -⟩ := exists_crt_eq_ok hposed hcoprime
    rw [hn] at he
    cases he
  · obtain ⟨m, e', -, he', hreport⟩ := exists_crt_eq_refusal hposed hcoprime
    rw [he', Except.error.injEq] at he
    rw [← he, hreport] at hkind
    split_ifs at hkind
    cases hkind

/-- Congruences are refused as ill posed exactly if they are. Where the moduli have something in common,
    they are refused for that, unless the refusal itself cannot be written. All others have one least
    solution, which is found in whatever order the congruences stand. -/
theorem crt_solves_least (residues moduli : List Number) :
    ((∃ e, crt residues moduli = .error e ∧ e.report.1 = .invalidArgument) ↔
      ¬IsWellPosed residues moduli) ∧
    (IsWellPosed residues moduli → ¬ArePairwiseCoprime moduli →
      ∃ m e, IsFirstFactor moduli m ∧ crt residues moduli = .error e ∧
        e.report = if m.isLong || (cofactor moduli m).isLong then Error.decimalTooLong.report
          else (.arithmeticDomain, "moduli are not pairwise coprime")) ∧
    (IsWellPosed residues moduli → ArePairwiseCoprime moduli →
      ∃ x, crt residues moduli = .ok x ∧ SolvesLeast x residues moduli ∧
        (∀ y, SolvesLeast y residues moduli → y.toInt = x.toInt) ∧
        ∀ residues' moduli', residues'.length = moduli'.length →
          (residues'.zip moduli').Perm (residues.zip moduli) → crt residues' moduli' = .ok x) := by
  refine ⟨exists_crt_eq_error_iff, exists_crt_eq_refusal, ?_⟩
  intro hposed hcoprime
  obtain ⟨n, hn, hsolves⟩ := exists_crt_eq_ok hposed hcoprime
  refine ⟨_, hn, hsolves, fun y hy => hy.toInt_eq hposed hcoprime hsolves, ?_⟩
  intro residues' moduli' hlength' hperm
  rw [crt_reordered hposed hcoprime hlength' hperm, hn]

/-- Residues two, three and two modulo three, five and seven are solved by 23, in another order too, and
    moduli four and six are refused. -/
theorem crt_solves_least_twentythree :
    (IsWellPosed [(2 : ℤ), (3 : ℤ), (2 : ℤ)] [(3 : ℤ), (5 : ℤ), (7 : ℤ)] ∧
      ArePairwiseCoprime [(3 : ℤ), (5 : ℤ), (7 : ℤ)]) ∧
    crt [(2 : ℤ), (2 : ℤ), (3 : ℤ)] [(3 : ℤ), (7 : ℤ), (5 : ℤ)] = .ok (23 : ℤ) ∧
    (IsWellPosed [(2 : ℤ), (3 : ℤ)] [(4 : ℤ), (6 : ℤ)] ∧ ¬ArePairwiseCoprime [(4 : ℤ), (6 : ℤ)]) ∧
    (∃ e, crt [(2 : ℤ), (3 : ℤ)] [(4 : ℤ), (6 : ℤ)] = .error e ∧
      e.report = (.arithmeticDomain, "moduli are not pairwise coprime")) ∧
    ¬IsWellPosed [(2 : ℤ)] [(0 : ℤ)] ∧
    ∃ e, crt [(2 : ℤ)] [(0 : ℤ)] = .error e ∧ e.report.1 = .invalidArgument := by
  have hposed : IsWellPosed [(2 : ℤ), (3 : ℤ), (2 : ℤ)] [(3 : ℤ), (5 : ℤ), (7 : ℤ)] :=
    ⟨rfl, by decide, by decide⟩
  have hcoprime : ArePairwiseCoprime [(3 : ℤ), (5 : ℤ), (7 : ℤ)] := by
    simp only [ArePairwiseCoprime, Int.isCoprime_iff_gcd_eq_one]
    decide
  have hposed' : IsWellPosed [(2 : ℤ), (3 : ℤ)] [(4 : ℤ), (6 : ℤ)] := ⟨rfl, by decide, by decide⟩
  have hcommon : ¬ArePairwiseCoprime [(4 : ℤ), (6 : ℤ)] := by
    simp only [ArePairwiseCoprime, Int.isCoprime_iff_gcd_eq_one]
    decide
  have hill : ¬IsWellPosed [(2 : ℤ)] [(0 : ℤ)] := fun h => absurd (h.pos (0 : ℤ) (by simp)) (by decide)
  refine ⟨⟨hposed, hcoprime⟩, ?_, ⟨hposed', hcommon⟩, ?_, hill, (crt_solves_least _ _).1.mpr hill⟩
  · obtain ⟨x, hx, -, -, hreordered⟩ := (crt_solves_least _ _).2.2 hposed hcoprime
    have h23 : crt [(2 : ℤ), (3 : ℤ), (2 : ℤ)] [(3 : ℤ), (5 : ℤ), (7 : ℤ)] = .ok (23 : ℤ) := by cbv
    rw [h23, Except.ok.injEq] at hx
    rw [hx]
    exact hreordered _ _ rfl (by decide)
  · obtain ⟨m, e, hfirst, he, hreport⟩ := (crt_solves_least _ _).2.1 hposed' hcommon
    have hshort : (m.isLong || (cofactor [(4 : ℤ), (6 : ℤ)] m).isLong) = false := by
      rcases List.mem_pair.mp hfirst.mem with rfl | rfl <;> decide
    rw [hshort] at hreport
    exact ⟨e, he, hreport⟩

/-- Moduli with something in common are not refused for that if one of them is too long to be
    written. -/
theorem not_refused_for_common_factor_ten_pow :
    IsWellPosed [(0 : ℤ), (0 : ℤ)] [((10 ^ 4300 : ℤ) : Number), (2 : ℤ)] ∧
    ¬ArePairwiseCoprime [((10 ^ 4300 : ℤ) : Number), (2 : ℤ)] ∧
    ¬∃ e, crt [(0 : ℤ), (0 : ℤ)] [((10 ^ 4300 : ℤ) : Number), (2 : ℤ)] = .error e ∧
      e.report.1 = .arithmeticDomain := by
  have hpos : (0 : ℤ) < 10 ^ 4300 := pow_pos (by norm_num) _
  have heven : ¬IsCoprime (10 ^ 4300 : ℤ) 2 := by
    rw [IsCoprime.pow_left_iff (by norm_num), Int.isCoprime_iff_gcd_eq_one]
    decide
  have hlong : Text.Numeral.isLong (10 ^ 4300) = true := by decide +kernel
  -- the power is not to be computed
  generalize (10 ^ 4300 : ℤ) = n at hpos heven hlong ⊢
  have hposed : IsWellPosed [(0 : ℤ), (0 : ℤ)] [(n : Number), (2 : ℤ)] := by
    refine ⟨rfl, List.cons_ne_nil _ _, ?_⟩
    intro m hm
    rcases List.mem_pair.mp hm with rfl | rfl
    · exact hpos
    · exact two_pos
  have hcommon : ¬ArePairwiseCoprime [(n : Number), (2 : ℤ)] := fun hcoprime =>
    heven (List.rel_of_pairwise_cons hcoprime List.mem_cons_self)
  refine ⟨hposed, hcommon, ?_⟩
  rintro ⟨e, he, hkind⟩
  obtain ⟨m, e', hfirst, he', hreport⟩ := exists_crt_eq_refusal hposed hcommon
  have hsome : (m.isLong || (cofactor [(n : Number), (2 : ℤ)] m).isLong) = true := by
    rw [Bool.or_eq_true_iff]
    rcases List.mem_pair.mp hfirst.mem with rfl | rfl
    · exact .inl hlong
    · have hcofactor : cofactor [(n : Number), (2 : ℤ)] (2 : ℤ) = (n : ℤ) := by
        simp [cofactor, resultOf, isNative, Int.mul_fdiv_cancel n two_ne_zero]
      exact .inr (by rw [hcofactor]; exact hlong)
  rw [he', Except.error.injEq] at he
  rw [← he, hreport, if_pos hsome] at hkind
  cases hkind

end PrimeOrder.Number
