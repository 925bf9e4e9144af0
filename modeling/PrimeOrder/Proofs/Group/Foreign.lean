import Mathlib
import PrimeOrder.Proofs.Group.Run

namespace PrimeOrder

/-- The calls with a value among those that have to be elements of the group. Those for the product
    of powers have an exponent for each base. -/
inductive Call.Takes (v : Value) : Call → Prop where
  | inverse : Takes v (.query (.inverse v))
  | multiplyLeft (w : Value) : Takes v (.query (.multiply v w))
  | multiplyRight (w : Value) : Takes v (.query (.multiply w v))
  | power (k : ℤ) : Takes v (.query (.power v k))
  | productOfPowers {bases : List Value} {exponents : List ℤ}
      (hlength : bases.length = exponents.length) (hv : v ∈ bases) :
      Takes v (.query (.productOfPowers bases exponents))
  | cachedPower (k : ℤ) : Takes v (.cachedPower v k)
  | decode : Takes v (.query (.decode v))
  | image : Takes v (.query (.image v))

namespace Group

variable {G H : Group} {v w : Value} {e : Element}

/-- A group of residues made a residue exactly if the residue names it. -/
theorem ownsElement_residue_iff {x : Residue} :
    G.ownsElement (.residue x) = true ↔ G = residues x.group := by
  cases G with
  | residues G =>
    rw [residues.injEq, @eq_comm _ G]
    simp only [ownsElement, ResidueGroup.owns, beq_iff_eq]
  | points G => simp [ownsElement]

/-- A group of points made a point exactly if the point is on its curve. -/
theorem ownsElement_point_iff {P : Point} :
    G.ownsElement (.point P) = true ↔ ∃ K, G = points K ∧ P.curve = K.curve := by
  cases G with
  | residues G => simp [ownsElement]
  | points G => simp [ownsElement, CurveGroup.owns]

/-- No element is made by two groups, whatever these have in common. -/
theorem eq_of_ownsElement (hG : G.ownsElement e = true) (hH : H.ownsElement e = true) : G = H := by
  cases e with
  | residue x => rw [ownsElement_residue_iff.mp hG, ownsElement_residue_iff.mp hH]
  | point P =>
    obtain ⟨K, rfl, hK⟩ := ownsElement_point_iff.mp hG
    obtain ⟨L, rfl, hL⟩ := ownsElement_point_iff.mp hH
    -- the curve of a group names the group
    have hgroup : some K = some L := congrArg Curve.group (hK.symm.trans hL)
    rw [Option.some.inj hgroup]

theorem owns_iff : G.owns v = true ↔ ∃ e, v = .element e ∧ G.ownsElement e = true := by
  cases v <;> simp [owns]

theorem owns_eq_false_of_ne (hne : H ≠ G) (hH : H.ownsElement e = true) :
    G.owns (.element e) = false := by
  rw [← Bool.not_eq_true]
  intro hG
  exact hne (eq_of_ownsElement hH hG)

theorem owns_eq_false_of_not_element (hv : ∀ e, v ≠ .element e) : G.owns v = false := by
  rw [← Bool.not_eq_true, owns_iff]
  rintro ⟨e, rfl, -⟩
  exact hv e rfl

theorem exists_check_eq_ok (hv : G.owns v = true) : ∃ e, G.check v = .ok e := by
  obtain ⟨e, rfl, howns⟩ := owns_iff.mp hv
  exact ⟨e, if_pos howns⟩

theorem check_eq_error (hv : G.owns v = false) : G.check v = .error (G.refusal v) := by
  cases v with
  | element e =>
    have howns : G.ownsElement e = false := hv
    rw [check, howns, if_neg Bool.false_ne_true]
  | _ => rfl

/-- Of several values with a foreign one among them the first that is foreign is refused. -/
theorem exists_checkAll_eq_error {values : List Value} (hmem : v ∈ values)
    (hv : G.owns v = false) :
    ∃ w ∈ values, G.owns w = false ∧ G.checkAll values = .error (G.refusal w) := by
  induction values with
  | nil => exact absurd hmem List.not_mem_nil
  | cons first rest ih =>
    cases hfirst : G.owns first with
    | false =>
      refine ⟨first, List.mem_cons_self, hfirst, ?_⟩
      rw [checkAll, check_eq_error hfirst]
      rfl
    | true =>
      obtain ⟨e, he⟩ := exists_check_eq_ok hfirst
      have hrest : v ∈ rest := by
        rcases List.mem_cons.mp hmem with rfl | h
        · rw [hv] at hfirst
          cases hfirst
        · exact h
      obtain ⟨w, hw, hforeign, herror⟩ := ih hrest
      refine ⟨w, List.mem_cons_of_mem _ hw, hforeign, ?_⟩
      rw [checkAll, he, Outcome.ok_bind, herror]
      rfl

/-- A refusal reads as a mismatch of groups that shows the value, if the value can be shown. -/
theorem report_refusal {shown : String} (hshown : v.literal? = some shown) :
    (G.refusal v).report =
      (.groupMismatch, shown ++ " does not belong to this " ++ G.kindName ++ " group") := by
  rw [refusal, hshown]
  rfl

theorem report_refusal_of_not_shown (hshown : v.literal? = none) :
    (G.refusal v).report = (.value, Error.decimalTooLong.message) := by
  rw [refusal, hshown]
  rfl

/-- The refusal of an element reads as a mismatch of groups unless its number is too long to be
    written. -/
theorem refusal_element_kind (G : Group) (e : Element) :
    (G.refusal (.element e)).report.1 =
      if Value.isLongElement e then .value else .groupMismatch := by
  rw [refusal, Value.literal?, Value.elementLiteral?]
  split_ifs <;> rfl

end Group

namespace CachedGroup

variable {σ : Type} [RandomSource σ] (isPrime : PrimalityTest) {S : CachedGroup} {v : Value}

/-- A call that takes a foreign value refuses the first foreign one of its operands and leaves
    everything as it was. -/
theorem exists_call_eq_refusal (hv : S.group.owns v = false) {c : Call} (hc : c.Takes v)
    (source : σ) :
    ∃ w ∈ c.operands, S.group.owns w = false ∧
      S.call isPrime c source = ⟨.error (S.group.refusal w), S, source⟩ := by
  have hcheck := Group.check_eq_error hv
  cases hc with
  | inverse =>
    refine ⟨v, List.mem_cons_self, hv, ?_⟩
    rw [call, Query.answer, Group.inverse, hcheck]
    rfl
  | multiplyLeft w =>
    refine ⟨v, List.mem_cons_self, hv, ?_⟩
    rw [call, Query.answer, Group.multiply, hcheck]
    rfl
  -- the factor to the left is checked first, and may be foreign itself
  | multiplyRight w =>
    cases hw : S.group.owns w with
    | false =>
      refine ⟨w, List.mem_cons_self, hw, ?_⟩
      rw [call, Query.answer, Group.multiply, Group.check_eq_error hw]
      rfl
    | true =>
      obtain ⟨e, he⟩ := Group.exists_check_eq_ok hw
      refine ⟨v, List.mem_cons_of_mem _ List.mem_cons_self, hv, ?_⟩
      rw [call, Query.answer, Group.multiply, he, Outcome.ok_bind, hcheck]
      rfl
  | power k =>
    refine ⟨v, List.mem_cons_self, hv, ?_⟩
    rw [call, Query.answer, Group.power, hcheck]
    rfl
  -- the bases are checked before any exponent is looked at
  | productOfPowers hlength hmem =>
    obtain ⟨w, hw, hforeign, herror⟩ := Group.exists_checkAll_eq_error hmem hv
    refine ⟨w, hw, hforeign, ?_⟩
    rw [call, Query.answer, Group.productOfPowers, if_neg (not_not.mpr hlength),
      if_neg (by simp [List.ne_nil_of_mem hmem]), herror]
    rfl
  | cachedPower k =>
    refine ⟨v, List.mem_cons_self, hv, ?_⟩
    simp only [call, cachedPower, hcheck]
    rfl
  | decode =>
    refine ⟨v, List.mem_cons_self, hv, ?_⟩
    rw [call, Query.answer, Group.decode, hcheck]
    rfl
  | image =>
    refine ⟨v, List.mem_cons_self, hv, ?_⟩
    rw [call, Query.answer, Group.image, hcheck]
    rfl

/-- Elements of other groups and values that are no elements are foreign to a group. No foreign value
    is a member, and every call that takes one is refused and changes neither the tables nor the
    source. The refusal is one of a foreign operand, and is reported as such if it can be written. -/
theorem foreign_refused (S : CachedGroup) :
    (∀ (H : Group) e, H ≠ S.group → H.ownsElement e = true → S.group.owns (.element e) = false) ∧
    (∀ v, (∀ e, v ≠ .element e) → S.group.owns v = false) ∧
    ∀ v, S.group.owns v = false → S.group.isMember v = false ∧
      ∀ (c : Call) (source : σ), c.Takes v → ∃ w ∈ c.operands, S.group.owns w = false ∧
        S.call isPrime c source = ⟨.error (S.group.refusal w), S, source⟩ ∧
        (∀ shown, w.literal? = some shown → (S.group.refusal w).report =
          (.groupMismatch, shown ++ " does not belong to this " ++ S.group.kindName ++ " group")) ∧
        (w.literal? = none →
          (S.group.refusal w).report = (.value, Error.decimalTooLong.message)) := by
  refine ⟨fun H e => Group.owns_eq_false_of_ne, fun v => Group.owns_eq_false_of_not_element, ?_⟩
  intro v hv
  refine ⟨Group.isMember_eq_false hv, fun c source hc => ?_⟩
  obtain ⟨w, hw, hforeign, hcall⟩ := exists_call_eq_refusal isPrime hv hc source
  exact ⟨w, hw, hforeign, hcall, fun _ => Group.report_refusal, Group.report_refusal_of_not_shown⟩

/-- An element of another group of the same parameters, equal to a base that has a table, as a factor
    to the right of an element that the group owns. -/
theorem foreign_refused_modulo23 :
    let S := (CachedGroup.mk (.residues .modulo23) []).after (fun x => decide x.toNat.Prime)
      (Generator.ofSeed 1) [.cachedPower (.element (.residue ⟨.modulo23, 4⟩)) 7]
    let foreign := Element.residue ⟨⟨1, .signed, ResidueGroup.modulo23.record⟩, 4⟩
    S.1.cache.hasTable foreign = true ∧ S.1.group.owns (.element foreign) = false ∧
      ∃ w, S.1.call (fun x => decide x.toNat.Prime)
        (.query (.multiply (.element (.residue ⟨.modulo23, 4⟩)) (.element foreign))) S.2 =
          ⟨.error (S.1.group.refusal w), S.1, S.2⟩ := by
  intro S foreign
  obtain ⟨hothers, -, hrefused⟩ :=
    S.1.foreign_refused (fun x => decide x.toNat.Prime) (σ := Generator)
  have hforeign : S.1.group.owns (.element foreign) = false := by decide +kernel
  obtain ⟨-, hcalls⟩ := hrefused (.element foreign) hforeign
  obtain ⟨w, -, -, hcall, -⟩ := hcalls _ S.2 (.multiplyRight _)
  exact ⟨by decide +kernel, hforeign, w, hcall⟩

/-- The refusal of a value that cannot be shown is not reported as a mismatch of groups. -/
theorem not_reported_as_mismatch (hv : S.group.owns v = false) (hshown : v.literal? = none)
    (source : σ) :
    ¬∃ error, (S.call isPrime (.query (.inverse v)) source).outcome = .error error ∧
      error.report.1 = .groupMismatch := by
  rintro ⟨error, herror, hkind⟩
  obtain ⟨w, hw, -, hcall⟩ := exists_call_eq_refusal isPrime hv .inverse source
  obtain rfl : w = v := List.mem_singleton.mp hw
  rw [hcall] at herror
  cases herror
  rw [Group.report_refusal_of_not_shown hshown] at hkind
  cases hkind

/-- Such a value is a number with more digits than are ever written. -/
theorem not_reported_as_mismatch_ten_pow :
    (Group.residues .modulo23).owns (.int (10 ^ 4300)) = false ∧
      ¬∃ error, ((CachedGroup.mk (.residues .modulo23) []).call (fun x => decide x.toNat.Prime)
        (.query (.inverse (.int (10 ^ 4300)))) (Generator.ofSeed 1)).outcome = .error error ∧
          error.report.1 = .groupMismatch := by
  have hlong : Text.Numeral.isLong (10 ^ 4300) = true := by decide +kernel
  have hshown : (Value.int (10 ^ 4300)).literal? = none := by
    rw [Value.literal?]
    exact if_pos hlong
  exact ⟨rfl, not_reported_as_mismatch _ rfl hshown _⟩

end CachedGroup

end PrimeOrder
