import Mathlib
import PrimeOrder.Proofs.Group.Search

namespace PrimeOrder

variable {isPrime : PrimalityTest}

namespace CurveGroup

variable {G : CurveGroup}

theorem three_mod_four_of_hasForm (hform : hasForm G.params = true) :
    G.params.modulus % 4 = 3 := by
  rw [hasForm, Bool.and_eq_true, beq_iff_eq, Int.fmod_eq_emod_of_nonneg _ (by norm_num)] at hform
  exact hform.1

/-- The validation of parameters in the form that every group of points needs always has a result. -/
theorem exists_validate_eq_ok (hprime : isPrime.IsSound) (hform : hasForm G.params = true) :
    ∃ valid, G.validate isPrime = .ok valid := by
  unfold validate
  split_ifs with hprimes hsingular
  · exact ⟨_, rfl⟩
  · exact ⟨_, rfl⟩
  · exact ⟨_, rfl⟩
  · exact ⟨_, rfl⟩
  · rw [Bool.not_eq_true, Bool.not_eq_false', Bool.and_eq_true] at hprimes
    rw [Bool.not_eq_true] at hsingular
    have hp := hprime _ hprimes.1
    have : Fact G.params.modulus.toNat.Prime := ⟨hp⟩
    have hpos := hp.pos
    have hmodulus : G.params.modulus = (G.params.modulus.toNat : ℤ) := by omega
    have hthree := three_mod_four_of_hasForm hform
    have hsmooth : G.IsSmooth G.params.modulus.toNat := ⟨hmodulus, by omega, hsingular⟩
    obtain ⟨d, hd⟩ := Point.exists_mul_eq hsmooth.two_ne_zero (reads hmodulus).a_eq _ G.params.order
    rw [generator_eq_ofCoordinates hmodulus, hd]
    exact ⟨_, rfl⟩

end CurveGroup

namespace Group

variable {G : Group}

/-- Whether a group answers every question about its own soundness with yes. -/
structure PassesChecks (isPrime : PrimalityTest) (G : Group) : Prop where
  validate : Query.validate.answer isPrime G = .ok (.bool true)
  isGenerator : Query.isGenerator.answer isPrime G = .ok (.bool true)
  isPrimeOrder : Query.isPrimeOrder.answer isPrime G = .ok (.bool true)

theorem isPrime_order_of_validate (hvalid : G.validate isPrime = .ok true) :
    isPrime G.order = true := by
  cases G with
  | residues G =>
    rw [validate_residues] at hvalid
    have hparams := Except.ok.inj hvalid
    simp only [ResidueParams.isValid, Bool.and_eq_true] at hparams
    exact hparams.1.1.1.1.2
  | points G => exact (CurveGroup.validate_eq_ok_true_iff.mp hvalid).2.1

theorem isGenerator_of_validate (hvalid : G.validate isPrime = .ok true) :
    G.isGenerator = true := by
  cases G with
  | residues G =>
    rw [validate_residues] at hvalid
    have hparams := Except.ok.inj hvalid
    simp only [ResidueParams.isValid, Bool.and_eq_true, decide_eq_true_eq] at hparams
    obtain ⟨⟨⟨-, hone⟩, hlt⟩, hpow⟩ := hparams
    have hmember : G.inSubgroup G.params.generator = true := by
      simp only [ResidueGroup.inSubgroup_eq, SignedResidues.inSubgroup, Bool.and_eq_true,
        decide_eq_true_eq]
      exact ⟨⟨by omega, hlt⟩, hpow⟩
    have hidentity : (G.params.generator == 1) = false := beq_eq_false_iff_ne.mpr (by omega)
    simp only [isGenerator, generator, ResidueGroup.generator, isMember_residue, hmember,
      Element.isIdentity, hidentity, Bool.not_false, Bool.and_self]
  | points G =>
    have hcurve := (CurveGroup.validate_eq_ok_true_iff.mp hvalid).2.2.2.2.1
    simp only [isGenerator, generator, isMember, CurveGroup.owns, hcurve, Element.isIdentity]
    simp [CurveGroup.generator, Curve.point, Point.isInfinity]

theorem PassesChecks.of_validate (hprime : isPrime.RejectsBelowTwo)
    (hvalid : G.validate isPrime = .ok true) : G.PassesChecks isPrime := by
  constructor
  case validate =>
    rw [Query.answer, hvalid]
    rfl
  case isGenerator => rw [Query.answer, isGenerator_of_validate hvalid]
  case isPrimeOrder =>
    have horder := isPrime_order_of_validate hvalid
    have htwo := hprime _ horder
    rw [Query.answer, Integer.isProbablePrime, if_neg (by decide), if_neg (by omega),
      if_neg (by decide), horder]
    rfl

end Group

/-- Whether a record of parameters is of the kind that the groups of a backend are built from. -/
def Backend.Fits : Backend → ParameterRecord → Prop
  | residues _, .residues _ => True
  | points, .curve _ => True
  | _, _ => False

namespace Group

variable {σ : Type} [RandomSource σ] {backend : Backend} {record : ParameterRecord}

theorem build_points_requestFor (hprime : isPrime.IsSound) (id : ℕ) (record : CurveRecord) (s : σ) :
    ∃ valid, (CurveGroup.hasForm record.params = true →
        (points ⟨id, record⟩).validate isPrime = .ok valid) ∧
      build isPrime .points id (requestFor (.curve record)) s =
        if CurveGroup.hasForm record.params then
          if valid then .ok (points ⟨id, record⟩, s)
          else .error (.invalidCurve (Text.Quoted.ofString record.name))
        else .error (.curveForm (Text.Quoted.ofString record.name)) := by
  have hrequest : CurveGroup.ofRequest isPrime id (requestFor (.curve record)) =
      CurveGroup.ofRecord isPrime id record := rfl
  rw [build, hrequest, CurveGroup.ofRecord, CurveGroup.ofForm]
  by_cases hform : CurveGroup.hasForm record.params = true
  · obtain ⟨valid, hvalid⟩ := CurveGroup.exists_validate_eq_ok (G := ⟨id, record⟩) hprime hform
    refine ⟨valid, fun _ => hvalid, ?_⟩
    rw [if_pos hform, if_pos hform, Outcome.ok_bind, hvalid, Outcome.ok_bind]
    cases valid <;> rfl
  · refine ⟨false, fun h => absurd h hform, ?_⟩
    rw [if_neg hform, if_neg hform]
    rfl

/-- Parameters of the right kind lead to a group that is valid, or are refused. -/
theorem build_of_fits (hprime : isPrime.IsSound) (hfits : backend.Fits record) (id : ℕ) (s : σ) :
    (∃ G, build isPrime backend id (requestFor record) s = .ok (G, s) ∧ G.record = record ∧
      G.validate isPrime = .ok true) ∨
    ∃ error, build isPrime backend id (requestFor record) s = .error error ∧
      error.report.1 = .construction := by
  cases backend with
  | residues engine =>
    cases record with
    | curve record => exact hfits.elim
    | residues record =>
      rw [build_residues_requestFor]
      split_ifs with hvalid
      · exact .inl ⟨_, rfl, rfl, (validate_residues _ _).trans (congrArg Except.ok hvalid)⟩
      · exact .inr ⟨_, rfl, rfl⟩
  | points =>
    cases record with
    | residues record => exact hfits.elim
    | curve record =>
      obtain ⟨valid, hvalid, hbuild⟩ := build_points_requestFor hprime id record s
      rw [hbuild]
      split_ifs with hform hsound
      · exact .inl ⟨_, rfl, rfl, hsound ▸ hvalid hform⟩
      · exact .inr ⟨_, rfl, rfl⟩
      · exact .inr ⟨_, rfl, rfl⟩

/-- Parameters of the other kind are refused, in a way that shows them if they can be shown. -/
theorem build_of_not_fits (isPrime : PrimalityTest) (hfits : ¬backend.Fits record) (id : ℕ) (s : σ) :
    build isPrime backend id (requestFor record) s =
      .error (.showing .unsupportedParameters (Value.parameters record).literal?) := by
  cases backend with
  | residues engine =>
    cases record with
    | curve record => rfl
    | residues record => exact absurd trivial hfits
  | points =>
    cases record with
    | residues record => rfl
    | curve record => exact absurd trivial hfits

/-- A size in bits between the least and the greatest that are searched has no named set. -/
theorem build_of_searched_size (isPrime : PrimalityTest) (id : ℕ) (bits : Number)
    (hlow : ResidueParams.leastGeneratedBits ≤ bits.toInt)
    (hhigh : bits.toInt ≤ ResidueParams.greatestGeneratedBits) (s : σ) :
    build isPrime (.residues .signed) id ⟨some (.number bits), none⟩ s =
      (ResidueParams.search isPrime bits.toInt.toNat s searchLimit).map fun found =>
        (residues ⟨id, .signed, found.1.record⟩, found.2) := by
  have hnamed : ResidueParams.ofBits? bits.toInt = none := by
    have hgreatest : ResidueParams.greatestGeneratedBits = 512 := rfl
    rw [ResidueParams.ofBits?, if_neg (by omega), if_neg (by omega)]
  have hrequest : ResidueParams.ofRequest isPrime .signed ⟨some (.number bits), none⟩ s =
      ResidueParams.ofSize isPrime .signed (.number bits) s := rfl
  have hinteger : (Value.number bits).integer?.bind ResidueParams.ofBits? = none := hnamed
  have hlooked : (Value.number bits).lookedUp = .ok (.number bits) := rfl
  rw [build, hrequest, ResidueParams.ofSize, hlooked, Outcome.ok_bind, hinteger]
  dsimp only
  rw [if_pos ⟨hlow, hhigh⟩, Engine.search]
  cases ResidueParams.search isPrime bits.toInt.toNat s searchLimit <;> rfl

/-- What a search finds for a size is the first candidate that passes, has just that size and is
    valid. The group for a size that is searched has these parameters, and it passes its own checks,
    as does every group that is built from given parameters. Parameters that lead to no group are
    refused at construction, except that those of the other kind may have no literal to be shown
    by. -/
theorem groups_pass_checks (hprime : isPrime.IsSound) (hσ : RandomSource.KeepsBounds σ) :
    (∀ (bits : ℕ) (s : σ) count found, 16 ≤ bits → bits ≤ 512 →
      ResidueParams.search isPrime bits s count = .ok found →
        found.1.IsGenerated isPrime bits ∧
          ∃ place < count, ResidueParams.IsFirst isPrime bits s place found) ∧
    (∀ (id : ℕ) (bits : Number) (s : σ) G next, 16 ≤ bits.toInt → bits.toInt ≤ 512 →
      build isPrime (.residues .signed) id ⟨some (.number bits), none⟩ s = .ok (G, next) →
        G.PassesChecks isPrime ∧ ∃ params count,
          ResidueParams.search isPrime bits.toInt.toNat s count = .ok (params, next) ∧
            G = residues ⟨id, .signed, params.record⟩) ∧
    ∀ (backend : Backend) (id : ℕ) (record : ParameterRecord) (s : σ),
      (∃ G, build isPrime backend id (requestFor record) s = .ok (G, s) ∧ G.record = record ∧
        G.PassesChecks isPrime) ∨
      ∃ error, build isPrime backend id (requestFor record) s = .error error ∧
        (error.report.1 = .construction ∨ ¬backend.Fits record ∧
          (Value.parameters record).literal? = none ∧ error.report.1 = .value) := by
  refine ⟨?_, ?_, ?_⟩
  · intro bits s count found hlow _ hfound
    exact ResidueParams.isGenerated_of_search hprime hσ (by omega) hfound
  · intro id bits s G next hlow hhigh hbuild
    rw [build_of_searched_size isPrime id bits hlow hhigh, Outcome.map_eq_ok_iff] at hbuild
    obtain ⟨⟨params, after⟩, hsearch, hpair⟩ := hbuild
    cases hpair
    obtain ⟨hgenerated, -⟩ := ResidueParams.isGenerated_of_search hprime hσ (by omega) hsearch
    refine ⟨.of_validate hprime.rejectsBelowTwo ?_, params, searchLimit, hsearch, rfl⟩
    exact (validate_residues _ _).trans (congrArg Except.ok hgenerated.isValid)
  · intro backend id record s
    by_cases hfits : backend.Fits record
    · rcases build_of_fits hprime hfits id s with ⟨G, hG, hrecord, hvalid⟩ | ⟨error, herror, hkind⟩
      · exact .inl ⟨G, hG, hrecord, .of_validate hprime.rejectsBelowTwo hvalid⟩
      · exact .inr ⟨error, herror, .inl hkind⟩
    · refine .inr ⟨_, build_of_not_fits isPrime hfits id s, ?_⟩
      cases hshown : (Value.parameters record).literal? with
      | some shown => exact .inl rfl
      | none => exact .inr ⟨hfits, rfl, rfl⟩

/-- The first draw of a generator, made odd, is the order of a safe prime of 16 bits. -/
theorem groups_pass_checks_sixteen :
    ∃ next, build (fun x => decide x.toNat.Prime) (.residues .signed) 0
        ⟨some (.number (.integer 16)), none⟩ (Generator.ofSeed 1) =
          .ok (residues ⟨0, .signed, (ResidueParams.ofOrder 16 18041).record⟩, next) ∧
      PassesChecks (fun x => decide x.toNat.Prime)
        (residues ⟨0, .signed, (ResidueParams.ofOrder 16 18041).record⟩) := by
  obtain ⟨next, hdraw⟩ : ∃ next, RandomSource.draw (ResidueParams.leastDraw 16)
      (2 * ResidueParams.leastDraw 16 - 1) (Generator.ofSeed 1) = .ok (18040, next) :=
    ⟨_, by rfl⟩
  have hpass : ResidueParams.passes (fun x => decide x.toNat.Prime) 18041 = true :=
    ResidueParams.passes_of_prime (by norm_num : Nat.Prime 18041) (by norm_num)
  have hsearch : ResidueParams.search (fun x => decide x.toNat.Prime) 16 (Generator.ofSeed 1)
      searchLimit = .ok (ResidueParams.ofOrder 16 18041, next) :=
    ResidueParams.search_eq_ok_iff.mpr ⟨0, by decide, ⟨18040, hdraw, hpass, rfl⟩,
      fun _ h => absurd h (Nat.not_lt_zero _)⟩
  have hbuild := build_of_searched_size (fun x => decide x.toNat.Prime) 0
    (.integer 16) (by decide) (by decide) (Generator.ofSeed 1)
  rw [show (Number.integer 16).toInt.toNat = 16 from rfl, hsearch] at hbuild
  obtain ⟨-, hgroups, -⟩ := groups_pass_checks PrimalityTest.decides_trialDivision.isSound
    Generator.staysInRange.keepsBounds
  exact ⟨next, hbuild, (hgroups 0 _ _ _ _ (by decide) (by decide) hbuild).1⟩

/-- Parameters of a residue group with a modulus too long to be written are not refused at
    construction where a curve is wanted. -/
theorem build_points_of_long_modulus (isPrime : PrimalityTest) (id : ℕ) (record : ResidueRecord)
    (hlong : record.modulus.isLong = true) (s : σ) :
    ∃ error, build isPrime .points id (requestFor (.residues record)) s = .error error ∧
      error.report.1 = .value := by
  have hfits : ¬Backend.points.Fits (.residues record) := fun h => h
  refine ⟨_, build_of_not_fits isPrime hfits id s, ?_⟩
  have hshown : (Value.parameters (.residues record)).literal? = none := by
    have hmodulus : record.modulus.literal? = none := if_pos hlong
    simp [Value.literal?, Value.parametersLiteral?, Value.recordLiteral?, hmodulus]
  rw [hshown]
  rfl

/-- The refusal of a modulus of 4301 digits is one such. -/
theorem not_refused_at_construction_ten_pow :
    ∃ error, build (fun x => decide x.toNat.Prime) .points 0
        (requestFor (.residues ⟨.integer (10 ^ 4300), .integer 1, .integer 4, "custom"⟩))
        (Generator.ofSeed 1) = .error error ∧ error.report.1 ≠ .construction := by
  have hlong : Text.Numeral.isLong (10 ^ 4300) = true := by decide +kernel
  obtain ⟨error, herror, hkind⟩ := build_points_of_long_modulus (fun x => decide x.toNat.Prime) 0
    (⟨.integer (10 ^ 4300), .integer 1, .integer 4, "custom"⟩) hlong (Generator.ofSeed 1)
  refine ⟨error, herror, ?_⟩
  rw [hkind]
  decide

end Group

end PrimeOrder
