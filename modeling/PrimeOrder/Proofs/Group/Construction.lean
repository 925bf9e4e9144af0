import Mathlib
import PrimeOrder.Group.Construction
import PrimeOrder.Proofs.Engine.Operations
import PrimeOrder.Proofs.Group.Simultaneous
import PrimeOrder.Proofs.Integer.Primality

namespace PrimeOrder

variable {isPrime : PrimalityTest}

namespace ResidueParams

/-- Whether residues can be reduced by a modulus and exponents by an order. -/
def IsUsable (s : ResidueParams) : Prop :=
  1 < s.modulus ∧ 0 < s.order

/-- Whether parameters are what a search stops at. -/
structure IsFound (isPrime : PrimalityTest) (s : ResidueParams) : Prop where
  modulus_eq : s.modulus = 2 * s.order + 1
  generator_eq : s.generator = 4
  isPrime_order : isPrime s.order = true
  isPrime_modulus : isPrime s.modulus = true

/-- The ways in which parameters come to be those of a group. -/
inductive IsAccepted (isPrime : PrimalityTest) (s : ResidueParams) : Prop where
  | named (h : s ∈ named)
  | validated (h : s.isValid isPrime = true)
  | found (h : s.IsFound isPrime)

theorem isFound_of_search {σ : Type} [RandomSource σ] {bits count : ℕ} {source next : σ}
    {s : ResidueParams} (hs : search isPrime bits source count = .ok (s, next)) :
    s.IsFound isPrime := by
  induction count generalizing source with
  | zero => cases hs
  | succ count ih =>
    rw [search, Outcome.bind_eq_ok_iff] at hs
    obtain ⟨⟨drawn, after⟩, -, hs⟩ := hs
    dsimp only at hs
    split at hs
    · rename_i hboth
      rw [Bool.and_eq_true] at hboth
      cases hs
      exact ⟨rfl, rfl, hboth.1, hboth.2⟩
    · exact ih hs

theorem isFound_of_natural_search {σ : Type} [RandomSource σ] {bits count : ℕ} {source next : σ}
    {s : ResidueParams} (hs : NaturalResidues.search isPrime bits source count = .ok (s, next)) :
    s.IsFound isPrime := by
  induction count generalizing source with
  | zero => cases hs
  | succ count ih =>
    rw [NaturalResidues.search, Outcome.bind_eq_ok_iff] at hs
    obtain ⟨⟨order, after⟩, -, hs⟩ := hs
    dsimp only at hs
    split at hs
    · rename_i hboth
      rw [Bool.and_eq_true] at hboth
      cases hs
      exact ⟨rfl, rfl, hboth.1, hboth.2⟩
    · exact ih hs

/-- Both engines stop their searches at safe primes. -/
theorem isFound_of_engine_search {σ : Type} [RandomSource σ] {engine : Engine} {bits : ℕ}
    {source next : σ} {s : ResidueParams}
    (hs : engine.search isPrime bits source = .ok (s, next)) : s.IsFound isPrime := by
  cases engine with
  | signed => exact isFound_of_search hs
  | natural => exact isFound_of_natural_search hs

variable {engine : Engine}

theorem isAccepted_of_ofSize {σ : Type} [RandomSource σ] {size : Value} {source next : σ}
    {record : ResidueRecord}
    (hrecord : ofSize isPrime engine size source = .ok (record, next)) :
    record.params.IsAccepted isPrime := by
  rw [ofSize, Outcome.bind_eq_ok_iff] at hrecord
  obtain ⟨v, -, hrecord⟩ := hrecord
  dsimp only at hrecord
  split at hrecord
  · rename_i params hbits
    cases hrecord
    obtain ⟨bits, -, hbits⟩ := Option.bind_eq_some_iff.mp hbits
    apply IsAccepted.named
    unfold ofBits? at hbits
    split_ifs at hbits <;> cases hbits <;> simp [named]
  · split at hrecord
    · obtain ⟨⟨params, after⟩, hsearch, hpure⟩ := Outcome.bind_eq_ok_iff.mp hrecord
      cases hpure
      exact .found (isFound_of_engine_search hsearch)
    · cases hrecord
  · cases hrecord

theorem isAccepted_of_ofRequest {σ : Type} [RandomSource σ] {r : GroupRequest} {source next : σ}
    {record : ResidueRecord}
    (hrecord : ofRequest isPrime engine r source = .ok (record, next)) :
    record.params.IsAccepted isPrime := by
  unfold ofRequest at hrecord
  split at hrecord
  · cases hrecord
  · split at hrecord
    · rename_i params hname
      cases hrecord
      exact .named (List.mem_of_find?_eq_some hname)
    · cases hrecord
  · split at hrecord
    · rename_i hvalid
      cases hrecord
      rw [engine.isValid_operations] at hvalid
      exact .validated hvalid
    · cases hrecord
  · cases hrecord
  · exact isAccepted_of_ofSize hrecord
  · cases hrecord
    exact .named List.mem_cons_self

namespace IsAccepted

variable {s : ResidueParams}

theorem modulus_eq (hs : s.IsAccepted isPrime) : s.modulus = 2 * s.order + 1 := by
  cases hs with
  | named h =>
    have hnamed : ∀ s ∈ ResidueParams.named, s.modulus = 2 * s.order + 1 := by decide +kernel
    exact hnamed s h
  | validated h =>
    simp only [isValid, Bool.and_eq_true, beq_iff_eq] at h
    exact h.1.1.1.1.1.1
  | found h => exact h.modulus_eq

theorem two_le_order (hprime : isPrime.RejectsBelowTwo) (hs : s.IsAccepted isPrime) :
    2 ≤ s.order := by
  cases hs with
  | named h =>
    have hnamed : ∀ s ∈ ResidueParams.named, 2 ≤ s.order := by decide +kernel
    exact hnamed s h
  | validated h =>
    simp only [isValid, Bool.and_eq_true] at h
    exact hprime _ h.1.1.1.1.2
  | found h => exact hprime _ h.isPrime_order

theorem generator_bounds (hprime : isPrime.RejectsBelowTwo) (hs : s.IsAccepted isPrime) :
    0 < s.generator ∧ s.generator < s.modulus := by
  have hmodulus := hs.modulus_eq
  have horder := hs.two_le_order hprime
  cases hs with
  | named h =>
    have hnamed : ∀ s ∈ ResidueParams.named, s.generator = 4 := by decide +kernel
    have := hnamed s h
    omega
  | validated h =>
    simp only [isValid, Bool.and_eq_true, decide_eq_true_eq] at h
    omega
  | found h =>
    have := h.generator_eq
    omega

theorem isUsable (hprime : isPrime.RejectsBelowTwo) (hs : s.IsAccepted isPrime) : s.IsUsable := by
  have hmodulus := hs.modulus_eq
  have horder := hs.two_le_order hprime
  exact ⟨by omega, by omega⟩

end IsAccepted

theorem isUsable_of_isValid (hprime : isPrime.IsSound) {s : ResidueParams}
    (hs : s.isValid isPrime = true) : s.IsUsable :=
  (IsAccepted.validated hs).isUsable hprime.rejectsBelowTwo

end ResidueParams

namespace CurveGroup

/-- Whether the curve and the order are ones to compute with, where the modulus is prime. -/
def IsUsable (G : CurveGroup) : Prop :=
  G.params.modulus % 4 = 3 ∧ G.curve.isSingular = false ∧ 0 < G.params.order

/-- The ways in which a curve comes to be that of a group: it has the form that every group of points
    needs, and a name or sound parameters. -/
structure IsAccepted (isPrime : PrimalityTest) (G : CurveGroup) : Prop where
  hasForm : CurveGroup.hasForm G.params = true
  trusted : G.params ∈ CurveParams.named ∨ G.validate isPrime = .ok true

theorem isAccepted_of_ofForm {id : ℕ} {s : CurveParams} (hs : s ∈ CurveParams.named) {G : CurveGroup}
    (hG : ofForm id s.record = .ok G) : G.IsAccepted isPrime := by
  unfold ofForm at hG
  split_ifs at hG with hform
  cases hG
  exact ⟨hform, .inl hs⟩

theorem isAccepted_of_ofRequest {id : ℕ} {r : GroupRequest} {G : CurveGroup}
    (hG : ofRequest isPrime id r = .ok G) : G.IsAccepted isPrime := by
  have hrequest := hG
  unfold ofRequest at hG
  split at hG
  · cases hG
  · split at hG
    · rename_i params hname
      exact isAccepted_of_ofForm (List.mem_of_find?_eq_some hname) hG
    · cases hG
  · rename_i record hparams hsize
    obtain ⟨params, size⟩ := r
    cases hparams
    cases hsize
    obtain ⟨-, hform, hvalid⟩ := ofRequest_parameters_eq_ok_iff.mp hrequest
    exact ⟨hform, .inr hvalid⟩
  · cases hG
  · unfold ofSize at hG
    obtain ⟨v, -, hG⟩ := Outcome.bind_eq_ok_iff.mp hG
    split at hG
    · rename_i params hbits
      obtain ⟨bits, -, hbits⟩ := Option.bind_eq_some_iff.mp hbits
      refine isAccepted_of_ofForm ?_ hG
      unfold CurveParams.ofBits? at hbits
      split_ifs at hbits <;> cases hbits <;> simp [CurveParams.named]
    · cases hG
  · exact isAccepted_of_ofForm List.mem_cons_self hG

namespace IsAccepted

variable {G : CurveGroup}

theorem isUsable (hprime : isPrime.RejectsBelowTwo) (hG : G.IsAccepted isPrime) : G.IsUsable := by
  have hform := hG.hasForm
  rw [CurveGroup.hasForm, Bool.and_eq_true, beq_iff_eq, Int.fmod_eq_emod_of_nonneg _ (by norm_num)]
    at hform
  refine ⟨hform.1, ?_⟩
  rcases hG.trusted with hnamed | hvalid
  · have hordered : ∀ s ∈ CurveParams.named, 0 < s.order := by decide +kernel
    refine ⟨?_, hordered _ hnamed⟩
    simp only [CurveParams.named, List.mem_cons, List.not_mem_nil, or_false] at hnamed
    simp only [Curve.isSingular, curve, field]
    rcases hnamed with h | h | h <;> rw [h] <;> rfl
  · obtain ⟨-, horder, hsingular, -⟩ := validate_eq_ok_true_iff.mp hvalid
    have := hprime _ horder
    exact ⟨hsingular, by omega⟩

/-- Over a prime modulus a curve that is accepted is smooth. -/
theorem isSmooth (hprime : isPrime.RejectsBelowTwo) (hG : G.IsAccepted isPrime) {p : ℕ}
    (hmodulus : G.params.modulus = p) : G.IsSmooth p := by
  obtain ⟨hform, hsingular, -⟩ := hG.isUsable hprime
  exact ⟨hmodulus, by omega, hsingular⟩

end IsAccepted

end CurveGroup

namespace Group

/-- The ways in which a group comes to be built. -/
def IsAccepted (isPrime : PrimalityTest) : Group → Prop
  | residues G => G.params.IsAccepted isPrime
  | points G => G.IsAccepted isPrime

/-- A group of residues is as valid as its parameters. -/
theorem validate_residues (isPrime : PrimalityTest) (G : ResidueGroup) :
    (residues G).validate isPrime = .ok (G.params.isValid isPrime) :=
  congrArg Except.ok (G.isValid_eq isPrime)

variable {σ : Type} [RandomSource σ] {G : Group}

theorem isAccepted_of_build {backend : Backend} {id : ℕ} {r : GroupRequest} {source next : σ}
    (hG : Group.build isPrime backend id r source = .ok (G, next)) : G.IsAccepted isPrime := by
  cases backend with
  | residues engine =>
    obtain ⟨⟨record, after⟩, hrecord, hpure⟩ := Outcome.bind_eq_ok_iff.mp hG
    cases hpure
    exact ResidueParams.isAccepted_of_ofRequest hrecord
  | points =>
    obtain ⟨H, hrequest, hpure⟩ := Outcome.bind_eq_ok_iff.mp hG
    cases hpure
    exact CurveGroup.isAccepted_of_ofRequest hrequest

/-- Every group that is built is proper. The curves with a name are trusted, so that their moduli are
    prime is taken for granted here as it is by the program. -/
theorem IsAccepted.isProper (hprime : isPrime.RejectsBelowTwo) (hG : G.IsAccepted isPrime)
    (hmodulus : ∀ H, G = .points H → H.params.modulus.toNat.Prime) : G.IsProper := by
  cases G with
  | residues G => exact ResidueParams.IsAccepted.isUsable hprime hG
  | points G =>
    have hp := hmodulus G rfl
    have hmodulusEq : G.params.modulus = (G.params.modulus.toNat : ℤ) := by
      have := hp.pos
      omega
    exact ⟨G.params.modulus.toNat, hp, CurveGroup.IsAccepted.isSmooth hprime hG hmodulusEq,
      (CurveGroup.IsAccepted.isUsable hprime hG).2.2⟩

/-- The request for a group with given parameters. -/
def requestFor (record : ParameterRecord) : GroupRequest :=
  ⟨none, some (.parameters record)⟩

theorem build_residues_requestFor (isPrime : PrimalityTest) (engine : Engine) (id : ℕ)
    (record : ResidueRecord) (s : σ) :
    build isPrime (.residues engine) id (requestFor (.residues record)) s =
      if record.params.isValid isPrime then .ok (residues ⟨id, engine, record⟩, s)
      else .error (.invalidResidueSet (Text.Quoted.ofString record.name)) := by
  have hrequest : ResidueParams.ofRequest isPrime engine (requestFor (.residues record)) s =
      if engine.operations.isValid isPrime record.params then .ok (record, s)
      else .error (.invalidResidueSet (Text.Quoted.ofString record.name)) := rfl
  rw [build, hrequest, engine.isValid_operations]
  split_ifs <;> rfl

theorem build_modulo23 (s : σ) :
    Group.build (fun x => decide x.toNat.Prime) .points 0
        ⟨none, some (.parameters (.curve CurveGroup.modulo23.record))⟩ s =
      .ok (points CurveGroup.modulo23, s) := by
  rw [Group.build, CurveGroup.ofRequest_modulo23]
  rfl

end Group

end PrimeOrder
