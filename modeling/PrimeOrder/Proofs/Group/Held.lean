import Mathlib
import PrimeOrder.Proofs.Curve.Moduli
import PrimeOrder.Proofs.Group.Range
import PrimeOrder.Proofs.Group.Twins

namespace PrimeOrder

variable {isPrime : PrimalityTest} {σ : Type} [RandomSource σ]

namespace Group

variable {G : Group}

/-- A group that is built is proper: the curves with a name are over primes, and of given parameters
    the validation tests it. -/
theorem IsAccepted.isProper_of_isSound (hprime : isPrime.IsSound) (hG : G.IsAccepted isPrime) :
    G.IsProper := by
  refine hG.isProper hprime.rejectsBelowTwo ?_
  rintro H rfl
  rcases CurveGroup.IsAccepted.trusted hG with hnamed | hvalid
  · exact CurveParams.prime_modulus_of_named hnamed
  · exact hprime _ (CurveGroup.validate_eq_ok_true_iff.mp hvalid).1

theorem Twins.refl (G : Group) : Twins G G := by
  cases G with
  | residues G => exact .residues rfl rfl
  | points G => exact .points rfl

end Group

namespace ResidueGroup

variable {G : ResidueGroup} {e : Element}

theorem corresponds_self_iff_holds :
    (Group.residues G).Corresponds (.residues G) e e ↔ (Group.residues G).Holds e := by
  rw [Group.holds_residues_iff]
  constructor
  · rintro ⟨n⟩
    exact ⟨n, rfl⟩
  · rintro ⟨n, rfl⟩
    exact .residue n

theorem holds_of_owns (he : (Group.residues G).ownsElement e = true) :
    (Group.residues G).Holds e := by
  cases e with
  | residue x => exact beq_iff_eq.mp he
  | point P => cases he

/-- An operation that takes an element that corresponds to itself to an outcome that does so too makes
    an element of the group. -/
theorem holds_of_alike {x : Except Error Element}
    (hx : Outcome.Alike ((Group.residues G).Corresponds (.residues G)) x x) (he : x = .ok e) :
    (Group.residues G).Holds e := by
  subst he
  cases hx with
  | ok h => exact corresponds_self_iff_holds.mp h

theorem holds_of_answer {q : Query} (he : q.answer isPrime (.residues G) = .ok (.element e)) :
    (Group.residues G).Holds e := by
  have htwins := Group.Twins.refl (.residues G)
  have hself : ∀ {f}, (Group.residues G).ownsElement f = true →
      (Group.residues G).Corresponds (.residues G) f f :=
    fun howns => corresponds_self_iff_holds.mpr (holds_of_owns howns)
  cases Query.makes_of_answer he with
  | generator => rfl
  | identity => rfl
  | check howns => exact holds_of_owns howns
  | generate h => exact (Group.generate_eq_ok_iff.mp h).1.holds
  | reconstruct h => exact (Group.generate_eq_ok_iff.mp h).1.holds
  | inverse howns h => exact holds_of_alike (htwins.inverse (hself howns)) h
  | multiply hf hg h => exact holds_of_alike (htwins.multiply (hself hf) (hself hg)) h
  | power howns h => exact holds_of_alike (htwins.power (hself howns) _) h
  | productOfPowers _ _ howns h =>
    have hbases := List.forall₂_same.mpr fun f hf => hself (howns f hf)
    exact holds_of_alike (htwins.productOfPowers hbases _) h
  | encode h =>
    obtain ⟨x, hx, rfl⟩ := Outcome.map_eq_ok_iff.mp h
    obtain ⟨n, -, rfl⟩ := Outcome.map_eq_ok_iff.mp hx
    rfl

theorem holds_of_outcome {S : CachedGroup} (hS : S.IsSound) (hgroup : S.group = .residues G)
    {c : Call} {source : σ} (he : (S.call isPrime c source).outcome = .ok (.element e)) :
    (Group.residues G).Holds e := by
  rw [← hgroup]
  rcases S.outcome_cases isPrime he with
    ⟨q, rfl, hanswer⟩ | ⟨next, rfl, hdrawn⟩ | ⟨f, k, rfl, howns, hpower⟩
  · rw [hgroup] at hanswer ⊢
    exact holds_of_answer hanswer
  · rw [hgroup] at hdrawn ⊢
    obtain ⟨⟨x, after⟩, hx, hpair⟩ := Outcome.map_eq_ok_iff.mp hdrawn
    obtain ⟨⟨root, rest⟩, -, hsquare⟩ := Outcome.bind_eq_ok_iff.mp hx
    obtain ⟨y, hy, hpure⟩ := Outcome.bind_eq_ok_iff.mp hsquare
    obtain ⟨held, -, hresidue⟩ := Outcome.bind_eq_ok_iff.mp hy
    cases hresidue
    cases hpure
    cases hpair
    rfl
  · have hbase : S.group.Holds f := by
      rw [hgroup] at howns ⊢
      exact holds_of_owns howns
    exact hS.holds_of_cachedPower hbase (Prod.ext hpower rfl)

/-- Whatever is asked of a group of residues, it holds the elements that it hands out. -/
theorem holds_of_run (hproper : (Group.residues G).IsProper) {checked : Bool} {S : CachedGroup}
    {made : List Element} (hrun : Group.Run σ isPrime (.residues G) checked S made) :
    S.IsSound ∧ S.group = .residues G ∧ ∀ e ∈ made, (Group.residues G).Holds e := by
  induction hrun with
  | new => exact ⟨CachedGroup.isSound_fresh hproper, rfl, fun _ he => absurd he List.not_mem_nil⟩
  | @call S made c source _ _ _ ih =>
    obtain ⟨hS, hgroup, hmade⟩ := ih
    have hfrom : c.IsFrom S.group := hgroup ▸ c.isFrom_residues
    refine ⟨hS.call isPrime hfrom source, (hS.group_call isPrime hfrom source).trans hgroup, ?_⟩
    intro e he
    rcases List.mem_append.mp he with hold | hnew
    · exact hmade e hold
    · exact holds_of_outcome hS hgroup (Reply.mem_elements_iff.mp hnew)
  -- no points are handed out that something could be computed from
  | compute _ hP ih =>
    cases hP with
    | neg hP => exact (ih.2.2 _ hP).elim
    | add hP => exact (ih.2.2 _ hP).elim
    | mul hP => exact (ih.2.2 _ hP).elim

end ResidueGroup

/-- A group that was built holds all elements that it hands out, checked or not. -/
theorem Group.holds_of_run (hprime : isPrime.IsSound) {G : Group} (hG : G.IsAccepted isPrime)
    {S : CachedGroup} {made : List Element} (hrun : Run σ isPrime G false S made) :
    S.IsSound ∧ S.group = G ∧ ∀ e ∈ made, G.Holds e := by
  have hproper := hG.isProper_of_isSound hprime
  cases G with
  | residues G => exact ResidueGroup.holds_of_run hproper hrun
  | points G =>
    obtain ⟨hform, -, horder⟩ := CurveGroup.IsAccepted.isUsable hprime.rejectsBelowTwo hG
    obtain ⟨p, hp, hsmooth, -⟩ := id hproper
    have : Fact p.Prime := ⟨hp⟩
    have hmodulus := hsmooth.modulus_eq
    have hinvariant := hsmooth.isInvariant_inRange (σ := σ) (by omega) horder
    obtain ⟨hS, hgroup, hmade⟩ := hinvariant.run hproper hrun
    exact ⟨hS, hgroup, fun e he => (hmade e he).holds⟩

end PrimeOrder
