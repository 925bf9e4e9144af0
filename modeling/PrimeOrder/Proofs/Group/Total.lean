import Mathlib
import PrimeOrder.Proofs.Group.Range

namespace PrimeOrder

/-- The calls for known elements that leave nothing to refuse. -/
inductive Call.ActsOn (known : Element → Prop) : Call → Prop where
  | isMember {e : Element} (he : known e) : ActsOn known (.query (.isMember (.element e)))
  | inverse {e : Element} (he : known e) : ActsOn known (.query (.inverse (.element e)))
  | multiply {e f : Element} (he : known e) (hf : known f) :
      ActsOn known (.query (.multiply (.element e) (.element f)))
  | power {e : Element} (he : known e) (k : ℤ) : ActsOn known (.query (.power (.element e) k))
  | productOfPowers {bases : List Element} {exponents : List ℤ}
      (hlength : bases.length = exponents.length) (hne : bases ≠ [])
      (hbases : ∀ e ∈ bases, known e) :
      ActsOn known (.query (.productOfPowers (bases.map .element) exponents))
  | cachedPower {e : Element} (he : known e) (k : ℤ) : ActsOn known (.cachedPower (.element e) k)
  | image {e : Element} (he : known e) : ActsOn known (.query (.image (.element e)))

theorem Call.ActsOn.mono {known known' : Element → Prop} {c : Call} (hc : c.ActsOn known)
    (h : ∀ e, known e → known' e) : c.ActsOn known' := by
  cases hc with
  | isMember he => exact .isMember (h _ he)
  | inverse he => exact .inverse (h _ he)
  | multiply he hf => exact .multiply (h _ he) (h _ hf)
  | power he k => exact .power (h _ he) k
  | productOfPowers hlength hne hbases =>
    exact .productOfPowers hlength hne fun e he => h e (hbases e he)
  | cachedPower he k => exact .cachedPower (h _ he) k
  | image he => exact .image (h _ he)

namespace Group

variable {G : Group} {e : Element}

theorem InRange.exists_image_eq_ok (he : G.InRange e) :
    ∃ octets, G.image (.element e) = .ok octets := by
  rw [image, he.holds.check_eq, Outcome.ok_bind]
  cases G with
  | residues G =>
    obtain ⟨n, rfl, hpos, hlt⟩ := inRange_residue_iff.mp he
    obtain ⟨octets, hoctets⟩ := Octets.exists_ofInteger_eq_ok hpos.le hlt.le
    exact ⟨octets, (G.image_eq (by omega) ⟨G, n⟩).trans hoctets⟩
  | points G =>
    rcases inRange_point_iff.mp he with rfl | ⟨a, b, rfl, ha, -⟩
    · exact ⟨[0], rfl⟩
    · rw [CurveGroup.isCoordinate_iff] at ha
      have hle : a ≤ G.curve.field.modulus := ha.2.le
      obtain ⟨octets, hoctets⟩ := Octets.exists_ofNatOfLength_eq_ok ha.1 hle
      refine ⟨(if b % 2 = 0 then 2 else 3) :: octets, ?_⟩
      simp only [Curve.point, Point.serialize, if_neg ha.1.not_gt, PrimeField.byteLength, hoctets]

/-- Whatever decoding refuses in an element that the group made, it refuses as an argument. -/
theorem report_of_decode_eq_error (he : G.Holds e) {error : Error}
    (herror : G.decode (.element e) = .error error) : error.report.1 = .invalidArgument := by
  have hcause : error = .notEncoded ∨ error = .infinityEncodesNothing := by
    rw [decode, he.check_eq, Outcome.ok_bind] at herror
    cases G with
    | residues G =>
      obtain ⟨n, rfl⟩ := holds_residues_iff.mp he
      simp only [ResidueGroup.decode_eq, SignedResidues.decode] at herror
      split at herror
      · exact .inl (Except.error.inj herror).symm
      · split_ifs at herror
        exact .inl (Except.error.inj herror).symm
    | points G =>
      obtain ⟨c, rfl, -⟩ := holds_points_iff.mp he
      simp only [CurveGroup.decode] at herror
      split at herror
      · exact .inr (Except.error.inj herror).symm
      · split at herror
        · exact .inl (Except.error.inj herror).symm
        · split_ifs at herror
          exact .inl (Except.error.inj herror).symm
  rcases hcause with rfl | rfl <;> rfl

theorem IsClosed.exists_outcome_eq_ok {good : Element → Prop} (hG : G.IsClosed good)
    (hrange : ∀ e, good e → G.InRange e) (isPrime : PrimalityTest) {S : CachedGroup}
    (hS : S.IsSound) (hgroup : S.group = G) {σ : Type} [RandomSource σ] {c : Call}
    (hc : c.ActsOn good) (source : σ) : ∃ v, (S.call isPrime c source).outcome = .ok v := by
  have hmade : ∀ {x : Except Error Element}, (∃ f, x = .ok f ∧ good f) →
      ∃ v, x.map Value.element = .ok v := by
    rintro _ ⟨f, rfl, -⟩
    exact ⟨_, rfl⟩
  subst hgroup
  cases hc with
  | isMember he => exact ⟨_, rfl⟩
  | inverse he => exact hmade (hG.inverse _ he)
  | multiply he hf => exact hmade (hG.multiply he hf)
  | power he k => exact hmade (hG.power _ k he)
  | productOfPowers hlength hne hbases => exact hmade (hG.productOfPowers hlength hne hbases)
  | cachedPower he k =>
    obtain ⟨g, after, hpower, -⟩ := hG.cachedPower hS rfl he k
    exact ⟨.element g, by rw [CachedGroup.call, hpower]; rfl⟩
  | image he =>
    obtain ⟨octets, hoctets⟩ := (hrange _ he).exists_image_eq_ok
    exact ⟨.octets octets, by rw [CachedGroup.call, Query.answer, hoctets]; rfl⟩

/-- Over a prime modulus the elements that a group hands out are in range, whether they were checked
    or not, and arithmetic on them never fails. -/
theorem arithmetic_total_of_run {isPrime : PrimalityTest} (hprime : isPrime.RejectsBelowTwo)
    {σ τ : Type} [RandomSource σ] [RandomSource τ] (hσ : RandomSource.KeepsBounds σ)
    {backend : Backend} {id : ℕ} {r : GroupRequest} {source next : τ}
    (hbuild : Group.build isPrime backend id r source = .ok (G, next))
    (hp : G.modulus.toNat.Prime) {S : CachedGroup} {made : List Element}
    (hrun : Run σ isPrime G false S made) :
    (∀ e ∈ made, G.InRange e) ∧
      (∀ (c : Call) (s : σ), c.ActsOn (· ∈ made) → ∃ v, (S.call isPrime c s).outcome = .ok v) ∧
      (∀ P Q, .point P ∈ made → .point Q ∈ made →
        (∃ R, P.add Q = .ok R) ∧ ∀ k, ∃ R, P.mul k = .ok R) ∧
      ∀ e ∈ made, ∀ error, G.decode (.element e) = .error error →
        error.report.1 = .invalidArgument := by
  have haccepted := isAccepted_of_build hbuild
  have hclosed := (isInvariant_inRange hprime hσ haccepted hp).toIsClosed
  obtain ⟨hS, hgroup, hmade⟩ := inRange_of_run hprime hσ haccepted hp hrun
  refine ⟨hmade, ?_, ?_, ?_⟩
  · intro c s hc
    exact hclosed.exists_outcome_eq_ok (fun _ he => he) isPrime hS hgroup (hc.mono hmade) s
  · intro P Q hP hQ
    obtain ⟨R, hR, -⟩ := hclosed.add (hmade _ hP) (hmade _ hQ)
    refine ⟨⟨R, hR⟩, fun k => ?_⟩
    obtain ⟨T, hT, -⟩ := hclosed.mul (hmade _ hP) k
    exact ⟨T, hT⟩
  · intro e he error herror
    exact report_of_decode_eq_error (hmade e he).holds herror

/-- A point off the curve that was made without a check is raised to powers all the same. -/
theorem arithmetic_total_of_run_modulo23 :
    (points CurveGroup.modulo23).isMember (.element CurveGroup.offCurve) = false ∧
      ∃ v, ((⟨points CurveGroup.modulo23, []⟩ : CachedGroup).call (fun x => decide x.toNat.Prime)
        (.cachedPower (.element CurveGroup.offCurve) (-3)) (Generator.ofSeed 1)).outcome = .ok v := by
  have htotal := arithmetic_total_of_run
    PrimalityTest.decides_trialDivision.isSound.rejectsBelowTwo Generator.staysInRange.keepsBounds
    (build_modulo23 (Generator.ofSeed 1)) (by norm_num : Nat.Prime 23) (CurveGroup.run_offCurve _)
  exact ⟨CurveGroup.isMember_offCurve, htotal.2.1 _ _ (.cachedPower List.mem_cons_self _)⟩

end Group

end PrimeOrder
