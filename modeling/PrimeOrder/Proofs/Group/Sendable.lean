import Mathlib
import PrimeOrder.Proofs.Group.Members
import PrimeOrder.Proofs.Group.Search
import PrimeOrder.Proofs.Integer.Lucas
import PrimeOrder.Value.Equality

namespace PrimeOrder

namespace Group

variable {G H : Group} {e : Element} {checked : Bool} {data : Value}

theorem fields?_residues_eq_some_iff {K : ResidueGroup} {values : List Value} :
    (residues K).fields? data = some values ↔ ∃ v, data = .residueData v ∧ values = [v] := by
  cases data <;> simp [fields?, eq_comm]

theorem askedInteger_fieldElement (engine : Engine) (x : FieldElement) :
    askedInteger engine (.fieldElement x) = .ok x.value := by
  cases engine <;> rfl

theorem fields?_points_eq_some_iff {K : CurveGroup} {values : List Value} :
    (points K).fields? data = some values ↔ ∃ x y, data = .pointData x y ∧ values = [x, y] := by
  cases data <;> simp [fields?, eq_comm]

/-- Whether plain data are of the kind that a group takes, with numbers in its range and, if that is
    checked, those of a member. A text or a byte string counts for the number that is read from it. -/
def Takes (checked : Bool) : Group → Value → Prop
  | residues G, .residueData v => ∃ n, askedInteger G.engine v = .ok n ∧
      (0 < n ∧ n < G.params.modulus) ∧
      (checked = true → G.inSubgroup n = true)
  | points _, .pointData .null .null => True
  | points G, .pointData (.number x) (.number y) =>
      (G.isCoordinate x.toInt = true ∧ G.isCoordinate y.toInt = true) ∧
      (checked = true →
        G.isOnCurve (G.curve.point ⟨G.field, x.toInt⟩ ⟨G.field, y.toInt⟩) = true)
  | _, _ => False

/-- The element of the same numbers in another group. -/
def adopt : Group → Element → Element
  | residues G, .residue x => .residue ⟨G, x.value⟩
  | points G, .point P => .point ⟨G.curve, P.coordinates⟩
  | _, e => e

theorem numbers_adopt (H : Group) (e : Element) : (H.adopt e).numbers = e.numbers := by
  cases H <;> cases e <;> rfl

theorem sendable_adopt (H : Group) (e : Element) : (H.adopt e).sendable = e.sendable := by
  cases H <;> cases e <;> rfl

theorem Holds.adopt_eq (he : G.Holds e) : G.adopt e = e := by
  cases G with
  | residues G =>
    obtain ⟨n, rfl⟩ := holds_residues_iff.mp he
    rfl
  | points G =>
    obtain ⟨c, rfl, -⟩ := holds_points_iff.mp he
    rfl

/-- Groups of the same parameters are of one kind. -/
theorem parameters_eq_residues_iff {K : ResidueGroup} :
    H.parameters = (residues K).parameters ↔ ∃ L, H = residues L ∧ L.params = K.params := by
  cases H <;> simp [parameters]

theorem parameters_eq_points_iff {K : CurveGroup} :
    H.parameters = (points K).parameters ↔ ∃ L, H = points L ∧ L.params = K.params := by
  cases H <;> simp [parameters]

section Adopt

variable (hH : H.parameters = G.parameters)
include hH

theorem InRange.adopt (he : G.InRange e) : H.InRange (H.adopt e) := by
  cases G with
  | residues G =>
    obtain ⟨H, rfl, hparams⟩ := parameters_eq_residues_iff.mp hH
    obtain ⟨n, rfl, hrange⟩ := inRange_residue_iff.mp he
    rw [← hparams] at hrange
    exact inRange_residue_iff.mpr ⟨n, rfl, hrange⟩
  | points G =>
    obtain ⟨H, rfl, hparams⟩ := parameters_eq_points_iff.mp hH
    have hfield : H.field = G.field := by rw [CurveGroup.field, CurveGroup.field, hparams]
    obtain ⟨c, rfl, hresidues⟩ := holds_points_iff.mp he.holds
    rw [← hfield] at hresidues
    exact inRange_points_iff_holds.mpr (holds_points_iff.mpr ⟨c, rfl, hresidues⟩)

theorem isMember_adopt (he : G.InRange e) :
    H.isMember (.element (H.adopt e)) = G.isMember (.element e) := by
  cases G with
  | residues G =>
    obtain ⟨H, rfl, hparams⟩ := parameters_eq_residues_iff.mp hH
    obtain ⟨n, rfl, hrange⟩ := inRange_residue_iff.mp he
    rw [Group.adopt, isMember_residue, isMember_residue, ResidueGroup.inSubgroup_eq,
      ResidueGroup.inSubgroup_eq, hparams]
  | points G =>
    obtain ⟨H, rfl, hparams⟩ := parameters_eq_points_iff.mp hH
    have hfield : H.field = G.field := by rw [CurveGroup.field, CurveGroup.field, hparams]
    have hcontains : H.curve.contains = G.curve.contains := by
      funext x y
      simp only [Curve.contains, Curve.rhs, CurveGroup.curve, hfield, hparams]
    obtain ⟨c, rfl, -⟩ := holds_points_iff.mp he.holds
    rw [Group.adopt, isMember_point, isMember_point]
    cases c with
    | none => rfl
    | some xy => simp only [CurveGroup.isOnCurve, hcontains]

theorem InRange.exists_fields_sendable (he : G.InRange e) :
    ∃ values, H.fields? e.sendable = some values ∧ H.askedNumbers? values = some e.numbers := by
  cases G with
  | residues G =>
    obtain ⟨H, rfl, -⟩ := parameters_eq_residues_iff.mp hH
    obtain ⟨n, rfl, -⟩ := inRange_residue_iff.mp he
    refine ⟨_, rfl, ?_⟩
    rw [askedNumbers?, askedInteger_number]
    rfl
  | points G =>
    obtain ⟨H, rfl, -⟩ := parameters_eq_points_iff.mp hH
    rcases inRange_point_iff.mp he with rfl | ⟨a, b, rfl, -⟩
    · exact ⟨_, rfl, rfl⟩
    · exact ⟨_, rfl, rfl⟩

/-- A group owns an element of another group of the same parameters only if it is that group. -/
theorem InRange.ownsElement_eq_false (he : G.InRange e) (hne : H ≠ G) : H.ownsElement e = false := by
  cases G with
  | residues G =>
    obtain ⟨H, rfl, -⟩ := parameters_eq_residues_iff.mp hH
    obtain ⟨n, rfl, -⟩ := inRange_residue_iff.mp he
    exact beq_eq_false_iff_ne.mpr fun h => hne (congrArg residues h.symm)
  | points G =>
    obtain ⟨H, rfl, -⟩ := parameters_eq_points_iff.mp hH
    obtain ⟨c, rfl, -⟩ := holds_points_iff.mp he.holds
    refine beq_eq_false_iff_ne.mpr fun h => hne (congrArg points ?_)
    exact (Option.some.inj (congrArg Curve.group h)).symm

end Adopt

/-- Whether a group that refuses an element for not being a member would have to write too long a number:
    that of a residue as its engine shows it, or a coordinate as it was received. -/
def writesLong : Group → Element → Bool
  | residues G, e => e.numbers.any fun n => (G.engine.number n).isLong
  | points _, e => e.numbers.any Text.Numeral.isLong

/-- What is received with a check and is no member is refused as an argument, unless that fails itself
    for too long a number. -/
theorem InRange.exists_refusal (he : G.InRange e) (hmember : G.isMember (.element e) = false) :
    ∃ error, G.reconstruct true e.sendable = .error error ∧
      error.report.1 = if G.writesLong e then .value else .invalidArgument := by
  cases G with
  | residues G =>
    obtain ⟨n, rfl, hpos, hlt⟩ := inRange_residue_iff.mp he
    rw [isMember_residue] at hmember
    refine ⟨.outsideSubgroup (G.engine.number n), ?_, Error.report_kind_eq _⟩
    rw [Element.sendable, reconstruct, generate, askedInteger_number, Outcome.ok_bind,
      Number.toInt_integer, ResidueGroup.generate_of_nonneg G hpos.le, if_neg (by omega), hmember]
    rfl
  | points G =>
    rcases inRange_point_iff.mp he with rfl | ⟨a, b, rfl, ha, hb⟩
    · exact absurd hmember (by simp [CurveGroup.identity, Curve.infinity, isMember_point,
        CurveGroup.isOnCurve])
    · rw [Curve.point, isMember_point, ← Curve.point, ← CurveGroup.point_reduce ha hb] at hmember
      refine ⟨.notOnCurve a b G.params.name, ?_, Error.report_kind_eq _⟩
      rw [Element.sendable, Point.canonical, Curve.point, Option.map_some, reconstruct, generate,
        CurveGroup.generate_numbers]
      simp [ha, hb, hmember, Except.map]

/-- What it takes for an element to pass as plain data into a group of the same parameters. -/
structure Restores (H G : Group) (e f : Element) : Prop where
  reconstruct_eq : H.reconstruct false e.sendable = .ok f
  owns : H.ownsElement f = true
  numbers_eq : f.numbers = e.numbers
  sendable_eq : f.sendable = e.sendable
  equals_eq : f.sort = e.sort → f.equals e = .ok true
  eq_of_eq : H = G → f = e
  foreign : H ≠ G → H.ownsElement e = false
  checked_member : G.isMember (.element e) = true → H.reconstruct true e.sendable = .ok f
  checked_refused : G.isMember (.element e) = false → ∃ error,
    H.reconstruct true e.sendable = .error error ∧
      error.report.1 = if H.writesLong f then .value else .invalidArgument

theorem InRange.restores (he : G.InRange e) (hH : H.parameters = G.parameters) :
    H.Restores G e (H.adopt e) := by
  have hadopted := he.adopt hH
  have hmember := isMember_adopt hH he
  have hnumbers := numbers_adopt H e
  obtain ⟨values, hfields, hasked⟩ := he.exists_fields_sendable hH
  rw [← hnumbers] at hasked
  have hgenerate : H.generate false values = .ok (H.adopt e) :=
    generate_eq_ok_iff.mpr ⟨hadopted, hasked, fun h => absurd h Bool.false_ne_true⟩
  have hparameters : (H.adopt e).parameters? = e.parameters? := by
    rw [hadopted.holds.parameters?_eq, he.holds.parameters?_eq, hH]
  constructor
  case reconstruct_eq => rw [reconstruct_of_fields hfields, hgenerate]
  case owns => exact hadopted.holds.owns
  case numbers_eq => exact hnumbers
  case sendable_eq => exact sendable_adopt H e
  case equals_eq =>
    intro hsort
    have hsame : (H.adopt e).same e = true :=
      Element.same_iff.mpr ⟨Prod.ext hsort hnumbers, hparameters⟩
    rw [Element.equals, Element.comparable, hparameters, beq_self_eq_true, Bool.or_true, if_pos rfl,
      hsame]
  case eq_of_eq =>
    rintro rfl
    exact he.holds.adopt_eq
  case foreign => exact he.ownsElement_eq_false hH
  case checked_member =>
    intro h
    rw [← hmember] at h
    rw [reconstruct_of_fields hfields]
    exact generate_eq_ok_iff.mpr ⟨hadopted, hasked, fun _ => h⟩
  case checked_refused =>
    intro h
    rw [← hmember] at h
    rw [← sendable_adopt H e]
    exact hadopted.exists_refusal h

section Data

/-- A group of residues reads one integer in range from the data that it accepts. -/
theorem reconstruct_residues_eq_ok_iff {K : ResidueGroup} :
    (residues K).reconstruct checked data = .ok e ↔
      ∃ v n, data = .residueData v ∧ askedInteger K.engine v = .ok n ∧ e = .residue ⟨K, n⟩ ∧
        (0 < n ∧ n < K.params.modulus) ∧ (checked = true → K.inSubgroup n = true) := by
  constructor
  · intro h
    obtain ⟨values, hfields, hgenerate⟩ := exists_fields_of_reconstruct h
    obtain ⟨v, rfl, rfl⟩ := fields?_residues_eq_some_iff.mp hfields
    obtain ⟨w, n, hvalues, hn, hrange, rfl, hmember⟩ := generate_residues_eq_ok_iff.mp hgenerate
    obtain rfl : v = w := List.head_eq_of_cons_eq hvalues
    exact ⟨v, n, rfl, hn, rfl, hrange, hmember⟩
  · rintro ⟨v, n, rfl, hn, rfl, hrange, hmember⟩
    exact generate_residues_eq_ok_iff.mpr ⟨v, n, rfl, hn, hrange, rfl, hmember⟩

/-- A group of points reads two coordinates in range from the data that it accepts, or none. -/
theorem reconstruct_points_eq_ok_iff {K : CurveGroup} :
    (points K).reconstruct checked data = .ok e ↔
      (data = .pointData .null .null ∧ e = .point K.identity) ∨
        ∃ a b, data = .pointData (.number a) (.number b) ∧
          e = .point (K.curve.point ⟨K.field, a.toInt⟩ ⟨K.field, b.toInt⟩) ∧
          (K.isCoordinate a.toInt = true ∧ K.isCoordinate b.toInt = true) ∧
          (checked = true →
            K.isOnCurve (K.curve.point ⟨K.field, a.toInt⟩ ⟨K.field, b.toInt⟩) = true) := by
  constructor
  · intro h
    obtain ⟨values, hfields, hgenerate⟩ := exists_fields_of_reconstruct h
    obtain ⟨v, w, rfl, rfl⟩ := fields?_points_eq_some_iff.mp hfields
    rcases generate_points_eq_ok_iff.mp hgenerate with
      ⟨hvalues, rfl⟩ | ⟨a, b, hvalues, hrange, rfl, hcurve⟩
    · cases hvalues
      exact .inl ⟨rfl, rfl⟩
    · cases hvalues
      exact .inr ⟨a, b, rfl, rfl, hrange, hcurve⟩
  · rintro (⟨rfl, rfl⟩ | ⟨a, b, rfl, rfl, hrange, hcurve⟩)
    · rfl
    · exact generate_points_eq_ok_iff.mpr (.inr ⟨a, b, rfl, hrange, rfl, hcurve⟩)

/-- What a group accepts are exactly the data that it takes. -/
theorem exists_reconstruct_iff_takes :
    (∃ e, G.reconstruct checked data = .ok e) ↔ G.Takes checked data := by
  cases G with
  | residues G =>
    simp only [reconstruct_residues_eq_ok_iff]
    constructor
    · rintro ⟨e, v, n, rfl, hn, -, hrange, hmember⟩
      exact ⟨n, hn, hrange, hmember⟩
    · intro h
      cases data with
      | residueData v =>
        obtain ⟨n, hn, hrange, hmember⟩ := h
        exact ⟨_, v, n, rfl, hn, rfl, hrange, hmember⟩
      | _ => exact h.elim
  | points G =>
    simp only [reconstruct_points_eq_ok_iff]
    constructor
    · rintro ⟨e, ⟨rfl, -⟩ | ⟨a, b, rfl, -, hrange, hcurve⟩⟩
      · trivial
      · exact ⟨hrange, hcurve⟩
    · intro h
      unfold Takes at h
      split at h
      · rename_i heq
        cases heq
      · exact ⟨_, .inl ⟨rfl, rfl⟩⟩
      · rename_i heq
        cases heq
        exact ⟨_, .inr ⟨_, _, rfl, rfl, h⟩⟩
      · exact h.elim

/-- Whether data hold numbers: no text that a number is read from, and no field element but a reduced
    one, which equals its number. -/
def HoldsNumbers : Value → Prop
  | .residueData (.number _) => True
  | .residueData (.fieldElement x) => x.field.reduce x.value = x
  | .residueData _ => False
  | _ => True

/-- The data of the element that a group makes are those that it was made of, if these hold numbers.
    Numbers are equal in whatever form. -/
theorem equals_sendable_iff (h : G.reconstruct checked data = .ok e) :
    e.sendable.equals data = .ok true ↔ HoldsNumbers data := by
  cases G with
  | residues G =>
    obtain ⟨v, n, rfl, hn, rfl, -⟩ := reconstruct_residues_eq_ok_iff.mp h
    rw [Element.sendable, Value.equals]
    cases v with
    | number x =>
      rw [askedInteger_number, Except.ok.injEq] at hn
      simp [Value.equals, Value.sameScalar, HoldsNumbers, hn]
    | fieldElement x =>
      rw [askedInteger_fieldElement, Except.ok.injEq] at hn
      have hreduced : x.field.reduce x.value = x ↔ x.value = x.value.fmod x.field.modulus :=
        ⟨fun h => (congrArg FieldElement.value h).symm, fun h => by rw [PrimeField.reduce, ← h]⟩
      rw [HoldsNumbers, hreduced]
      simp [Value.equals, Value.sameScalar, FieldElement.equalsInt, ← hn]
    | _ => simp [Value.equals, Value.sameScalar, HoldsNumbers]
  | points G =>
    rcases reconstruct_points_eq_ok_iff.mp h with ⟨rfl, rfl⟩ | ⟨a, b, rfl, rfl, -⟩
    · simp [Element.sendable, Point.canonical, CurveGroup.identity, Curve.infinity, Value.equals,
        Value.sameScalar, HoldsNumbers]
    · simp [Element.sendable, Point.canonical, Curve.point, Value.equals, Value.sameScalar,
        HoldsNumbers]

end Data

/-- Every element that a group over a prime modulus hands out passes as plain data into any group of
    the same parameters. Conversely any group accepts just the data that it takes, makes the element of
    the numbers that these stand for, and gives the same data back exactly if they hold numbers. -/
theorem sendable_lossless_of_run {isPrime : PrimalityTest} (hprime : isPrime.RejectsBelowTwo)
    {σ τ : Type} [RandomSource σ] [RandomSource τ] (hσ : RandomSource.KeepsBounds σ)
    {backend : Backend} {id : ℕ} {r : GroupRequest} {source next : τ}
    (hbuild : Group.build isPrime backend id r source = .ok (G, next))
    (hp : G.modulus.toNat.Prime) {S : CachedGroup} {made : List Element}
    (hrun : Run σ isPrime G false S made) :
    (∀ e ∈ made, ∀ H : Group, H.parameters = G.parameters → ∃ f, H.Restores G e f) ∧
      ∀ (H : Group) checked data,
        ((∃ e, H.reconstruct checked data = .ok e) ↔ H.Takes checked data) ∧
          ∀ e, H.reconstruct checked data = .ok e →
            (∃ values, H.fields? data = some values ∧ H.askedNumbers? values = some e.numbers) ∧
            (e.sendable.equals data = .ok true ↔ HoldsNumbers data) := by
  obtain ⟨-, -, hmade⟩ := inRange_of_run hprime hσ (isAccepted_of_build hbuild) hp hrun
  refine ⟨fun e he H hH => ⟨_, (hmade e he).restores hH⟩, fun H checked data => ?_⟩
  refine ⟨exists_reconstruct_iff_takes, fun e he => ⟨?_, equals_sendable_iff he⟩⟩
  obtain ⟨values, hfields, hgenerate⟩ := exists_fields_of_reconstruct he
  exact ⟨values, hfields, (generate_eq_ok_iff.mp hgenerate).2.1⟩

/-- A point off the curve that was made without a check, received by another group of the curve. -/
theorem sendable_lossless_of_run_modulo23 :
    (points CurveGroup.modulo23).isMember (.element CurveGroup.offCurve) = false ∧
      ∃ f, (points ⟨1, CurveGroup.modulo23.record⟩).Restores (points CurveGroup.modulo23)
        CurveGroup.offCurve f := by
  have hlossless := sendable_lossless_of_run
    PrimalityTest.decides_trialDivision.isSound.rejectsBelowTwo Generator.staysInRange.keepsBounds
    (build_modulo23 (Generator.ofSeed 1)) (by norm_num : Nat.Prime 23) (CurveGroup.run_offCurve _)
  exact ⟨CurveGroup.isMember_offCurve, hlossless.1 _ List.mem_cons_self _ rfl⟩

/-- The half of a safe prime that has more digits than are ever written. -/
def longOrder : ℕ :=
  92305 * 2 ^ 16998 + 1

theorem prime_longOrder : longOrder.Prime := by
  have hfactors : ∀ r, r.Prime → r ∣ 92305 → r ∈ [5, 18461] := by
    intro r hr hdvd
    rw [show 92305 = 5 * 18461 from rfl] at hdvd
    rcases hr.dvd_mul.mp hdvd with h | h
    · simp [(Nat.prime_dvd_prime_iff_eq hr (by norm_num)).mp h]
    · simp [(Nat.prime_dvd_prime_iff_eq hr (by norm_num)).mp h]
  refine Integer.prime_mul_two_pow_add_one 3 (by decide) (by decide) hfactors (by decide +kernel) ?_
  exact List.forall_mem_cons.mpr ⟨by decide +kernel, List.forall_mem_singleton.mpr (by decide +kernel)⟩

theorem prime_two_mul_longOrder_add_one : (2 * longOrder + 1).Prime :=
  Integer.prime_two_mul_add_one prime_longOrder (by decide +kernel)

/-- Minus one is no square modulo a safe prime. Where it has too many digits to be written, an engine of
    natural numbers does not refuse it as an argument. -/
theorem report_of_minus_one {p q : ℕ} {K : ResidueGroup} (hK : K.params.IsSafe p q)
    (hengine : K.engine = .natural) (hlong : Text.Numeral.isLong ((p : ℤ) - 1) = true) :
    ∃ e, (residues K).generate false [.int ((p : ℤ) - 1)] = .ok e ∧
      (residues K).isMember (.element e) = false ∧
      ∃ error, (residues K).reconstruct true e.sendable = .error error ∧
        error.report.1 = .value := by
  have hmodulus := hK.modulus_eq
  have hseven := hK.seven_le
  have hrange : (residues K).InRange (.residue ⟨K, (p : ℤ) - 1⟩) :=
    inRange_residue_iff.mpr ⟨_, rfl, by omega, by omega⟩
  have hmember : (residues K).isMember (.element (.residue ⟨K, (p : ℤ) - 1⟩)) = false := by
    rw [← Bool.not_eq_true, ResidueGroup.isMember_residue_iff hK (by omega) (by omega), Int.cast_sub,
      Int.cast_natCast, ZMod.natCast_self, zero_sub, Int.cast_one]
    exact hK.neg_pow_ne_one (one_pow q)
  have hwrites : (residues K).writesLong (.residue ⟨K, (p : ℤ) - 1⟩) = true := by
    simpa [writesLong, Element.numbers, hengine, Engine.number, Number.isLong] using hlong
  obtain ⟨error, herror, hreport⟩ := hrange.exists_refusal hmember
  rw [hwrites, if_pos rfl] at hreport
  refine ⟨_, ?_, hmember, error, herror, hreport⟩
  refine generate_eq_ok_iff.mpr ⟨hrange, ?_, fun h => absurd h Bool.false_ne_true⟩
  rw [askedNumbers?, askedInteger_number]
  rfl

/-- There is such a group, with a modulus of 17,016 bits. And a text that is read is not given back. -/
theorem not_lossless_longOrder :
    (∃ K, build (fun x => decide x.toNat.Prime) (.residues .natural) 0
        (requestFor (.residues (ResidueParams.ofOrder 17016 longOrder).record)) (Generator.ofSeed 1) =
          .ok (residues K, Generator.ofSeed 1) ∧
      ∃ e, (residues K).generate false [.int (2 * longOrder)] = .ok e ∧
        (residues K).isMember (.element e) = false ∧
        ∃ error, (residues K).reconstruct true e.sendable = .error error ∧
          error.report.1 ≠ .invalidArgument) ∧
    ∃ e, (residues .modulo23).reconstruct false (.residueData (.text "4")) = .ok e ∧
      e.sendable.equals (.residueData (.text "4")) = .ok false := by
  have hthree : (3 : ℤ) ≤ longOrder := by decide +kernel
  have hlong : Text.Numeral.isLong (2 * longOrder) = true := by decide +kernel
  have hvalid : (ResidueParams.ofOrder 17016 longOrder).isValid (fun x => decide x.toNat.Prime) =
      true :=
    ResidueParams.isValid_ofOrder PrimalityTest.decides_trialDivision.isSound hthree
      (ResidueParams.passes_of_prime prime_longOrder prime_two_mul_longOrder_add_one)
  obtain ⟨p, q, hsafe⟩ := ResidueParams.exists_isSafe_of_isValid
    PrimalityTest.decides_trialDivision.isSound hvalid
  have hmodulus : 2 * (longOrder : ℤ) + 1 = p := hsafe.modulus_eq
  have hminus : (p : ℤ) - 1 = 2 * longOrder := by omega
  have hrefused := report_of_minus_one
    (K := ⟨0, .natural, (ResidueParams.ofOrder 17016 longOrder).record⟩) hsafe rfl (hminus ▸ hlong)
  rw [hminus] at hrefused
  obtain ⟨e, he, hmember, error, herror, hreport⟩ := hrefused
  refine ⟨⟨_, ?_, e, he, hmember, error, herror, ?_⟩, _, rfl, rfl⟩
  · rw [build_residues_requestFor]
    exact if_pos hvalid
  · rw [hreport]
    decide

end Group

end PrimeOrder
