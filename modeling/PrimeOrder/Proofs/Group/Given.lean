import Mathlib
import PrimeOrder.Proofs.Engine.Operations
import PrimeOrder.Proofs.Group.Equality

namespace PrimeOrder

namespace ResidueGroup

variable {G : ResidueGroup}

theorem generate_eq_ok_iff {checked : Bool} {n : ℤ} {x : Residue} :
    G.generate checked n = .ok x ↔
      x = ⟨G, n⟩ ∧ (0 < n ∧ n < G.params.modulus) ∧ (checked = true → G.inSubgroup n = true) := by
  by_cases hnonneg : 0 ≤ n
  · rw [generate_of_nonneg G hnonneg]
    split_ifs with hrange hmember
    · simp only [false_iff]
      omega
    · simp_all
    · simp only [Except.ok.injEq, Bool.and_eq_true, Bool.not_eq_true'] at hmember ⊢
      refine ⟨fun h => ⟨h.symm, by omega, fun hchecked => ?_⟩, fun h => h.1.symm⟩
      by_contra houtside
      exact hmember ⟨hchecked, Bool.eq_false_of_not_eq_true houtside⟩
  · have hrefused : ∃ error, G.operations.generate G.params checked n = .error error := by
      rw [operations]
      cases G.engine with
      | signed => exact ⟨_, if_pos (.inl (by omega))⟩
      | natural =>
        refine ⟨.negativeNatural, ?_⟩
        have hheld : Engine.natural.hold n = .error .negativeNatural := if_pos (by omega)
        simp only [Engine.operations, NaturalResidues.generate, hheld]
        rfl
    obtain ⟨error, herror⟩ := hrefused
    rw [generate, herror]
    exact ⟨fun h => absurd h (by simp [Except.map]), fun h => absurd h.2.1.1 (by omega)⟩

end ResidueGroup

namespace CurveGroup

variable {G : CurveGroup}

theorem isCoordinate_iff {n : ℤ} : G.isCoordinate n = true ↔ 0 ≤ n ∧ n < G.params.modulus := by
  simp [isCoordinate]

/-- Two numbers are asked to be coordinates, and then to be those of a point on the curve. -/
theorem generate_numbers (checked : Bool) (a b : Number) :
    G.generate checked (.number a) (.number b) =
      if G.isCoordinate a.toInt && G.isCoordinate b.toInt then
        if checked && !G.isOnCurve (G.curve.point (G.field.reduce a.toInt) (G.field.reduce b.toInt))
        then .error (.notOnCurve a b G.params.name)
        else .ok (G.curve.point (G.field.reduce a.toInt) (G.field.reduce b.toInt))
      else .error (coordinateRefusal (.number a) (.number b)) := by
  cases ha : G.isCoordinate a.toInt with
  | false => simp [generate, coordinate?, ha]; rfl
  | true =>
    cases hb : G.isCoordinate b.toInt with
    | false => simp [generate, coordinate?, ha, hb]; rfl
    | true => simp [generate, coordinate?, ha, hb]; rfl

theorem generate_numbers_eq_ok_iff {checked : Bool} {a b : Number} {P : Point} :
    G.generate checked (.number a) (.number b) = .ok P ↔
      (G.isCoordinate a.toInt = true ∧ G.isCoordinate b.toInt = true) ∧
        P = G.curve.point (G.field.reduce a.toInt) (G.field.reduce b.toInt) ∧
        (checked = true → G.isOnCurve P = true) := by
  rw [generate_numbers, ← Bool.and_eq_true]
  split_ifs with hrange hcurve
  · simp only [Bool.and_eq_true, Bool.not_eq_true'] at hcurve
    simp only [false_iff]
    rintro ⟨-, rfl, hmember⟩
    rw [hmember hcurve.1] at hcurve
    cases hcurve.2
  · simp only [Bool.and_eq_true, Bool.not_eq_true', not_and, Bool.not_eq_false] at hcurve
    rw [Except.ok.injEq]
    exact ⟨fun h => ⟨hrange, h.symm, h ▸ hcurve⟩, fun h => h.2.1.symm⟩
  · simp [hrange]

/-- What is no number is no coordinate. -/
theorem eq_number_of_coordinate? {v : Value} {x : Number}
    (h : G.coordinate? v = .ok (some x)) : v = .number x := by
  cases v with
  | number y =>
    simp only [coordinate?, Except.ok.injEq, Option.ite_none_right_eq_some] at h
    rw [Option.some.inj h.2]
  | _ => cases h

theorem generate_eq_ok_iff {checked : Bool} {v w : Value} {P : Point} :
    G.generate checked v w = .ok P ↔
      (v = .null ∧ w = .null ∧ P = G.identity) ∨
      ∃ a b, v = .number a ∧ w = .number b ∧
        (G.isCoordinate a.toInt = true ∧ G.isCoordinate b.toInt = true) ∧
          P = G.curve.point (G.field.reduce a.toInt) (G.field.reduce b.toInt) ∧
          (checked = true → G.isOnCurve P = true) := by
  constructor
  · intro h
    have hcases := h
    unfold generate at hcases
    split at hcases
    · exact .inl ⟨rfl, rfl, (Except.ok.inj hcases).symm⟩
    · cases hcases
    · cases hcases
    · obtain ⟨x?, hx, hrest⟩ := Outcome.bind_eq_ok_iff.mp hcases
      cases x? with
      | none => cases hrest
      | some a =>
        obtain ⟨y?, hy, hpoint⟩ := Outcome.bind_eq_ok_iff.mp hrest
        cases y? with
        | none => cases hpoint
        | some b =>
          obtain rfl := eq_number_of_coordinate? hx
          obtain rfl := eq_number_of_coordinate? hy
          exact .inr ⟨a, b, rfl, rfl, generate_numbers_eq_ok_iff.mp h⟩
  · rintro (⟨rfl, rfl, rfl⟩ | ⟨a, b, rfl, rfl, h⟩)
    · rfl
    · exact generate_numbers_eq_ok_iff.mpr h

/-- Coordinates in range are held as they were given. -/
theorem point_reduce {a b : ℤ} (ha : G.isCoordinate a = true) (hb : G.isCoordinate b = true) :
    G.curve.point (G.field.reduce a) (G.field.reduce b) = G.curve.point ⟨G.field, a⟩ ⟨G.field, b⟩ := by
  rw [isCoordinate_iff] at ha hb
  have hmod : ∀ n, 0 ≤ n ∧ n < G.params.modulus → G.field.reduce n = ⟨G.field, n⟩ := by
    intro n hn
    rw [PrimeField.reduce, show G.field.modulus = G.params.modulus from rfl,
      Int.fmod_eq_of_lt hn.1 hn.2]
  rw [hmod a ha, hmod b hb]

end CurveGroup

namespace Group

variable {G : Group} {values : List Value} {e : Element}

/-- The least of the numbers that tell an element from the others of a group. -/
def leastNumber : Group → ℤ
  | residues _ => 1
  | points _ => 0

/-- Whether a group holds an element and its numbers are in canonical range. -/
structure InRange (G : Group) (e : Element) : Prop where
  holds : G.Holds e
  range : ∀ n ∈ e.numbers, G.leastNumber ≤ n ∧ n < G.modulus

/-- The integers that values stand for where an element is asked of them. -/
def askedNumbers? : Group → List Value → Option (List ℤ)
  | residues G, [v] => (askedInteger G.engine v).toOption.map fun n => [n]
  | points _, [.null, .null] => some []
  | points _, [.number x, .number y] => some [x.toInt, y.toInt]
  | _, _ => none

theorem inRange_residue_iff {H : ResidueGroup} :
    (residues H).InRange e ↔ ∃ n, e = .residue ⟨H, n⟩ ∧ 0 < n ∧ n < H.params.modulus := by
  constructor
  · rintro ⟨hholds, hrange⟩
    obtain ⟨n, rfl⟩ := holds_residues_iff.mp hholds
    exact ⟨n, rfl, hrange n List.mem_cons_self⟩
  · rintro ⟨n, rfl, hpos, hlt⟩
    exact ⟨rfl, List.forall_mem_singleton.mpr ⟨hpos, hlt⟩⟩

/-- Points that a group holds have their coordinates in range, on the curve or not. -/
theorem inRange_points_iff_holds {H : CurveGroup} : (points H).InRange e ↔ (points H).Holds e := by
  refine ⟨InRange.holds, fun he => ⟨he, fun n hn => ?_⟩⟩
  obtain ⟨c, rfl, hresidues⟩ := holds_points_iff.mp he
  cases c with
  | none => exact absurd hn List.not_mem_nil
  | some xy =>
    obtain ⟨hx, hy⟩ := hresidues xy.1 xy.2 rfl
    rcases List.mem_pair.mp hn with rfl | rfl
    · exact ⟨hx.nonneg, hx.lt_modulus⟩
    · exact ⟨hy.nonneg, hy.lt_modulus⟩

theorem inRange_point_iff {H : CurveGroup} :
    (points H).InRange e ↔ e = .point H.identity ∨
      ∃ a b, e = .point (H.curve.point ⟨H.field, a⟩ ⟨H.field, b⟩) ∧
        H.isCoordinate a = true ∧ H.isCoordinate b = true := by
  rw [inRange_points_iff_holds, holds_points_iff]
  constructor
  · rintro ⟨c, rfl, hresidues⟩
    match c with
    | none => exact .inl rfl
    | some (⟨field, a⟩, ⟨field', b⟩) =>
      obtain ⟨hx, hy⟩ := hresidues _ _ rfl
      obtain rfl : field = H.field := hx.field_eq
      obtain rfl : field' = H.field := hy.field_eq
      exact .inr ⟨a, b, rfl, CurveGroup.isCoordinate_iff.mpr ⟨hx.nonneg, hx.lt_modulus⟩,
        CurveGroup.isCoordinate_iff.mpr ⟨hy.nonneg, hy.lt_modulus⟩⟩
  · rintro (rfl | ⟨a, b, rfl, ha, hb⟩)
    · exact ⟨none, rfl, fun _ _ h => by cases h⟩
    · rw [CurveGroup.isCoordinate_iff] at ha hb
      refine ⟨_, rfl, fun x y hxy => ?_⟩
      cases hxy
      exact ⟨⟨rfl, ha.1, ha.2⟩, ⟨rfl, hb.1, hb.2⟩⟩

theorem askedNumbers?_residues_eq_some_iff {H : ResidueGroup} {numbers : List ℤ} :
    (residues H).askedNumbers? values = some numbers ↔
      ∃ v n, values = [v] ∧ askedInteger H.engine v = .ok n ∧ numbers = [n] := by
  constructor
  · intro h
    match values with
    | [] => cases h
    | _ :: _ :: _ => cases h
    | [v] =>
      obtain ⟨n, hn, rfl⟩ := Option.map_eq_some_iff.mp h
      exact ⟨v, n, rfl, Outcome.toOption_eq_some_iff.mp hn, rfl⟩
  · rintro ⟨v, n, rfl, hn, rfl⟩
    simp [askedNumbers?, hn, Except.toOption]

theorem askedNumbers?_points_eq_some_iff {H : CurveGroup} {numbers : List ℤ} :
    (points H).askedNumbers? values = some numbers ↔
      values = [.null, .null] ∧ numbers = [] ∨
        ∃ a b, values = [.number a, .number b] ∧ numbers = [a.toInt, b.toInt] := by
  constructor
  · intro h
    unfold askedNumbers? at h
    split at h
    · rename_i heq
      cases heq
    · cases h
      exact .inl ⟨rfl, rfl⟩
    · cases h
      exact .inr ⟨_, _, rfl, rfl⟩
    · cases h
  · rintro (⟨rfl, rfl⟩ | ⟨a, b, rfl, rfl⟩) <;> rfl

/-- No group has members that it did not make. -/
theorem isMember_eq_false {v : Value} (hv : G.owns v = false) : G.isMember v = false := by
  unfold isMember
  split
  · rename_i G x
    have howns : G.owns x = false := hv
    rw [howns, Bool.false_and]
  · rename_i G P
    have howns : G.owns P = false := hv
    rw [howns, Bool.false_and]
  · rfl

theorem isMember_residue {H : ResidueGroup} (n : ℤ) :
    (residues H).isMember (.element (.residue ⟨H, n⟩)) = H.inSubgroup n := by
  simp [isMember, ResidueGroup.owns]

theorem isMember_point {H : CurveGroup} (c : Option (FieldElement × FieldElement)) :
    (points H).isMember (.element (.point ⟨H.curve, c⟩)) = H.isOnCurve ⟨H.curve, c⟩ := by
  simp [isMember, CurveGroup.owns]

theorem generate_residues_eq_ok_iff {H : ResidueGroup} {checked : Bool} :
    (residues H).generate checked values = .ok e ↔
      ∃ v n, values = [v] ∧ askedInteger H.engine v = .ok n ∧ (0 < n ∧ n < H.params.modulus) ∧
        e = .residue ⟨H, n⟩ ∧ (checked = true → H.inSubgroup n = true) := by
  match values with
  | [] => simp [generate]
  | _ :: _ :: _ => simp [generate]
  | [v] =>
    simp only [generate, Outcome.bind_eq_ok_iff, Outcome.map_eq_ok_iff,
      ResidueGroup.generate_eq_ok_iff]
    constructor
    · rintro ⟨n, hn, _, ⟨rfl, hrange, hmember⟩, rfl⟩
      exact ⟨v, n, rfl, hn, hrange, rfl, hmember⟩
    · rintro ⟨w, n, hvalues, hn, hrange, rfl, hmember⟩
      obtain rfl : v = w := List.head_eq_of_cons_eq hvalues
      exact ⟨n, hn, _, ⟨rfl, hrange, hmember⟩, rfl⟩

theorem generate_points_eq_ok_iff {H : CurveGroup} {checked : Bool} :
    (points H).generate checked values = .ok e ↔
      (values = [.null, .null] ∧ e = .point H.identity) ∨
        ∃ a b, values = [.number a, .number b] ∧
          (H.isCoordinate a.toInt = true ∧ H.isCoordinate b.toInt = true) ∧
          e = .point (H.curve.point ⟨H.field, a.toInt⟩ ⟨H.field, b.toInt⟩) ∧
          (checked = true →
            H.isOnCurve (H.curve.point ⟨H.field, a.toInt⟩ ⟨H.field, b.toInt⟩) = true) := by
  match values with
  | [] => simp [generate]
  | [_] => simp [generate]
  | _ :: _ :: _ :: _ => simp [generate]
  | [v, w] =>
    simp only [generate, Outcome.map_eq_ok_iff, CurveGroup.generate_eq_ok_iff]
    constructor
    · rintro ⟨_, ⟨rfl, rfl, rfl⟩ | ⟨a, b, rfl, rfl, ⟨ha, hb⟩, rfl, hcurve⟩, rfl⟩
      · exact .inl ⟨rfl, rfl⟩
      · rw [CurveGroup.point_reduce ha hb] at hcurve ⊢
        exact .inr ⟨a, b, rfl, ⟨ha, hb⟩, rfl, hcurve⟩
    · rintro (⟨hvalues, rfl⟩ | ⟨a, b, hvalues, ⟨ha, hb⟩, rfl, hcurve⟩)
      · cases hvalues
        exact ⟨_, .inl ⟨rfl, rfl, rfl⟩, rfl⟩
      · cases hvalues
        rw [← CurveGroup.point_reduce ha hb] at hcurve ⊢
        exact ⟨_, .inr ⟨a, b, rfl, rfl, ⟨ha, hb⟩, rfl, hcurve⟩, rfl⟩

/-- An element is made of given numbers exactly if it has them, they are in range and, with a check,
    it is a member. -/
theorem generate_eq_ok_iff {checked : Bool} :
    G.generate checked values = .ok e ↔
      G.InRange e ∧ G.askedNumbers? values = some e.numbers ∧
        (checked = true → G.isMember (.element e) = true) := by
  cases G with
  | residues G =>
    rw [generate_residues_eq_ok_iff, inRange_residue_iff, askedNumbers?_residues_eq_some_iff]
    constructor
    · rintro ⟨v, n, rfl, hn, hrange, rfl, hmember⟩
      rw [isMember_residue]
      exact ⟨⟨n, rfl, hrange⟩, ⟨v, n, rfl, hn, rfl⟩, hmember⟩
    · rintro ⟨⟨n, rfl, hrange⟩, ⟨v, m, rfl, hm, hnumbers⟩, hmember⟩
      rw [isMember_residue] at hmember
      obtain rfl : n = m := List.head_eq_of_cons_eq hnumbers
      exact ⟨v, n, rfl, hm, hrange, rfl, hmember⟩
  | points G =>
    rw [generate_points_eq_ok_iff, inRange_point_iff, askedNumbers?_points_eq_some_iff]
    constructor
    · rintro (⟨rfl, rfl⟩ | ⟨a, b, rfl, ⟨ha, hb⟩, rfl, hcurve⟩)
      · exact ⟨.inl rfl, .inl ⟨rfl, rfl⟩, fun _ => isMember_point none⟩
      · exact ⟨.inr ⟨_, _, rfl, ha, hb⟩, .inr ⟨a, b, rfl, rfl⟩,
          fun h => (isMember_point _).trans (hcurve h)⟩
    · rintro ⟨rfl | ⟨a, b, rfl, ha, hb⟩, ⟨rfl, hnumbers⟩ | ⟨c, d, rfl, hnumbers⟩, hmember⟩
      · exact .inl ⟨rfl, rfl⟩
      · cases hnumbers
      · cases hnumbers
      · obtain ⟨rfl, hrest⟩ := List.cons.inj hnumbers
        obtain rfl := List.head_eq_of_cons_eq hrest
        exact .inr ⟨c, d, rfl, ⟨ha, hb⟩, rfl, fun h => (isMember_point _).symm.trans (hmember h)⟩

/-- The values in plain data of the kind that a group takes. -/
def fields? : Group → Value → Option (List Value)
  | residues _, .residueData x => some [x]
  | points _, .pointData x y => some [x, y]
  | _, _ => none

theorem reconstruct_of_fields {checked : Bool} {data : Value} (h : G.fields? data = some values) :
    G.reconstruct checked data = G.generate checked values := by
  unfold fields? at h
  split at h <;> cases h <;> rfl

theorem exists_fields_of_reconstruct {checked : Bool} {data : Value}
    (h : G.reconstruct checked data = .ok e) :
    ∃ values, G.fields? data = some values ∧ G.generate checked values = .ok e := by
  unfold reconstruct at h
  split at h
  · exact ⟨_, rfl, h⟩
  · cases h
  · exact ⟨_, rfl, h⟩
  · cases h

end Group

end PrimeOrder
