import Mathlib
import PrimeOrder.Curve.Point
import PrimeOrder.Proofs.Outcome

namespace PrimeOrder

/-- Whether two points are on two given curves and have the same coordinates. -/
structure Point.Copies (C D : Curve) (P Q : Point) : Prop where
  left : P.curve = C
  right : Q.curve = D
  coordinates_eq : P.coordinates = Q.coordinates

namespace Point.Copies

variable {C D : Curve} {P Q P' Q' : Point}

theorem iff_exists : Copies C D P Q ↔ ∃ c, P = ⟨C, c⟩ ∧ Q = ⟨D, c⟩ := by
  constructor
  · intro h
    obtain ⟨curve, c⟩ := P
    obtain ⟨curve', d⟩ := Q
    obtain ⟨rfl, rfl, rfl⟩ := h
    exact ⟨c, rfl, rfl⟩
  · rintro ⟨c, rfl, rfl⟩
    exact ⟨rfl, rfl, rfl⟩

theorem canonical_eq (h : Copies C D P Q) : P.canonical = Q.canonical := by
  rw [canonical, canonical, h.coordinates_eq]

theorem neg (h : Copies C D P Q) : Copies C D P.neg Q.neg := by
  obtain ⟨c, rfl, rfl⟩ := iff_exists.mp h
  cases c with
  | none => exact h
  | some _ => exact ⟨rfl, rfl, rfl⟩

theorem add (ha : C.a = D.a) (h : Copies C D P Q) (h' : Copies C D P' Q') :
    Outcome.Alike (Copies C D) (P.add P') (Q.add Q') := by
  obtain ⟨c, rfl, rfl⟩ := iff_exists.mp h
  obtain ⟨d, rfl, rfl⟩ := iff_exists.mp h'
  match c, d with
  | none, _ => exact .ok h'
  | some _, none => exact .ok h
  | some (x₁, y₁), some (x₂, y₂) =>
    -- chord and tangent are computed from the coordinates, and the third point from the slope
    have third : ∀ x slope, Outcome.Alike (Copies C D)
        (.ok (reflectedThird C slope x₁ y₁ x)) (.ok (reflectedThird D slope x₁ y₁ x)) :=
      fun _ _ => .ok ⟨rfl, rfl, rfl⟩
    simp only [Point.add, ← ha]
    split_ifs
    · exact .ok ⟨rfl, rfl, rfl⟩
    · exact (Outcome.Alike.of_eq _).bind fun slope _ hslope => hslope ▸ third x₁ slope
    · exact .ok ⟨rfl, rfl, rfl⟩
    · exact (Outcome.Alike.of_eq _).bind fun slope _ hslope => hslope ▸ third x₂ slope

theorem addMultiple (ha : C.a = D.a) (h : Copies C D P Q) (h' : Copies C D P' Q') (k : ℕ) :
    Outcome.Alike (Copies C D) (P.addMultiple P' k) (Q.addMultiple Q' k) := by
  induction k using Nat.strong_induction_on generalizing P Q P' Q' with
  | _ k ih =>
    rw [Point.addMultiple, Point.addMultiple]
    by_cases hzero : k = 0
    · rw [if_pos hzero, if_pos hzero]
      exact .ok h
    · rw [if_neg hzero, if_neg hzero]
      have hrest : ∀ sum sum', Copies C D sum sum' → Outcome.Alike (Copies C D)
          (P'.add P' >>= fun double => sum.addMultiple double (k / 2))
          (Q'.add Q' >>= fun double => sum'.addMultiple double (k / 2)) :=
        fun sum sum' hsum => (h'.add ha h').bind fun _ _ hdouble => ih _ (by omega) hsum hdouble
      by_cases hbit : k % 2 = 1
      · rw [if_pos hbit, if_pos hbit]
        exact (h.add ha h').bind hrest
      · rw [if_neg hbit, if_neg hbit]
        exact hrest P Q h

theorem mul (ha : C.a = D.a) (h : Copies C D P Q) (k : ℤ) :
    Outcome.Alike (Copies C D) (P.mul k) (Q.mul k) := by
  have hinfinity : Copies C D P.curve.infinity Q.curve.infinity := ⟨h.left, h.right, rfl⟩
  rw [Point.mul, Point.mul]
  split_ifs
  · exact hinfinity.addMultiple ha h.neg _
  · exact hinfinity.addMultiple ha h _

theorem serialize_eq (hfield : C.field = D.field) (h : Copies C D P Q) :
    P.serialize = Q.serialize := by
  rw [serialize, serialize, h.coordinates_eq, h.left, h.right, hfield]

end Point.Copies

end PrimeOrder
