import Mathlib
import PrimeOrder.Proofs.Group.Points

namespace PrimeOrder

theorem Element.same_iff {e f : Element} :
    e.same f = true ↔ e.key = f.key ∧ e.parameters? = f.parameters? := by
  simp [same]

@[simp] theorem Element.same_refl (e : Element) : e.same e = true :=
  same_iff.mpr ⟨rfl, rfl⟩

theorem Element.same_comm (e f : Element) : e.same f = f.same e := by
  rw [Bool.eq_iff_iff, same_iff, same_iff, eq_comm, eq_comm (a := e.parameters?)]

theorem Element.same_trans {e f g : Element} (hef : e.same f = true) (hfg : f.same g = true) :
    e.same g = true := by
  rw [same_iff] at hef hfg ⊢
  exact ⟨hef.1.trans hfg.1, hef.2.trans hfg.2⟩

theorem Element.same_congr {e f : Element} (hef : e.same f = true) (g : Element) :
    e.same g = f.same g := by
  rw [Bool.eq_iff_iff]
  exact ⟨fun h => same_trans (by rwa [same_comm]) h, fun h => same_trans hef h⟩

/-- The residues of one field are told apart by their values. -/
theorem PrimeField.Holds.eq_of_value_eq {F : PrimeField} {x y : FieldElement} (hx : F.Holds x)
    (hy : F.Holds y) (hvalue : x.value = y.value) : x = y := by
  obtain ⟨field, value⟩ := x
  obtain ⟨field', value'⟩ := y
  obtain rfl : field = F := hx.field_eq
  obtain rfl : field' = field := hy.field_eq
  obtain rfl : value = value' := hvalue
  rfl

/-- The points that a curve holds are told apart by their coordinates as integers. -/
theorem Curve.Holds.eq_of_canonical_eq {C : Curve} {P Q : Point} (hP : C.Holds P) (hQ : C.Holds Q)
    (hcanonical : P.canonical = Q.canonical) : P = Q := by
  obtain ⟨curve, c⟩ := P
  obtain ⟨curve', d⟩ := Q
  obtain rfl : curve = C := hP.curve_eq
  obtain rfl : curve' = curve := hQ.curve_eq
  cases c with
  | none =>
    cases d with
    | none => rfl
    | some _ => cases hcanonical
  | some xy =>
    cases d with
    | none => cases hcanonical
    | some xy' =>
      obtain ⟨hx, hy⟩ := hP.residues xy.1 xy.2 rfl
      obtain ⟨hx', hy'⟩ := hQ.residues xy'.1 xy'.2 rfl
      obtain ⟨hfirst, hsecond⟩ := Prod.mk.inj (Option.some.inj hcanonical)
      rw [Prod.ext (hx.eq_of_value_eq hx' hfirst) (hy.eq_of_value_eq hy' hsecond)]

namespace Group

variable {G : Group} {e f : Element}

theorem Holds.parameters?_eq (he : G.Holds e) : e.parameters? = some G.parameters := by
  cases G with
  | residues G =>
    obtain ⟨n, rfl⟩ := holds_residues_iff.mp he
    rfl
  | points G =>
    obtain ⟨c, rfl, -⟩ := holds_points_iff.mp he
    rfl

theorem Holds.owns (he : G.Holds e) : G.ownsElement e = true := by
  cases G with
  | residues G =>
    obtain ⟨n, rfl⟩ := holds_residues_iff.mp he
    exact beq_self_eq_true G
  | points G =>
    obtain ⟨c, rfl, -⟩ := holds_points_iff.mp he
    exact beq_self_eq_true G.curve

theorem Holds.check_eq (he : G.Holds e) : G.check (.element e) = .ok e := by
  simp [check, he.owns]

theorem Holds.eq_of_key_eq (he : G.Holds e) (hf : G.Holds f) (hkey : e.key = f.key) : e = f := by
  obtain ⟨-, hnumbers⟩ := Prod.mk.inj hkey
  cases G with
  | residues G =>
    obtain ⟨n, rfl⟩ := holds_residues_iff.mp he
    obtain ⟨m, rfl⟩ := holds_residues_iff.mp hf
    obtain rfl : n = m := List.head_eq_of_cons_eq hnumbers
    rfl
  | points G =>
    obtain ⟨c, rfl, -⟩ := holds_points_iff.mp he
    obtain ⟨d, rfl, -⟩ := holds_points_iff.mp hf
    congr 1
    apply Curve.Holds.eq_of_canonical_eq he hf
    simp only [Element.numbers, Point.canonical] at hnumbers ⊢
    cases c with
    | none =>
      cases d with
      | none => rfl
      | some xy => cases hnumbers
    | some xy =>
      cases d with
      | none => cases hnumbers
      | some xy' => simpa [Prod.ext_iff] using hnumbers

/-- Elements of one group are equal exactly if they are the same. -/
theorem Holds.same_iff_eq (he : G.Holds e) (hf : G.Holds f) : e.same f = true ↔ e = f := by
  rw [Element.same_iff]
  refine ⟨fun h => he.eq_of_key_eq hf h.1, ?_⟩
  rintro rfl
  exact ⟨rfl, rfl⟩

theorem Holds.equals_eq (he : G.Holds e) (hf : G.Holds f) : e.equals f = .ok (decide (e = f)) := by
  have hcomparable : e.comparable f = true := by
    simp [Element.comparable, he.parameters?_eq, hf.parameters?_eq]
  have hsame : e.same f = decide (e = f) := by
    rw [Bool.eq_iff_iff, decide_eq_true_eq, he.same_iff_eq hf]
  rw [Element.equals, if_pos hcomparable, hsame]

end Group

end PrimeOrder
