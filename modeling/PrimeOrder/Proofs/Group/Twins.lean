import Mathlib
import PrimeOrder.Proofs.Curve.Copies
import PrimeOrder.Proofs.Group.Sendable
import PrimeOrder.Proofs.Window.Alike

namespace PrimeOrder

/-- A curve of the same parameters differs in the group that it was made for. -/
theorem CurveGroup.curve_of_params {G H : CurveGroup} (hparams : G.params = H.params) :
    H.curve = { G.curve with group := some H } := by
  simp only [curve, field, hparams]

namespace Group

/-- Whether two groups are of one kind, compute with the same integers and have the same
    parameters. -/
inductive Twins : Group → Group → Prop where
  | residues {G H : ResidueGroup} (hengine : G.engine = H.engine) (hparams : G.params = H.params) :
      Twins (residues G) (residues H)
  | points {G H : CurveGroup} (hparams : G.params = H.params) : Twins (points G) (points H)

/-- Whether elements of two groups have the same numbers. -/
inductive Corresponds : Group → Group → Element → Element → Prop where
  | residue {G H : ResidueGroup} (n : ℤ) :
      Corresponds (residues G) (residues H) (.residue ⟨G, n⟩) (.residue ⟨H, n⟩)
  | point {G H : CurveGroup} {P Q : Point} (h : P.Copies G.curve H.curve Q) :
      Corresponds (points G) (points H) (.point P) (.point Q)

namespace Corresponds

variable {G H : Group} {e f : Element}

theorem check_left (h : Corresponds G H e f) : G.check (.element e) = .ok e := by
  cases h with
  | residue n => exact if_pos (beq_self_eq_true _)
  | point h => exact if_pos (beq_iff_eq.mpr h.left)

theorem check_right (h : Corresponds G H e f) : H.check (.element f) = .ok f := by
  cases h with
  | residue n => exact if_pos (beq_self_eq_true _)
  | point h => exact if_pos (beq_iff_eq.mpr h.right)

theorem checkAll {es fs : List Element} (h : es.Forall₂ (Corresponds G H) fs) :
    G.checkAll (es.map .element) = .ok es ∧ H.checkAll (fs.map .element) = .ok fs := by
  induction h with
  | nil => exact ⟨rfl, rfl⟩
  | cons hef _ ih =>
    rw [List.map_cons, List.map_cons, Group.checkAll, Group.checkAll, hef.check_left,
      hef.check_right, ih.1, ih.2]
    exact ⟨rfl, rfl⟩

end Corresponds

namespace Twins

variable {G H : Group} {e f e' f' : Element} (hGH : Twins G H)
include hGH

theorem order_eq : G.order = H.order := by
  cases hGH with
  | residues _ hparams => exact congrArg ResidueParams.order hparams
  | points hparams => exact congrArg CurveParams.order hparams

theorem reduceExponent_eq (k : ℤ) : G.reduceExponent k = H.reduceExponent k := by
  rw [Group.reduceExponent, Group.reduceExponent, hGH.order_eq]

theorem tableWidth_eq : G.tableWidth = H.tableWidth := by
  rw [Group.tableWidth, Group.tableWidth, hGH.order_eq]

section Equality

theorem equals_eq (h : Corresponds G H e f) : e.equals f = .ok true := by
  have hkey : e.key = f.key ∧ e.parameters? = f.parameters? := by
    cases hGH with
    | residues hengine hparams =>
      cases h with
      | residue n =>
        exact ⟨Prod.ext (congrArg ElementSort.residue hengine) rfl,
          congrArg (some ∘ Parameters.residues) hparams⟩
    | @points G H hparams =>
      cases h with
      | point h =>
        refine ⟨Prod.ext rfl ?_, ?_⟩
        · simp only [Element.key, Element.numbers, h.canonical_eq]
        · rw [Element.parameters?, Element.parameters?, h.left, h.right]
          exact congrArg (some ∘ Parameters.curve) hparams
  have hcomparable : e.comparable f = true := by
    rw [Element.comparable, hkey.2, beq_self_eq_true, Bool.or_true]
  rw [Element.equals, if_pos hcomparable, Element.same_iff.mpr hkey]

theorem corresponds_adopt (he : G.Holds e) :
    Corresponds G H e (H.adopt e) ∧ H.Holds (H.adopt e) ∧ (H.adopt e).key = e.key := by
  cases hGH with
  | residues hengine hparams =>
    obtain ⟨n, rfl⟩ := holds_residues_iff.mp he
    exact ⟨.residue n, rfl, Prod.ext (congrArg ElementSort.residue hengine.symm) rfl⟩
  | points hparams =>
    obtain ⟨c, rfl, hresidues⟩ := holds_points_iff.mp he
    refine ⟨.point ⟨rfl, rfl, rfl⟩, holds_points_iff.mpr ⟨c, rfl, ?_⟩, rfl⟩
    rwa [CurveGroup.field, ← hparams]

/-- Elements that two such groups hold are equal only if they have the same numbers. -/
theorem corresponds_of_equals (he : G.Holds e) (hf : H.Holds f) (hef : e.equals f = .ok true) :
    Corresponds G H e f := by
  obtain ⟨hcorresponds, hholds, hkey⟩ := hGH.corresponds_adopt he
  have hsame : e.same f = true := by
    unfold Element.equals at hef
    split_ifs at hef
    exact Except.ok.inj hef
  obtain rfl : H.adopt e = f :=
    hholds.eq_of_key_eq hf (hkey.trans (Element.same_iff.mp hsame).1)
  exact hcorresponds

end Equality

section Operations

theorem law_alike : Window.Law.Alike (Corresponds G H) G.law H.law := by
  cases hGH with
  | @residues G H hengine hparams =>
    have hmul : ∀ m n, Corresponds (.residues G) (.residues H) (.residue (G.mul ⟨G, m⟩ ⟨G, n⟩))
        (.residue (H.mul ⟨H, m⟩ ⟨H, n⟩)) := by
      intro m n
      rw [ResidueGroup.mul, ResidueGroup.mul, ResidueGroup.operations, hengine, hparams]
      exact .residue _
    refine ⟨.residue 1, ?_⟩
    rintro _ _ _ _ ⟨m⟩ ⟨n⟩
    exact .ok (hmul m n)
  | @points G H hparams =>
    have ha : G.curve.a = H.curve.a := by rw [CurveGroup.curve_of_params hparams]
    refine ⟨.point ⟨rfl, rfl, rfl⟩, ?_⟩
    intro _ _ _ _ h h'
    cases h with
    | point h =>
      cases h' with
      | point h' => exact (h.add ha h').map fun _ _ => .point

theorem isMember_eq (h : Corresponds G H e f) :
    G.isMember (.element e) = H.isMember (.element f) := by
  cases hGH with
  | residues _ hparams =>
    cases h with
    | residue n =>
      rw [isMember_residue, isMember_residue, ResidueGroup.inSubgroup_eq,
        ResidueGroup.inSubgroup_eq, hparams]
  | @points G H hparams =>
    cases h with
    | point h =>
      obtain ⟨c, rfl, rfl⟩ := Point.Copies.iff_exists.mp h
      rw [isMember_point, isMember_point, CurveGroup.isOnCurve, CurveGroup.isOnCurve,
        CurveGroup.curve_of_params hparams]
      rfl

theorem inverse (h : Corresponds G H e f) :
    Outcome.Alike (Corresponds G H) (G.inverse (.element e)) (H.inverse (.element f)) := by
  rw [Group.inverse, Group.inverse, h.check_left, h.check_right, Outcome.ok_bind, Outcome.ok_bind]
  cases hGH with
  | @residues G H hengine hparams =>
    cases h with
    | residue n =>
      simp only [ResidueGroup.inverse, ResidueGroup.operations, hengine, hparams]
      cases H.engine.operations.inverse H.params n with
      | ok m => exact .ok (.residue m)
      | error error => exact .error error
  | points _ =>
    cases h with
    | point h => exact .ok (.point h.neg)

theorem multiply (h : Corresponds G H e f) (h' : Corresponds G H e' f') :
    Outcome.Alike (Corresponds G H) (G.multiply (.element e) (.element e'))
      (H.multiply (.element f) (.element f')) := by
  rw [Group.multiply, Group.multiply, h.check_left, h.check_right, h'.check_left, h'.check_right]
  exact hGH.law_alike.mul h h'

theorem power (h : Corresponds G H e f) (k : ℤ) :
    Outcome.Alike (Corresponds G H) (G.power (.element e) k) (H.power (.element f) k) := by
  rw [Group.power, Group.power, h.check_left, h.check_right, Outcome.ok_bind, Outcome.ok_bind]
  cases hGH with
  | residues hengine hparams =>
    cases h with
    | residue n =>
      simp only [ResidueGroup.power, ResidueGroup.operations, ResidueGroup.reduceExponent, hengine,
        hparams]
      exact .ok (.residue _)
  | @points G H hparams =>
    cases h with
    | point h =>
      have ha : G.curve.a = H.curve.a := by rw [CurveGroup.curve_of_params hparams]
      simp only [CurveGroup.power, CurveGroup.reduceExponent, hparams]
      exact (h.mul ha _).map fun _ _ => .point

theorem productOfPowers {es fs : List Element} (h : es.Forall₂ (Corresponds G H) fs)
    (exponents : List ℤ) :
    Outcome.Alike (Corresponds G H) (G.productOfPowers (es.map .element) exponents)
      (H.productOfPowers (fs.map .element) exponents) := by
  have hterms : ∀ ks : List ℕ, (es.zip ks).Forall₂
      (fun t t' => Corresponds G H t.1 t'.1 ∧ t.2 = t'.2) (fs.zip ks) := by
    induction h with
    | nil => exact fun _ => .nil
    | cons hef _ ih =>
      rintro (_ | ⟨k, ks⟩)
      · exact .nil
      · exact .cons ⟨hef, rfl⟩ (ih ks)
  obtain ⟨hes, hfs⟩ := Corresponds.checkAll h
  simp only [Group.productOfPowers, List.length_map, List.isEmpty_map, h.length_eq, hes, hfs,
    ← List.length_eq_zero_iff, List.isEmpty_iff, hGH.reduceExponent_eq]
  split_ifs
  · exact .error _
  · exact .error _
  · exact hGH.law_alike.productOfPowers (hterms _)

theorem decode_eq (h : Corresponds G H e f) :
    G.decode (.element e) = H.decode (.element f) := by
  rw [decode, decode, h.check_left, h.check_right, Outcome.ok_bind, Outcome.ok_bind]
  cases hGH with
  | residues _ hparams =>
    cases h with
    | residue n => simp only [ResidueGroup.decode_eq, hparams]
  | points hparams =>
    cases h with
    | point h => simp only [CurveGroup.decode, h.canonical_eq]

theorem image_eq (h : Corresponds G H e f) : G.image (.element e) = H.image (.element f) := by
  rw [image, image, h.check_left, h.check_right, Outcome.ok_bind, Outcome.ok_bind]
  cases hGH with
  | residues hengine hparams =>
    cases h with
    | residue n => simp only [ResidueGroup.image, ResidueGroup.operations, hengine, hparams]
  | @points G H hparams =>
    cases h with
    | point h =>
      have hfield : G.curve.field = H.curve.field := by rw [CurveGroup.curve_of_params hparams]
      exact h.serialize_eq hfield

end Operations

end Twins

end Group

end PrimeOrder
