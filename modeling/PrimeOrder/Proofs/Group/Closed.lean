import Mathlib
import PrimeOrder.Proofs.Group.Cached

namespace PrimeOrder

/-- The points that come of points by arithmetic on them outside of a group. -/
inductive Point.IsComputed (points : Point → Prop) : Point → Prop where
  | neg {P : Point} (hP : points P) : IsComputed points P.neg
  | add {P Q R : Point} (hP : points P) (hQ : points Q) (hR : P.add Q = .ok R) : IsComputed points R
  | mul {P R : Point} {k : ℤ} (hP : points P) (hR : P.mul k = .ok R) : IsComputed points R

theorem Point.IsComputed.mono {points points' : Point → Prop} {P : Point} (hP : P.IsComputed points)
    (h : ∀ Q, points Q → points' Q) : P.IsComputed points' := by
  cases hP with
  | neg hP => exact .neg (h _ hP)
  | add hP hQ hR => exact .add (h _ hP) (h _ hQ) hR
  | mul hP hR => exact .mul (h _ hP) hR

/-- Whether the operations of a group succeed on the elements with a property and keep to them. A
    power by a table is the plain power or, at least, an element that the group holds. -/
structure Group.IsClosed (G : Group) (good : Element → Prop) : Prop where
  holds : ∀ e, good e → G.Holds e
  law : G.law.Computes good good fun _ => ()
  inverse : ∀ e, good e → ∃ f, G.inverse (.element e) = .ok f ∧ good f
  power : ∀ e k, good e → ∃ f, G.power (.element e) k = .ok f ∧ good f
  raises : (∀ e, good e → G.Raises e) ∨ ∀ e, G.Holds e → good e

namespace Group

variable {G : Group} {good : Element → Prop}

namespace IsClosed

variable (hG : G.IsClosed good)
include hG

theorem check_eq {e : Element} (he : good e) : G.check (.element e) = .ok e :=
  (hG.holds e he).check_eq

theorem multiply {e f : Element} (he : good e) (hf : good f) :
    ∃ g, G.multiply (.element e) (.element f) = .ok g ∧ good g := by
  obtain ⟨g, hg, hgood, -⟩ := hG.law.mul_gives e f he hf
  refine ⟨g, ?_, hgood⟩
  rw [Group.multiply, hG.check_eq he, hG.check_eq hf]
  exact hg

theorem productOfPowers {bases : List Element} {exponents : List ℤ}
    (hlength : bases.length = exponents.length) (hne : bases ≠ []) (hbases : ∀ e ∈ bases, good e) :
    ∃ g, G.productOfPowers (bases.map .element) exponents = .ok g ∧ good g := by
  obtain ⟨g, hg, hgood, -⟩ := G.productOfPowers_gives_of_law hG.law
    (fun e he => hG.check_eq he) hlength hne hbases
  exact ⟨g, hg, hgood⟩

section Point

variable {P Q : Point}

theorem exists_eq_points (hP : good (.point P)) : ∃ H, G = points H ∧ P.curve = H.curve := by
  have hheld := hG.holds _ hP
  cases G with
  | residues H => exact hheld.elim
  | points H => exact ⟨H, rfl, hheld.curve_eq⟩

theorem neg (hP : good (.point P)) : good (.point P.neg) := by
  have hcheck := hG.check_eq hP
  obtain ⟨H, rfl, -⟩ := hG.exists_eq_points hP
  refine Outcome.of_eq_ok (hG.inverse _ hP) ?_
  rw [Group.inverse, hcheck]
  rfl

theorem add (hP : good (.point P)) (hQ : good (.point Q)) :
    ∃ R, P.add Q = .ok R ∧ good (.point R) := by
  obtain ⟨H, rfl, -⟩ := hG.exists_eq_points hP
  obtain ⟨e, he, hgood, -⟩ := hG.law.mul_gives _ _ hP hQ
  obtain ⟨R, hR, rfl⟩ := Outcome.map_eq_ok_iff.mp he
  exact ⟨R, hR, hgood⟩

theorem addMultiple (hP : good (.point P)) (hQ : good (.point Q)) (k : ℕ) :
    ∃ R, P.addMultiple Q k = .ok R ∧ good (.point R) := by
  induction k using Nat.strong_induction_on generalizing P Q with
  | _ k ih =>
    rw [Point.addMultiple]
    by_cases hzero : k = 0
    · exact ⟨P, if_pos hzero, hP⟩
    · have hhalf : k / 2 < k := by omega
      -- the addend is doubled for every bit, also where it is not added
      obtain ⟨sum, hsum, hgood⟩ := hG.add hP hQ
      obtain ⟨double, hdouble, hgoodDouble⟩ := hG.add hQ hQ
      rw [if_neg hzero, hdouble]
      by_cases hbit : k % 2 = 1
      · rw [if_pos hbit, hsum]
        exact ih _ hhalf hgood hgoodDouble
      · rw [if_neg hbit]
        exact ih _ hhalf hP hgoodDouble

theorem mul (hP : good (.point P)) (k : ℤ) : ∃ R, P.mul k = .ok R ∧ good (.point R) := by
  obtain ⟨H, rfl, hcurve⟩ := hG.exists_eq_points hP
  have hinfinity : good (.point P.curve.infinity) := by
    rw [hcurve]
    exact hG.law.made_one
  rw [Point.mul]
  split_ifs
  · exact hG.addMultiple hinfinity (hG.neg hP) _
  · exact hG.addMultiple hinfinity hP _

theorem of_isComputed (hP : P.IsComputed fun Q => good (.point Q)) : good (.point P) := by
  cases hP with
  | neg hP => exact hG.neg hP
  | add hP hQ hR => exact Outcome.of_eq_ok (hG.add hP hQ) hR
  | mul hP hR => exact Outcome.of_eq_ok (hG.mul hP _) hR

end Point

theorem cachedPower {S : CachedGroup} (hS : S.IsSound) (hgroup : S.group = G) {e : Element}
    (he : good e) (k : ℤ) :
    ∃ g after, S.cachedPower (.element e) k = (.ok g, after) ∧ good g := by
  subst hgroup
  have hheld := hG.holds e he
  obtain ⟨g, table, hpower, hplain, -⟩ := hS.cachedPower hheld k
  refine ⟨g, _, hpower, ?_⟩
  -- a table may hold no powers of its base, and then nothing but what the group holds is known
  rcases hG.raises with hraises | hall
  · exact Outcome.of_eq_ok (hG.power e k he) (hplain (hraises e he))
  · exact hall g (hS.holds_of_cachedPower hheld hpower)

end IsClosed

/-- The elements that a subgroup stands for are a set to which a group keeps that computes as a
    commutative group. -/
theorem Computes.isClosed {M : Type} [CommGroup M] {write : M → Element} (hG : G.Computes write)
    (hwrite : ∀ a, G.Raises (write a)) (N : Subgroup M) :
    G.IsClosed fun e => ∃ a ∈ N, e = write a := by
  have hcheck : ∀ a, G.check (.element (write a)) = .ok (write a) :=
    fun a => (hwrite a).holds.check_eq
  constructor
  case holds =>
    rintro _ ⟨a, -, rfl⟩
    exact (hwrite a).holds
  case law =>
    refine ⟨⟨1, N.one_mem, hG.identity_eq⟩, rfl, ?_, fun _ he => he⟩
    rintro _ _ ⟨a, ha, rfl⟩ ⟨b, hb, rfl⟩
    have hmul := hG.multiply_eq a b
    rw [multiply, hcheck, hcheck] at hmul
    exact ⟨_, hmul, ⟨a * b, N.mul_mem ha hb, rfl⟩, rfl⟩
  case inverse =>
    rintro _ ⟨a, ha, rfl⟩
    exact ⟨_, hG.inverse_eq a, a⁻¹, N.inv_mem ha, rfl⟩
  case power =>
    rintro _ k ⟨a, ha, rfl⟩
    exact ⟨_, hG.power_eq a k, _, N.zpow_mem ha _, rfl⟩
  case raises =>
    refine .inl ?_
    rintro _ ⟨a, -, rfl⟩
    exact hwrite a

end Group

end PrimeOrder
