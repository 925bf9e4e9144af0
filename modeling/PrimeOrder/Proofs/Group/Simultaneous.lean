import Mathlib
import PrimeOrder.Proofs.Group.Order
import PrimeOrder.Proofs.Group.Subgroup
import PrimeOrder.Proofs.Window.Simultaneous

namespace PrimeOrder

namespace Group

/-- Whether a group has what its arithmetic needs: a modulus beyond one for residues, a smooth curve
    over a prime for points, and a positive order to reduce exponents by. -/
def IsProper : Group → Prop
  | residues G => 1 < G.params.modulus ∧ 0 < G.params.order
  | points G => ∃ p : ℕ, p.Prime ∧ G.IsSmooth p ∧ 0 < G.params.order

/-- Whether the powers that a group computes of an element are those of its value: of every residue
    that the group made, and of the points on the curve. -/
def Raises : Group → Element → Prop
  | residues G, e => (residues G).Holds e
  | points G, e => (points G).Holds e ∧ (points G).isMember (.element e) = true

/-- Multiplies by the powers of further bases, one after the other from the left. -/
def mulPowers (G : Group) (product : Element) : List (Element × ℤ) → Except Error Element
  | [] => .ok product
  | (e, k) :: rest => do
    let power ← G.power (.element e) k
    let next ← G.multiply (.element product) (.element power)
    G.mulPowers next rest

/-- The product of powers, computed one after the other from the left. -/
def plainProduct (G : Group) : List (Element × ℤ) → Except Error Element
  | [] => .error .noBase
  | (e, k) :: rest => do
    let power ← G.power (.element e) k
    G.mulPowers power rest

/-- Whether a group multiplies some of its elements as a commutative monoid multiplies what they read
    as, and raises them to powers by the reduced exponent. Products and powers are made in a normal
    form in which what they read as tells them apart. -/
structure Exponentiates (G : Group) {M : Type} [CommMonoid M] (member made : Element → Prop)
    (read : Element → M) : Prop where
  law : G.law.Computes member made read
  check_eq : ∀ e, member e → G.check (.element e) = .ok e
  power_gives : ∀ e k, member e → Window.Law.Gives made read (G.power (.element e) k)
    (read e ^ (G.reduceExponent k).toNat)
  eq_of_read_eq : ∀ e f, made e → made f → read e = read f → e = f

theorem checkAll_eq {G : Group} {bases : List Element}
    (hbases : ∀ e ∈ bases, G.check (.element e) = .ok e) :
    G.checkAll (bases.map .element) = .ok bases := by
  induction bases with
  | nil => rfl
  | cons e rest ih =>
    rw [List.map_cons, checkAll, hbases e List.mem_cons_self, Outcome.ok_bind,
      ih fun f hf => hbases f (List.mem_cons_of_mem e hf)]
    rfl

/-- Simultaneous exponentiation of elements that the group made takes the multiplication of the group
    only. -/
theorem productOfPowers_gives_of_law (G : Group) {M : Type} [CommMonoid M]
    {member made : Element → Prop} {read : Element → M} (hlaw : G.law.Computes member made read)
    (hcheck : ∀ e, member e → G.check (.element e) = .ok e) {bases : List Element}
    {exponents : List ℤ} (hlength : bases.length = exponents.length) (hne : bases ≠ [])
    (hbases : ∀ e ∈ bases, member e) :
    Window.Law.Gives made read (G.productOfPowers (bases.map .element) exponents)
      ((bases.zip exponents).map fun term => read term.1 ^ (G.reduceExponent term.2).toNat).prod := by
  have hnonempty : (bases.map Value.element).isEmpty = false := by simpa using hne
  have hmember : ∀ term ∈ bases.zip (exponents.map fun k => (G.reduceExponent k).toNat),
      member term.1 := fun term hterm => hbases _ (List.of_mem_zip hterm).1
  have hgives := hlaw.productOfPowers_gives hmember
  rw [productOfPowers, if_neg (by simpa using hlength), hnonempty, if_neg Bool.false_ne_true,
    checkAll_eq fun e he => hcheck e (hbases e he), Outcome.ok_bind]
  rw [List.zip_map_right, List.map_map] at hgives
  rw [List.zip_map_right]
  exact hgives

namespace Exponentiates

open Window.Law

variable {G : Group} {M : Type} [CommMonoid M] {member made : Element → Prop} {read : Element → M}

theorem eq_of_gives (hG : G.Exponentiates member made read) {outcome outcome' : Except Error Element}
    {m : M} (h : Gives made read outcome m) (h' : Gives made read outcome' m) :
    ∃ e, outcome = .ok e ∧ outcome' = .ok e := by
  obtain ⟨e, rfl, he, hread⟩ := h
  obtain ⟨e', rfl, he', hread'⟩ := h'
  exact ⟨e, rfl, by rw [hG.eq_of_read_eq e e' he he' (hread.trans hread'.symm)]⟩

theorem multiply_gives (hG : G.Exponentiates member made read) {e f : Element} (he : member e)
    (hf : member f) : Gives made read (G.multiply (.element e) (.element f)) (read e * read f) := by
  rw [multiply, hG.check_eq e he, hG.check_eq f hf, Outcome.ok_bind, Outcome.ok_bind]
  exact hG.law.mul_gives e f he hf

theorem mulPowers_gives (hG : G.Exponentiates member made read) {terms : List (Element × ℤ)}
    (hterms : ∀ term ∈ terms, member term.1) {product : Element} (hproduct : made product) :
    Gives made read (G.mulPowers product terms) (read product *
      (terms.map fun term => read term.1 ^ (G.reduceExponent term.2).toNat).prod) := by
  induction terms generalizing product with
  | nil => exact ⟨product, rfl, hproduct, by rw [List.map_nil, List.prod_nil, mul_one]⟩
  | cons term rest ih =>
    obtain ⟨power, hpower, hmade, hread⟩ :=
      hG.power_gives term.1 term.2 (hterms term List.mem_cons_self)
    obtain ⟨next, hnext, hmadeNext, hreadNext⟩ :=
      hG.multiply_gives (hG.law.member_of_made _ hproduct) (hG.law.member_of_made _ hmade)
    rw [mulPowers, hpower, Outcome.ok_bind, hnext, Outcome.ok_bind, List.map_cons, List.prod_cons,
      ← mul_assoc, ← hread, ← hreadNext]
    exact ih (fun t ht => hterms t (List.mem_cons_of_mem term ht)) hmadeNext

theorem plainProduct_gives (hG : G.Exponentiates member made read) {terms : List (Element × ℤ)}
    (hne : terms ≠ []) (hterms : ∀ term ∈ terms, member term.1) :
    Gives made read (G.plainProduct terms)
      (terms.map fun term => read term.1 ^ (G.reduceExponent term.2).toNat).prod := by
  cases terms with
  | nil => exact absurd rfl hne
  | cons term rest =>
    obtain ⟨power, hpower, hmade, hread⟩ :=
      hG.power_gives term.1 term.2 (hterms term List.mem_cons_self)
    rw [plainProduct, hpower, Outcome.ok_bind, List.map_cons, List.prod_cons, ← hread]
    exact hG.mulPowers_gives (fun t ht => hterms t (List.mem_cons_of_mem term ht)) hmade

theorem productOfPowers_gives (hG : G.Exponentiates member made read) {bases : List Element}
    {exponents : List ℤ} (hlength : bases.length = exponents.length) (hne : bases ≠ [])
    (hbases : ∀ e ∈ bases, member e) :
    Gives made read (G.productOfPowers (bases.map .element) exponents)
      ((bases.zip exponents).map fun term => read term.1 ^ (G.reduceExponent term.2).toNat).prod :=
  G.productOfPowers_gives_of_law hG.law hG.check_eq hlength hne hbases

end Exponentiates

end Group

namespace ResidueGroup

/-- The class that a residue belongs to. -/
def toZMod (p : ℕ) : Element → ZMod p
  | .residue x => x.value
  | .point _ => 0

theorem toZMod_ofZMod {p : ℕ} [NeZero p] (G : ResidueGroup) (a : ZMod p) :
    toZMod p (G.ofZMod a) = a := by
  simp [toZMod, ofZMod]

/-- A group of residues multiplies and raises all elements it made as the classes modulo its modulus,
    whether these are squares or not. -/
theorem exponentiates {p : ℕ} {G : ResidueGroup} (hp : 1 < p) (hmodulus : G.params.modulus = p) :
    (Group.residues G).Exponentiates (Group.residues G).Raises
      (fun e => ∃ a : ZMod p, e = G.ofZMod a) (toZMod p) := by
  have : NeZero p := ⟨by omega⟩
  have : Fact (1 < p) := ⟨hp⟩
  have hone : (Group.residues G).identity = G.ofZMod (1 : ZMod p) := by
    change Element.residue ⟨G, 1⟩ = .residue ⟨G, _⟩
    rw [ZMod.val_one, Nat.cast_one]
  have hresidue : ∀ e, (Group.residues G).Raises e → ∃ n, e = .residue ⟨G, n⟩ := by
    rintro (⟨group, n⟩ | P) he
    · obtain rfl : group = G := he
      exact ⟨n, rfl⟩
    · exact he.elim
  constructor
  case law =>
    refine ⟨⟨1, hone⟩, ?_, ?_, ?_⟩
    · change toZMod p (Group.residues G).identity = 1
      rw [hone, toZMod_ofZMod]
    · intro e f he hf
      obtain ⟨m, rfl⟩ := hresidue e he
      obtain ⟨n, rfl⟩ := hresidue f hf
      have hmultiply := multiply_residue hmodulus m n
      rw [Group.multiply, check_residue, check_residue] at hmultiply
      exact ⟨_, hmultiply, ⟨_, rfl⟩, toZMod_ofZMod G _⟩
    · rintro _ ⟨a, rfl⟩
      rfl
  case check_eq => exact fun e he => Group.Holds.check_eq he
  case power_gives =>
    intro e k he
    obtain ⟨n, rfl⟩ := hresidue e he
    exact ⟨_, power_residue hmodulus n k, ⟨_, rfl⟩, toZMod_ofZMod G _⟩
  case eq_of_read_eq =>
    rintro _ _ ⟨a, rfl⟩ ⟨b, rfl⟩ hread
    rw [toZMod_ofZMod, toZMod_ofZMod] at hread
    rw [hread]

end ResidueGroup

namespace CurveGroup

theorem IsSmooth.raises_ofAffine {p : ℕ} [Fact p.Prime] {G : CurveGroup} (hG : G.IsSmooth p)
    (P : (G.affine p).Point) : (Group.points G).Raises (G.ofAffine P) :=
  ⟨hG.holds_ofAffine P, hG.isMember_ofAffine P⟩

theorem IsSmooth.raises_iff {p : ℕ} [Fact p.Prime] {G : CurveGroup} (hG : G.IsSmooth p)
    {e : Element} : (Group.points G).Raises e ↔ ∃ P : (G.affine p).Point, e = G.ofAffine P := by
  constructor
  · rintro ⟨hholds, hmember⟩
    exact (hG.isMember_iff hholds).mp hmember
  · rintro ⟨P, rfl⟩
    exact hG.raises_ofAffine P

/-- The point of the curve that a member stands for, written with a multiplication. -/
noncomputable def toAffine (G : CurveGroup) (p : ℕ) (e : Element) :
    Multiplicative (G.affine p).Point :=
  .ofAdd (Function.invFun G.ofAffine e)

theorem toAffine_ofAffine {p : ℕ} [NeZero p] (G : CurveGroup) (P : (G.affine p).Point) :
    G.toAffine p (G.ofAffine P) = .ofAdd P :=
  congrArg Multiplicative.ofAdd (Function.leftInverse_invFun G.ofAffine_injective P)

/-- A group of points multiplies and raises its members as the points of its curve. -/
theorem IsSmooth.exponentiates {p : ℕ} [Fact p.Prime] {G : CurveGroup} (hG : G.IsSmooth p)
    (horder : 0 < G.params.order) :
    (Group.points G).Exponentiates (Group.points G).Raises (Group.points G).Raises
      (G.toAffine p) := by
  constructor
  case law =>
    refine ⟨hG.raises_ofAffine 0, G.toAffine_ofAffine 0, ?_, fun _ he => he⟩
    intro e f he hf
    obtain ⟨P, rfl⟩ := hG.raises_iff.mp he
    obtain ⟨Q, rfl⟩ := hG.raises_iff.mp hf
    refine ⟨_, hG.mul_ofAffine P Q, hG.raises_ofAffine _, ?_⟩
    rw [toAffine_ofAffine, toAffine_ofAffine, toAffine_ofAffine, ofAdd_add]
  case check_eq => exact fun e he => he.1.check_eq
  case power_gives =>
    intro e k he
    obtain ⟨P, rfl⟩ := hG.raises_iff.mp he
    have hreduced : (((Group.points G).reduceExponent k).toNat : ℤ) = k.fmod G.params.order :=
      Int.toNat_of_nonneg (Int.fmod_nonneg_of_pos k horder)
    refine ⟨_, hG.power_ofAffine P k, hG.raises_ofAffine _, ?_⟩
    rw [toAffine_ofAffine, toAffine_ofAffine, ← ofAdd_nsmul, ← hreduced, natCast_zsmul]
  case eq_of_read_eq =>
    intro e f he hf hread
    obtain ⟨P, rfl⟩ := hG.raises_iff.mp he
    obtain ⟨Q, rfl⟩ := hG.raises_iff.mp hf
    rw [toAffine_ofAffine, toAffine_ofAffine] at hread
    rw [Multiplicative.ofAdd.injective hread]

end CurveGroup

namespace Group

/-- Whatever the kind of a proper group, its multiplication and its powers are those of some
    commutative monoid. -/
theorem IsProper.exists_exponentiates {G : Group} (hG : G.IsProper) :
    ∃ (M : Type) (_ : CommMonoid M) (made : Element → Prop) (read : Element → M),
      G.Exponentiates G.Raises made read := by
  cases G with
  | residues G =>
    have hmodulus : G.params.modulus = (G.params.modulus.toNat : ℤ) := by
      have := hG.1
      omega
    have hlarge : 1 < G.params.modulus.toNat := by
      have := hG.1
      omega
    exact ⟨_, _, _, _, ResidueGroup.exponentiates hlarge hmodulus⟩
  | points G =>
    obtain ⟨p, hp, hsmooth, horder⟩ := hG
    have : Fact p.Prime := ⟨hp⟩
    exact ⟨_, _, _, _, hsmooth.exponentiates horder⟩

/-- Simultaneous exponentiation gives what the powers of the single bases multiply to from the left,
    for any integers as exponents and however the bases repeat. -/
theorem productOfPowers_eq_plainProduct {G : Group} (hG : G.IsProper) {bases : List Element}
    {exponents : List ℤ} (hlength : bases.length = exponents.length) (hne : bases ≠ [])
    (hbases : ∀ e ∈ bases, G.Raises e) :
    ∃ product, G.productOfPowers (bases.map .element) exponents = .ok product ∧
      G.plainProduct (bases.zip exponents) = .ok product := by
  obtain ⟨M, _, made, read, hexponentiates⟩ := hG.exists_exponentiates
  have hzip : bases.zip exponents ≠ [] := by
    rw [← List.length_pos_iff, List.length_zip, ← hlength, min_self]
    exact List.length_pos_iff.mpr hne
  exact hexponentiates.eq_of_gives (hexponentiates.productOfPowers_gives hlength hne hbases)
    (hexponentiates.plainProduct_gives hzip fun term hterm => hbases _ (List.of_mem_zip hterm).1)

theorem isProper_residues_modulo23 : (residues ResidueGroup.modulo23).IsProper :=
  ⟨by decide, by decide⟩

theorem isProper_points_modulo23 : (points CurveGroup.modulo23).IsProper :=
  ⟨23, by norm_num, CurveGroup.isSmooth_modulo23, by decide⟩

/-- Five is not a square modulo 23, and the exponents are negative, zero and beyond the order. -/
theorem productOfPowers_eq_plainProduct_modulo23 :
    (residues ResidueGroup.modulo23).IsProper ∧ (points CurveGroup.modulo23).IsProper ∧
      (∃ product, (residues ResidueGroup.modulo23).productOfPowers
          ([.residue ⟨.modulo23, 5⟩, .residue ⟨.modulo23, 1⟩, .residue ⟨.modulo23, 5⟩].map .element)
          [-3, 0, 40] = .ok product ∧
        (residues ResidueGroup.modulo23).plainProduct
          ([.residue ⟨.modulo23, 5⟩, .residue ⟨.modulo23, 1⟩, .residue ⟨.modulo23, 5⟩].zip
            [-3, 0, 40]) = .ok product) ∧
      ∃ product, (points CurveGroup.modulo23).productOfPowers
          ([.point CurveGroup.modulo23.generator, .point CurveGroup.modulo23.identity].map .element)
          [40, -22] = .ok product ∧
        (points CurveGroup.modulo23).plainProduct
          ([.point CurveGroup.modulo23.generator, .point CurveGroup.modulo23.identity].zip
            [40, -22]) = .ok product := by
  have : Fact (Nat.Prime 23) := ⟨by norm_num⟩
  have hidentity := CurveGroup.isSmooth_modulo23.raises_ofAffine 0
  have hgenerator : (points CurveGroup.modulo23).Raises (.point CurveGroup.modulo23.generator) := by
    obtain ⟨B, hB, -⟩ := CurveGroup.isSmooth_modulo23.exists_ofAffine_eq_generator (by decide)
    rw [hB]
    exact CurveGroup.isSmooth_modulo23.raises_ofAffine B
  refine ⟨isProper_residues_modulo23, isProper_points_modulo23, ?_, ?_⟩
  · refine productOfPowers_eq_plainProduct isProper_residues_modulo23 rfl (List.cons_ne_nil _ _) ?_
    simp [Raises, Holds]
  · refine productOfPowers_eq_plainProduct isProper_points_modulo23 rfl (List.cons_ne_nil _ _) ?_
    simp only [List.mem_cons, List.not_mem_nil, or_false, forall_eq_or_imp, forall_eq]
    exact ⟨hgenerator, hidentity⟩

end Group

end PrimeOrder
