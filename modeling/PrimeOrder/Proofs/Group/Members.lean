import Mathlib
import PrimeOrder.Proofs.Group.Range

namespace PrimeOrder

variable {p q : ℕ} {isPrime : PrimalityTest} {σ : Type} [RandomSource σ]

/-- Whether an element that a group holds is a member. -/
structure Group.HasMember (G : Group) (e : Element) : Prop where
  holds : G.Holds e
  isMember : G.isMember (.element e) = true

namespace ResidueParams.IsSafe

variable {s : ResidueParams}

theorem odd_order (h : s.IsSafe p q) : Odd q := by
  have hsafe := h.safe
  have hseven := h.seven_le
  exact h.order_prime.odd_of_ne_two (by omega)

/-- The power by the order of a class or of its negative is one. -/
theorem neg_pow_eq_one (h : s.IsSafe p q) {a : ZMod p} (ha : a ≠ 0) (hne : a ^ q ≠ 1) :
    (-a) ^ q = 1 := by
  have : Fact p.Prime := ⟨h.prime⟩
  have hpow := ZMod.pow_div_two_eq_neg_one_or_one p ha
  rw [h.half_eq] at hpow
  rw [h.odd_order.neg_pow, hpow.resolve_left hne, neg_neg]

/-- The powers by the order of a class and of its negative are not both one. -/
theorem neg_pow_ne_one (h : s.IsSafe p q) {a : ZMod p} (ha : a ^ q = 1) : (-a) ^ q ≠ 1 := by
  have : Fact (2 < p) := ⟨h.two_lt⟩
  rw [h.odd_order.neg_pow, ha]
  exact ZMod.neg_one_ne_one

end ResidueParams.IsSafe

namespace ResidueGroup

variable {G : ResidueGroup}

theorem hasMember_iff_pow (hG : G.params.IsSafe p q) {x : ℤ} (hpos : 0 < x) (hlt : x < p) :
    (Group.residues G).HasMember (.residue ⟨G, x⟩) ↔ (x : ZMod p) ^ q = 1 := by
  rw [← isMember_residue_iff hG hpos hlt]
  exact ⟨Group.HasMember.isMember, fun h => ⟨rfl, h⟩⟩

theorem hasMember_iff_exists_unit (hG : G.params.IsSafe p q) {e : Element} :
    (Group.residues G).HasMember e ↔
      ∃ u : (ZMod p)ˣ, u ^ (Group.residues G).order = 1 ∧ e = G.ofZMod (u : ZMod p) := by
  rw [← isMember_iff hG]
  refine ⟨Group.HasMember.isMember, fun h => ⟨?_, h⟩⟩
  obtain ⟨u, -, rfl⟩ := (isMember_iff hG).mp h
  rfl

/-- The members are the kernel of the power by the order. -/
theorem isClosed_members (hG : G.params.IsSafe p q) :
    (Group.residues G).IsClosed (Group.residues G).HasMember := by
  have : Fact p.Prime := ⟨hG.prime⟩
  have hclosed := (computes hG).isClosed (fun _ => rfl)
    (zpowGroupHom (Group.residues G).order : (ZMod p)ˣ →* (ZMod p)ˣ).ker
  simp only [MonoidHom.mem_ker, zpowGroupHom_apply, ← hasMember_iff_exists_unit hG] at hclosed
  exact hclosed

/-- Of a number and its negative the symbol picks the one that is a member. -/
theorem hasMember_of_jacobi (hG : G.params.IsSafe p q) {x symbol : ℤ} (hpos : 0 < x) (hlt : x < p)
    (hsymbol : Integer.jacobi x G.params.modulus = .ok symbol) :
    (Group.residues G).HasMember
      (.residue ⟨G, if symbol = 1 then x else G.params.modulus - x⟩) := by
  have : Fact p.Prime := ⟨hG.prime⟩
  have hx := intCast_ne_zero hpos hlt
  have htwo := hG.two_lt
  have hsquare : symbol = 1 ↔ (x : ZMod p) ^ q = 1 := by
    rw [← hG.isSquare_iff hx, ← Integer.jacobi_eq_one_iff (by omega) hx, ← hG.modulus_eq, hsymbol,
      Except.ok.injEq]
  -- minus one is no square, so exactly one of the two is
  by_cases hone : symbol = 1
  · rw [if_pos hone, hasMember_iff_pow hG hpos hlt]
    exact hsquare.mp hone
  · rw [if_neg hone, hG.modulus_eq, hasMember_iff_pow hG (by omega) (by omega), Int.cast_sub,
      Int.cast_natCast, ZMod.natCast_self, zero_sub]
    exact hG.neg_pow_eq_one hx (mt hsquare.mpr hone)

theorem hasMember_of_encode (hG : G.params.IsSafe p q) {data : Octets} {x : Residue}
    (hx : G.encode data = .ok x) : (Group.residues G).HasMember (.residue x) := by
  have hsafe := hG.safe
  have horder := hG.order_eq
  have hmodulus := hG.modulus_eq
  have hseven := hG.seven_le
  obtain ⟨hdata, symbol, hsymbol, rfl⟩ := exists_symbol_of_encode (by omega) (by omega) hx
  have hpos := value_marker_pos data
  have hle := value_marker_le_order (by omega) hdata
  exact hasMember_of_jacobi hG (by omega) (by omega) hsymbol

/-- What is made for a number in range is its square, and so a member. -/
theorem exists_member_ofDraw (hG : G.params.IsSafe p q) {root : ℤ} (hpos : 0 < root)
    (hlt : root < p) :
    ∃ e, (G.ofDraw root).map .residue = .ok e ∧ (Group.residues G).HasMember e := by
  have : Fact p.Prime := ⟨hG.prime⟩
  have hroot := intCast_ne_zero hpos hlt
  have hsquare := (hG.isSquare_iff (mul_ne_zero hroot hroot)).mp ⟨_, rfl⟩
  refine ⟨_, ofDraw_eq_ofZMod hG.modulus_eq hpos.le, ?_⟩
  rw [hasMember_iff_exists_unit hG, order_eq hG]
  refine ⟨Units.mk0 _ (mul_ne_zero hroot hroot), Units.ext ?_, rfl⟩
  rw [zpow_natCast, Units.val_pow_eq_pow_val, Units.val_mk0, hsquare, Units.val_one]

theorem isInvariant_members (hσ : RandomSource.KeepsBounds σ) (hG : G.params.IsSafe p q) :
    (Group.residues G).IsInvariant σ true (Group.residues G).HasMember := by
  have : Fact p.Prime := ⟨hG.prime⟩
  have htwo := hG.two_lt
  constructor
  case toIsClosed => exact isClosed_members hG
  case generator =>
    have hone := hG.one_lt_generator
    exact (hasMember_iff_pow hG (by omega) hG.generator_lt).mpr hG.generator_pow
  case generate =>
    intro check values e hchecked he
    obtain ⟨hrange, -, hmember⟩ := Group.generate_eq_ok_iff.mp he
    exact ⟨hrange.holds, hmember (hchecked rfl)⟩
  case encode =>
    intro data e he
    obtain ⟨x, hx, rfl⟩ := Outcome.map_eq_ok_iff.mp he
    exact hasMember_of_encode hG hx
  case random =>
    intro s e next he
    have hmodulus := hG.modulus_eq
    obtain ⟨root, hpos, hlt, hdraw⟩ := exists_root_of_random hσ (by omega) he
    rw [hmodulus] at hlt
    exact Outcome.of_eq_ok (exists_member_ofDraw hG hpos hlt) hdraw

end ResidueGroup

namespace CurveGroup

variable [Fact p.Prime] {G : CurveGroup}

theorem isMember_of_liftX (hmodulus : G.params.modulus = p) (hthree : p % 4 = 3) {n : ℤ} {P : Point}
    (hP : G.curve.liftX n = .ok (some P)) : (Group.points G).isMember (.element (.point P)) = true := by
  have hreads := reads hmodulus
  obtain ⟨y, rfl, hequation⟩ := Curve.liftX_eq_ok_some hreads hthree hP
  refine (Group.isMember_point _).trans ?_
  change G.curve.contains (.ofZMod _) (.ofZMod y) = true
  rw [Curve.contains_eq hreads, decide_eq_true_eq]
  exact hequation

namespace IsSmooth

theorem hasMember_iff_exists_ofAffine (hG : G.IsSmooth p) {e : Element} :
    (Group.points G).HasMember e ↔ ∃ P : (G.affine p).Point, e = G.ofAffine P := by
  rw [← hG.raises_iff]
  exact ⟨fun h => ⟨h.holds, h.isMember⟩, fun h => ⟨h.1, h.2⟩⟩

theorem isClosed_members (hG : G.IsSmooth p) :
    (Group.points G).IsClosed (Group.points G).HasMember := by
  have hclosed := (computes hG).isClosed
    (fun P => ⟨hG.holds_ofAffine P.toAdd, hG.isMember_ofAffine P.toAdd⟩) ⊤
  simp only [Subgroup.mem_top, true_and, Multiplicative.exists, toAdd_ofAdd,
    ← hG.hasMember_iff_exists_ofAffine] at hclosed
  exact hclosed

theorem hasMember_of_liftX (hG : G.IsSmooth p) (hthree : p % 4 = 3) {n : ℤ} {P : Point}
    (hP : G.curve.liftX n = .ok (some P)) : (Group.points G).HasMember (.point P) := by
  refine ⟨?_, isMember_of_liftX hG.modulus_eq hthree hP⟩
  obtain ⟨y, rfl, -⟩ := Curve.liftX_eq_ok_some (reads hG.modulus_eq) hthree hP
  exact hG.holds_iff_exists_coordinates.mpr ⟨_, rfl⟩

theorem isInvariant_members (hG : G.IsSmooth p) (hthree : p % 4 = 3)
    (hgenerator : G.isOnCurve G.generator = true) :
    (Group.points G).IsInvariant σ true (Group.points G).HasMember := by
  have hclosed := hG.isClosed_members
  have hbase : (Group.points G).HasMember (.point G.generator) := by
    obtain ⟨B, hB, -⟩ := hG.exists_ofAffine_eq_generator hgenerator
    exact hG.hasMember_iff_exists_ofAffine.mpr ⟨B, congrArg Element.point hB⟩
  constructor
  case toIsClosed => exact hclosed
  case generator => exact hbase
  case generate =>
    intro check values e hchecked he
    obtain ⟨hrange, -, hmember⟩ := Group.generate_eq_ok_iff.mp he
    exact ⟨hrange.holds, hmember (hchecked rfl)⟩
  case encode =>
    intro data e he
    obtain ⟨P, hP, rfl⟩ := Outcome.map_eq_ok_iff.mp he
    obtain ⟨-, c, -, hlift⟩ := exists_liftX_of_encode hP
    exact hG.hasMember_of_liftX hthree hlift
  case random =>
    intro s e next he
    obtain ⟨scalar, P, hP, rfl⟩ := exists_multiple_of_random he
    exact Outcome.of_eq_ok (hclosed.mul hbase scalar) hP

end IsSmooth

end CurveGroup

namespace Group

variable {G : Group}

/-- Whatever is asked of a validated group with checks, its elements are members. -/
theorem isInvariant_members (hprime : isPrime.IsSound) (hσ : RandomSource.KeepsBounds σ)
    (hG : G.IsAccepted isPrime) (hvalid : G.validate isPrime = .ok true) :
    G.IsInvariant σ true G.HasMember := by
  cases G with
  | residues G =>
    rw [validate_residues] at hvalid
    obtain ⟨p, q, hsafe⟩ := ResidueParams.exists_isSafe_of_isValid hprime (Except.ok.inj hvalid)
    exact ResidueGroup.isInvariant_members hσ hsafe
  | points G =>
    obtain ⟨hmodulus, -, -, -, hgenerator, -⟩ := CurveGroup.validate_eq_ok_true_iff.mp hvalid
    have hp := hprime _ hmodulus
    have : Fact G.params.modulus.toNat.Prime := ⟨hp⟩
    have hpos := hp.pos
    have hform := (CurveGroup.IsAccepted.isUsable hprime.rejectsBelowTwo hG).1
    have hsmooth : G.IsSmooth G.params.modulus.toNat :=
      CurveGroup.IsAccepted.isSmooth hprime.rejectsBelowTwo hG (by omega)
    exact hsmooth.isInvariant_members (by omega) hgenerator

/-- All elements that a validated group hands out are its own and members, as long as those that are
    made of given values are checked. -/
theorem members_of_run (hprime : isPrime.IsSound) (hσ : RandomSource.KeepsBounds σ) {τ : Type}
    [RandomSource τ] {backend : Backend} {id : ℕ} {r : GroupRequest} {source next : τ}
    (hbuild : Group.build isPrime backend id r source = .ok (G, next))
    (hvalid : G.validate isPrime = .ok true) {S : CachedGroup} {made : List Element}
    (hrun : Run σ isPrime G true S made) :
    ∀ e ∈ made, G.owns (.element e) = true ∧ G.isMember (.element e) = true := by
  have haccepted := isAccepted_of_build hbuild
  have hproper : G.IsProper := by
    apply haccepted.isProper hprime.rejectsBelowTwo
    rintro H rfl
    exact hprime _ (CurveGroup.validate_eq_ok_true_iff.mp hvalid).1
  obtain ⟨-, -, hmade⟩ := (isInvariant_members hprime hσ haccepted hvalid).run hproper hrun
  intro e he
  exact ⟨(hmade e he).holds.owns, (hmade e he).isMember⟩

/-- The inverse of the generator, once the generator has been asked for. -/
theorem members_of_run_modulo23 :
    ∃ S e, Run Generator (fun x => decide x.toNat.Prime) (points CurveGroup.modulo23) true S
        [(points CurveGroup.modulo23).generator, e] ∧
      (points CurveGroup.modulo23).inverse (.element (points CurveGroup.modulo23).generator) = .ok e ∧
      (points CurveGroup.modulo23).owns (.element e) = true ∧
      (points CurveGroup.modulo23).isMember (.element e) = true := by
  have hvalid : (points CurveGroup.modulo23).validate (fun x => decide x.toNat.Prime) = .ok true :=
    (CurveGroup.ofRequest_parameters_eq_ok_iff.mp CurveGroup.ofRequest_modulo23).2.2
  have hgenerator : Run Generator (fun x => decide x.toNat.Prime) (points CurveGroup.modulo23) true
      ⟨points CurveGroup.modulo23, []⟩ [(points CurveGroup.modulo23).generator] :=
    .call (.query .generator) (Generator.ofSeed 1) .new
      (fun _ he _ => absurd he List.not_mem_nil) (fun _ => rfl)
  have hrun : Run Generator (fun x => decide x.toNat.Prime) (points CurveGroup.modulo23) true _ _ :=
    .call (.query (.inverse (.element (points CurveGroup.modulo23).generator))) (Generator.ofSeed 1)
      hgenerator (fun e he _ => by simpa [Call.operands, Query.operands] using he) (fun _ => rfl)
  refine ⟨_, .point CurveGroup.modulo23.generator.neg, hrun, by decide, ?_⟩
  exact members_of_run PrimalityTest.decides_trialDivision.isSound Generator.staysInRange.keepsBounds
    (build_modulo23 (Generator.ofSeed 1)) hvalid hrun _
    (List.mem_cons_of_mem _ List.mem_cons_self)

end Group

end PrimeOrder
