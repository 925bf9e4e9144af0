import Mathlib
import PrimeOrder.Proofs.Group.Construction
import PrimeOrder.Proofs.Octets

namespace PrimeOrder

theorem value_marker_lt (data : Octets) :
    Octets.value (encodingMarker :: data) < 2 * 256 ^ data.length := by
  have hmarker : encodingMarker.toNat = 1 := rfl
  have := Octets.value_lt data
  rw [Octets.value_cons, hmarker]
  omega

theorem value_marker_pos (data : Octets) : 0 < Octets.value (encodingMarker :: data) := by
  rw [Octets.value_cons]
  exact Nat.add_pos_left (Nat.mul_pos (by decide) (by positivity)) _

/-- A number with more bits than a marked string is not below it. -/
theorem value_marker_lt_of_bitLength {data : Octets} {n : ℤ} (hn : 0 ≤ n)
    (hbits : 8 * data.length + 2 ≤ Integer.bitLength n) :
    (Octets.value (encodingMarker :: data) : ℤ) < n := by
  have hvalue := value_marker_lt data
  have hlarge : ¬ n.natAbs < 2 ^ (8 * data.length + 1) := by
    rw [← Integer.bitLength_le_iff]
    omega
  rw [pow_succ, pow_mul, show 2 ^ 8 = 256 from rfl] at hlarge
  omega

namespace ResidueGroup

variable {G : ResidueGroup} {data : Octets}

theorem value_marker_le_order (horder : 0 < G.params.order) (hdata : data.length ≤ G.encodingLimit) :
    (Octets.value (encodingMarker :: data) : ℤ) ≤ G.params.order := by
  cases data with
  | nil => exact horder
  | cons octet rest =>
    apply le_of_lt
    apply value_marker_lt_of_bitLength horder.le
    rw [encodingLimit_eq, List.length_cons] at hdata
    rw [List.length_cons]
    omega

/-- Over an odd modulus both engines tell the same squares, and so choose the same number. -/
theorem exists_symbol_of_encode (hmodulus : G.params.modulus = 2 * G.params.order + 1)
    (horder : 0 < G.params.order) {x : Residue} (hx : G.encode data = .ok x) :
    data.length ≤ G.encodingLimit ∧ ∃ symbol,
      Integer.jacobi (Octets.value (encodingMarker :: data)) G.params.modulus = .ok symbol ∧
        x = ⟨G, if symbol = 1 then Octets.value (encodingMarker :: data)
          else G.params.modulus - Octets.value (encodingMarker :: data)⟩ := by
  rw [encode_eq G (by omega) (by omega)] at hx
  obtain ⟨n, hn, rfl⟩ := Outcome.map_eq_ok_iff.mp hx
  unfold SignedResidues.encode at hn
  split_ifs at hn with hlong
  obtain ⟨symbol, hsymbol, hpure⟩ := Outcome.bind_eq_ok_iff.mp hn
  cases hpure
  have hlimit : G.encodingLimit = SignedResidues.encodingLimit G.params := encodingLimit_eq G
  exact ⟨by omega, symbol, hsymbol, rfl⟩

/-- The number that is decoded: a residue in the lower half, or the negative of one in the upper. -/
def lowerHalf (G : ResidueGroup) (n : ℤ) : ℤ :=
  if n ≤ G.params.order then n else G.params.modulus - n

theorem decode_eq_ok_iff {x : Residue} (hnonneg : 0 ≤ G.lowerHalf x.value) :
    G.decode x = .ok data ↔ G.lowerHalf x.value = Octets.value (encodingMarker :: data) := by
  have hmarker : encodingMarker ≠ 0 := by decide
  have hread : G.decode x = .ok data ↔
      Octets.ofNat (G.lowerHalf x.value).toNat = encodingMarker :: data := by
    simp only [decode_eq, SignedResidues.decode]
    rw [← lowerHalf]
    cases Octets.ofNat (G.lowerHalf x.value).toNat with
    | nil => simp
    | cons octet rest => by_cases hoctet : octet = encodingMarker <;> simp [hoctet]
  rw [hread, Octets.ofNat_eq_cons_iff hmarker]
  omega

theorem decode_of_encode (hmodulus : G.params.modulus = 2 * G.params.order + 1)
    (horder : 0 < G.params.order) {x : Residue} (hx : G.encode data = .ok x) :
    G.decode x = .ok data := by
  obtain ⟨hdata, symbol, -, rfl⟩ := exists_symbol_of_encode hmodulus horder hx
  have hle := value_marker_le_order horder hdata
  -- the number is in the lower half of the residues and its negative in the upper
  have hhalf : G.lowerHalf (if symbol = 1 then Octets.value (encodingMarker :: data)
      else G.params.modulus - Octets.value (encodingMarker :: data)) =
        Octets.value (encodingMarker :: data) := by
    unfold lowerHalf
    split_ifs <;> omega
  exact (decode_eq_ok_iff (by rw [hhalf]; exact Int.natCast_nonneg _)).mpr hhalf

theorem decode_element_of_encode (hmodulus : G.params.modulus = 2 * G.params.order + 1)
    (horder : 0 < G.params.order) {x : Residue} (hx : G.encode data = .ok x) :
    (Group.residues G).decode (.element (.residue x)) = .ok data := by
  obtain ⟨-, symbol, -, rfl⟩ := exists_symbol_of_encode hmodulus horder hx
  rw [Group.decode, check_residue, Outcome.ok_bind]
  exact decode_of_encode hmodulus horder hx

end ResidueGroup

namespace CurveGroup

variable {G : CurveGroup} {data : Octets}

theorem abscissa_eq (data : Octets) (counter : ℕ) :
    abscissa data counter = Octets.value (encodingMarker :: (data ++ [UInt8.ofNat counter])) := rfl

/-- From nine bits on a modulus has room for the marker and one byte, and the allowed length counts
    the bytes that still fit besides. -/
theorem abscissa_lt_modulus (hlarge : 512 ≤ G.params.modulus) (hdata : data.length ≤ G.encodingLimit)
    (counter : ℕ) : (abscissa data counter : ℤ) < G.params.modulus := by
  rw [abscissa_eq]
  cases data with
  | nil =>
    have := value_marker_lt [UInt8.ofNat counter]
    rw [List.nil_append]
    simp only [List.length_singleton] at this
    omega
  | cons octet rest =>
    apply value_marker_lt_of_bitLength (by omega)
    simp only [encodingLimit, List.length_append, List.length_cons, List.length_nil] at hdata ⊢
    omega

theorem exists_liftX_of_firstPoint {counter count : ℕ} {P : Point}
    (hP : G.firstPoint data counter count = .ok P) :
    ∃ c, c < counter + count ∧ G.curve.liftX (abscissa data c) = .ok (some P) := by
  induction count generalizing counter with
  | zero => cases hP
  | succ count ih =>
    rw [firstPoint, Outcome.bind_eq_ok_iff] at hP
    obtain ⟨found, hfound, hP⟩ := hP
    cases found with
    | some point =>
      cases hP
      exact ⟨counter, by omega, hfound⟩
    | none =>
      obtain ⟨c, hc, hlift⟩ := ih hP
      exact ⟨c, by omega, hlift⟩

/-- The point of the first abscissa that has one is found, if the counters come to it. -/
theorem firstPoint_eq {found : ℕ → Option Point}
    (hfound : ∀ c, G.curve.liftX (abscissa data c) = .ok (found c)) (counter count : ℕ) :
    (G.firstPoint data counter count = .error .noPointFound ∧
        ∀ c, counter ≤ c → c < counter + count → found c = none) ∨
      ∃ c P, counter ≤ c ∧ c < counter + count ∧ found c = some P ∧
        (∀ earlier, counter ≤ earlier → earlier < c → found earlier = none) ∧
        G.firstPoint data counter count = .ok P := by
  induction count generalizing counter with
  | zero => exact .inl ⟨rfl, fun c hle hlt => absurd hle (not_le.mpr hlt)⟩
  | succ count ih =>
    rw [firstPoint, hfound, Outcome.ok_bind]
    cases hcounter : found counter with
    | some P =>
      exact .inr ⟨counter, P, le_rfl, by omega, hcounter, fun _ hle hlt => absurd hle (not_le.mpr hlt),
        rfl⟩
    | none =>
      -- a counter up to the one that is found is the first or among the rest
      have hrest : ∀ c, counter ≤ c → (counter + 1 ≤ c → found c = none) → found c = none := by
        intro c hle hnone
        rcases hle.eq_or_lt with rfl | hlt
        · exact hcounter
        · exact hnone hlt
      rcases ih (counter + 1) with ⟨herror, hnone⟩ | ⟨c, P, hle, hlt, hc, hearlier, hP⟩
      · exact .inl ⟨herror, fun c hle hlt => hrest c hle fun h => hnone c h (by omega)⟩
      · exact .inr ⟨c, P, by omega, by omega, hc,
          fun d hle hlt => hrest d hle fun h => hearlier d h hlt, hP⟩

theorem exists_liftX_of_encode {P : Point} (hP : G.encode data = .ok P) :
    data.length ≤ G.encodingLimit ∧
      ∃ c < 256, G.curve.liftX (abscissa data c) = .ok (some P) := by
  unfold encode at hP
  split_ifs at hP with hlong
  obtain ⟨c, hc, hlift⟩ := exists_liftX_of_firstPoint hP
  exact ⟨by omega, c, by omega, hlift⟩

/-- A point that is made for an abscissa has it, reduced. -/
theorem exists_eq_point_of_liftX {C : Curve} {n : ℤ} {P : Point} (hP : C.liftX n = .ok (some P)) :
    ∃ y, P = C.point (C.field.reduce n) y := by
  rw [Curve.liftX, Outcome.bind_eq_ok_iff] at hP
  obtain ⟨x, hx, hP⟩ := hP
  obtain ⟨root, -, hP⟩ := Outcome.bind_eq_ok_iff.mp hP
  obtain ⟨y, -, rfl⟩ := Option.map_eq_some_iff.mp (Except.ok.inj hP)
  unfold PrimeField.element at hx
  split_ifs at hx
  cases hx
  exact ⟨y, rfl⟩

theorem exists_canonical_of_liftX {C : Curve} {n : ℕ} (hlt : (n : ℤ) < C.field.modulus) {P : Point}
    (hP : C.liftX n = .ok (some P)) : ∃ y, P.canonical = some ((n : ℤ), y) := by
  obtain ⟨y, rfl⟩ := exists_eq_point_of_liftX hP
  have hreduced : (C.field.reduce n).value = n := Int.fmod_eq_of_lt (Int.natCast_nonneg n) hlt
  refine ⟨y.value, ?_⟩
  simp only [Point.canonical, Curve.point, Option.map_some, hreduced]

theorem decode_of_encode (hlarge : 512 ≤ G.params.modulus) {P : Point}
    (hP : G.encode data = .ok P) : decode P = .ok data := by
  obtain ⟨hdata, c, -, hlift⟩ := exists_liftX_of_encode hP
  obtain ⟨y, hcanonical⟩ := exists_canonical_of_liftX (abscissa_lt_modulus hlarge hdata c) hlift
  have hoctets : Octets.ofNat (abscissa data c) = encodingMarker :: (data ++ [UInt8.ofNat c]) :=
    Octets.ofNat_value (by decide) _
  simp only [decode, hcanonical, Int.toNat_natCast, hoctets, if_pos, List.dropLast_concat]

theorem decode_element_of_encode (hlarge : 512 ≤ G.params.modulus) {P : Point}
    (hP : G.encode data = .ok P) : (Group.points G).decode (.element (.point P)) = .ok data := by
  obtain ⟨-, c, -, hlift⟩ := exists_liftX_of_encode hP
  obtain ⟨y, rfl⟩ := exists_eq_point_of_liftX hlift
  have howns : G.owns (G.curve.point (G.curve.field.reduce (abscissa data c)) y) = true :=
    beq_self_eq_true G.curve
  rw [Group.decode, Group.check, Group.ownsElement, howns, if_pos rfl, Outcome.ok_bind]
  exact decode_of_encode hlarge hP

end CurveGroup

namespace Group

/-- Whether no number that stands for a byte string wraps: it is at most the order of a group of
    residues, and below the modulus of a curve whatever byte counts the attempts. -/
def HasRoomFor : Group → Octets → Prop
  | residues G, data => (Octets.value (encodingMarker :: data) : ℤ) ≤ G.params.order
  | points G, data => ∀ counter < 256, (CurveGroup.abscissa data counter : ℤ) < G.params.modulus

/-- However a group is built, no byte string of an allowed length wraps, and what encodes one is
    decoded to it. A curve needs a modulus of nine bits for that. -/
theorem hasRoomFor_of_length_le {isPrime : PrimalityTest} (hprime : isPrime.RejectsBelowTwo)
    {σ : Type} [RandomSource σ] {backend : Backend} {id : ℕ} {r : GroupRequest} {source next : σ}
    {G : Group} (hG : Group.build isPrime backend id r source = .ok (G, next))
    (hlarge : ∀ H, G = .points H → 512 ≤ H.params.modulus) {data : Octets}
    (hdata : data.length ≤ G.encodingLimit) :
    G.HasRoomFor data ∧ ∀ e, G.encode data = .ok e → G.decode (.element e) = .ok data := by
  have haccepted := isAccepted_of_build hG
  cases G with
  | residues G =>
    have hmodulus := ResidueParams.IsAccepted.modulus_eq haccepted
    have horder := (ResidueParams.IsAccepted.isUsable hprime haccepted).2
    refine ⟨ResidueGroup.value_marker_le_order horder hdata, fun e he => ?_⟩
    obtain ⟨x, hx, rfl⟩ := Outcome.map_eq_ok_iff.mp he
    exact ResidueGroup.decode_element_of_encode hmodulus horder hx
  | points G =>
    have hsize := hlarge G rfl
    refine ⟨fun counter _ => CurveGroup.abscissa_lt_modulus hsize hdata counter, fun e he => ?_⟩
    obtain ⟨P, hP, rfl⟩ := Outcome.map_eq_ok_iff.mp he
    exact CurveGroup.decode_element_of_encode hsize hP

/-- A string of twenty-nine bytes has room on the curve P-256. -/
theorem hasRoomFor_of_length_le_p256 :
    (Group.points ⟨0, CurveParams.p256.record⟩).HasRoomFor (List.replicate 29 255) ∧
      ∀ e, (Group.points ⟨0, CurveParams.p256.record⟩).encode (List.replicate 29 255) = .ok e →
        (Group.points ⟨0, CurveParams.p256.record⟩).decode (.element e) =
          .ok (List.replicate 29 255) := by
  have hbuild : Group.build Integer.millerRabin .points 0 ⟨none, none⟩ (Generator.ofSeed 1) =
      .ok (.points ⟨0, CurveParams.p256.record⟩, Generator.ofSeed 1) := rfl
  refine hasRoomFor_of_length_le PrimalityTest.rejectsBelowTwo_millerRabin hbuild ?_ (by decide)
  intro H hH
  cases hH
  decide

/-- With eight bits or fewer the empty byte string is allowed but wraps: the marker and the byte that
    counts the attempts stand for 256, which is three modulo 23, and the point of this abscissa is
    one that no byte string encodes. -/
theorem not_hasRoomFor_modulo23 :
    Group.build (fun x => decide x.toNat.Prime) .points 0
        ⟨none, some (.parameters (.curve CurveGroup.modulo23.record))⟩ (Generator.ofSeed 1) =
      .ok (.points CurveGroup.modulo23, Generator.ofSeed 1) ∧
    ([] : Octets).length ≤ (Group.points CurveGroup.modulo23).encodingLimit ∧
    ¬ (Group.points CurveGroup.modulo23).HasRoomFor [] ∧
    ∃ e, (Group.points CurveGroup.modulo23).encode [] = .ok e ∧
      (Group.points CurveGroup.modulo23).decode (.element e) = .error .notEncoded := by
  have hencode : (Group.points CurveGroup.modulo23).encode [] =
      .ok (.point CurveGroup.modulo23.generator) := by cbv
  refine ⟨build_modulo23 _, by decide, ?_, _, hencode, by decide +kernel⟩
  intro hroom
  exact absurd (hroom 0 (by decide)) (by decide)

end Group

end PrimeOrder
