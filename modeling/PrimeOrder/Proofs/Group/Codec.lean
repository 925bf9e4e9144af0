import Mathlib
import PrimeOrder.Proofs.Curve.Moduli
import PrimeOrder.Proofs.Group.Members
import PrimeOrder.Proofs.Group.Search

namespace PrimeOrder

variable {p q : ℕ}

namespace Group

/-- Whether a group refuses just the byte strings beyond its limit as too long, encodes byte strings
    as members only, and decodes each from the member that encodes it, so that no two share one. -/
structure ReadsBack (G : Group) : Prop where
  refuses_iff : ∀ data, (∃ error, G.encode data = .error error ∧
    error.report.1 = .encodingLength) ↔ G.encodingLimit < data.length
  reads_back : ∀ data e, G.encode data = .ok e →
    G.isMember (.element e) = true ∧ G.decode (.element e) = .ok data
  injective : ∀ data data' e, G.encode data = .ok e → G.encode data' = .ok e → data = data'

variable {G : Group} {data : Octets}

theorem encode_of_limit_lt (hlong : G.encodingLimit < data.length) :
    G.encode data = .error (.encodingTooLong data.length G.encodingLimit) := by
  cases G with
  | residues G => exact congrArg (Except.map Element.residue) (G.encode_of_limit_lt hlong)
  | points G => exact congrArg (Except.map Element.point) (if_pos hlong)

/-- What is within the limit may fail for other reasons only. -/
theorem ReadsBack.of_within
    (hwithin : ∀ data error, data.length ≤ G.encodingLimit → G.encode data = .error error →
      error.report.1 ≠ .encodingLength)
    (hreads : ∀ data e, G.encode data = .ok e →
      G.isMember (.element e) = true ∧ G.decode (.element e) = .ok data) : G.ReadsBack := by
  constructor
  case refuses_iff =>
    intro data
    constructor
    · rintro ⟨error, herror, hreport⟩
      by_contra hshort
      exact hwithin data error (not_lt.mp hshort) herror hreport
    · exact fun hlong => ⟨_, encode_of_limit_lt hlong, rfl⟩
  case reads_back => exact hreads
  case injective =>
    intro data data' e hdata hdata'
    exact Except.ok.inj ((hreads data e hdata).2.symm.trans (hreads data' e hdata').2)

end Group

namespace ResidueGroup

variable {G : ResidueGroup} {data : Octets}

theorem exists_residue_of_isMember (hG : G.params.IsSafe p q) {e : Element}
    (he : (Group.residues G).isMember (.element e) = true) :
    ∃ x : ℤ, e = .residue ⟨G, x⟩ ∧ 0 < x ∧ x < p ∧ (x : ZMod p) ^ q = 1 := by
  have : Fact p.Prime := ⟨hG.prime⟩
  obtain ⟨u, -, rfl⟩ := (isMember_iff hG).mp he
  have hpos : 0 < ((u : ZMod p).val : ℤ) :=
    Int.natCast_pos.mpr (Nat.pos_of_ne_zero ((ZMod.val_eq_zero _).not.mpr u.ne_zero))
  have hlt : ((u : ZMod p).val : ℤ) < p := Int.ofNat_lt.mpr (ZMod.val_lt _)
  exact ⟨_, rfl, hpos, hlt, (isMember_residue_iff hG hpos hlt).mp he⟩

/-- Of the two residues that decode to the same number only one is a member. -/
theorem eq_of_lowerHalf_eq (hG : G.params.IsSafe p q) {x y : ℤ} (hx : (x : ZMod p) ^ q = 1)
    (hy : (y : ZMod p) ^ q = 1) (hhalf : G.lowerHalf x = G.lowerHalf y) : x = y := by
  have hopposite : ∀ {a b : ℤ}, (a : ZMod p) ^ q = 1 → (b : ZMod p) ^ q = 1 →
      a ≠ G.params.modulus - b := by
    rintro a b ha hb rfl
    rw [hG.modulus_eq, Int.cast_sub, Int.cast_natCast, ZMod.natCast_self, zero_sub] at ha
    exact hG.neg_pow_ne_one hb ha
  unfold lowerHalf at hhalf
  split_ifs at hhalf
  · exact hhalf
  · exact absurd hhalf (hopposite hx hy)
  · exact absurd hhalf.symm (hopposite hy hx)
  · omega

theorem lowerHalf_nonneg (hG : G.params.IsSafe p q) {x : ℤ} (hpos : 0 < x) (hlt : x < p) :
    0 ≤ G.lowerHalf x := by
  have hmodulus := hG.modulus_eq
  unfold lowerHalf
  split_ifs <;> omega

theorem eq_of_decode_eq (hG : G.params.IsSafe p q) {e f : Element}
    (he : (Group.residues G).isMember (.element e) = true)
    (hf : (Group.residues G).isMember (.element f) = true)
    (hdata : (Group.residues G).decode (.element e) = .ok data)
    (hdata' : (Group.residues G).decode (.element f) = .ok data) : e = f := by
  obtain ⟨x, rfl, hpos, hlt, hx⟩ := exists_residue_of_isMember hG he
  obtain ⟨y, rfl, hpos', hlt', hy⟩ := exists_residue_of_isMember hG hf
  rw [Group.decode, check_residue, Outcome.ok_bind] at hdata hdata'
  have hleft := (decode_eq_ok_iff (lowerHalf_nonneg hG hpos hlt)).mp hdata
  have hright := (decode_eq_ok_iff (lowerHalf_nonneg hG hpos' hlt')).mp hdata'
  rw [eq_of_lowerHalf_eq hG hx hy (hleft.trans hright.symm)]

theorem exists_encode_eq_ok (hG : G.params.IsSafe p q)
    (hdata : data.length ≤ (Group.residues G).encodingLimit) :
    ∃ e, (Group.residues G).encode data = .ok e := by
  have hsafe := hG.safe
  have hmodulus := hG.modulus_eq
  have hsymbol := Integer.jacobi_eq_jacobiSym (by omega : p % 2 = 1)
    (Octets.value (encodingMarker :: data))
  have hshort : ¬ SignedResidues.encodingLimit G.params < data.length :=
    not_lt.mpr (hdata.trans_eq (encodingLimit_eq G))
  rw [← hmodulus] at hsymbol
  simp only [Group.encode, encode_eq G (by omega) (by omega), SignedResidues.encode, if_neg hshort,
    hsymbol]
  exact ⟨_, rfl⟩

theorem reads_back (hG : G.params.IsSafe p q) {e : Element}
    (he : (Group.residues G).encode data = .ok e) :
    (Group.residues G).isMember (.element e) = true ∧
      (Group.residues G).decode (.element e) = .ok data := by
  obtain ⟨x, hx, rfl⟩ := Outcome.map_eq_ok_iff.mp he
  refine ⟨(hasMember_of_encode hG hx).isMember, ?_⟩
  have hmodulus : G.params.modulus = 2 * G.params.order + 1 := by
    rw [hG.modulus_eq, hG.order_eq, hG.safe]
    push_cast
    rfl
  exact decode_element_of_encode hmodulus (by rw [hG.order_eq]; exact_mod_cast hG.order_prime.pos) hx

/-- Encoding gives the member that is decoded to the byte string, and there is one for every byte
    string within the limit. -/
theorem encode_inverse_decode (hG : G.params.IsSafe p q) :
    (Group.residues G).ReadsBack ∧
      ∀ data : Octets, data.length ≤ (Group.residues G).encodingLimit →
        (∃ e, (Group.residues G).encode data = .ok e) ∧
        ∀ e, (Group.residues G).isMember (.element e) = true →
          (Group.residues G).decode (.element e) = .ok data →
          (Group.residues G).encode data = .ok e := by
  constructor
  · refine .of_within (fun data error hdata herror => ?_) fun data e he => reads_back hG he
    obtain ⟨e, he⟩ := exists_encode_eq_ok hG hdata
    cases herror.symm.trans he
  · intro data hdata
    refine ⟨exists_encode_eq_ok hG hdata, fun e hmember hdecode => ?_⟩
    obtain ⟨f, hf⟩ := exists_encode_eq_ok hG hdata
    obtain ⟨hmember', hdecode'⟩ := reads_back hG hf
    rw [hf, eq_of_decode_eq hG hmember hmember' hdecode hdecode']

/-- The squares modulo a safe prime of 18 bits, which one byte fits. -/
def modulo131267 : ResidueGroup :=
  ⟨0, .natural, (ResidueParams.ofOrder 18 65633).record⟩

theorem isSafe_modulo131267 : modulo131267.params.IsSafe 131267 65633 := by
  have hprime : Nat.Prime 131267 := by norm_num
  exact ⟨rfl, rfl, hprime, by norm_num, rfl, by norm_num, by decide, by decide,
    ResidueParams.four_pow_eq_one hprime rfl (by norm_num)⟩

/-- A byte that is zero is not lost. -/
theorem encode_inverse_decode_modulo131267 :
    modulo131267.params.IsSafe 131267 65633 ∧ (Group.residues modulo131267).ReadsBack ∧
      ([0] : Octets).length ≤ (Group.residues modulo131267).encodingLimit ∧
      (∃ e, (Group.residues modulo131267).encode [0] = .ok e) ∧
      ∀ e, (Group.residues modulo131267).isMember (.element e) = true →
        (Group.residues modulo131267).decode (.element e) = .ok [0] →
        (Group.residues modulo131267).encode [0] = .ok e := by
  obtain ⟨hreads, hinverse⟩ := encode_inverse_decode isSafe_modulo131267
  have hshort : ([0] : Octets).length ≤ (Group.residues modulo131267).encodingLimit := by
    rw [Group.encodingLimit, encodingLimit_eq]
    decide
  exact ⟨isSafe_modulo131267, hreads, hshort, hinverse [0] hshort⟩

end ResidueGroup

namespace CurveGroup

variable {G : CurveGroup} {data : Octets}

/-- Whether the right-hand side of the equation of a curve is a square at some abscissa, modulo `p`. -/
def HasOrdinate (G : CurveGroup) (p n : ℕ) : Prop :=
  IsSquare ((n : ZMod p) ^ 3 + (G.params.a : ZMod p) * (n : ZMod p) + (G.params.b : ZMod p))

/-- Whether a byte string is encoded as a point of the first abscissa that has one, if there is one
    among those with the counters up to 255, and is refused as an argument otherwise. -/
def EncodesFirst (G : CurveGroup) (p : ℕ) (data : Octets) : Prop :=
  ((∀ c < 256, ¬ G.HasOrdinate p (abscissa data c)) ∧
      ∃ error, (Group.points G).encode data = .error error ∧ error.report.1 = .invalidArgument) ∨
    ∃ c < 256, G.HasOrdinate p (abscissa data c) ∧
      (∀ earlier < c, ¬ G.HasOrdinate p (abscissa data earlier)) ∧
      ∃ P y, (Group.points G).encode data = .ok (.point P) ∧
        P.canonical = some ((abscissa data c : ℤ), y)

section Prime

variable [Fact p.Prime] (hmodulus : G.params.modulus = p) (hthree : p % 4 = 3)
include hmodulus hthree

theorem exists_liftX_eq_ok (n : ℕ) :
    ∃ found, G.curve.liftX n = .ok found ∧ (found = none ↔ ¬ G.HasOrdinate p n) := by
  classical
  refine ⟨_, Curve.liftX_eq (reads hmodulus) hthree n, ?_⟩
  rw [HasOrdinate, Int.cast_natCast]
  split_ifs with hsquare <;> simp [hsquare]

theorem encodesFirst (hlarge : 512 ≤ G.params.modulus)
    (hdata : data.length ≤ (Group.points G).encodingLimit) : G.EncodesFirst p data := by
  have hencode : (Group.points G).encode data = (G.firstPoint data 0 256).map .point :=
    congrArg (Except.map Element.point) (if_neg (not_lt.mpr hdata))
  choose found hlift hnone using fun c => exists_liftX_eq_ok hmodulus hthree (abscissa data c)
  rcases firstPoint_eq hlift 0 256 with ⟨herror, hmissing⟩ | ⟨c, P, -, hlt, hc, hearlier, hP⟩
  · left
    refine ⟨fun c hlt => (hnone c).mp (hmissing c c.zero_le (by omega)), .noPointFound, ?_, rfl⟩
    rw [hencode, herror]
    rfl
  · right
    have hordinate : G.HasOrdinate p (abscissa data c) := by
      by_contra hmissing
      cases hc.symm.trans ((hnone c).mpr hmissing)
    obtain ⟨y, hcanonical⟩ := exists_canonical_of_liftX (abscissa_lt_modulus hlarge hdata c)
      ((hlift c).trans (congrArg Except.ok hc))
    refine ⟨c, by omega, hordinate, fun d hd => (hnone d).mp (hearlier d d.zero_le hd), P, y, ?_,
      hcanonical⟩
    rw [hencode, hP]
    rfl

theorem reads_back (hlarge : 512 ≤ G.params.modulus) {e : Element}
    (he : (Group.points G).encode data = .ok e) :
    (Group.points G).isMember (.element e) = true ∧
      (Group.points G).decode (.element e) = .ok data := by
  obtain ⟨P, hP, rfl⟩ := Outcome.map_eq_ok_iff.mp he
  obtain ⟨-, c, -, hlift⟩ := exists_liftX_of_encode hP
  exact ⟨isMember_of_liftX hmodulus hthree hlift, decode_element_of_encode hlarge hP⟩

end Prime

/-- Over a prime that is three modulo four and has ten bits at least, a byte string within the limit is
    encoded as the point of the first abscissa that has one, and decoded from it. -/
theorem encode_first_decode (hp : p.Prime) (hmodulus : G.params.modulus = p) (hthree : p % 4 = 3)
    (hlarge : 512 ≤ G.params.modulus) :
    (Group.points G).ReadsBack ∧
      ∀ data : Octets, data.length ≤ (Group.points G).encodingLimit → G.EncodesFirst p data := by
  have : Fact p.Prime := ⟨hp⟩
  refine ⟨.of_within ?_ fun data e he => reads_back hmodulus hthree hlarge he,
    fun data hdata => encodesFirst hmodulus hthree hlarge hdata⟩
  intro data error hdata herror hreport
  rcases encodesFirst hmodulus hthree hlarge hdata with
    ⟨-, refusal, hrefusal, hargument⟩ | ⟨c, -, -, -, P, y, hP, -⟩
  · obtain rfl : error = refusal := Except.error.inj (herror.symm.trans hrefusal)
    cases hreport.symm.trans hargument
  · cases herror.symm.trans hP

/-- The modulus of the curve P-256 is such a prime. -/
theorem encode_first_decode_p256 :
    let G : CurveGroup := ⟨0, CurveParams.p256.record⟩
    G.params.modulus.toNat.Prime ∧ (Group.points G).ReadsBack ∧
      (List.replicate 29 255 : Octets).length ≤ (Group.points G).encodingLimit ∧
      G.EncodesFirst G.params.modulus.toNat (List.replicate 29 255) := by
  have hp := CurveParams.prime_modulus_of_named (s := CurveParams.p256) List.mem_cons_self
  obtain ⟨hreads, hfirst⟩ := encode_first_decode (G := ⟨0, CurveParams.p256.record⟩) hp rfl (by decide)
    (by decide)
  exact ⟨hp, hreads, by decide, hfirst _ (by decide)⟩

end CurveGroup

end PrimeOrder
