import Mathlib
import PrimeOrder.Params
import PrimeOrder.Proofs.Integer.Power

namespace PrimeOrder

namespace Pocklington

/-- Whether a power of two witnesses a divisor `q` of `n - 1`. -/
def witnesses (n q : ℕ) : Bool :=
  decide (q ∣ n - 1) && Nat.gcd (Integer.powModNat 2 ((n - 1) / q) n - 1) n == 1

variable {n p q : ℕ}

theorem natCast_powModNat (hpn : p ∣ n) (k : ℕ) :
    ((Integer.powModNat 2 k n : ℕ) : ZMod p) = 2 ^ k := by
  have hmod : ((2 ^ k % n : ℕ) : ZMod p) = ((2 ^ k : ℕ) : ZMod p) :=
    (ZMod.natCast_eq_natCast_iff' _ _ _).mpr (Nat.mod_mod_of_dvd _ hpn)
  rw [Integer.powModNat_eq, hmod, Nat.cast_pow, Nat.cast_two]

/-- A witness is no power of two that is one modulo a divisor. -/
theorem pow_ne_one_of_witnesses (hp : p.Prime) (hpn : p ∣ n) (hwitness : witnesses n q = true) :
    (2 : ZMod p) ^ ((n - 1) / q) ≠ 1 := by
  have : Fact p.Prime := ⟨hp⟩
  intro hone
  rw [witnesses, Bool.and_eq_true, beq_iff_eq] at hwitness
  rw [← natCast_powModNat hpn] at hone
  generalize Integer.powModNat 2 ((n - 1) / q) n = power at hone hwitness
  have hpos : 1 ≤ power := by
    rw [Nat.one_le_iff_ne_zero]
    rintro rfl
    rw [Nat.cast_zero] at hone
    exact zero_ne_one hone
  have hdvd : p ∣ power - 1 := by
    rw [← CharP.cast_eq_zero_iff (ZMod p) p, Nat.cast_sub hpos, hone, Nat.cast_one, sub_self]
  have hgcd := Nat.dvd_gcd hdvd hpn
  rw [hwitness.2] at hgcd
  exact hp.one_lt.ne' (Nat.dvd_one.mp hgcd)

/-- A witnessed prime divides what comes before any prime divisor: it divides the order of two there,
    since that divides `n - 1` but not the quotient by the prime. -/
theorem dvd_sub_one (hn : 1 < n) (hp : p.Prime) (hpn : p ∣ n) (hq : q.Prime)
    (hone : Integer.powModNat 2 (n - 1) n = 1) (hwitness : witnesses n q = true) : q ∣ p - 1 := by
  have : Fact p.Prime := ⟨hp⟩
  have hpow : (2 : ZMod p) ^ (n - 1) = 1 := by
    rw [← natCast_powModNat hpn, hone, Nat.cast_one]
  have hne : (2 : ZMod p) ≠ 0 := (IsUnit.of_pow_eq_one hpow (by omega)).ne_zero
  have hquotient : ¬orderOf (2 : ZMod p) ∣ (n - 1) / q := fun h =>
    pow_ne_one_of_witnesses hp hpn hwitness (orderOf_dvd_iff_pow_eq_one.mp h)
  have hdivides : q ∣ n - 1 := by
    rw [witnesses, Bool.and_eq_true, decide_eq_true_eq] at hwitness
    exact hwitness.1
  have horder : q ∣ orderOf (2 : ZMod p) := by
    by_contra hcoprime
    rw [← hq.coprime_iff_not_dvd] at hcoprime
    have hall := orderOf_dvd_of_pow_eq_one hpow
    rw [← Nat.mul_div_cancel' hdivides] at hall
    exact hquotient (hcoprime.symm.dvd_of_dvd_mul_left hall)
  exact horder.trans (ZMod.orderOf_dvd_card_sub_one hne)

theorem prime_of_witnesses {factors : Finset ℕ} (hn : 1 < n) (hfactors : ∀ q ∈ factors, q.Prime)
    (hone : Integer.powModNat 2 (n - 1) n = 1) (hwitnesses : ∀ q ∈ factors, witnesses n q = true)
    (hlarge : n ≤ (∏ q ∈ factors, q) ^ 2) : n.Prime := by
  by_contra hcomposite
  have hp : n.minFac.Prime := Nat.minFac_prime hn.ne'
  have hsquare : n.minFac ^ 2 ≤ n := Nat.minFac_sq_le_self (by omega) hcomposite
  have hdvd : (∏ q ∈ factors, q) ∣ n.minFac - 1 :=
    Finset.prod_primes_dvd _ (fun q hq => (hfactors q hq).prime) fun q hq =>
      dvd_sub_one hn hp n.minFac_dvd (hfactors q hq) hone (hwitnesses q hq)
  have hpos := hp.two_le
  have hle : (∏ q ∈ factors, q) < n.minFac := (Nat.le_of_dvd (by omega) hdvd).trans_lt (by omega)
  have hlt := Nat.pow_lt_pow_left hle two_ne_zero
  omega

/-- Whether a number passes the test with given factors, all of which are known to be prime. -/
def passes (known : List ℕ) (n : ℕ) (factors : List ℕ) : Bool :=
  decide (1 < n) && decide factors.Nodup && factors.all (known.contains ·) &&
    Integer.powModNat 2 (n - 1) n == 1 && factors.all (witnesses n) && decide (n ≤ factors.prod ^ 2)

/-- Whether every number of a certificate passes with factors that are known from the start or come
    before it. -/
def check (known : List ℕ) : List (ℕ × List ℕ) → Bool
  | [] => true
  | (n, factors) :: rest => passes known n factors && check (n :: known) rest

theorem prime_of_passes {known factors : List ℕ} (hknown : ∀ q ∈ known, q.Prime)
    (h : passes known n factors = true) : n.Prime := by
  simp only [passes, Bool.and_eq_true, decide_eq_true_eq, beq_iff_eq, List.all_eq_true,
    List.contains_iff_mem] at h
  obtain ⟨⟨⟨⟨⟨hn, hnodup⟩, hfactors⟩, hone⟩, hwitnesses⟩, hlarge⟩ := h
  rw [← List.map_id factors, ← List.prod_toFinset _ hnodup] at hlarge
  refine prime_of_witnesses hn (fun q hq => ?_) hone (fun q hq => ?_) hlarge
  · exact hknown q (hfactors q (List.mem_toFinset.mp hq))
  · exact hwitnesses q (List.mem_toFinset.mp hq)

theorem prime_of_check {known : List ℕ} {certificate : List (ℕ × List ℕ)}
    (hknown : ∀ q ∈ known, q.Prime) (h : check known certificate = true) :
    ∀ entry ∈ certificate, entry.1.Prime := by
  induction certificate generalizing known with
  | nil => exact fun _ hentry => absurd hentry List.not_mem_nil
  | cons entry rest ih =>
    obtain ⟨n, factors⟩ := entry
    rw [check, Bool.and_eq_true] at h
    have hn := prime_of_passes hknown h.1
    exact List.forall_mem_cons.mpr ⟨hn, ih (List.forall_mem_cons.mpr ⟨hn, hknown⟩) h.2⟩

end Pocklington

namespace CurveParams

/-- The primes that the certificate of the named moduli starts from. -/
def smallPrimes : List ℕ :=
  [7, 29, 53, 197, 211, 881, 3677, 21407, 78283, 96557, 363557, 704251, 1206781]

/-- Primes up to the moduli of the named curves. -/
def certificate : List (ℕ × List ℕ) := [
  (7240687, [1206781]),
  (105957871, [881, 211]),
  (107590001, [53, 29, 7]),
  (246608641, [21407]),
  (532247449, [363557]),
  (66417393611, [3677, 197]),
  (11290956913871, [66417393611]),
  (44925942675193, [532247449]),
  (46076956964474543, [704251, 78283]),
  (529709925838459440593, [246608641, 105957871]),
  (35581458644053887931343, [44925942675193]),
  (23964610537191310276190549303, [35581458644053887931343]),
  (862725979338887169942859774909, [23964610537191310276190549303]),
  (20705423504133292078628634597817, [862725979338887169942859774909]),
  (255515944373312847190720520512484175977, [107590001, 7240687, 96557]),
  (413244619895455989650825325680172591660047, [20705423504133292078628634597817]),
  (12397338596863679689524759770405177749801411, [413244619895455989650825325680172591660047]),
  (774023187263532362759620327192479577272145303, [46076956964474543, 11290956913871]),
  (835945042244614951780389953367877943453916927241,
    [774023187263532362759620327192479577272145303]),
  (205115282021455665897114700593932402728804164701536103180137503955397371,
    [255515944373312847190720520512484175977]),
  (19173790298027098165721053155794528970226934547887232785722672956982046098136719667167519737147526097,
    [12397338596863679689524759770405177749801411, 529709925838459440593]),
  (p256.modulus.toNat, [835945042244614951780389953367877943453916927241]),
  (p384.modulus.toNat,
    [19173790298027098165721053155794528970226934547887232785722672956982046098136719667167519737147526097]),
  (secp256k1.modulus.toNat,
    [205115282021455665897114700593932402728804164701536103180137503955397371])]

theorem prime_of_mem_smallPrimes : ∀ q ∈ smallPrimes, q.Prime := by
  intro q hq
  simp only [smallPrimes, List.mem_cons, List.not_mem_nil, or_false] at hq
  rcases hq with rfl | rfl | rfl | rfl | rfl | rfl | rfl | rfl | rfl | rfl | rfl | rfl | rfl <;>
    norm_num

theorem check_certificate : Pocklington.check smallPrimes certificate = true := by
  decide +kernel

/-- The curves that have a name are curves over a prime. -/
theorem prime_modulus_of_named {s : CurveParams} (hs : s ∈ named) : s.modulus.toNat.Prime := by
  have hlisted : ∀ s ∈ named, s.modulus.toNat ∈ certificate.map Prod.fst := by decide +kernel
  obtain ⟨entry, hentry, hmodulus⟩ := List.mem_map.mp (hlisted s hs)
  rw [← hmodulus]
  exact Pocklington.prime_of_check prime_of_mem_smallPrimes check_certificate entry hentry

end CurveParams

end PrimeOrder
