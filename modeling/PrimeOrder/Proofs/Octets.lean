import Mathlib
import PrimeOrder.Octets.Basic
import PrimeOrder.Proofs.Integer.Size

namespace PrimeOrder.Octets

theorem value_cons (octet : UInt8) (octets : Octets) :
    value (octet :: octets) = octet.toNat * 256 ^ octets.length + value octets := by
  induction octets using List.reverseRecOn with
  | nil => simp [value]
  | append_singleton front last ih =>
    rw [← List.cons_append, value_append_singleton, ih, value_append_singleton, List.length_append,
      List.length_singleton, pow_succ]
    ring

/-- A string is read as the digits of a number in the base 256, part for part. -/
theorem value_append (front back : Octets) :
    value (front ++ back) = value front * 256 ^ back.length + value back := by
  induction front with
  | nil => simp [value]
  | cons octet rest ih =>
    rw [List.cons_append, value_cons, value_cons, ih, List.length_append, pow_add]
    ring

theorem value_lt (octets : Octets) : value octets < 256 ^ octets.length := by
  induction octets with
  | nil => simp [value]
  | cons octet rest ih =>
    have hoctet : octet.toNat < 256 := octet.toNat_lt
    have hproduct := Nat.mul_le_mul_right (256 ^ rest.length) (Nat.le_of_lt_succ hoctet)
    rw [value_cons, List.length_cons, pow_succ]
    omega

theorem writeBefore_value (tail octets : Octets) :
    writeBefore tail (value octets) octets.length = octets ++ tail := by
  induction octets using List.reverseRecOn generalizing tail with
  | nil => rfl
  | append_singleton front last ih =>
    have hlast : last.toNat < 256 := last.toNat_lt
    have hdigit : UInt8.ofNat (value front * 256 + last.toNat) = last := by
      apply UInt8.toNat.inj
      rw [UInt8.toNat_ofNat']
      omega
    have hrest : (value front * 256 + last.toNat) / 256 = value front := by omega
    rw [List.length_append, List.length_singleton, value_append_singleton, writeBefore, hdigit,
      hrest, ih, List.append_assoc, List.singleton_append]

theorem value_writeBefore (tail : Octets) (n length : ℕ) :
    value (writeBefore tail n length) = n % 256 ^ length * 256 ^ tail.length + value tail := by
  induction length generalizing tail n with
  | zero => rw [writeBefore, pow_zero, Nat.mod_one, zero_mul, zero_add]
  | succ length ih =>
    rw [writeBefore, ih, value_cons, UInt8.toNat_ofNat', List.length_cons, pow_succ' 256 length,
      Nat.mod_mul]
    ring

/-- The bytes of a number stand for it. -/
theorem value_ofNat (n : ℕ) : value (ofNat n) = n := by
  have hlt : (n : ℤ).natAbs < 256 ^ Integer.byteLength n := Integer.byteLength_le_iff.mp le_rfl
  rw [Int.natAbs_natCast] at hlt
  rw [ofNat, value_writeBefore, Nat.mod_eq_of_lt hlt, List.length_nil, pow_zero, mul_one]
  rfl

/-- No byte is lost or added where the first one is not zero. -/
theorem ofNat_value {octet : UInt8} (hoctet : octet ≠ 0) (rest : Octets) :
    ofNat (value (octet :: rest)) = octet :: rest := by
  have hpos : 0 < octet.toNat := UInt8.pos_iff_ne_zero.mpr hoctet
  have hleast : 256 ^ rest.length ≤ value (octet :: rest) := by
    rw [value_cons]
    exact (Nat.le_mul_of_pos_left _ hpos).trans (Nat.le_add_right _ _)
  have hlength : Integer.byteLength (value (octet :: rest)) = (octet :: rest).length := by
    apply le_antisymm
    · rw [Integer.byteLength_le_iff, Int.natAbs_natCast]
      exact value_lt _
    · rw [List.length_cons, Nat.succ_le_iff, ← not_le, Integer.byteLength_le_iff, Int.natAbs_natCast]
      exact hleast.not_gt
  rw [ofNat, hlength, writeBefore_value, List.append_nil]

theorem ofNat_eq_cons_iff {octet : UInt8} (hoctet : octet ≠ 0) {n : ℕ} {rest : Octets} :
    ofNat n = octet :: rest ↔ n = value (octet :: rest) := by
  constructor
  · intro hn
    rw [← hn, value_ofNat]
  · rintro rfl
    exact ofNat_value hoctet rest

/-- A number has bytes of every length from the least that holds it. -/
theorem exists_ofNatOfLength_eq_ok {n bound : ℤ} (hnonneg : 0 ≤ n) (hle : n ≤ bound) :
    ∃ octets, ofNatOfLength n.toNat (Integer.byteLength bound) = .ok octets := by
  have hlength : Integer.byteLength n.toNat ≤ Integer.byteLength bound := by
    apply Integer.byteLength_mono
    omega
  exact ⟨_, if_pos hlength⟩

theorem exists_ofInteger_eq_ok {n bound : ℤ} (hnonneg : 0 ≤ n) (hle : n ≤ bound) :
    ∃ octets, ofInteger n (Integer.byteLength bound) = .ok octets := by
  rw [ofInteger, if_neg (by omega), if_pos (Int.natCast_nonneg _), Int.toNat_natCast]
  exact exists_ofNatOfLength_eq_ok hnonneg hle

end PrimeOrder.Octets
