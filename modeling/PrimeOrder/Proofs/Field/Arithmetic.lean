import Mathlib
import PrimeOrder.Proofs.Field
import PrimeOrder.Value.Equality
import PrimeOrder.Value.Operand

namespace PrimeOrder

theorem Value.equals_fieldElement_left (x : FieldElement) (v : Value) :
    (Value.fieldElement x).equals v = .ok ((Value.fieldElement x).sameScalar v) := by
  rw [Value.equals] <;> simp

theorem Value.equals_fieldElement_right (x : FieldElement) (v : Value) :
    v.equals (.fieldElement x) = .ok (v.sameScalar (.fieldElement x)) := by
  rw [Value.equals] <;> simp

namespace PrimeField

/-- The elements of a field that its operations make: of a value, and of elements made before with values
    of any sort as second operands. -/
inductive Made (F : PrimeField) : FieldElement → Prop where
  | element {v : Value} {x : FieldElement} (h : F.elementOf v = .ok x) : Made F x
  | add {x y : FieldElement} {v : Value} (hx : Made F x) (h : v.numeric.map x.addInt = .ok y) : Made F y
  | sub {x y : FieldElement} {v : Value} (hx : Made F x) (h : v.numeric.map x.subInt = .ok y) : Made F y
  | mul {x y : FieldElement} {v : Value} (hx : Made F x) (h : v.numeric.map x.mulInt = .ok y) : Made F y
  | leftMul {x y : FieldElement} {k : Number} (hx : Made F x)
      (h : x.leftMulValue (.number k) = .ok (.fieldElement y)) : Made F y
  | div {x y : FieldElement} {v : Value} (hx : Made F x) (h : v.numeric >>= x.divInt = .ok y) : Made F y
  | neg {x : FieldElement} (hx : Made F x) : Made F (-x)
  | sqrt {x y : FieldElement} (hx : Made F x) (h : x.sqrt = .ok (some y)) : Made F y

/-- The values that stand for an integer in a field: the numbers that are that integer, and its residue. -/
inductive StandsFor (F : PrimeField) (n : ℤ) : Value → Prop where
  | number {x : Number} (hx : x.toInt = n) : StandsFor F n (.number x)
  | element : StandsFor F n (.fieldElement (F.reduce n))

/-- The residues of a field. -/
abbrev Residue (F : PrimeField) : Type :=
  {x : FieldElement // F.Holds x}

/-- Whether the residues form a field, in which the operations are those of the library and integers are
    their residues. -/
def FormsField (F : PrimeField) : Prop :=
  ∃ _ : Field F.Residue,
    (∀ x y : F.Residue, (x + y).val = x.val + y.val ∧ (x - y).val = x.val - y.val ∧
      (x * y).val = x.val * y.val ∧ (-x).val = -x.val ∧ (y ≠ 0 → x.val.div y.val = .ok (x / y).val)) ∧
    ∀ n : ℤ, (n : F.Residue).val = F.reduce n

/-- Whether the arithmetic of a field is that of the integers modulo its modulus, of whatever sort the
    second operands are, and division undoes multiplication. -/
structure IsExact (F : PrimeField) : Prop where
  holds_of_made : ∀ x, F.Made x → F.Holds x
  exists_eq_reduce : ∀ x, F.Holds x → ∃ n, x = F.reduce n
  element : ∀ n v, F.StandsFor n v → F.elementOf v = .ok (F.reduce n)
  add : ∀ m n v, F.StandsFor n v → v.numeric.map (F.reduce m).addInt = .ok (F.reduce (m + n))
  sub : ∀ m n v, F.StandsFor n v → v.numeric.map (F.reduce m).subInt = .ok (F.reduce (m - n))
  mul : ∀ m n v, F.StandsFor n v → v.numeric.map (F.reduce m).mulInt = .ok (F.reduce (m * n))
  leftMul : ∀ m n v, F.StandsFor m v →
    (F.reduce n).leftMulValue v = .ok (.fieldElement (F.reduce (m * n)))
  neg : ∀ n, -F.reduce n = F.reduce (-n)
  equals : ∀ m n v, F.StandsFor n v →
    (Value.fieldElement (F.reduce m)).equals v = .ok (decide (m ≡ n [ZMOD F.modulus])) ∧
      v.equals (.fieldElement (F.reduce m)) = .ok (decide (n ≡ m [ZMOD F.modulus]))
  div_refused_iff : ∀ m n v, F.StandsFor n v →
    ((∃ e, v.numeric >>= (F.reduce m).divInt = .error e ∧ e.report.1 = .arithmeticDomain) ↔
      F.reduce n = F.reduce 0)
  div : ∀ m n v, F.StandsFor n v → F.reduce n ≠ F.reduce 0 →
    ∃ z, v.numeric >>= (F.reduce m).divInt = .ok z ∧ F.Holds z ∧
      v.numeric.map z.mulInt = .ok (F.reduce m) ∧
      ∀ w, F.Holds w → v.numeric.map w.mulInt = .ok (F.reduce m) → w = z
  formsField : F.FormsField

section Made

variable {F : PrimeField} (hpos : 0 < F.modulus)
include hpos

/-- Whatever an operation computes, it reduces it in the field of its first operand. -/
theorem Holds.reduce {x : FieldElement} (hx : F.Holds x) (n : ℤ) : F.Holds (x.field.reduce n) := by
  rw [hx.field_eq]
  exact ⟨rfl, Int.fmod_nonneg_of_pos n hpos, Int.fmod_lt_of_pos n hpos⟩

theorem Made.holds {x : FieldElement} (hx : F.Made x) : F.Holds x := by
  induction hx with
  | element h =>
    obtain ⟨n, -, hn⟩ := Outcome.bind_eq_ok_iff.mp h
    rw [PrimeField.element, if_neg hpos.ne', Except.ok.injEq] at hn
    rw [← hn]
    exact ⟨rfl, Int.fmod_nonneg_of_pos n hpos, Int.fmod_lt_of_pos n hpos⟩
  | add _ h ih =>
    obtain ⟨n, -, rfl⟩ := Outcome.map_eq_ok_iff.mp h
    exact ih.reduce hpos _
  | sub _ h ih =>
    obtain ⟨n, -, rfl⟩ := Outcome.map_eq_ok_iff.mp h
    exact ih.reduce hpos _
  | mul _ h ih =>
    obtain ⟨n, -, rfl⟩ := Outcome.map_eq_ok_iff.mp h
    exact ih.reduce hpos _
  | leftMul _ h ih =>
    cases h
    exact ih.reduce hpos _
  | div _ h ih =>
    obtain ⟨n, -, hdiv⟩ := Outcome.bind_eq_ok_iff.mp h
    obtain ⟨k, -, rfl⟩ := Outcome.map_eq_ok_iff.mp hdiv
    exact ih.reduce hpos _
  | neg _ ih => exact ih.reduce hpos _
  | sqrt _ h ih =>
    obtain ⟨square, -, hroot⟩ := Outcome.bind_eq_ok_iff.mp h
    cases square with
    | false => cases hroot
    | true =>
      obtain ⟨roots, -, hroots⟩ := Outcome.bind_eq_ok_iff.mp hroot
      cases hroots
      exact ih.reduce hpos _

end Made

section Residues

variable {p : ℕ} [NeZero p]

theorem reduce_eq_reduce_iff {m n : ℤ} :
    reduce ⟨p⟩ m = reduce ⟨p⟩ n ↔ (m : ZMod p) = n := by
  rw [FieldElement.reduce_eq_ofZMod, FieldElement.reduce_eq_ofZMod, FieldElement.ofZMod_inj]

/-- As an operand a value that stands for an integer is an integer of the same class. -/
theorem StandsFor.exists_numeric {n : ℤ} {v : Value} (h : StandsFor ⟨p⟩ n v) :
    ∃ k, v.numeric = .ok k ∧ (k : ZMod p) = n := by
  cases h with
  | number hx => exact ⟨_, rfl, by rw [hx]⟩
  | element =>
    refine ⟨_, rfl, ?_⟩
    rw [FieldElement.reduce_eq_ofZMod, FieldElement.value_ofZMod, Int.cast_natCast,
      ZMod.natCast_zmod_val]

/-- What depends on the class of an operand only is the same for the value and for the integer. -/
theorem StandsFor.map_numeric {α : Type} {n : ℤ} {v : Value} {f : ℤ → α} (h : StandsFor ⟨p⟩ n v)
    (hf : ∀ k : ℤ, (k : ZMod p) = n → f k = f n) : v.numeric.map f = .ok (f n) := by
  obtain ⟨k, hk, hcast⟩ := h.exists_numeric
  rw [hk, Outcome.map_ok, hf k hcast]

theorem StandsFor.elementOf_eq {n : ℤ} {v : Value} (h : StandsFor ⟨p⟩ n v) :
    elementOf ⟨p⟩ v = .ok (reduce ⟨p⟩ n) := by
  obtain ⟨k, hk, hcast⟩ := h.exists_numeric
  rw [elementOf, hk, Outcome.ok_bind, PrimeField.element, if_neg (NeZero.ne (p : ℤ)),
    reduce_eq_reduce_iff.mpr hcast]

theorem StandsFor.leftMulValue_eq {m n : ℤ} {v : Value} (h : StandsFor ⟨p⟩ m v) :
    (reduce ⟨p⟩ n).leftMulValue v = .ok (.fieldElement (reduce ⟨p⟩ (m * n))) := by
  cases h with
  | number hx =>
    change Except.ok (Value.fieldElement ((reduce ⟨p⟩ n).mulInt _)) = _
    rw [hx, FieldElement.reduce_eq_ofZMod, FieldElement.mulInt_ofZMod, ← Int.cast_mul, mul_comm n,
      ← FieldElement.reduce_eq_ofZMod]
  | element =>
    change Except.ok (Value.fieldElement (reduce ⟨p⟩ m * reduce ⟨p⟩ n)) = _
    rw [FieldElement.reduce_eq_ofZMod, FieldElement.reduce_eq_ofZMod, FieldElement.ofZMod_mul,
      ← Int.cast_mul, ← FieldElement.reduce_eq_ofZMod]

/-- An element equals what stands for an integer of its class. -/
theorem StandsFor.equals_eq {m n : ℤ} {v : Value} (h : StandsFor ⟨p⟩ n v) :
    (Value.fieldElement (reduce ⟨p⟩ m)).equals v = .ok (decide (m ≡ n [ZMOD p])) ∧
      v.equals (.fieldElement (reduce ⟨p⟩ m)) = .ok (decide (n ≡ m [ZMOD p])) := by
  rw [Value.equals_fieldElement_left, Value.equals_fieldElement_right, Except.ok.injEq, Except.ok.injEq]
  cases h with
  | number hx =>
    have hequals : (reduce ⟨p⟩ m).equalsInt n = decide (m ≡ n [ZMOD p]) := by
      rw [Bool.eq_iff_iff, decide_eq_true_eq, FieldElement.equalsInt, beq_iff_eq, Int.ModEq]
      simp only [reduce, Int.fmod_eq_emod_of_nonneg _ (Int.natCast_nonneg p)]
    rw [Value.sameScalar, Value.sameScalar, hx, hequals]
    exact ⟨rfl, decide_eq_decide.mpr Int.modEq_comm⟩
  | element =>
    have hequals : ∀ k l : ℤ, (reduce ⟨p⟩ k == reduce ⟨p⟩ l) = decide (k ≡ l [ZMOD p]) := by
      intro k l
      rw [Bool.eq_iff_iff, beq_iff_eq, decide_eq_true_eq, reduce_eq_reduce_iff,
        ZMod.intCast_eq_intCast_iff]
    exact ⟨hequals m n, hequals n m⟩

end Residues

section Prime

variable {p : ℕ} [Fact p.Prime]

theorem StandsFor.div_eq {m n : ℤ} {v : Value} (h : StandsFor ⟨p⟩ n v) :
    v.numeric >>= (reduce ⟨p⟩ m).divInt =
      if (n : ZMod p) = 0 then .error .zeroHasNoInverse
      else .ok (.ofZMod ((m : ZMod p) / (n : ZMod p))) := by
  obtain ⟨k, hk, hcast⟩ := h.exists_numeric
  rw [hk, Outcome.ok_bind, FieldElement.reduce_eq_ofZMod, FieldElement.divInt_ofZMod, hcast]

theorem StandsFor.div_refused_iff {m n : ℤ} {v : Value} (h : StandsFor ⟨p⟩ n v) :
    (∃ e, v.numeric >>= (reduce ⟨p⟩ m).divInt = .error e ∧ e.report.1 = .arithmeticDomain) ↔
      reduce ⟨p⟩ n = reduce ⟨p⟩ 0 := by
  rw [reduce_eq_reduce_iff, Int.cast_zero, h.div_eq]
  split_ifs with hzero
  · exact ⟨fun _ => hzero, fun _ => ⟨_, rfl, rfl⟩⟩
  · constructor
    · rintro ⟨e, he, -⟩
      cases he
    · exact fun h => absurd h hzero

/-- The quotient by what is not zero is the one element that gives the dividend back. -/
theorem StandsFor.exists_div_eq {m n : ℤ} {v : Value} (h : StandsFor ⟨p⟩ n v)
    (hne : reduce ⟨p⟩ n ≠ reduce ⟨p⟩ 0) :
    ∃ z, v.numeric >>= (reduce ⟨p⟩ m).divInt = .ok z ∧ Holds ⟨p⟩ z ∧
      v.numeric.map z.mulInt = .ok (reduce ⟨p⟩ m) ∧
      ∀ w, Holds ⟨p⟩ w → v.numeric.map w.mulInt = .ok (reduce ⟨p⟩ m) → w = z := by
  rw [Ne, reduce_eq_reduce_iff, Int.cast_zero] at hne
  obtain ⟨k, hk, hcast⟩ := h.exists_numeric
  have hproduct : ∀ a : ZMod p, v.numeric.map (FieldElement.ofZMod a).mulInt = .ok (reduce ⟨p⟩ m) ↔
      a * n = m := by
    intro a
    rw [hk, Outcome.map_ok, FieldElement.mulInt_ofZMod, hcast, FieldElement.reduce_eq_ofZMod,
      Except.ok.injEq, FieldElement.ofZMod_inj]
  refine ⟨_, by rw [h.div_eq, if_neg hne], FieldElement.holds_iff.mpr ⟨_, rfl⟩, ?_, ?_⟩
  · rw [hproduct, div_mul_cancel₀ _ hne]
  · intro w hw hmul
    obtain ⟨a, rfl⟩ := FieldElement.holds_iff.mp hw
    rw [hproduct] at hmul
    rw [← hmul, mul_div_cancel_right₀ _ hne]

/-- The residue of a class. -/
noncomputable def residueEquiv (p : ℕ) [NeZero p] : ZMod p ≃ Residue ⟨p⟩ :=
  Equiv.ofBijective (fun a => ⟨.ofZMod a, FieldElement.holds_iff.mpr ⟨a, rfl⟩⟩)
    ⟨fun _ _ h => FieldElement.ofZMod_injective (congrArg Subtype.val h), fun x => by
      obtain ⟨a, ha⟩ := FieldElement.holds_iff.mp x.property
      exact ⟨a, Subtype.ext ha.symm⟩⟩

/-- The field of classes, carried over to their residues. -/
theorem formsField : FormsField ⟨p⟩ := by
  let := (residueEquiv p).symm.field
  let write : ZMod p ≃+* Residue ⟨p⟩ := (residueEquiv p).symm.ringEquiv.symm
  have hval : ∀ a, (write a).val = .ofZMod a := fun _ => rfl
  refine ⟨inferInstance, fun x y => ?_, fun n => ?_⟩
  · obtain ⟨a, rfl⟩ := write.surjective x
    obtain ⟨b, rfl⟩ := write.surjective y
    refine ⟨?_, ?_, ?_, ?_, fun hb => ?_⟩
    · rw [← map_add, hval, hval, hval, FieldElement.ofZMod_add]
    · rw [← map_sub, hval, hval, hval, FieldElement.ofZMod_sub]
    · rw [← map_mul, hval, hval, hval, FieldElement.ofZMod_mul]
    · rw [← map_neg, hval, hval, FieldElement.ofZMod_neg]
    · have hne : b ≠ 0 := fun hzero => hb (by rw [hzero, map_zero])
      rw [← map_div₀, hval, hval, hval, FieldElement.div_ofZMod _ hne]
  · rw [← map_intCast write, hval, FieldElement.reduce_eq_ofZMod]

/-- The arithmetic of the integers modulo a prime is exact, and division is there for everything but
    zero. -/
theorem isExact_of_prime {p : ℕ} (hp : p.Prime) : IsExact ⟨p⟩ := by
  have : Fact p.Prime := ⟨hp⟩
  have hpos : (0 : ℤ) < p := by exact_mod_cast hp.pos
  constructor
  case holds_of_made => exact fun x hx => hx.holds hpos
  case exists_eq_reduce =>
    intro x hx
    obtain ⟨a, rfl⟩ := FieldElement.holds_iff.mp hx
    obtain ⟨n, rfl⟩ := ZMod.intCast_surjective a
    exact ⟨n, (FieldElement.reduce_eq_ofZMod n).symm⟩
  case element => exact fun n v h => h.elementOf_eq
  case add =>
    intro m n v h
    refine (h.map_numeric fun k hk => ?_).trans ?_
    · simp [hk]
    · simp
  case sub =>
    intro m n v h
    refine (h.map_numeric fun k hk => ?_).trans ?_
    · simp [hk]
    · simp
  case mul =>
    intro m n v h
    refine (h.map_numeric fun k hk => ?_).trans ?_
    · simp [hk]
    · simp
  case leftMul => exact fun m n v h => h.leftMulValue_eq
  case neg =>
    intro n
    rw [FieldElement.reduce_eq_ofZMod, FieldElement.ofZMod_neg, ← Int.cast_neg,
      ← FieldElement.reduce_eq_ofZMod]
  case equals => exact fun m n v h => h.equals_eq
  case div_refused_iff => exact fun m n v h => h.div_refused_iff
  case div => exact fun m n v h hne => h.exists_div_eq hne
  case formsField => exact PrimeField.formsField

/-- The field of 103 elements. -/
theorem isExact_modulo103 : Nat.Prime 103 ∧ IsExact ⟨103⟩ := by
  have hprime : Nat.Prime 103 := by norm_num
  exact ⟨hprime, isExact_of_prime hprime⟩

/-- Five divided by 101 is 49. -/
example : (reduce ⟨103⟩ 5).divInt 101 = .ok ⟨⟨103⟩, 49⟩ := by cbv

end Prime

end PrimeField

end PrimeOrder
