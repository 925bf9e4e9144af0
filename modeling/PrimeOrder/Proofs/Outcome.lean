import Mathlib
import PrimeOrder.Error

namespace PrimeOrder

/-- A failure is reported under its own kind unless its message would write too long a number. -/
theorem Error.report_kind_eq (e : Error) :
    e.report.1 = if e.numbers.any Number.isLong then .value else e.kind := by
  rw [report, shown]
  split_ifs <;> rfl

/-- A failure whose message writes short numbers only is reported under its own kind. -/
theorem Error.report_eq_kind {e : Error} (he : ∀ x ∈ e.numbers, x.isLong = false) :
    e.report.1 = e.kind := by
  have hshown : e.numbers.any Number.isLong = false := by
    rw [List.any_eq_false]
    intro x hx
    rw [he x hx]
    exact Bool.false_ne_true
  rw [report, shown, hshown, if_neg Bool.false_ne_true]

/-- A failure whose message writes one number is reported as it is, unless that number is too long. -/
theorem Error.report_of_numbers_eq {e : Error} {x : Number} (he : e.numbers = [x]) :
    e.report = if x.isLong then Error.decimalTooLong.report else (e.kind, e.message) := by
  rw [report, shown, he, List.any_cons, List.any_nil, Bool.or_false]
  split_ifs <;> rfl

namespace Outcome

variable {α β : Type}

@[simp] theorem ok_bind (a : α) (f : α → Except Error β) : (Except.ok a >>= f) = f a := rfl

@[simp] theorem map_ok (a : α) (f : α → β) : (Except.ok a : Except Error α).map f = .ok (f a) := rfl

/-- An operation in two steps succeeds exactly if both steps do. -/
theorem bind_eq_ok_iff {x : Except Error α} {f : α → Except Error β} {b : β} :
    (x >>= f) = .ok b ↔ ∃ a, x = .ok a ∧ f a = .ok b := by
  cases x with
  | error e => simp [bind, Except.bind]
  | ok a => simp

theorem map_eq_ok_iff {x : Except Error α} {f : α → β} {b : β} :
    x.map f = .ok b ↔ ∃ a, x = .ok a ∧ f a = b := by
  cases x with
  | error e => simp [Except.map]
  | ok a => simp

theorem toOption_eq_some_iff {x : Except Error α} {a : α} : x.toOption = some a ↔ x = .ok a := by
  cases x <;> simp [Except.toOption]

/-- What is known of some result of an operation is known of the one that it has. -/
theorem of_eq_ok {x : Except Error α} {P : α → Prop} (h : ∃ a, x = .ok a ∧ P a) {a : α}
    (hx : x = .ok a) : P a := by
  obtain ⟨b, hb, hP⟩ := h
  rw [hx] at hb
  cases hb
  exact hP

/-- A refusal that writes one number is one of the argument unless that number is too long. -/
theorem exists_invalid_iff {x : Except Error α} {isLong : Bool} {text : String}
    (hx : ∃ e, x = .error e ∧
      e.report = if isLong then Error.decimalTooLong.report else (.invalidArgument, text)) :
    (∃ e, x = .error e ∧ e.report.1 = .invalidArgument) ↔ isLong = false := by
  obtain ⟨e, rfl, hreport⟩ := hx
  simp only [Except.error.injEq, exists_eq_left', hreport]
  cases isLong with
  | true =>
    have hkind : Error.decimalTooLong.report.1 ≠ .invalidArgument := by decide
    exact iff_of_false hkind Bool.noConfusion
  | false => exact iff_of_true rfl rfl

/-- Two outcomes that are alike: the same failure, or results that are related. -/
inductive Alike (related : α → β → Prop) :
    Except Error α → Except Error β → Prop where
  | ok {a : α} {b : β} (h : related a b) : Alike related (.ok a) (.ok b)
  | error (e : Error) : Alike related (.error e) (.error e)

namespace Alike

variable {γ δ : Type} {related : α → β → Prop} {related' : γ → δ → Prop}

theorem of_eq (x : Except Error α) : Alike Eq x x := by
  cases x with
  | ok a => exact .ok rfl
  | error e => exact .error e

theorem mono {related' : α → β → Prop} {x : Except Error α} {y : Except Error β}
    (hxy : Alike related x y) (h : ∀ a b, related a b → related' a b) : Alike related' x y := by
  cases hxy with
  | ok hab => exact .ok (h _ _ hab)
  | error e => exact .error e

theorem bind {x : Except Error α} {y : Except Error β} (hxy : Alike related x y)
    {f : α → Except Error γ} {g : β → Except Error δ}
    (hfg : ∀ a b, related a b → Alike related' (f a) (g b)) : Alike related' (x >>= f) (y >>= g) := by
  cases hxy with
  | ok h => exact hfg _ _ h
  | error e => exact .error e

theorem map {x : Except Error α} {y : Except Error β} (hxy : Alike related x y)
    {f : α → γ} {g : β → δ} (hfg : ∀ a b, related a b → related' (f a) (g b)) :
    Alike related' (x.map f) (y.map g) := by
  cases hxy with
  | ok h => exact .ok (hfg _ _ h)
  | error e => exact .error e

end Alike

end Outcome

end PrimeOrder
