import Mathlib
import PrimeOrder.Proofs.Group.Simultaneous
import PrimeOrder.Proofs.Outcome

namespace PrimeOrder

/-- Whether two outcomes are both failures of one kind, or both results that are related. -/
def Outcome.Agree {α β : Type} (related : α → β → Prop) : Except Error α → Except Error β → Prop
  | .ok a, .ok b => related a b
  | .error e, .error f => e.report.1 = f.report.1
  | _, _ => False

namespace Outcome.Agree

variable {α β γ δ : Type} {related : α → β → Prop} {related' : γ → δ → Prop}

theorem of_eq (x : Except Error α) : Agree Eq x x := by
  cases x with
  | error e => exact (rfl : e.report.1 = e.report.1)
  | ok a => exact (rfl : a = a)

theorem elim {x : Except Error α} {y : Except Error β} (hxy : Agree related x y) :
    (∃ e f, x = .error e ∧ y = .error f ∧ e.report.1 = f.report.1) ∨
      ∃ a b, x = .ok a ∧ y = .ok b ∧ related a b := by
  cases x with
  | error e =>
    cases y with
    | error f => exact .inl ⟨e, f, rfl, rfl, hxy⟩
    | ok b => exact False.elim hxy
  | ok a =>
    cases y with
    | error f => exact False.elim hxy
    | ok b => exact .inr ⟨a, b, rfl, rfl, hxy⟩

theorem bind {x : Except Error α} {y : Except Error β} (hxy : Agree related x y)
    {f : α → Except Error γ} {g : β → Except Error δ}
    (hfg : ∀ a b, related a b → Agree related' (f a) (g b)) : Agree related' (x >>= f) (y >>= g) := by
  rcases hxy.elim with ⟨e, e', rfl, rfl, hkind⟩ | ⟨a, b, rfl, rfl, hab⟩
  · exact hkind
  · exact hfg a b hab

theorem map {x : Except Error α} {y : Except Error β} (hxy : Agree related x y)
    {f : α → γ} {g : β → δ} (hfg : ∀ a b, related a b → related' (f a) (g b)) :
    Agree related' (x.map f) (y.map g) := by
  rcases hxy.elim with ⟨e, e', rfl, rfl, hkind⟩ | ⟨a, b, rfl, rfl, hab⟩
  · exact hkind
  · exact hfg a b hab

end Outcome.Agree

/-- Whether a value is an element. -/
def Value.isElement : Value → Bool
  | .element _ => true
  | _ => false

/-- Whether a value is a row of characters or bytes, which an engine reads as a numeral in its own
    notation. -/
def Value.isNumeral : Value → Bool
  | .text _ | .octets _ | .buffer .. => true
  | _ => false

namespace Engine

/-- The group of residues with a record that computes with integers of either sign. -/
abbrev signedGroup (i : ℕ) (record : ResidueRecord) : ResidueGroup :=
  ⟨i, .signed, record⟩

/-- The group of residues with a record that computes with natural numbers. -/
abbrev naturalGroup (j : ℕ) (record : ResidueRecord) : ResidueGroup :=
  ⟨j, .natural, record⟩

variable {i j : ℕ} {record : ResidueRecord}

/-- Whether two elements are those of the two groups for one residue. -/
def Own (i j : ℕ) (record : ResidueRecord) (e f : Element) : Prop :=
  ∃ n, (0 < n ∧ n < record.params.modulus) ∧
    e = .residue ⟨signedGroup i record, n⟩ ∧ f = .residue ⟨naturalGroup j record, n⟩

/-- Whether two elements correspond: the two groups made them for one residue, or other groups of the
    two engines with the same parameters did for a number that both can show, or they are one
    point. -/
inductive Corresponds (i j : ℕ) (record : ResidueRecord) : Element → Element → Prop where
  | own {e f : Element} (h : Own i j record e f) : Corresponds i j record e f
  | foreign {x y : Residue} (hsigned : x.group.engine = .signed) (hnatural : y.group.engine = .natural)
      (hparams : x.group.params = y.group.params) (hvalue : x.value = y.value)
      (hshort : Text.Numeral.isLong y.value = false)
      (hx : x.group ≠ signedGroup i record) (hy : y.group ≠ naturalGroup j record) :
      Corresponds i j record (.residue x) (.residue y)
  | point (P : Point) : Corresponds i j record (.point P) (.point P)

/-- Whether two values are elements that correspond, or one value that is no element. -/
inductive Matches (i j : ℕ) (record : ResidueRecord) : Value → Value → Prop where
  | element {e f : Element} (h : Corresponds i j record e f) :
      Matches i j record (.element e) (.element f)
  | plain {v : Value} (h : v.isElement = false) : Matches i j record v v

namespace Corresponds

variable {e f e' f' : Element}

theorem numbers_eq (h : Corresponds i j record e f) : f.numbers = e.numbers := by
  cases h with
  | own h =>
    obtain ⟨n, -, rfl, rfl⟩ := h
    rfl
  | foreign _ _ _ hvalue => rw [Element.numbers, Element.numbers, hvalue]
  | point P => rfl

theorem parameters?_eq (h : Corresponds i j record e f) : f.parameters? = e.parameters? := by
  cases h with
  | own h =>
    obtain ⟨n, -, rfl, rfl⟩ := h
    rfl
  | foreign _ _ hparams => rw [Element.parameters?, Element.parameters?, hparams]
  | point P => rfl

theorem sort_eq (h : Corresponds i j record e f) :
    e.sort = .residue .signed ∧ f.sort = .residue .natural ∨ e.sort = .point ∧ f.sort = .point := by
  cases h with
  | own h =>
    obtain ⟨n, -, rfl, rfl⟩ := h
    exact .inl ⟨rfl, rfl⟩
  | foreign hsigned hnatural =>
    exact .inl ⟨congrArg ElementSort.residue hsigned, congrArg ElementSort.residue hnatural⟩
  | point P => exact .inr ⟨rfl, rfl⟩

/-- Elements that correspond have the same things in common with others. -/
theorem key_eq_iff (h : Corresponds i j record e f) (h' : Corresponds i j record e' f') :
    f.key = f'.key ↔ e.key = e'.key := by
  have hsorts : f.sort = f'.sort ↔ e.sort = e'.sort := by
    rcases h.sort_eq with ⟨he, hf⟩ | ⟨he, hf⟩ <;> rcases h'.sort_eq with ⟨he', hf'⟩ | ⟨he', hf'⟩ <;>
      simp [he, hf, he', hf']
  simp only [Element.key, Prod.mk.injEq, hsorts, h.numbers_eq, h'.numbers_eq]

/-- Elements that correspond are equal to elements that correspond. -/
theorem same_eq (h : Corresponds i j record e f) (h' : Corresponds i j record e' f') :
    f.same f' = e.same e' := by
  rw [Bool.eq_iff_iff, Element.same_iff, Element.same_iff, h.key_eq_iff h', h.parameters?_eq,
    h'.parameters?_eq]

theorem comparable_eq (h : Corresponds i j record e f) (h' : Corresponds i j record e' f') :
    f.comparable f' = e.comparable e' := by
  have hkey : (f.key != f'.key) = (e.key != e'.key) := by
    rw [Bool.eq_iff_iff, bne_iff_ne, bne_iff_ne, ne_eq, ne_eq, h.key_eq_iff h']
  rw [Element.comparable, Element.comparable, hkey, h.parameters?_eq, h'.parameters?_eq]

/-- Integers of either sign are written whatever their length. -/
theorem isLongElement_left (h : Corresponds i j record e f) : Value.isLongElement e = false := by
  have hsigned : ∀ x : Residue, x.group.engine = .signed →
      Value.isLongElement (.residue x) = false := by
    intro x hx
    rw [Value.isLongElement, hx]
    rfl
  cases h with
  | own h =>
    obtain ⟨n, -, rfl, -⟩ := h
    exact hsigned _ rfl
  | foreign hengine => exact hsigned _ hengine
  | point P => rfl

/-- The groups made both elements or neither, and then both can be shown. -/
theorem owns_cases (h : Corresponds i j record e f) :
    Own i j record e f ∨
      (Group.residues (signedGroup i record)).ownsElement e = false ∧
      (Group.residues (naturalGroup j record)).ownsElement f = false ∧
      Value.isLongElement f = false := by
  cases h with
  | own h => exact .inl h
  | foreign _ hnatural _ _ hshort hx hy =>
    refine .inr ⟨beq_eq_false_iff_ne.mpr hx, beq_eq_false_iff_ne.mpr hy, ?_⟩
    rw [Value.isLongElement, hnatural]
    exact hshort
  | point P => exact .inr ⟨rfl, rfl, rfl⟩

end Corresponds

namespace Own

variable {e f : Element}

theorem corresponds (h : Own i j record e f) : Corresponds i j record e f :=
  .own h

theorem check_eq (h : Own i j record e f) :
    (Group.residues (signedGroup i record)).check (.element e) = .ok e ∧
      (Group.residues (naturalGroup j record)).check (.element f) = .ok f := by
  obtain ⟨n, -, rfl, rfl⟩ := h
  exact ⟨ResidueGroup.check_residue _ n, ResidueGroup.check_residue _ n⟩

theorem ofZMod {p : ℕ} [Fact p.Prime] (hmodulus : record.params.modulus = p) (u : (ZMod p)ˣ) :
    Own i j record ((signedGroup i record).ofZMod (u : ZMod p))
      ((naturalGroup j record).ofZMod (u : ZMod p)) := by
  have hne : (u : ZMod p).val ≠ 0 := (ZMod.val_eq_zero _).not.mpr u.ne_zero
  have hlt := (u : ZMod p).val_lt
  exact ⟨_, ⟨by omega, by omega⟩, rfl, rfl⟩

theorem exists_unit {p : ℕ} [Fact p.Prime] (hmodulus : record.params.modulus = p)
    (h : Own i j record e f) :
    ∃ u : (ZMod p)ˣ, e = (signedGroup i record).ofZMod (u : ZMod p) ∧
      f = (naturalGroup j record).ofZMod (u : ZMod p) := by
  obtain ⟨n, ⟨hpos, hlt⟩, rfl, rfl⟩ := h
  rw [hmodulus] at hlt
  exact ⟨Units.mk0 _ (ResidueGroup.intCast_ne_zero hpos hlt),
    ResidueGroup.residue_eq_ofZMod _ hpos.le hlt, ResidueGroup.residue_eq_ofZMod _ hpos.le hlt⟩

end Own

namespace Matches

variable {v w : Value}

theorem isSome_literal?_eq (h : Matches i j record v w)
    (hshort : ∀ f, w = .element f → Value.isLongElement f = false) :
    w.literal?.isSome = v.literal?.isSome := by
  cases h with
  | element h =>
    simp only [Value.literal?, Value.elementLiteral?, h.isLongElement_left, hshort _ rfl]
    rfl
  | plain h => rfl

theorem isNumeral_eq (h : Matches i j record v w) : w.isNumeral = v.isNumeral := by
  cases h with
  | element h => rfl
  | plain h => rfl

theorem integer?_eq (h : Matches i j record v w) : w.integer? = v.integer? := by
  cases h with
  | element h => rfl
  | plain h => rfl

/-- What is refused is shown in both refusals or in neither, if it is no element of too long a
    number. -/
theorem report_showing_eq (h : Matches i j record v w)
    (hshort : ∀ f, w = .element f → Value.isLongElement f = false) (cause cause' : String → Error)
    (hcause : ∀ s t, (cause s).report.1 = (cause' t).report.1) :
    (Error.showing cause v.literal?).report.1 = (Error.showing cause' w.literal?).report.1 := by
  have hsome := h.isSome_literal?_eq hshort
  cases hv : v.literal? with
  | none =>
    cases hw : w.literal? with
    | none => rfl
    | some t => simp [hv, hw] at hsome
  | some s =>
    cases hw : w.literal? with
    | none => simp [hv, hw] at hsome
    | some t => exact hcause s t

theorem report_refusal_eq (h : Matches i j record v w)
    (hshort : ∀ f, w = .element f → Value.isLongElement f = false) :
    ((Group.residues (signedGroup i record)).refusal v).report.1 =
      ((Group.residues (naturalGroup j record)).refusal w).report.1 :=
  h.report_showing_eq hshort _ _ fun _ _ => rfl

/-- The groups either made both operands or refuse both. -/
theorem check_agree (h : Matches i j record v w) :
    Outcome.Agree (Own i j record) ((Group.residues (signedGroup i record)).check v)
      ((Group.residues (naturalGroup j record)).check w) := by
  cases h with
  | element hef =>
    rcases hef.owns_cases with hown | ⟨he, hf, hshort⟩
    · rw [hown.check_eq.1, hown.check_eq.2]
      exact hown
    · simp only [Group.check, he, hf, if_neg Bool.false_ne_true]
      refine (Matches.element hef).report_refusal_eq fun g hg => ?_
      cases hg
      exact hshort
  | plain hv =>
    cases v with
    | element e => cases hv
    | _ => exact (Matches.plain hv).report_refusal_eq fun f hf => by cases hf

end Matches

end Engine

end PrimeOrder
