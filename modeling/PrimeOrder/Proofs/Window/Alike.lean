import Mathlib
import PrimeOrder.Proofs.Outcome
import PrimeOrder.Window.Simultaneous
import PrimeOrder.Window.Table

namespace PrimeOrder.Window

variable {α β : Type} {related : α → β → Prop}

/-- Entries of related rows are related. -/
theorem getD_related {row : List α} {row' : List β} (hrow : row.Forall₂ related row') {a : α} {b : β}
    (hdefault : related a b) (digit : ℕ) : related (row.getD digit a) (row'.getD digit b) := by
  induction hrow generalizing digit with
  | nil => exact hdefault
  | cons h _ ih =>
    cases digit with
    | zero => exact h
    | succ digit => exact ih digit

theorem getLastD_related {row : List α} {row' : List β} (hrow : row.Forall₂ related row') {a : α}
    {b : β} (hdefault : related a b) : related (row.getLastD a) (row'.getLastD b) := by
  induction hrow generalizing a b with
  | nil => exact hdefault
  | cons h _ ih =>
    rw [List.getLastD_cons, List.getLastD_cons]
    exact ih h

/-- The longest of the exponents depends on the exponents only. -/
theorem greatestLength_eq {terms : List (α × ℕ)} {terms' : List (β × ℕ)}
    (hterms : terms.Forall₂ (fun t t' => related t.1 t'.1 ∧ t.2 = t'.2) terms') :
    Law.greatestLength terms = Law.greatestLength terms' := by
  have hstep : ∀ acc acc', acc = acc' → ∀ (t : α × ℕ) (t' : β × ℕ), t.2 = t'.2 →
      Nat.max acc (Integer.bitLength t.2) = Nat.max acc' (Integer.bitLength t'.2) := by
    rintro acc _ rfl t t' h
    rw [h]
  have hexponents := hterms.imp fun _ _ h => h.2
  exact List.rel_foldl hstep rfl hexponents

/-- Whether two laws send related operands to related products or fail alike. -/
structure Law.Alike (related : α → β → Prop) (L : Law α) (L' : Law β) : Prop where
  one : related L.one L'.one
  mul : ∀ {a b c d}, related a b → related c d → Outcome.Alike related (L.mul a c) (L'.mul b d)

namespace Law.Alike

variable {L : Law α} {L' : Law β} (hL : Law.Alike related L L')
include hL

theorem continuePowers {base last : α} {base' last' : β} (hbase : related base base')
    (hlast : related last last') (count : ℕ) :
    Outcome.Alike (List.Forall₂ related) (L.continuePowers base last count)
      (L'.continuePowers base' last' count) := by
  induction count generalizing last last' with
  | zero => exact .ok .nil
  | succ count ih =>
    refine (hL.mul hlast hbase).bind fun next next' hnext => ?_
    exact (ih hnext).bind fun rest rest' hrest => .ok (.cons hnext hrest)

theorem powers {base : α} {base' : β} (hbase : related base base') (width : ℕ) :
    Outcome.Alike (List.Forall₂ related) (L.powers base width) (L'.powers base' width) :=
  (hL.continuePowers hbase hbase _).bind fun _ _ hrest => .ok (.cons hL.one (.cons hbase hrest))

theorem mulDigit {row : List α} {row' : List β} (hrow : row.Forall₂ related row') (digit : ℕ) {x : α}
    {y : β} (hxy : related x y) :
    Outcome.Alike related (L.mulDigit row digit x) (L'.mulDigit row' digit y) := by
  unfold Law.mulDigit
  split_ifs
  · exact .ok hxy
  · exact hL.mul hxy (getD_related hrow hL.one digit)

section Simultaneous

theorem square {x : α} {y : β} (hxy : related x y) (count : ℕ) :
    Outcome.Alike related (L.square x count) (L'.square y count) := by
  induction count generalizing x y with
  | zero => exact .ok hxy
  | succ count ih => exact (hL.mul hxy hxy).bind fun _ _ h => ih h

theorem shift (width : ℕ) {x : Option α} {y : Option β} (hxy : Option.Rel related x y) :
    Outcome.Alike (Option.Rel related) (L.shift width x) (L'.shift width y) := by
  cases hxy with
  | none => exact .ok .none
  | some h => exact (hL.square h width).bind fun _ _ h => .ok (.some h)

/-- The product so far, or the neutral element if there is none. -/
theorem getD_one {x : Option α} {y : Option β} (hxy : Option.Rel related x y) :
    related (x.getD L.one) (y.getD L'.one) := by
  cases hxy with
  | none => exact hL.one
  | some h => exact h

theorem mulDigits (width start : ℕ) {x : Option α} {y : Option β} (hxy : Option.Rel related x y)
    {rows : List (List α × ℕ)} {rows' : List (List β × ℕ)}
    (hrows : rows.Forall₂ (fun r r' => r.1.Forall₂ related r'.1 ∧ r.2 = r'.2) rows') :
    Outcome.Alike (Option.Rel related) (L.mulDigits width start x rows)
      (L'.mulDigits width start y rows') := by
  induction hrows generalizing x y with
  | nil => exact .ok hxy
  | @cons r r' _ _ hrow _ ih =>
    obtain ⟨row, exponent⟩ := r
    obtain ⟨row', exponent'⟩ := r'
    obtain ⟨hrow, rfl⟩ : row.Forall₂ related row' ∧ exponent = exponent' := hrow
    rw [Law.mulDigits, Law.mulDigits]
    split_ifs
    · exact ih hxy
    · exact (hL.mul (hL.getD_one hxy) (getD_related hrow hL.one _)).bind fun _ _ h => ih (.some h)

theorem descend (width : ℕ) {rows : List (List α × ℕ)} {rows' : List (List β × ℕ)}
    (hrows : rows.Forall₂ (fun r r' => r.1.Forall₂ related r'.1 ∧ r.2 = r'.2) rows') {x : Option α}
    {y : Option β} (hxy : Option.Rel related x y) (count : ℕ) :
    Outcome.Alike related (L.descend width rows x count) (L'.descend width rows' y count) := by
  induction count generalizing x y with
  | zero => exact .ok (hL.getD_one hxy)
  | succ count ih =>
    refine (hL.shift width hxy).bind fun _ _ hshift => ?_
    exact (hL.mulDigits width _ hshift hrows).bind fun _ _ h => ih h

variable {terms : List (α × ℕ)} {terms' : List (β × ℕ)}
  (hterms : terms.Forall₂ (fun t t' => related t.1 t'.1 ∧ t.2 = t'.2) terms')
include hterms

theorem rowsOf (width : ℕ) :
    Outcome.Alike (List.Forall₂ fun r r' => r.1.Forall₂ related r'.1 ∧ r.2 = r'.2)
      (L.rowsOf width terms) (L'.rowsOf width terms') := by
  induction hterms with
  | nil => exact .ok .nil
  | @cons t t' _ _ hterm _ ih =>
    obtain ⟨base, exponent⟩ := t
    obtain ⟨base', exponent'⟩ := t'
    obtain ⟨hbase, rfl⟩ : related base base' ∧ exponent = exponent' := hterm
    refine (hL.powers hbase width).bind fun row row' hrow => ?_
    exact ih.bind fun rows rows' hrows => .ok (.cons ⟨hrow, rfl⟩ hrows)

theorem productOfPowers :
    Outcome.Alike related (L.productOfPowers terms) (L'.productOfPowers terms') := by
  simp only [Law.productOfPowers, greatestLength_eq hterms]
  split_ifs
  · exact .ok hL.one
  · exact (hL.rowsOf hterms _).bind fun _ _ hrows => hL.descend _ hrows .none _

end Simultaneous

end Law.Alike

namespace Table

/-- Whether two tables hold related elements. -/
structure Alike (related : α → β → Prop) (t : Table α) (t' : Table β) : Prop where
  width_eq : t.width = t'.width
  rows : t.rows.Forall₂ (List.Forall₂ related) t'.rows
  pending : related t.pending t'.pending

theorem alike_empty {base : α} {base' : β} (hbase : related base base') (width : ℤ) :
    Alike related (empty base width) (empty base' width) :=
  ⟨rfl, .nil, hbase⟩

variable {L : Law α} {L' : Law β} (hL : Law.Alike related L L')
include hL

theorem mulRows_alike (width : ℕ) {rows : List (List α)} {rows' : List (List β)}
    (hrows : rows.Forall₂ (List.Forall₂ related) rows') (exponent : ℕ) {x : α} {y : β}
    (hxy : related x y) :
    Outcome.Alike related (mulRows L width exponent x rows) (mulRows L' width exponent y rows') := by
  induction hrows generalizing exponent x y with
  | nil => exact .ok hxy
  | cons hrow _ ih =>
    exact (hL.mulDigit hrow _ hxy).bind fun _ _ hproduct => ih _ hproduct

namespace Alike

variable {t : Table α} {t' : Table β} (ht : Alike related t t')
include ht

theorem addRow (width : ℕ) :
    (t.addRow L width).1 = (t'.addRow L' width).1 ∧
      Alike related (t.addRow L width).2 (t'.addRow L' width).2 := by
  have hpowers := hL.powers ht.pending width
  unfold Table.addRow
  generalize L.powers t.pending width = powers at hpowers ⊢
  generalize L'.powers t'.pending width = powers' at hpowers ⊢
  cases hpowers with
  | error e => exact ⟨rfl, ht⟩
  | @ok row row' hrow =>
    have hrows := List.rel_append ht.rows (.cons hrow .nil)
    have hnext := hL.mul (getLastD_related hrow ht.pending) ht.pending
    dsimp only
    generalize L.mul _ t.pending = next at hnext ⊢
    generalize L'.mul _ t'.pending = next' at hnext ⊢
    cases hnext with
    | error e => exact ⟨rfl, ht.width_eq, hrows, ht.pending⟩
    | ok hpending => exact ⟨rfl, ht.width_eq, hrows, hpending⟩

theorem addRows (width count : ℕ) :
    (t.addRows L width count).1 = (t'.addRows L' width count).1 ∧
      Alike related (t.addRows L width count).2 (t'.addRows L' width count).2 := by
  induction count generalizing t t' with
  | zero => exact ⟨rfl, ht⟩
  | succ count ih =>
    obtain ⟨houtcome, hgrown⟩ := ht.addRow hL width
    rw [Table.addRows, Table.addRows]
    generalize t.addRow L width = added at houtcome hgrown ⊢
    generalize t'.addRow L' width = added' at houtcome hgrown ⊢
    obtain ⟨outcome, grown⟩ := added
    obtain ⟨outcome', grown'⟩ := added'
    obtain rfl : outcome = outcome' := houtcome
    cases outcome with
    | error e => exact ⟨rfl, hgrown⟩
    | ok _ => exact ih hgrown

theorem power (exponent : ℤ) :
    Outcome.Alike related (t.power L exponent).1 (t'.power L' exponent).1 := by
  obtain ⟨houtcome, hgrown⟩ := ht.addRows hL t.width.toNat
    ((Integer.bitLength exponent + t.width.toNat - 1) / t.width.toNat - t.rows.length)
  rw [Table.power, Table.power, ← ht.width_eq, ← ht.rows.length_eq]
  split_ifs
  · exact .error _
  · exact .error _
  · exact .error _
  · dsimp only
    generalize t.addRows L _ _ = added at houtcome hgrown ⊢
    generalize t'.addRows L' _ _ = added' at houtcome hgrown ⊢
    obtain ⟨outcome, grown⟩ := added
    obtain ⟨outcome', grown'⟩ := added'
    obtain rfl : outcome = outcome' := houtcome
    cases outcome with
    | error e => exact .error e
    | ok _ => exact mulRows_alike hL _ hgrown.rows _ hL.one

end Alike

end Table

end PrimeOrder.Window
