import Mathlib
import PrimeOrder.Group.Cached
import PrimeOrder.Proofs.Group.Equality

namespace PrimeOrder.Cache

variable {cache : Cache} {e f : Element} {table : Window.Table Element}

/-- Whether no two bases of a cache are equal. -/
def IsDistinct (cache : Cache) : Prop :=
  cache.Pairwise fun entry other => entry.1.same other.1 = false

/-- An element that is equal to one of two elements is equal to the other if these are equal. -/
theorem same_base {base : Element} (hbase : base.same f = true) : base.same e = e.same f := by
  rw [Element.same_congr hbase, Element.same_comm]

theorem hasTable_iff : cache.hasTable e = true ↔ ∃ entry ∈ cache, entry.1.same e = true :=
  List.any_eq_true

theorem hasTable_eq_false_iff :
    cache.hasTable e = false ↔ ∀ entry ∈ cache, entry.1.same e = false := by
  simp [hasTable]

theorem isSome_table? : (cache.table? e).isSome = cache.hasTable e := by
  rw [Bool.eq_iff_iff, table?, Option.isSome_map, List.find?_isSome, hasTable_iff]

theorem mem_of_table?_eq_some (h : cache.table? e = some table) :
    ∃ base, (base, table) ∈ cache ∧ base.same e = true := by
  obtain ⟨entry, hentry, rfl⟩ := Option.map_eq_some_iff.mp h
  have hsame := List.find?_some hentry
  exact ⟨entry.1, List.mem_of_find?_eq_some hentry, hsame⟩

theorem hasTable_congr (hef : e.same f = true) : cache.hasTable e = cache.hasTable f := by
  have hsame : ∀ base : Element, base.same e = base.same f := fun base => by
    rw [Element.same_comm base, Element.same_congr hef, Element.same_comm]
  simp only [hasTable, hsame]

/-- A base has one table if it has any. -/
theorem IsDistinct.countP_eq (hcache : IsDistinct cache) (e : Element) :
    cache.countP (fun entry => entry.1.same e) = if cache.hasTable e then 1 else 0 := by
  induction cache with
  | nil => rfl
  | cons entry rest ih =>
    obtain ⟨hothers, hrest⟩ := List.pairwise_cons.mp hcache
    rw [List.countP_cons, ih hrest]
    by_cases hsame : entry.1.same e = true
    · have hnone : hasTable rest e = false := hasTable_eq_false_iff.mpr fun other hother => by
        rw [← same_base hsame]
        exact hothers other hother
      rw [hnone, hasTable, List.any_cons, hsame]
      rfl
    · rw [if_neg hsame, hasTable, hasTable, List.any_cons, Bool.eq_false_of_not_eq_true hsame,
        Bool.false_or]
      exact Nat.add_zero _

section Store

/-- An entry after a table was put in is an old one, or has the new table beside its base or a base
    that is equal to it. -/
theorem mem_store {entry : Element × Window.Table Element} (h : entry ∈ cache.store e table) :
    entry ∈ cache ∨ entry.2 = table ∧
      (entry.1 = e ∨ entry.1.same e = true ∧ ∃ old, (entry.1, old) ∈ cache) := by
  unfold store at h
  split at h
  · obtain ⟨old, hold, rfl⟩ := List.mem_map.mp h
    split
    · rename_i hsame
      exact .inr ⟨rfl, .inr ⟨hsame, old.2, hold⟩⟩
    · exact .inl hold
  · rcases List.mem_append.mp h with hold | hnew
    · exact .inl hold
    · obtain rfl := List.mem_singleton.mp hnew
      exact .inr ⟨rfl, .inl rfl⟩

theorem IsDistinct.store (hcache : IsDistinct cache) (e : Element) (table : Window.Table Element) :
    IsDistinct (cache.store e table) := by
  unfold Cache.store
  split
  · have hbase : ∀ entry : Element × Window.Table Element,
        (if entry.1.same e then (entry.1, table) else entry).1 = entry.1 := fun entry => by
      split <;> rfl
    rw [IsDistinct, List.pairwise_map]
    simp only [hbase]
    exact hcache
  · rename_i habsent
    rw [Bool.not_eq_true, hasTable_eq_false_iff] at habsent
    refine List.pairwise_append.mpr ⟨hcache, List.pairwise_singleton _ _, ?_⟩
    intro entry hentry other hother
    obtain rfl := List.mem_singleton.mp hother
    exact habsent entry hentry

/-- What is put in is found for the elements equal to its base, and nothing else changes. -/
theorem table?_store (f : Element) :
    (cache.store e table).table? f = if e.same f then some table else cache.table? f := by
  unfold store
  split
  · rename_i hpresent
    have hbase : (fun entry : Element × Window.Table Element => entry.1.same f) ∘
        (fun entry : Element × Window.Table Element =>
          if entry.1.same e then (entry.1, table) else entry) = fun entry => entry.1.same f := by
      funext entry
      dsimp only [Function.comp_apply]
      split <;> rfl
    rw [table?, List.find?_map, hbase, Option.map_map, table?]
    cases hfind : cache.find? fun entry => entry.1.same f with
    | none =>
      have hef : e.same f = false := by
        rw [← Bool.not_eq_true]
        intro hef
        rw [hasTable_congr hef, ← isSome_table?, table?, hfind] at hpresent
        cases hpresent
      rw [hef]
      rfl
    | some entry =>
      have hsame := List.find?_some hfind
      simp only [Option.map_some, Function.comp_apply, same_base hsame]
      split <;> rfl
  · rename_i habsent
    rw [table?, List.find?_append, table?]
    by_cases hef : e.same f = true
    · rw [hasTable_congr hef, ← isSome_table?, Bool.not_eq_true, Option.isSome_eq_false_iff,
        Option.isNone_iff_eq_none, table?, Option.map_eq_none_iff] at habsent
      simp [habsent, hef]
    · simp [hef]

theorem hasTable_store (f : Element) :
    (cache.store e table).hasTable f = (e.same f || cache.hasTable f) := by
  rw [← isSome_table?, table?_store, ← isSome_table?]
  split <;> simp [*]

end Store

section Release

theorem IsDistinct.release (hcache : IsDistinct cache) (e : Element) :
    IsDistinct (cache.release e) :=
  hcache.filter _

/-- A released base has no table any more, and nothing else changes. -/
theorem table?_release (f : Element) :
    (cache.release e).table? f = if e.same f then none else cache.table? f := by
  rw [table?, release, List.find?_filter, table?]
  -- among the entries of a base equal to `f` all are released or none is
  have hpredicate : (fun entry : Element × Window.Table Element =>
      decide ((!entry.1.same e) = true ∧ entry.1.same f = true)) =
        fun entry => !e.same f && entry.1.same f := by
    funext entry
    by_cases hsame : entry.1.same f = true
    · simp [hsame, same_base hsame]
    · simp [hsame]
  rw [hpredicate]
  by_cases hef : e.same f = true <;> simp [hef]

theorem hasTable_release (f : Element) :
    (cache.release e).hasTable f = (!e.same f && cache.hasTable f) := by
  rw [← isSome_table?, table?_release, ← isSome_table?]
  split <;> simp [*]

theorem release_eq_self (h : cache.hasTable e = false) : cache.release e = cache := by
  rw [hasTable_eq_false_iff] at h
  exact List.filter_eq_self.mpr fun entry hentry => by rw [h entry hentry, Bool.not_false]

end Release

end PrimeOrder.Cache
