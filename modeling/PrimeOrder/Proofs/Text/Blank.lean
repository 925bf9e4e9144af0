import Mathlib
import PrimeOrder.Text.Blank

namespace PrimeOrder.Text

theorem isBlank_digitChar {d : ℕ} (hd : d < 16) : isBlank d.digitChar = false := by
  revert d
  decide +kernel

theorem dropWhile_isBlank_append {blanks core : List Char} (hblanks : ∀ c ∈ blanks, isBlank c = true)
    (hcore : ∀ c ∈ core, isBlank c = false) (hne : core ≠ []) (rest : List Char) :
    (blanks ++ (core ++ rest)).dropWhile isBlank = core ++ rest := by
  obtain ⟨first, others, rfl⟩ := List.exists_cons_of_ne_nil hne
  have hfirst : ¬isBlank first = true := by
    rw [hcore first List.mem_cons_self]
    exact Bool.false_ne_true
  rw [List.dropWhile_append_of_pos hblanks, List.cons_append, List.dropWhile_cons_of_neg hfirst]

/-- Blanks at both ends of a text without blanks are all that is trimmed. -/
theorem trim_append {before core after : List Char} (hbefore : ∀ c ∈ before, isBlank c = true)
    (hcore : ∀ c ∈ core, isBlank c = false) (hne : core ≠ [])
    (hafter : ∀ c ∈ after, isBlank c = true) : trim (before ++ core ++ after) = core := by
  have hback := @dropWhile_isBlank_append after.reverse core.reverse
    (fun c hc => hafter c (List.mem_reverse.mp hc)) (fun c hc => hcore c (List.mem_reverse.mp hc))
    (by simpa using hne) []
  rw [List.append_nil] at hback
  rw [trim, List.append_assoc, dropWhile_isBlank_append hbefore hcore hne, List.reverse_append, hback,
    List.reverse_reverse]

end PrimeOrder.Text
