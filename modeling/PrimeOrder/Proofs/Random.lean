import Mathlib
import PrimeOrder.Proofs.Outcome
import PrimeOrder.Random.Source

namespace PrimeOrder

namespace RandomSource

/-- Whether what is drawn from a non-empty range stays in it. A draw may fail. -/
def KeepsBounds (σ : Type) [RandomSource σ] : Prop :=
  ∀ (low high : ℤ) (s : σ) drawn next, low ≤ high → draw low high s = .ok (drawn, next) →
    low ≤ drawn ∧ drawn ≤ high

theorem StaysInRange.keepsBounds {σ : Type} [RandomSource σ] (h : StaysInRange σ) :
    KeepsBounds σ := by
  intro low high s drawn next hrange hdraw
  obtain ⟨drawn', next', hdraw', hlow, hhigh⟩ := h low high s hrange
  rw [hdraw] at hdraw'
  cases hdraw'
  exact ⟨hlow, hhigh⟩

end RandomSource

theorem Generator.staysInRange : RandomSource.StaysInRange Generator := by
  intro low high g hrange
  have hsize : 0 < high - low + 1 := by omega
  have hdraw : Generator.between low high g = .ok _ := if_neg (by omega)
  refine ⟨_, _, hdraw, ?_, ?_⟩
  · have := Int.emod_nonneg (bits (Integer.bitLength (high - low + 1) + 64) g).1 hsize.ne'
    omega
  · have := Int.emod_lt_of_pos (bits (Integer.bitLength (high - low + 1) + 64) g).1 hsize
    omega

end PrimeOrder
