import Mathlib
import PrimeOrder.Proofs.Group.Foreign

namespace PrimeOrder

namespace Group

variable {G : Group} {e : Element}

theorem parameters?_of_ownsElement (he : G.ownsElement e = true) :
    e.parameters? = some G.parameters := by
  cases e with
  | residue x =>
    rw [ownsElement_residue_iff.mp he]
    rfl
  | point P =>
    obtain ⟨K, rfl, hcurve⟩ := ownsElement_point_iff.mp he
    rw [Element.parameters?, hcurve]
    rfl

end Group

namespace CachedGroup

/-- A group with the table of an element grown for an exponent. -/
def grown (S : CachedGroup) (e : Element) (k : ℤ) : CachedGroup :=
  { S with cache := S.cache.store e ((S.tableOf e).power S.group.law (S.group.reduceExponent k)).2 }

theorem cachedPower_of_owns {S : CachedGroup} {e : Element} (he : S.group.ownsElement e = true)
    (k : ℤ) :
    S.cachedPower (.element e) k =
      (((S.tableOf e).power S.group.law (S.group.reduceExponent k)).1, S.grown e k) := by
  have hcheck : S.group.check (.element e) = .ok e := if_pos he
  simp only [cachedPower, hcheck, grown]

/-- Whether every base of a cache is an element that the group owns. -/
def OwnsBases (S : CachedGroup) : Prop :=
  ∀ entry ∈ S.cache, S.group.ownsElement entry.1 = true

theorem ownsBases_fresh (G : Group) : OwnsBases ⟨G, []⟩ :=
  fun _ h => absurd h List.not_mem_nil

variable {σ : Type} [RandomSource σ] (isPrime : PrimalityTest) (S : CachedGroup)

/-- All that a call can do to a group. -/
theorem group_call_cases (c : Call) (source : σ) :
    (∃ e k, c = .cachedPower (.element e) k ∧ S.group.ownsElement e = true ∧
      (S.call isPrime c source).group = S.grown e k) ∨
    (∃ e, c = .release (.element e) ∧
      (S.call isPrime c source).group = ⟨S.group, S.cache.release e⟩) ∨
    (S.call isPrime c source).group = S := by
  cases hbase : c.base? with
  | none => exact .inr (.inr (S.group_call_of_base?_eq_none hbase source))
  | some e =>
    rcases Call.base?_eq_some hbase with ⟨k, rfl⟩ | rfl
    · by_cases howns : S.group.ownsElement e = true
      · refine .inl ⟨e, k, rfl, howns, ?_⟩
        simp only [call, cachedPower_of_owns howns]
      · exact .inr (.inr (by rw [S.call_cachedPower_of_not_owns isPrime howns]))
    · rw [S.call_release_element isPrime e source]
      split_ifs
      · exact .inr (.inl ⟨e, rfl, rfl⟩)
      · exact .inr (.inr rfl)

theorem group_group_call (c : Call) (source : σ) :
    (S.call isPrime c source).group.group = S.group := by
  rcases S.group_call_cases isPrime c source with ⟨e, k, -, -, h⟩ | ⟨e, -, h⟩ | h
  · rw [h, grown]
  · rw [h]
  · rw [h]

namespace OwnsBases

variable {S} {e : Element} (hS : S.OwnsBases)
include hS

theorem grown (he : S.group.ownsElement e = true) (k : ℤ) : (S.grown e k).OwnsBases := by
  intro entry hentry
  rcases Cache.mem_store hentry with hold | ⟨-, heq | ⟨-, old, hold⟩⟩
  · exact hS entry hold
  · rw [heq]
    exact he
  · exact hS (entry.1, old) hold

theorem call (c : Call) (source : σ) : (S.call isPrime c source).group.OwnsBases := by
  rcases S.group_call_cases isPrime c source with ⟨e, k, -, he, h⟩ | ⟨e, -, h⟩ | h
  · rw [h]
    exact hS.grown he k
  · rw [h]
    exact fun entry hentry => hS entry (List.mem_of_mem_filter hentry)
  · rw [h]
    exact hS

/-- An element that has a table is equal to one that the group owns. -/
theorem parameters?_eq (he : S.cache.hasTable e = true) :
    e.parameters? = some S.group.parameters := by
  obtain ⟨entry, hentry, hsame⟩ := Cache.hasTable_iff.mp he
  rw [← (Element.same_iff.mp hsame).2, Group.parameters?_of_ownsElement (hS entry hentry)]

/-- Bases can be compared with every element that belongs to a group. -/
theorem comparable (he : e.parameters?.isSome = true) : S.cache.comparable e = true := by
  refine List.all_eq_true.mpr fun entry hentry => ?_
  simp [Element.comparable, Group.parameters?_of_ownsElement (hS entry hentry), he]

/-- Who made an element plays no part in its release. -/
theorem call_release (he : e.parameters?.isSome = true) (source : σ) :
    S.call isPrime (.release (.element e)) source =
      ⟨.ok .null, ⟨S.group, S.cache.release e⟩, source⟩ := by
  rw [S.call_release_element isPrime e source, if_pos (hS.comparable he)]

end OwnsBases

end CachedGroup

end PrimeOrder
