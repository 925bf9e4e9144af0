import Mathlib
import PrimeOrder.Proofs.Outcome
import PrimeOrder.Workspace

namespace PrimeOrder

namespace Octets

/-- The target with the bytes from a place on replaced by those of the source. -/
def overwrite (source target : Octets) (start : ℕ) : Octets :=
  target.take start ++ source ++ target.drop (start + source.length)

section Overwrite

variable {source target : Octets} {start : ℕ} (hfits : start + source.length ≤ target.length)
include hfits

theorem length_overwrite : (overwrite source target start).length = target.length := by
  rw [overwrite, List.length_append, List.length_append, List.length_take, List.length_drop]
  omega

theorem getElem?_overwrite (i : ℕ) :
    (overwrite source target start)[i]? =
      if start ≤ i ∧ i < start + source.length then source[i - start]? else target[i]? := by
  have hfront : (target.take start).length = start := List.length_take_of_le (by omega)
  have hboth : (target.take start ++ source).length = start + source.length := by
    rw [List.length_append, hfront]
  rcases lt_or_ge i start with hbefore | hstart
  · rw [if_neg (by omega), overwrite, List.getElem?_append_left (by omega),
      List.getElem?_append_left (by omega), List.getElem?_take_of_lt hbefore]
  · rcases lt_or_ge i (start + source.length) with hin | hafter
    · rw [if_pos ⟨hstart, hin⟩, overwrite, List.getElem?_append_left (by omega),
        List.getElem?_append_right (by omega), hfront]
    · rw [if_neg (by omega), overwrite, List.getElem?_append_right (by omega), hboth,
        List.getElem?_drop, Nat.add_sub_cancel' hafter]

theorem copyFrom_overwrite :
    copyFrom (overwrite source target start) (start + source.length : ℕ) start = .ok source := by
  have hfront : (target.take start).length = start := List.length_take_of_le (by omega)
  have hlength := length_overwrite hfits
  rw [copyFrom, if_neg (by omega), Int.toNat_natCast, Int.toNat_natCast, overwrite,
    List.take_left' (by rw [List.length_append, hfront]), List.drop_left' hfront]

end Overwrite

/-- The bytes of a target after a copy: the old ones if the source does not fit. -/
def afterCopy (source target : Octets) (offset : ℤ) : Octets :=
  match copyInto source target offset with
  | .ok copied => copied
  | .error _ => target

section Copy

variable {source target : Octets} {offset : ℤ}

theorem copyInto_of_not_fits (hbeyond : offset < 0 ∨ (target.length : ℤ) < offset + source.length) :
    copyInto source target offset = .error .sourceDoesNotFit :=
  if_pos hbeyond

theorem copyInto_of_fits (hin : ¬(offset < 0 ∨ (target.length : ℤ) < offset + source.length)) :
    copyInto source target offset = .ok (afterCopy source target offset) := by
  have hcopy : copyInto source target offset = .ok (overwrite source target offset.toNat) :=
    if_neg hin
  rw [afterCopy, hcopy]

theorem afterCopy_of_not_fits (hbeyond : offset < 0 ∨ (target.length : ℤ) < offset + source.length) :
    afterCopy source target offset = target := by
  rw [afterCopy, copyInto_of_not_fits hbeyond]

theorem afterCopy_natCast {start : ℕ} (hfits : start + source.length ≤ target.length) :
    afterCopy source target start = overwrite source target start := by
  have hcopy : copyInto source target start = .ok (overwrite source target start) :=
    if_neg (by omega)
  rw [afterCopy, hcopy]

/-- What fits starts at a place of the target. -/
theorem exists_natCast_of_fits (hin : ¬(offset < 0 ∨ (target.length : ℤ) < offset + source.length)) :
    ∃ start : ℕ, offset = start ∧ start + source.length ≤ target.length := by
  obtain ⟨start, rfl⟩ := Int.eq_ofNat_of_zero_le (a := offset) (by omega)
  exact ⟨start, rfl, by omega⟩

theorem length_afterCopy (source target : Octets) (offset : ℤ) :
    (afterCopy source target offset).length = target.length := by
  by_cases hbeyond : offset < 0 ∨ (target.length : ℤ) < offset + source.length
  · rw [afterCopy_of_not_fits hbeyond]
  · obtain ⟨start, rfl, hfits⟩ := exists_natCast_of_fits hbeyond
    rw [afterCopy_natCast hfits, length_overwrite hfits]

theorem getElem?_afterCopy (source target : Octets) (offset : ℤ) (i : ℕ) :
    (afterCopy source target offset)[i]? =
      if ¬(offset < 0 ∨ (target.length : ℤ) < offset + source.length) ∧
        (offset ≤ i ∧ i < offset + source.length) then source[i - offset.toNat]? else target[i]? := by
  by_cases hbeyond : offset < 0 ∨ (target.length : ℤ) < offset + source.length
  · rw [afterCopy_of_not_fits hbeyond, if_neg fun h => h.1 hbeyond]
  · obtain ⟨start, rfl, hfits⟩ := exists_natCast_of_fits hbeyond
    rw [afterCopy_natCast hfits, getElem?_overwrite hfits, Int.toNat_natCast]
    refine if_congr ?_ rfl rfl
    omega

theorem copyFrom_afterCopy (hin : ¬(offset < 0 ∨ (target.length : ℤ) < offset + source.length)) :
    copyFrom (afterCopy source target offset) (offset + source.length) offset = .ok source := by
  obtain ⟨start, rfl, hfits⟩ := exists_natCast_of_fits hin
  rw [afterCopy_natCast hfits, ← Nat.cast_add, copyFrom_overwrite hfits]

end Copy

/-- Two copies into ranges that have no place in common can be made in either order. -/
theorem afterCopy_comm {first second : Octets} {offset offset' : ℤ}
    (hapart : Disjoint (Set.Ico offset (offset + first.length))
      (Set.Ico offset' (offset' + second.length))) (target : Octets) :
    afterCopy second (afterCopy first target offset) offset' =
      afterCopy first (afterCopy second target offset') offset := by
  apply List.ext_getElem?
  intro i
  have hnotBoth : offset ≤ i ∧ i < offset + first.length →
      ¬(offset' ≤ i ∧ i < offset' + second.length) :=
    fun hfirst hsecond => Set.disjoint_left.mp hapart hfirst hsecond
  simp only [getElem?_afterCopy, length_afterCopy]
  split_ifs with hsecond hfirst
  · exact absurd hsecond.2 (hnotBoth hfirst.2)
  · rfl
  · rfl
  · rfl

/-- Whether reading from an offset up to a length gives the bytes of this range, if it is one. -/
structure ReadsRange (source : Octets) (length offset : ℤ) : Prop where
  refused_iff : (∃ e, copyFrom source length offset = .error e ∧ e.report.1 = .invalidArgument) ↔
    ¬(0 ≤ offset ∧ offset ≤ length ∧ length ≤ source.length)
  read : 0 ≤ offset ∧ offset ≤ length ∧ length ≤ source.length →
    ∃ part, copyFrom source length offset = .ok part ∧ part.length = length - offset ∧
      ∀ i < part.length, part[i]? = source[offset.toNat + i]?

theorem readsRange (source : Octets) (length offset : ℤ) : source.ReadsRange length offset := by
  by_cases hrange : 0 ≤ offset ∧ offset ≤ length ∧ length ≤ source.length
  · have hread : copyFrom source length offset =
        .ok ((source.take length.toNat).drop offset.toNat) := if_neg (by omega)
    have hlength : ((source.take length.toNat).drop offset.toNat).length =
        length.toNat - offset.toNat := by
      rw [List.length_drop, List.length_take]
      omega
    refine ⟨by simp [hread, hrange], fun _ => ⟨_, hread, by omega, fun i hi => ?_⟩⟩
    rw [List.getElem?_drop, List.getElem?_take_of_lt (by omega)]
  · have hrefused : copyFrom source length offset = .error .outsideSource := if_pos (by omega)
    exact ⟨⟨fun _ => hrange, fun _ => ⟨_, hrefused, rfl⟩⟩, fun h => absurd h hrange⟩

end Octets

namespace Workspace

/-- A copy into the buffer at a position, as it is now. -/
def copyAt (W : Workspace) (position : ℕ) (source : Octets) (offset : ℤ) :
    Except Error Value × Workspace :=
  W.copyInto source (W.current (.buffer position [])) offset

/-- The workspace with other bytes in the buffer at a position. -/
def withBuffer (W : Workspace) (position : ℕ) (content : Octets) : Workspace :=
  { W with buffers := W.buffers.setIfInBounds position content }

variable {W : Workspace} {position : ℕ} {content : Octets}

theorem getElem?_withBuffer (hcontent : W.buffers[position]? = some content) (copied : Octets) :
    (W.withBuffer position copied).buffers[position]? = some copied :=
  Array.getElem?_setIfInBounds_self_of_lt (Array.getElem?_eq_some_iff.mp hcontent).1

theorem getElem?_withBuffer_of_ne (copied : Octets) {other : ℕ} (hother : other ≠ position) :
    (W.withBuffer position copied).buffers[other]? = W.buffers[other]? :=
  Array.getElem?_setIfInBounds_ne hother.symm

theorem withBuffer_withBuffer (W : Workspace) (position : ℕ) (first second : Octets) :
    (W.withBuffer position first).withBuffer position second = W.withBuffer position second := by
  rw [withBuffer, withBuffer, withBuffer]
  dsimp only
  rw [Array.setIfInBounds_setIfInBounds]

theorem withBuffer_self (hcontent : W.buffers[position]? = some content) :
    W.withBuffer position content = W := by
  have hbuffers : W.buffers.setIfInBounds position content = W.buffers := by
    apply Array.ext_getElem?
    intro i
    by_cases hi : position = i
    · rw [← hi, hcontent]
      exact getElem?_withBuffer hcontent content
    · rw [Array.getElem?_setIfInBounds_ne hi]
  rw [withBuffer, hbuffers]

section Copy

variable (hcontent : W.buffers[position]? = some content) (source : Octets) (offset : ℤ)
include hcontent

theorem current_buffer (seen : Octets) :
    W.current (.buffer position seen) = .buffer position content := by
  rw [current, Array.getD_eq_getD_getElem?, hcontent, Option.getD_some]

theorem fst_copyAt :
    (W.copyAt position source offset).1 =
      (Octets.copyInto source content offset).map (.buffer position) := by
  rw [copyAt, current_buffer hcontent]
  unfold copyInto
  dsimp only
  cases Octets.copyInto source content offset <;> rfl

theorem snd_copyAt :
    (W.copyAt position source offset).2 =
      W.withBuffer position (Octets.afterCopy source content offset) := by
  rw [copyAt, current_buffer hcontent]
  unfold copyInto Octets.afterCopy
  dsimp only
  cases Octets.copyInto source content offset with
  | error e => exact (withBuffer_self hcontent).symm
  | ok copied => rfl

/-- Whether a copy into a buffer is refused exactly if its source does not fit, and otherwise leaves the
    rest of the buffer and of the workspace as they are. -/
structure CopiesExactly (W : Workspace) (position : ℕ) (content source : Octets) (offset : ℤ) : Prop where
  refused_iff : (∃ e, (W.copyAt position source offset).1 = .error e ∧ e.report.1 = .invalidArgument) ↔
    offset < 0 ∨ content.length < offset + source.length
  refused : offset < 0 ∨ content.length < offset + source.length →
    (W.copyAt position source offset).2 = W
  copied : ¬(offset < 0 ∨ content.length < offset + source.length) →
    ∃ copied next, W.copyAt position source offset = (.ok (.buffer position copied), next) ∧
      copied.length = content.length ∧
      (∀ i : ℕ, ¬(offset ≤ i ∧ i < offset + source.length) → copied[i]? = content[i]?) ∧
      Octets.copyFrom copied (offset + source.length) offset = .ok source ∧
      next.buffers[position]? = some copied ∧
      (∀ other ≠ position, next.buffers[other]? = W.buffers[other]?) ∧
      next = { W with buffers := next.buffers }

theorem copiesExactly : W.CopiesExactly position content source offset := by
  have houtcome := fst_copyAt hcontent source offset
  have hnext := snd_copyAt hcontent source offset
  by_cases hbeyond : offset < 0 ∨ (content.length : ℤ) < offset + source.length
  · rw [Octets.copyInto_of_not_fits hbeyond] at houtcome
    rw [Octets.afterCopy_of_not_fits hbeyond, withBuffer_self hcontent] at hnext
    exact ⟨⟨fun _ => hbeyond, fun _ => ⟨_, houtcome, rfl⟩⟩, fun _ => hnext,
      fun hin => absurd hbeyond hin⟩
  · rw [Octets.copyInto_of_fits hbeyond, Outcome.map_ok] at houtcome
    refine ⟨⟨?_, fun h => absurd h hbeyond⟩, fun h => absurd h hbeyond, fun _ => ?_⟩
    · rintro ⟨e, he, -⟩
      rw [houtcome] at he
      cases he
    · refine ⟨_, _, Prod.ext houtcome hnext, Octets.length_afterCopy _ _ _, ?_,
        Octets.copyFrom_afterCopy hbeyond, getElem?_withBuffer hcontent _,
        fun _ => getElem?_withBuffer_of_ne _, rfl⟩
      intro i hi
      rw [Octets.getElem?_afterCopy, if_neg fun h => hi h.2]

/-- Two copies into ranges of a buffer without a common place lead to one workspace in either order. -/
theorem copyAt_comm {first second : Octets} {offset offset' : ℤ}
    (hapart : Disjoint (Set.Ico offset (offset + first.length))
      (Set.Ico offset' (offset' + second.length))) :
    ((W.copyAt position first offset).2.copyAt position second offset').2 =
      ((W.copyAt position second offset').2.copyAt position first offset).2 := by
  rw [snd_copyAt hcontent, snd_copyAt hcontent, snd_copyAt (getElem?_withBuffer hcontent _),
    snd_copyAt (getElem?_withBuffer hcontent _), withBuffer_withBuffer, withBuffer_withBuffer,
    Octets.afterCopy_comm hapart]

end Copy

/-- A copy into a buffer changes its range and nothing else, or nothing at all, and copies into ranges
    without a common place can be made in either order. Reading gives the range that was asked for. -/
theorem copies_exactly (hcontent : W.buffers[position]? = some content) (first second : Octets)
    (offset offset' length : ℤ) :
    W.CopiesExactly position content first offset ∧
    (Disjoint (Set.Ico offset (offset + first.length)) (Set.Ico offset' (offset' + second.length)) →
      ((W.copyAt position first offset).2.copyAt position second offset').2 =
        ((W.copyAt position second offset').2.copyAt position first offset).2) ∧
    first.ReadsRange length offset :=
  ⟨copiesExactly hcontent first offset, copyAt_comm hcontent, Octets.readsRange first length offset⟩

/-- Two bytes at the end of a buffer of four, which do not fit one place later, and one byte before them. -/
theorem copies_exactly_four :
    ((fresh 0).addBuffer [1, 2, 3, 4]).2.buffers[0]? = some [1, 2, 3, 4] ∧
    (∃ copied next, ((fresh 0).addBuffer [1, 2, 3, 4]).2.copyAt 0 [8, 9] 2 =
        (.ok (.buffer 0 copied), next) ∧ copied = [1, 2, 8, 9] ∧ copied[1]? = some 2 ∧
      Octets.copyFrom copied 4 2 = .ok [8, 9] ∧ next.buffers[0]? = some copied) ∧
    (∃ e, (((fresh 0).addBuffer [1, 2, 3, 4]).2.copyAt 0 [8, 9] 3).1 = .error e ∧
      e.report.1 = .invalidArgument) ∧
    (Disjoint (Set.Ico (2 : ℤ) (2 + 2)) (Set.Ico 0 (0 + 1)) ∧
      ((((fresh 0).addBuffer [1, 2, 3, 4]).2.copyAt 0 [8, 9] 2).2.copyAt 0 [7] 0).2 =
        ((((fresh 0).addBuffer [1, 2, 3, 4]).2.copyAt 0 [7] 0).2.copyAt 0 [8, 9] 2).2) ∧
    ∃ part, Octets.copyFrom [8, 9] 2 1 = .ok part ∧ part.length = 1 ∧ part[0]? = some 9 := by
  have hcontent : ((fresh 0).addBuffer [1, 2, 3, 4]).2.buffers[0]? = some [1, 2, 3, 4] := rfl
  have hapart : Disjoint (Set.Ico (2 : ℤ) (2 + 2)) (Set.Ico 0 (0 + 1)) := by
    rw [Set.disjoint_left]
    intro i hi hi'
    rw [Set.mem_Ico] at hi hi'
    omega
  obtain ⟨hcopies, hcomm, -⟩ := copies_exactly hcontent [8, 9] [7] 2 0 2
  obtain ⟨hbeyond, -, -⟩ := copies_exactly hcontent [8, 9] [7] 3 0 2
  obtain ⟨-, -, hreads⟩ := copies_exactly hcontent [8, 9] [7] 1 0 2
  refine ⟨hcontent, ?_, hbeyond.refused_iff.mpr (.inr (by decide)), ⟨hapart, hcomm hapart⟩, ?_⟩
  · obtain ⟨copied, next, hcopy, -, houtside, hback, hnext, -⟩ := hcopies.copied (by decide)
    refine ⟨copied, next, hcopy, ?_, houtside 1 (by decide), hback, hnext⟩
    cases hcopy
    rfl
  · obtain ⟨part, hpart, hlength, hbytes⟩ := hreads.read (by decide)
    have hone : part.length = 1 := by omega
    exact ⟨part, hpart, hone, hbytes 0 (by omega)⟩

end Workspace

end PrimeOrder
