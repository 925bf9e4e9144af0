import Mathlib
import PrimeOrder.Proofs.Outcome
import PrimeOrder.Proofs.Random
import PrimeOrder.Proofs.Random.Generator
import PrimeOrder.Workspace

namespace PrimeOrder

/-- The steps of a draw from a range: sixty-four bits more than its size are drawn. -/
def Generator.rangeSteps (low high : ℤ) : ℕ :=
  (Integer.bitLength (high - low + 1) + 64) ⌈/⌉ 16

theorem Generator.between_of_le {low high : ℤ} (hrange : low ≤ high) (g : Generator) :
    ∃ drawn, g.between low high = .ok (drawn, step^[rangeSteps low high] g) ∧
      low ≤ drawn ∧ drawn ≤ high := by
  obtain ⟨drawn, next, hdraw, hbounds⟩ := staysInRange low high g hrange
  have hnext : (.ok (_, (g.bits (Integer.bitLength (high - low + 1) + 64 : ℕ)).2) :
      Except Error (ℤ × Generator)) = .ok (drawn, next) := (if_neg hrange.not_gt).symm.trans hdraw
  rw [snd_bits] at hnext
  cases hnext
  exact ⟨_, hdraw, hbounds⟩

namespace Workspace

/-- The workspace after steps of one of its generators. -/
def advance (W : Workspace) (position count : ℕ) : Workspace :=
  { W with generators := W.generators.modify position Generator.step^[count] }

variable {W : Workspace} {position : ℕ} {g : Generator}

theorem state_eq_ok_iff {s : ℕ} :
    W.state position = .ok s ↔ ∃ g, W.generators[position]? = some g ∧ g.state.toNat = s := by
  unfold state
  cases W.generators[position]? with
  | none => simp
  | some g => simp

theorem getElem?_generators_advance (hg : W.generators[position]? = some g) (count : ℕ) :
    (W.advance position count).generators[position]? = some (Generator.step^[count] g) := by
  rw [advance, Array.getElem?_modify, if_pos rfl, hg, Option.map_some]

theorem state_advance {s : ℕ} (hs : W.state position = .ok s) (count : ℕ) :
    (W.advance position count).state position = .ok (Generator.successor^[count] s) := by
  obtain ⟨g, hg, rfl⟩ := state_eq_ok_iff.mp hs
  exact state_eq_ok_iff.mpr
    ⟨_, getElem?_generators_advance hg count, Generator.toNat_iterate_step count g⟩

theorem advance_advance (W : Workspace) (position m n : ℕ) :
    (W.advance position m).advance position n = W.advance position (m + n) := by
  have hgenerators : (W.generators.modify position Generator.step^[m]).modify position
      Generator.step^[n] = W.generators.modify position Generator.step^[m + n] := by
    rw [Nat.add_comm, Function.iterate_add]
    apply Array.ext_getElem?
    intro i
    simp only [Array.getElem?_modify]
    split
    · rw [Option.map_map]
    · rfl
  rw [advance, advance, hgenerators]
  rfl

/-- Putting the generator back after its steps is stepping it in its place. -/
theorem setIfInBounds_eq_modify (hg : W.generators[position]? = some g) (count : ℕ) :
    W.generators.setIfInBounds position (Generator.step^[count] g) =
      W.generators.modify position Generator.step^[count] := by
  apply Array.ext_getElem?
  intro i
  rw [Array.getElem?_setIfInBounds, Array.getElem?_modify]
  split
  case isTrue hi =>
    subst hi
    rw [hg, if_pos (Array.getElem?_eq_some_iff.mp hg).1]
    rfl
  case isFalse => rfl

theorem draw_of_ok {α : Type} {f : Generator → Except Error (α × Generator)} {a : α} {count : ℕ}
    (hg : W.generators[position]? = some g) (hf : f g = .ok (a, Generator.step^[count] g)) :
    W.draw position f = (.ok a, W.advance position count) := by
  unfold draw
  rw [hg]
  dsimp only
  rw [hf]
  dsimp only
  rw [setIfInBounds_eq_modify hg]
  rfl

theorem draw_of_error {α : Type} {f : Generator → Except Error (α × Generator)} {e : Error}
    (hg : W.generators[position]? = some g) (hf : f g = .error e) :
    W.draw position f = (.error e, W) := by
  unfold draw
  rw [hg]
  dsimp only
  rw [hf]

/-- What the generator at a position gives whose state is `s`. -/
structure DrawsExactly (W : Workspace) (position s : ℕ) : Prop where
  state_lt : s < 2 ^ 32
  state_advance : ∀ count,
    (W.advance position count).state position = .ok (Generator.successor^[count] s)
  bits : ∀ k : Number, 0 ≤ k.toInt → ∃ drawn,
    W.drawBits position k = (.ok drawn, W.advance position (k.toInt.toNat ⌈/⌉ 16)) ∧
      0 ≤ drawn.toInt ∧ drawn.toInt < 2 ^ k.toInt.toNat
  bits_add : ∀ (m : ℕ) (front k whole : Number), front.toInt = 16 * m → 0 ≤ k.toInt →
    whole.toInt = 16 * m + k.toInt → ∃ x y z between last,
      W.drawBits position front = (.ok x, between) ∧
      between.drawBits position k = (.ok y, last) ∧
      W.drawBits position whole = (.ok z, last) ∧
      z.toInt = x.toInt <<< k.toInt.toNat + y.toInt
  range : ∀ low high : Number, low.toInt ≤ high.toInt → ∃ drawn,
    W.drawBetween position low high =
      (.ok drawn, W.advance position (Generator.rangeSteps low.toInt high.toInt)) ∧
    W.integerBetween (some position) low high = W.drawBetween position low high ∧
    low.toInt ≤ drawn.toInt ∧ drawn.toInt ≤ high.toInt
  empty_range : ∀ low high : Number, high.toInt < low.toInt →
    (∃ e, W.drawBetween position low high = (.error e, W) ∧ e.report.1 = .value) ∧
    ∃ e, W.integerBetween (some position) low high = (.error e, W) ∧
      e.report.1 = .invalidArgument

theorem drawBits_eq (hg : W.generators[position]? = some g) {k : Number} {n : ℕ} (hk : k.toInt = n) :
    W.drawBits position k =
      (.ok (.resultOf [k] (g.bits n).1), W.advance position (n ⌈/⌉ 16)) := by
  apply draw_of_ok hg
  rw [hk, ← Generator.snd_bits]

theorem drawsExactly {s : ℕ} (hs : W.state position = .ok s) : W.DrawsExactly position s := by
  obtain ⟨g, hg, hstate⟩ := state_eq_ok_iff.mp hs
  constructor
  case state_lt => exact hstate ▸ g.state.toNat_lt
  case state_advance => exact state_advance hs
  case bits =>
    intro k hk
    lift k.toInt to ℕ using hk with n hn
    refine ⟨_, drawBits_eq hg hn.symm, ?_, ?_⟩
    · rw [Number.toInt_resultOf]
      exact Int.natCast_nonneg _
    · rw [Number.toInt_resultOf, Int.toNat_natCast]
      exact_mod_cast Generator.fst_bits_lt n g
  case bits_add =>
    intro m front k whole hfront hk hwhole
    lift k.toInt to ℕ using hk with n hn
    have hsum : whole.toInt = (16 * m + n : ℕ) := by
      rw [hwhole, Nat.cast_add, Nat.cast_mul, Nat.cast_ofNat]
    have hfirst := drawBits_eq hg (n := 16 * m) hfront
    rw [Generator.sixteen_mul_ceilDiv] at hfirst
    have hboth := drawBits_eq hg hsum
    rw [Generator.sixteen_mul_add_ceilDiv, ← advance_advance] at hboth
    refine ⟨_, _, _, _, _, hfirst, drawBits_eq (getElem?_generators_advance hg m) hn.symm, hboth, ?_⟩
    rw [Number.toInt_resultOf, Number.toInt_resultOf, Number.toInt_resultOf, Int.toNat_natCast,
      Generator.fst_bits_add]
    simp [Int.shiftLeft_eq]
  case range =>
    intro low high hrange
    obtain ⟨drawn, hdraw, hbounds⟩ := Generator.between_of_le hrange g
    refine ⟨.resultOf [low, high] drawn, draw_of_ok hg ?_, ?_, ?_⟩
    · rw [hdraw]
      rfl
    · simp only [integerBetween, RandomSource.integerBetween, if_neg hrange.not_gt]
      rfl
    · rwa [Number.toInt_resultOf]
  case empty_range =>
    intro low high hempty
    refine ⟨⟨.emptyDraw, draw_of_error hg ?_, rfl⟩, .emptyRange, draw_of_error hg ?_, rfl⟩
    · rw [Generator.between, if_pos hempty]
      rfl
    · rw [RandomSource.integerBetween, if_pos hempty]
      rfl

/-- A generator made of a seed has a state of 32 bits and draws from it. -/
def SeedsExactly (W : Workspace) (v : Value) (n : ℤ) : Prop :=
  ∃ id s next, W.addGenerator v = (.ok (.generator id), next) ∧ next.state id = .ok s ∧
    (s : ℤ) = n % 2 ^ 32 ∧ next.DrawsExactly id s

theorem seedsExactly {v : Value} {n : ℤ} (hseed : seed v = .ok n) (W : Workspace) :
    W.SeedsExactly v n := by
  let next : Workspace := { W with generators := W.generators.push (.ofSeed n) }
  have hadd : W.addGenerator v = (.ok (.generator W.generators.size), next) := by
    rw [addGenerator, hseed]
  have hstate : next.state W.generators.size = .ok (Generator.ofSeed n).state.toNat :=
    state_eq_ok_iff.mpr ⟨_, Array.getElem?_push_size, rfl⟩
  exact ⟨_, _, next, hadd, hstate, Generator.toNat_ofSeed n, drawsExactly hstate⟩

/-- Draws of bits follow one stream and draws from a range stay in it, whatever the state of the
    generator. Every integer and every byte string seeds one. -/
theorem draws_from_stream {s : ℕ} (hs : W.state position = .ok s) :
    W.DrawsExactly position s ∧ (∀ x : Number, W.SeedsExactly (.number x) x.toInt) ∧
      ∀ bytes : Octets, W.SeedsExactly (.octets bytes) bytes.value :=
  ⟨drawsExactly hs, fun _ => seedsExactly rfl W, fun _ => seedsExactly rfl W⟩

/-- Twenty bits of the seed 42, a single number, and a range without one. -/
theorem draws_from_stream_fresh_42 :
    (fresh 42).state 0 = .ok 42 ∧
    (((fresh 42).drawBits 0 (20 : ℤ)).1 = .ok (264593 : ℤ) ∧
      ∃ x y z between last,
        (fresh 42).drawBits 0 (16 : ℤ) = (.ok x, between) ∧
        between.drawBits 0 (4 : ℤ) = (.ok y, last) ∧
        (fresh 42).drawBits 0 (20 : ℤ) = (.ok z, last) ∧ z.toInt = x.toInt <<< (4 : ℕ) + y.toInt) ∧
    (((fresh 42).drawBits 0 (20 : ℤ)).2.state 0 = .ok 378494188 ∧
      ∃ drawn, (fresh 42).drawBits 0 (20 : ℤ) = (.ok drawn, (fresh 42).advance 0 2)) ∧
    (∃ drawn next, (fresh 42).integerBetween (some 0) (-3 : ℤ) (-3 : ℤ) = (.ok drawn, next) ∧
      drawn.toInt = -3) ∧
    (∃ e, (fresh 42).integerBetween (some 0) (1 : ℤ) (0 : ℤ) = (.error e, fresh 42) ∧
      e.report.1 = .invalidArgument) ∧
    ∃ id s next, (fresh 42).addGenerator (.number (-1 : ℤ)) = (.ok (.generator id), next) ∧
      next.state id = .ok s ∧ (s : ℤ) = 2 ^ 32 - 1 := by
  have hs : (fresh 42).state 0 = .ok 42 := rfl
  obtain ⟨hdraws, hnumbers, -⟩ := draws_from_stream hs
  refine ⟨hs, ⟨by decide +kernel, ?_⟩, ⟨by decide +kernel, ?_⟩, ?_, ?_, ?_⟩
  · exact hdraws.bits_add 1 (16 : ℤ) (4 : ℤ) (20 : ℤ) rfl (by decide) rfl
  · obtain ⟨drawn, hdrawn, -⟩ := hdraws.bits (20 : ℤ) (by decide)
    exact ⟨drawn, hdrawn⟩
  · obtain ⟨drawn, hbetween, hinteger, hlow, hhigh⟩ := hdraws.range (-3 : ℤ) (-3 : ℤ) le_rfl
    exact ⟨drawn, _, hinteger.trans hbetween, hhigh.antisymm hlow⟩
  · exact (hdraws.empty_range (1 : ℤ) (0 : ℤ) (by decide)).2
  · obtain ⟨id, s, next, hadd, hstate, hseed, -⟩ := hnumbers (-1 : ℤ)
    exact ⟨id, s, next, hadd, hstate, hseed⟩

end Workspace

end PrimeOrder
