import Mathlib
import PrimeOrder.Proofs.Group.Bases
import PrimeOrder.Workspace

namespace PrimeOrder

namespace CachedGroup

/-- What the elements that another group made can do to the tables of a group: no call on them alone
    changes any, but for the release of one that is equal to a base. -/
structure IsApartFrom (isPrime : PrimalityTest) (B : Group) (S : CachedGroup) : Prop where
  changes_iff : ∀ (c : Call) (source : Generator),
    (∀ e, .element e ∈ c.operands → B.ownsElement e = true) →
    ((S.call isPrime c source).group ≠ S ↔
      ∃ e, c = .release (.element e) ∧ S.cache.hasTable e = true)
  parameters_eq : ∀ e, B.ownsElement e = true → S.cache.hasTable e = true →
    B.parameters = S.group.parameters
  cachedPower_eq : ∀ e k (source : Generator), B.ownsElement e = true →
    S.call isPrime (.cachedPower (.element e) k) source =
        ⟨.error (S.group.refusal (.element e)), S, source⟩ ∧
      (S.group.refusal (.element e)).report.1 =
        if Value.isLongElement e then .value else .groupMismatch
  hasTable_eq : ∀ e (source : Generator), B.ownsElement e = true →
    S.call isPrime (.hasTable (.element e)) source = ⟨.ok (.bool (S.cache.hasTable e)), S, source⟩
  release_eq : ∀ e (source : Generator), B.ownsElement e = true →
    S.call isPrime (.release (.element e)) source =
      ⟨.ok .null, ⟨S.group, S.cache.release e⟩, source⟩

variable {isPrime : PrimalityTest} {S : CachedGroup} {B : Group}

/-- A base that has a table keeps it in every call but the release of an element equal to it. -/
theorem hasTable_call_of_ne_release {σ : Type} [RandomSource σ] {c : Call} {a : Element}
    (ha : S.cache.hasTable a = true)
    (hc : ∀ e, c = .release (.element e) → e.same a = false) (source : σ) :
    (S.call isPrime c source).group.cache.hasTable a = true := by
  rcases S.group_call_cases isPrime c source with ⟨e, k, -, -, h⟩ | ⟨e, rfl, h⟩ | h
  · rw [h, grown, Cache.hasTable_store, ha, Bool.or_true]
  · rw [h, Cache.hasTable_release, ha, hc e rfl]
    rfl
  · rw [h]
    exact ha

/-- After a power by its table that succeeded a base has a table. -/
theorem hasTable_call_cachedPower {σ : Type} [RandomSource σ] {a : Element} {k : ℤ} {source : σ}
    (hok : (S.call isPrime (.cachedPower (.element a) k) source).outcome.isOk = true) :
    (S.call isPrime (.cachedPower (.element a) k) source).group.cache.hasTable a = true := by
  cases howns : S.group.owns (.element a) with
  | false =>
    obtain ⟨w, -, -, hcall⟩ := exists_call_eq_refusal isPrime howns (.cachedPower k) source
    rw [hcall] at hok
    cases hok
  | true =>
    simp only [call, cachedPower_of_owns howns, grown, Cache.hasTable_store, Element.same_refl,
      Bool.true_or]

theorem release_ne_self_iff {e : Element} :
    (⟨S.group, S.cache.release e⟩ : CachedGroup) ≠ S ↔ S.cache.hasTable e = true := by
  constructor
  · intro hne
    by_contra habsent
    rw [Cache.release_eq_self (Bool.eq_false_of_not_eq_true habsent)] at hne
    exact hne rfl
  · intro htable hself
    have hcache : S.cache.release e = S.cache := congrArg cache hself
    have hreleased : (S.cache.release e).hasTable e = false := by
      rw [Cache.hasTable_release, Element.same_refl, Bool.not_true, Bool.false_and]
    rw [hcache, htable] at hreleased
    cases hreleased

theorem OwnsBases.isApartFrom (hS : S.OwnsBases) (hne : B ≠ S.group) : S.IsApartFrom isPrime B := by
  have hforeign : ∀ e, B.ownsElement e = true → S.group.owns (.element e) = false :=
    fun e he => Group.owns_eq_false_of_ne hne he
  have hgroup : ∀ e, B.ownsElement e = true → e.parameters?.isSome = true := by
    intro e he
    rw [Group.parameters?_of_ownsElement he]
    rfl
  have hrelease : ∀ e (source : Generator), B.ownsElement e = true →
      S.call isPrime (.release (.element e)) source =
        ⟨.ok .null, ⟨S.group, S.cache.release e⟩, source⟩ :=
    fun e source he => hS.call_release isPrime (hgroup e he) source
  constructor
  case changes_iff =>
    intro c source hc
    constructor
    · intro hchanged
      rcases S.group_call_cases isPrime c source with ⟨e, k, rfl, he, -⟩ | ⟨e, rfl, -⟩ | h
      -- what is put in belongs to the group itself
      · have hnot := hforeign e (hc e List.mem_cons_self)
        rw [Group.owns, he] at hnot
        cases hnot
      · rw [hrelease e source (hc e List.mem_cons_self)] at hchanged
        exact ⟨e, rfl, release_ne_self_iff.mp hchanged⟩
      · exact absurd h hchanged
    · rintro ⟨e, rfl, htable⟩
      rw [hrelease e source (hc e List.mem_cons_self)]
      exact release_ne_self_iff.mpr htable
  case parameters_eq =>
    intro e he htable
    have hparameters := hS.parameters?_eq htable
    rw [Group.parameters?_of_ownsElement he] at hparameters
    exact Option.some.inj hparameters
  case cachedPower_eq =>
    intro e k source he
    obtain ⟨w, hw, -, hcall⟩ :=
      exists_call_eq_refusal isPrime (hforeign e he) (.cachedPower k) source
    obtain rfl : w = .element e := List.mem_singleton.mp hw
    exact ⟨hcall, Group.refusal_element_kind S.group e⟩
  case hasTable_eq =>
    intro e source he
    simp only [CachedGroup.call, CachedGroup.hasTable, lookUp, if_pos (hS.comparable (hgroup e he))]
    rfl
  case release_eq => exact hrelease

end CachedGroup

namespace Workspace

variable (isPrime : PrimalityTest)

/-- The group at a position with the tables it keeps. -/
def cached? (W : Workspace) (position : ℕ) : Option CachedGroup :=
  W.groups[position]?.map PlacedGroup.cached

/-- The workspace after calls on its groups one after the other, each with the position of its
    group. -/
def after (W : Workspace) : List (ℕ × Call) → Workspace
  | [] => W
  | (position, c) :: rest => (W.call isPrime position c).2.after rest

variable {isPrime} {W : Workspace} {i j : ℕ}

theorem after_append (first second : List (ℕ × Call)) :
    W.after isPrime (first ++ second) = (W.after isPrime first).after isPrime second := by
  induction first generalizing W with
  | nil => rfl
  | cons step rest ih => exact ih

/-- A call reaches the group that it is made on, and no other. -/
theorem call_cases (W : Workspace) (isPrime : PrimalityTest) (i : ℕ) (c : Call) :
    (∃ error, W.call isPrime i c = (.error error, W)) ∨
    ∃ S, ∃ source : Generator, W.cached? i = some S ∧
      (W.call isPrime i c).1 = (S.call isPrime c source).outcome ∧
      ∀ j, (W.call isPrime i c).2.cached? j =
        if j = i then some (S.call isPrime c source).group else W.cached? j := by
  unfold call
  split
  · exact .inl ⟨_, rfl⟩
  · rename_i placed hplaced
    split
    · exact .inl ⟨_, rfl⟩
    · rename_i source hsource
      refine .inr ⟨placed.cached, source, ?_, rfl, fun j => ?_⟩
      · rw [cached?, hplaced]
        rfl
      · obtain ⟨hlt, -⟩ := Array.getElem?_eq_some_iff.mp hplaced
        simp only [cached?]
        split_ifs with hij
        · subst hij
          simp [hlt]
        · rw [Array.getElem?_setIfInBounds_ne (Ne.symm hij)]

/-- A call on any of the groups leaves the group at a position one that owns its bases. A base keeps
    its table there unless an element equal to it is released on that very group. -/
theorem exists_cached?_call (isPrime : PrimalityTest) {S : CachedGroup}
    (hW : W.cached? i = some S) (hS : S.OwnsBases) (position : ℕ) (c : Call) :
    ∃ T, (W.call isPrime position c).2.cached? i = some T ∧ T.group = S.group ∧ T.OwnsBases ∧
      ∀ a, S.cache.hasTable a = true →
        (∀ e, (position, c) = (i, Call.release (.element e)) → e.same a = false) →
        T.cache.hasTable a = true := by
  rcases W.call_cases isPrime position c with ⟨error, h⟩ | ⟨S', source, hS', -, h⟩
  · rw [h]
    exact ⟨S, hW, rfl, hS, fun _ ha _ => ha⟩
  · by_cases hposition : i = position
    · subst hposition
      obtain rfl : S = S' := Option.some.inj (hW.symm.trans hS')
      refine ⟨_, (h i).trans (if_pos rfl), S.group_group_call isPrime c source,
        hS.call isPrime c source, fun a ha hc => ?_⟩
      exact CachedGroup.hasTable_call_of_ne_release ha (fun e he => hc e (by rw [he])) source
    · exact ⟨S, ((h i).trans (if_neg hposition)).trans hW, rfl, hS, fun _ ha _ => ha⟩

theorem exists_cached?_after (isPrime : PrimalityTest) {S : CachedGroup}
    (hW : W.cached? i = some S) (hS : S.OwnsBases) (calls : List (ℕ × Call)) :
    ∃ T, (W.after isPrime calls).cached? i = some T ∧ T.group = S.group ∧ T.OwnsBases ∧
      ∀ a, S.cache.hasTable a = true →
        (∀ e, (i, Call.release (.element e)) ∈ calls → e.same a = false) →
        T.cache.hasTable a = true := by
  induction calls generalizing W S with
  | nil => exact ⟨S, hW, rfl, hS, fun _ ha _ => ha⟩
  | cons step rest ih =>
    obtain ⟨S', hW', hgroup', hS', hkept'⟩ :=
      exists_cached?_call isPrime hW hS step.1 step.2
    obtain ⟨T, hT, hgroup, howns, hkept⟩ := ih hW' hS'
    refine ⟨T, hT, hgroup.trans hgroup', howns, fun a ha hrelease => hkept a ?_ fun e he => ?_⟩
    · exact hkept' a ha fun e he => hrelease e (he ▸ List.mem_cons_self)
    · exact hrelease e (List.mem_cons_of_mem _ he)

/-- After any calls on the groups of a workspace the elements that another group made reach the tables
    of a new group in one way only, and every base keeps its table until an element equal to it is
    released on its own group. -/
theorem tables_apart (isPrime : PrimalityTest) {A B : Group} (hA : W.cached? i = some ⟨A, []⟩)
    (hne : B ≠ A) (calls : List (ℕ × Call)) :
    ∃ S, (W.after isPrime calls).cached? i = some S ∧ S.group = A ∧ S.IsApartFrom isPrime B ∧
      ∀ (a : Element) (k : ℤ) (later : List (ℕ × Call)),
        ((W.after isPrime calls).call isPrime i (.cachedPower (.element a) k)).1.isOk = true →
        (∀ e, (i, Call.release (.element e)) ∈ later → e.same a = false) →
        ∃ T, (W.after isPrime (calls ++ (i, .cachedPower (.element a) k) :: later)).cached? i =
            some T ∧ T.cache.hasTable a = true := by
  obtain ⟨S, hS, hgroup, howns, -⟩ :=
    exists_cached?_after isPrime hA (CachedGroup.ownsBases_fresh A) calls
  dsimp only at hgroup
  subst hgroup
  refine ⟨S, hS, rfl, howns.isApartFrom hne, ?_⟩
  intro a k later hok hlater
  rw [after_append, after]
  rcases (W.after isPrime calls).call_cases isPrime i (.cachedPower (.element a) k) with
    ⟨error, h⟩ | ⟨S', source, hS', houtcome, h⟩
  · rw [h] at hok
    cases hok
  · obtain rfl : S = S' := Option.some.inj (hS.symm.trans hS')
    rw [houtcome] at hok
    obtain ⟨T, hT, -, -, hkept⟩ := exists_cached?_after isPrime
      ((h i).trans (if_pos rfl)) (howns.call isPrime _ source) later
    exact ⟨T, hT, hkept a (CachedGroup.hasTable_call_cachedPower hok) hlater⟩

/-- Two groups of the squares modulo 23 that draw from one generator. -/
def twins : Workspace :=
  ⟨#[], #[Generator.ofSeed 1],
    #[⟨⟨.residues .modulo23, []⟩, 0⟩,
      ⟨⟨.residues ⟨1, .signed, ResidueGroup.modulo23.record⟩, []⟩, 0⟩], #[]⟩

/-- The table of an element outlasts the release of the equal element on the group that made that. -/
theorem tables_apart_twins :
    let a := Element.residue ⟨.modulo23, 4⟩
    let b := Element.residue ⟨⟨1, .signed, ResidueGroup.modulo23.record⟩, 4⟩
    (twins.call (fun x => decide x.toNat.Prime) 0 (.cachedPower (.element a) 3)).1.isOk = true ∧
      b.same a = true ∧
      ∃ T, (twins.after (fun x => decide x.toNat.Prime)
          [(0, .cachedPower (.element a) 3), (1, .cachedPower (.element b) 5),
            (1, .release (.element b))]).cached? 0 = some T ∧
        T.cache.hasTable a = true := by
  intro a b
  have hpower : (twins.call (fun x => decide x.toNat.Prime) 0
      (.cachedPower (.element a) 3)).1.isOk = true := by decide +kernel
  have hne : Group.residues ⟨1, .signed, ResidueGroup.modulo23.record⟩ ≠ .residues .modulo23 := by
    decide
  obtain ⟨S, -, -, -, hkept⟩ :=
    tables_apart (fun x => decide x.toNat.Prime) (W := twins) (i := 0) rfl hne []
  refine ⟨hpower, by decide, hkept a 3 _ hpower ?_⟩
  simp

/-- It is lost when the equal element is released on its own group. -/
theorem not_kept_of_foreign_release_twins :
    let a := Element.residue ⟨.modulo23, 4⟩
    let b := Element.residue ⟨⟨1, .signed, ResidueGroup.modulo23.record⟩, 4⟩
    (Group.residues .modulo23).owns (.element b) = false ∧
      ((twins.after (fun x => decide x.toNat.Prime) [(0, .cachedPower (.element a) 3)]).cached? 0).map
          (fun S => S.cache.hasTable a) = some true ∧
      ((twins.after (fun x => decide x.toNat.Prime)
          [(0, .cachedPower (.element a) 3), (0, .release (.element b))]).cached? 0).map
          (fun S => S.cache.hasTable a) = some false := by
  decide +kernel

end Workspace

end PrimeOrder
