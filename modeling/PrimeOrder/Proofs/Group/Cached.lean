import Mathlib
import PrimeOrder.Proofs.Group.Cache
import PrimeOrder.Proofs.Group.Simultaneous
import PrimeOrder.Proofs.Window.Table

namespace PrimeOrder

open Window.Law

namespace Group

variable {G : Group}

/-- On the elements that a group holds its multiplication never fails and stays among them. -/
theorem IsProper.law_holds (hG : G.IsProper) :
    G.law.Computes G.Holds G.Holds fun _ => () := by
  cases G with
  | residues G =>
    refine ⟨rfl, rfl, ?_, fun _ he => he⟩
    rintro (x | P) (y | Q) he hf
    · exact ⟨_, rfl, rfl, rfl⟩
    · exact hf.elim
    · exact he.elim
    · exact he.elim
  | points G =>
    obtain ⟨p, hp, hsmooth, -⟩ := hG
    have : Fact p.Prime := ⟨hp⟩
    have hfield := CurveGroup.field_eq hsmooth.modulus_eq
    refine ⟨(Curve.holds_iff hfield).mpr ⟨none, rfl⟩, rfl, ?_, fun _ he => he⟩
    rintro (x | P) (y | Q) he hf
    · exact he.elim
    · exact he.elim
    · exact hf.elim
    · obtain ⟨c, rfl⟩ := (Curve.holds_iff hfield).mp he
      obtain ⟨d, rfl⟩ := (Curve.holds_iff hfield).mp hf
      have hadd := Point.add_ofCoordinates (C := G.curve) hsmooth.two_ne_zero
        (CurveGroup.reads hsmooth.modulus_eq).a_eq c d
      refine ⟨.point (G.curve.ofCoordinates (ShortWeierstrass.sum (G.params.a : ZMod p) c d)), ?_,
        (Curve.holds_iff hfield).mpr ⟨_, rfl⟩, rfl⟩
      change ((G.curve.ofCoordinates c).add (G.curve.ofCoordinates d)).map Element.point = _
      rw [hadd]
      rfl

theorem IsProper.order_pos (hG : G.IsProper) : 0 < G.order := by
  cases G with
  | residues G => exact hG.2
  | points G => exact hG.choose_spec.2.2

theorem IsProper.reduceExponent_nonneg (hG : G.IsProper) (k : ℤ) : 0 ≤ G.reduceExponent k :=
  Int.fmod_nonneg_of_pos k hG.order_pos

theorem Raises.holds {e : Element} (he : G.Raises e) : G.Holds e := by
  cases G with
  | residues G => exact he
  | points G => exact he.1

/-- The width of the windows of the tables of a group. -/
def tableWidth (G : Group) : ℕ :=
  Window.widthFor (Integer.bitLength G.order)

/-- Whether a table is one of a base: all its elements are held by the group and, where the group
    raises the base, they are the powers of the base. -/
structure IsTableOf (G : Group) (e : Element) (t : Window.Table Element) : Prop where
  holds : t.Of G.Holds (fun _ => ()) () G.tableWidth
  powers : G.Raises e → ∀ {M : Type} [CommMonoid M] {made : Element → Prop} {read : Element → M},
    G.Exponentiates G.Raises made read → t.Of G.Raises read (read e) G.tableWidth

theorem isTableOf_empty {e : Element} (he : G.Holds e) : G.IsTableOf e (.empty e G.tableWidth) :=
  ⟨.empty he _, fun hraises _ _ _ _ _ => .empty hraises _⟩

/-- A power by a table of a base always exists, is the plain power where the group raises the base,
    and leaves a table of the base. -/
theorem IsTableOf.power (hG : G.IsProper) {e : Element} {t : Window.Table Element}
    (ht : G.IsTableOf e t) (k : ℤ) :
    ∃ z, (t.power G.law (G.reduceExponent k)).1 = .ok z ∧
      (G.Raises e → G.power (.element e) k = .ok z) ∧
      G.IsTableOf e (t.power G.law (G.reduceExponent k)).2 := by
  have hwidth : 0 < G.tableWidth := Window.widthFor_pos _
  have hreduced := hG.reduceExponent_nonneg k
  obtain ⟨⟨z, hz, -, -⟩, hheld⟩ := ht.holds.power hG.law_holds hwidth hreduced
  refine ⟨z, hz, ?_, hheld, ?_⟩
  · intro hraises
    obtain ⟨M, _, made, read, hexponentiates⟩ := hG.exists_exponentiates
    have hpower := ((ht.powers hraises hexponentiates).power hexponentiates.law hwidth hreduced).1
    obtain ⟨w, hw, hplain⟩ :=
      hexponentiates.eq_of_gives hpower (hexponentiates.power_gives e k hraises)
    rw [hplain, ← hw, hz]
  · intro hraises M _ made read hexponentiates
    exact ((ht.powers hraises hexponentiates).power hexponentiates.law hwidth hreduced).2

theorem IsTableOf.holds_of_power (hG : G.IsProper) {e z : Element} {t : Window.Table Element}
    (ht : G.IsTableOf e t) {k : ℤ} (hz : (t.power G.law (G.reduceExponent k)).1 = .ok z) :
    G.Holds z := by
  obtain ⟨⟨z', hz', hheld, -⟩, -⟩ :=
    ht.holds.power hG.law_holds (Window.widthFor_pos _) (hG.reduceExponent_nonneg k)
  rw [hz] at hz'
  cases hz'
  exact hheld

end Group

namespace Call

/-- The base that a call puts in or takes out of a cache. -/
def base? : Call → Option Element
  | .cachedPower (.element e) _ => some e
  | .release (.element e) => some e
  | _ => none

/-- Whether an element that a call asks a power of by a table is one that the group holds, if the
    group made it at all. -/
def IsFrom (G : Group) (c : Call) : Prop :=
  ∀ e k, c = .cachedPower (.element e) k → G.ownsElement e = true → G.Holds e

/-- A group of residues holds all elements that it made. -/
theorem isFrom_residues {G : ResidueGroup} (c : Call) : c.IsFrom (.residues G) := by
  rintro (x | P) k - howns
  · exact beq_iff_eq.mp howns
  · cases howns

/-- What a call says about whether a base has a table: it has one after a power by its table that
    succeeded and none after its release. All other calls say nothing. -/
def verdict? (c : Call) (outcome : Except Error Value) (e : Element) : Option Bool :=
  match c, outcome with
  | .cachedPower (.element f) _, .ok _ => if f.same e then some true else none
  | .release (.element f), _ => if f.same e then some false else none
  | _, _ => none

theorem verdict?_eq_none {c : Call} (hc : c.base? = none) (outcome : Except Error Value)
    (e : Element) : c.verdict? outcome e = none := by
  cases c with
  | cachedPower v k => cases v <;> first | rfl | cases hc
  | release v => cases v <;> first | rfl | cases hc
  | _ => rfl

theorem base?_eq_some {c : Call} {e : Element} (hc : c.base? = some e) :
    (∃ k, c = .cachedPower (.element e) k) ∨ c = .release (.element e) := by
  cases c with
  | cachedPower v k => cases v <;> cases hc; exact .inl ⟨k, rfl⟩
  | release v => cases v <;> cases hc; exact .inr rfl
  | _ => cases hc

/-- What the latest call says that says anything about a base. -/
def latest? (e : Element) : List (Call × Except Error Value) → Option Bool
  | [] => none
  | (c, outcome) :: rest => (latest? e rest).or (c.verdict? outcome e)

end Call

theorem Group.check_of_ne (G : Group) {v : Value} (hv : ∀ e, v ≠ .element e) :
    G.check v = .error (G.refusal v) := by
  cases v with
  | element e => exact absurd rfl (hv e)
  | _ => rfl

namespace CachedGroup

theorem lookUp_of_ne (S : CachedGroup) {v : Value} (hv : ∀ e, v ≠ .element e) :
    S.lookUp v = v.lookedUp.map fun _ => none := by
  cases v with
  | element e => exact absurd rfl (hv e)
  | _ => rfl

theorem release_of_ne (S : CachedGroup) {v : Value} (hv : ∀ e, v ≠ .element e)
    {after : CachedGroup} (hafter : S.release v = .ok after) : after = S := by
  unfold release at hafter
  split at hafter
  · exact (Except.ok.inj hafter).symm
  · rw [S.lookUp_of_ne hv] at hafter
    obtain ⟨base, hbase, rfl⟩ := Outcome.map_eq_ok_iff.mp hafter
    obtain ⟨_, -, rfl⟩ := Outcome.map_eq_ok_iff.mp hbase
    rfl

theorem group_call_of_base?_eq_none {σ : Type} [RandomSource σ] {isPrime : PrimalityTest}
    (S : CachedGroup) {c : Call} (hc : c.base? = none) (source : σ) :
    (S.call isPrime c source).group = S := by
  cases c with
  | random =>
    simp only [call]
    split <;> rfl
  | cachedPower v k =>
    have hv : ∀ e, v ≠ .element e := by
      rintro e rfl
      cases hc
    simp only [call, cachedPower, S.group.check_of_ne hv]
  | release v =>
    have hv : ∀ e, v ≠ .element e := by
      rintro e rfl
      cases hc
    simp only [call]
    split
    · rfl
    · exact S.release_of_ne hv ‹_›
  | _ => rfl

section Element

variable {σ : Type} [RandomSource σ] (isPrime : PrimalityTest) (S : CachedGroup) {e : Element}

/-- An element is released where it can be compared with all bases, as it can where there are none. -/
theorem call_release_element (e : Element) (source : σ) :
    S.call isPrime (.release (.element e)) source =
      if S.cache.comparable e then ⟨.ok .null, ⟨S.group, S.cache.release e⟩, source⟩
      else ⟨.error (.noAttribute "NoneType" "get_parameters"), S, source⟩ := by
  obtain ⟨G, cache⟩ := S
  cases cache with
  | nil => rfl
  | cons entry rest =>
    simp only [call, release, lookUp, List.isEmpty_cons, Bool.false_eq_true, if_false]
    split_ifs <;> rfl

theorem call_cachedPower_of_not_owns (he : ¬S.group.ownsElement e = true) (k : ℤ) (source : σ) :
    S.call isPrime (.cachedPower (.element e) k) source =
      ⟨.error (S.group.refusal (.element e)), S, source⟩ := by
  have hrefused : S.group.check (.element e) = .error (S.group.refusal (.element e)) := if_neg he
  simp only [call, cachedPower, hrefused]
  rfl

end Element

/-- Whether every table of a group is one of its base, which the group holds, and no two bases are
    equal. -/
structure IsSound (S : CachedGroup) : Prop where
  proper : S.group.IsProper
  distinct : Cache.IsDistinct S.cache
  holds : ∀ entry ∈ S.cache, S.group.Holds entry.1
  tables : ∀ entry ∈ S.cache, S.group.IsTableOf entry.1 entry.2

theorem isSound_fresh {G : Group} (hG : G.IsProper) : IsSound ⟨G, []⟩ :=
  ⟨hG, .nil, fun _ h => absurd h List.not_mem_nil, fun _ h => absurd h List.not_mem_nil⟩

namespace IsSound

variable {S : CachedGroup} {e : Element}

theorem tableOf (hS : S.IsSound) (he : S.group.Holds e) : S.group.IsTableOf e (S.tableOf e) := by
  unfold CachedGroup.tableOf
  cases htable : S.cache.table? e with
  | none => exact Group.isTableOf_empty he
  | some table =>
    obtain ⟨base, hmem, hsame⟩ := Cache.mem_of_table?_eq_some htable
    obtain rfl : base = e := ((hS.holds _ hmem).same_iff_eq he).mp hsame
    exact hS.tables _ hmem

/-- Where a table is put in for a base that the group holds, no other base gets it. -/
theorem mem_store (hS : S.IsSound) (he : S.group.Holds e) {table : Window.Table Element}
    {entry : Element × Window.Table Element} (hentry : entry ∈ S.cache.store e table) :
    entry ∈ S.cache ∨ entry = (e, table) := by
  rcases Cache.mem_store hentry with hold | ⟨rfl, heq | ⟨hsame, old, hold⟩⟩
  · exact .inl hold
  · exact .inr (by rw [← heq])
  · exact .inr (by rw [← ((hS.holds _ hold).same_iff_eq he).mp hsame])

theorem store (hS : S.IsSound) (he : S.group.Holds e) {table : Window.Table Element}
    (htable : S.group.IsTableOf e table) : IsSound ⟨S.group, S.cache.store e table⟩ := by
  refine ⟨hS.proper, hS.distinct.store e table, ?_, ?_⟩
  · intro entry hentry
    rcases hS.mem_store he hentry with hold | rfl
    · exact hS.holds entry hold
    · exact he
  · intro entry hentry
    rcases hS.mem_store he hentry with hold | rfl
    · exact hS.tables entry hold
    · exact htable

theorem release (hS : S.IsSound) (e : Element) : IsSound ⟨S.group, S.cache.release e⟩ :=
  ⟨hS.proper, hS.distinct.release e, fun entry h => hS.holds entry (List.mem_of_mem_filter h),
    fun entry h => hS.tables entry (List.mem_of_mem_filter h)⟩

/-- A power by a table of an element that the group holds always exists and is the plain power where
    the group raises the element. The table is kept. -/
theorem cachedPower (hS : S.IsSound) (he : S.group.Holds e) (k : ℤ) :
    ∃ z table, S.cachedPower (.element e) k = (.ok z, ⟨S.group, S.cache.store e table⟩) ∧
      (S.group.Raises e → S.group.power (.element e) k = .ok z) ∧ S.group.IsTableOf e table := by
  obtain ⟨z, hz, hplain, htable⟩ := (hS.tableOf he).power hS.proper k
  refine ⟨z, _, ?_, hplain, htable⟩
  simp only [CachedGroup.cachedPower, he.check_eq, ← hz]

theorem holds_of_cachedPower (hS : S.IsSound) (he : S.group.Holds e) {k : ℤ} {z : Element}
    {after : CachedGroup} (hz : S.cachedPower (.element e) k = (.ok z, after)) :
    S.group.Holds z := by
  simp only [CachedGroup.cachedPower, he.check_eq, Prod.mk.injEq] at hz
  exact (hS.tableOf he).holds_of_power hS.proper hz.1

/-- Bases belong to the group, so they can be compared with every element that belongs to one. -/
theorem comparable (hS : S.IsSound) (he : e.parameters?.isSome = true) :
    S.cache.comparable e = true := by
  refine List.all_eq_true.mpr fun entry hentry => ?_
  simp [Element.comparable, (hS.holds entry hentry).parameters?_eq, he]

/-- Only elements that belong to a group have tables. -/
theorem isSome_parameters? (hS : S.IsSound) (he : S.cache.hasTable e = true) :
    e.parameters?.isSome = true := by
  obtain ⟨entry, hentry, hsame⟩ := Cache.hasTable_iff.mp he
  rw [← (Element.same_iff.mp hsame).2, (hS.holds entry hentry).parameters?_eq]
  rfl

/-- A group answers that a base has a table exactly if it has one. -/
theorem hasTable_eq_ok_true_iff (hS : S.IsSound) :
    S.hasTable (.element e) = .ok true ↔ S.cache.hasTable e = true := by
  simp only [CachedGroup.hasTable, lookUp]
  by_cases hcomparable : S.cache.comparable e = true
  · rw [if_pos hcomparable, Outcome.map_ok, Option.any_some, Except.ok.injEq]
  · rw [if_neg hcomparable]
    refine ⟨nofun, fun h => ?_⟩
    exact absurd (hS.comparable (hS.isSome_parameters? h)) hcomparable

variable {σ : Type} [RandomSource σ] (isPrime : PrimalityTest)

theorem call_cachedPower (hS : S.IsSound) (he : S.group.Holds e) (k : ℤ) (source : σ) :
    ∃ z table, S.call isPrime (.cachedPower (.element e) k) source =
        ⟨.ok (.element z), ⟨S.group, S.cache.store e table⟩, source⟩ ∧
      (S.group.Raises e → S.group.power (.element e) k = .ok z) ∧ S.group.IsTableOf e table := by
  obtain ⟨z, table, hpower, hplain, htable⟩ := hS.cachedPower he k
  refine ⟨z, table, ?_, hplain, htable⟩
  simp only [CachedGroup.call, hpower]
  rfl

/-- The release of an element changes nothing where the element cannot be compared with the bases,
    and an equal element has no table then. -/
theorem call_release (hS : S.IsSound) (e : Element) (source : σ) :
    S.call isPrime (.release (.element e)) source =
        ⟨.ok .null, ⟨S.group, S.cache.release e⟩, source⟩ ∨
      (∃ error, S.call isPrime (.release (.element e)) source = ⟨.error error, S, source⟩) ∧
        ∀ f, e.same f = true → S.cache.hasTable f = false := by
  rw [S.call_release_element isPrime e source]
  by_cases hcomparable : S.cache.comparable e = true
  · rw [if_pos hcomparable]
    exact .inl rfl
  · rw [if_neg hcomparable]
    refine .inr ⟨⟨_, rfl⟩, fun f hef => ?_⟩
    -- bases belong to the group, and what cannot be compared with one of them belongs to none
    rw [← Bool.not_eq_true]
    intro htable
    have hgroup := hS.isSome_parameters? htable
    rw [← (Element.same_iff.mp hef).2] at hgroup
    exact hcomparable (hS.comparable hgroup)

/-- All that a call can do: it puts in or replaces the table of a base that the group holds, it takes
    out the table of a base, or it leaves the group as it was and says nothing about a base but what
    is the case already. -/
theorem call_cases (hS : S.IsSound) {c : Call} (hc : c.IsFrom S.group) (source : σ) :
    (∃ e k z table, c = .cachedPower (.element e) k ∧ S.group.Holds e ∧
      S.group.IsTableOf e table ∧
      S.call isPrime c source = ⟨.ok (.element z), ⟨S.group, S.cache.store e table⟩, source⟩) ∨
    (∃ e, c = .release (.element e) ∧
      S.call isPrime c source = ⟨.ok .null, ⟨S.group, S.cache.release e⟩, source⟩) ∨
    ((S.call isPrime c source).group = S ∧
      ∀ e v, c.verdict? (S.call isPrime c source).outcome e = some v → S.cache.hasTable e = v) := by
  cases hbase : c.base? with
  | none =>
    refine .inr (.inr ⟨S.group_call_of_base?_eq_none hbase source, fun e v hverdict => ?_⟩)
    rw [Call.verdict?_eq_none hbase] at hverdict
    cases hverdict
  | some e =>
    rcases Call.base?_eq_some hbase with ⟨k, rfl⟩ | rfl
    · by_cases howns : S.group.ownsElement e = true
      · have he := hc e k rfl howns
        obtain ⟨z, table, hcall, -, htable⟩ := hS.call_cachedPower isPrime he k source
        exact .inl ⟨e, k, z, table, rfl, he, htable, hcall⟩
      · have hcall := S.call_cachedPower_of_not_owns isPrime howns k source
        refine .inr (.inr ⟨by rw [hcall], fun f v hverdict => ?_⟩)
        rw [hcall] at hverdict
        cases hverdict
    · rcases hS.call_release isPrime e source with hcall | ⟨⟨error, hcall⟩, habsent⟩
      · exact .inr (.inl ⟨e, rfl, hcall⟩)
      · refine .inr (.inr ⟨by rw [hcall], fun f v hverdict => ?_⟩)
        simp only [Call.verdict?] at hverdict
        split_ifs at hverdict with hef
        cases hverdict
        exact habsent f hef

theorem call (hS : S.IsSound) {c : Call} (hc : c.IsFrom S.group) (source : σ) :
    (S.call isPrime c source).group.IsSound := by
  rcases hS.call_cases isPrime hc source with
    ⟨e, k, z, table, -, he, htable, hcall⟩ | ⟨e, -, hcall⟩ | ⟨hgroup, -⟩
  · rw [hcall]
    exact hS.store he htable
  · rw [hcall]
    exact hS.release e
  · rw [hgroup]
    exact hS

theorem group_call (hS : S.IsSound) {c : Call} (hc : c.IsFrom S.group) (source : σ) :
    (S.call isPrime c source).group.group = S.group := by
  rcases hS.call_cases isPrime hc source with
    ⟨e, k, z, table, -, -, -, hcall⟩ | ⟨e, -, hcall⟩ | ⟨hgroup, -⟩
  · rw [hcall]
  · rw [hcall]
  · rw [hgroup]

/-- After a call a base has a table if the call says so, or as before if it says nothing. -/
theorem hasTable_call (hS : S.IsSound) {c : Call} (hc : c.IsFrom S.group) (source : σ)
    (e : Element) :
    (S.call isPrime c source).group.cache.hasTable e =
      (c.verdict? (S.call isPrime c source).outcome e).getD (S.cache.hasTable e) := by
  rcases hS.call_cases isPrime hc source with
    ⟨f, k, z, table, rfl, -, -, hcall⟩ | ⟨f, rfl, hcall⟩ | ⟨hgroup, hverdict⟩
  · rw [hcall, Cache.hasTable_store, Call.verdict?]
    cases f.same e <;> rfl
  · rw [hcall, Cache.hasTable_release, Call.verdict?]
    cases f.same e <;> rfl
  · rw [hgroup]
    cases hsays : c.verdict? (S.call isPrime c source).outcome e with
    | none => rfl
    | some v => exact hverdict e v hsays

/-- A call on one base leaves the tables of all others alone. -/
theorem table?_call (hS : S.IsSound) {c : Call} (hc : c.IsFrom S.group) (source : σ) {e : Element}
    (he : ∀ f, c.base? = some f → f.same e = false) :
    (S.call isPrime c source).group.cache.table? e = S.cache.table? e := by
  rcases hS.call_cases isPrime hc source with
    ⟨f, k, z, table, rfl, -, -, hcall⟩ | ⟨f, rfl, hcall⟩ | ⟨hgroup, -⟩
  · rw [hcall, Cache.table?_store, he f rfl, if_neg Bool.false_ne_true]
  · rw [hcall, Cache.table?_release, he f rfl, if_neg Bool.false_ne_true]
  · rw [hgroup]

theorem group_call_of_error (hS : S.IsSound) {c : Call} (hc : c.IsFrom S.group) {source : σ}
    {error : Error} (herror : (S.call isPrime c source).outcome = .error error) :
    (S.call isPrime c source).group = S := by
  rcases hS.call_cases isPrime hc source with
    ⟨f, k, z, table, rfl, -, -, hcall⟩ | ⟨f, rfl, hcall⟩ | ⟨hgroup, -⟩
  · rw [hcall] at herror
    cases herror
  · rw [hcall] at herror
    cases herror
  · exact hgroup

theorem group_call_release_of_absent (hS : S.IsSound) (source : σ) {e : Element}
    (he : S.cache.hasTable e = false) :
    (S.call isPrime (.release (.element e)) source).group = S := by
  rcases hS.call_release isPrime e source with hcall | ⟨⟨error, hcall⟩, -⟩
  · rw [hcall, Cache.release_eq_self he]
  · rw [hcall]

end IsSound

section Runs

variable {σ : Type} [RandomSource σ] (isPrime : PrimalityTest)

/-- The group and the source after calls one after the other. -/
def after (S : CachedGroup) (source : σ) : List Call → CachedGroup × σ
  | [] => (S, source)
  | c :: rest =>
    let reply := S.call isPrime c source
    reply.group.after reply.source rest

/-- The replies to calls one after the other. -/
def replies (S : CachedGroup) (source : σ) : List Call → List (Reply σ)
  | [] => []
  | c :: rest =>
    let reply := S.call isPrime c source
    reply :: reply.group.replies reply.source rest

/-- Calls one after the other, each with its outcome. -/
def trace (S : CachedGroup) (source : σ) (calls : List Call) : List (Call × Except Error Value) :=
  calls.zip ((S.replies isPrime source calls).map Reply.outcome)

/-- Whether a group that keeps tables computes, after some history, every power by a table as without
    one, and keeps its tables as the history says: one for each base that the latest of the calls on
    it put in, out of reach of calls on other bases and of calls that fail. -/
structure IsTransparent (σ : Type) [RandomSource σ] (G : Group) (S : CachedGroup)
    (history : List (Call × Except Error Value)) : Prop where
  group_eq : S.group = G
  power_eq : ∀ e k (source : σ), G.Raises e →
    ∃ z, (S.call isPrime (.cachedPower (.element e) k) source).outcome = .ok (.element z) ∧
      G.power (.element e) k = .ok z
  hasTable_iff : ∀ e, S.hasTable (.element e) = .ok true ↔ Call.latest? e history = some true
  one_table : ∀ e, S.cache.countP (fun entry => entry.1.same e) =
    if Call.latest? e history = some true then 1 else 0
  other_tables : ∀ c e (source : σ), c.IsFrom G → (∀ f, c.base? = some f → f.same e = false) →
    (S.call isPrime c source).group.cache.table? e = S.cache.table? e
  release_absent : ∀ e (source : σ), S.cache.hasTable e = false →
    (S.call isPrime (.release (.element e)) source).group = S
  failure : ∀ c (source : σ) error, c.IsFrom G →
    (S.call isPrime c source).outcome = .error error → (S.call isPrime c source).group = S

variable {isPrime}

/-- A sound group is transparent for every history that tells which bases have a table. -/
theorem IsSound.isTransparent {S : CachedGroup} (hS : S.IsSound)
    {history : List (Call × Except Error Value)}
    (hhistory : ∀ e, S.cache.hasTable e = (Call.latest? e history).getD false) :
    IsTransparent isPrime σ S.group S history := by
  have hlatest : ∀ e, S.cache.hasTable e = true ↔ Call.latest? e history = some true := by
    intro e
    rw [hhistory]
    cases Call.latest? e history <;> simp
  constructor
  case group_eq => rfl
  case power_eq =>
    intro e k source he
    obtain ⟨z, table, hcall, hplain, -⟩ := hS.call_cachedPower isPrime he.holds k source
    exact ⟨z, by rw [hcall], hplain he⟩
  case hasTable_iff => exact fun e => hS.hasTable_eq_ok_true_iff.trans (hlatest e)
  case one_table =>
    intro e
    rw [hS.distinct.countP_eq]
    exact if_congr (hlatest e) rfl rfl
  case other_tables => exact fun c e source hc he => hS.table?_call isPrime hc source he
  case release_absent => exact fun e source he => hS.group_call_release_of_absent isPrime source he
  case failure => exact fun c source error hc herror => hS.group_call_of_error isPrime hc herror

/-- Calls leave a sound group, and the latest of them that says anything about a base decides whether
    it has a table. -/
theorem IsSound.after {S : CachedGroup} (hS : S.IsSound) {calls : List Call}
    (hcalls : ∀ c ∈ calls, c.IsFrom S.group) (source : σ) :
    (S.after isPrime source calls).1.IsSound ∧
      (S.after isPrime source calls).1.group = S.group ∧
      ∀ e, (S.after isPrime source calls).1.cache.hasTable e =
        (Call.latest? e (S.trace isPrime source calls)).getD (S.cache.hasTable e) := by
  induction calls generalizing S source with
  | nil => exact ⟨hS, rfl, fun _ => rfl⟩
  | cons c rest ih =>
    have hc := hcalls c List.mem_cons_self
    have hgroup := hS.group_call isPrime hc source
    have hrest : ∀ d ∈ rest, d.IsFrom (S.call isPrime c source).group.group := by
      rw [hgroup]
      exact fun d hd => hcalls d (List.mem_cons_of_mem c hd)
    obtain ⟨hsound, hsame, htables⟩ :=
      ih (hS.call isPrime hc source) hrest (S.call isPrime c source).source
    refine ⟨hsound, hsame.trans hgroup, fun e => ?_⟩
    rw [CachedGroup.after, htables e, hS.hasTable_call isPrime hc source e, trace, trace, replies,
      List.map_cons, List.zip_cons_cons, Call.latest?]
    cases Call.latest? e _ <;> rfl

/-- After any calls on a new group the cache is transparent. -/
theorem isTransparent_after {G : Group} (hG : G.IsProper) {calls : List Call}
    (hcalls : ∀ c ∈ calls, c.IsFrom G) (source : σ) :
    IsTransparent isPrime σ G (CachedGroup.after isPrime ⟨G, []⟩ source calls).1
      (CachedGroup.trace isPrime ⟨G, []⟩ source calls) := by
  obtain ⟨hsound, hgroup, htables⟩ : _ ∧ _ ∧ _ := (isSound_fresh hG).after hcalls source
  have htransparent : IsTransparent isPrime σ _ _ _ := hsound.isTransparent htables
  rwa [hgroup] at htransparent

/-- A table that is put in, taken out and put in again, for an element that is no square. -/
theorem isTransparent_after_modulo23 :
    (Group.residues .modulo23).IsProper ∧
      IsTransparent (fun x => decide x.toNat.Prime) Generator (.residues .modulo23)
        (CachedGroup.after (fun x => decide x.toNat.Prime) ⟨.residues .modulo23, []⟩
          (Generator.ofSeed 1)
          [.cachedPower (.element (.residue ⟨.modulo23, 5⟩)) 40,
            .release (.element (.residue ⟨.modulo23, 5⟩)),
            .cachedPower (.element (.residue ⟨.modulo23, 5⟩)) (-3)]).1
        (CachedGroup.trace (fun x => decide x.toNat.Prime) ⟨.residues .modulo23, []⟩
          (Generator.ofSeed 1)
          [.cachedPower (.element (.residue ⟨.modulo23, 5⟩)) 40,
            .release (.element (.residue ⟨.modulo23, 5⟩)),
            .cachedPower (.element (.residue ⟨.modulo23, 5⟩)) (-3)]) :=
  ⟨Group.isProper_residues_modulo23,
    isTransparent_after Group.isProper_residues_modulo23 (fun c _ => c.isFrom_residues) _⟩

end Runs

end CachedGroup

end PrimeOrder
