import Mathlib
import PrimeOrder.Proofs.Engine.Answers
import PrimeOrder.Proofs.Group.Cached
import PrimeOrder.Proofs.Group.Construction

namespace PrimeOrder.Engine

variable {i j : ℕ} {record : ResidueRecord} {p q : ℕ}

/-- Whether two calls are the same but for operands that correspond. -/
inductive CallMatches (i j : ℕ) (record : ResidueRecord) : Call → Call → Prop where
  | query {q q' : Query} (h : QueryMatches i j record q q') :
      CallMatches i j record (.query q) (.query q')
  | random : CallMatches i j record .random .random
  | cachedPower {v w : Value} (k : ℤ) (h : Matches i j record v w) :
      CallMatches i j record (.cachedPower v k) (.cachedPower w k)
  | release {v w : Value} (h : Matches i j record v w) :
      CallMatches i j record (.release v) (.release w)
  | hasTable {v w : Value} (h : Matches i j record v w) :
      CallMatches i j record (.hasTable v) (.hasTable w)
  | cacheSize : CallMatches i j record .cacheSize .cacheSize

/-- Whether two caches have bases that correspond. -/
def SameBases (i j : ℕ) (record : ResidueRecord) (cache cache' : Cache) : Prop :=
  List.Forall₂ (fun entry entry' => Own i j record entry.1 entry'.1) cache cache'

namespace SameBases

variable {cache cache' : Cache} {e f : Element}

theorem hasTable_eq (h : SameBases i j record cache cache') (hef : Corresponds i j record e f) :
    cache'.hasTable f = cache.hasTable e := by
  induction h with
  | nil => rfl
  | cons hhead _ ih =>
    simp only [Cache.hasTable, List.any_cons] at ih ⊢
    rw [hhead.corresponds.same_eq hef, ih]

theorem comparable_eq (h : SameBases i j record cache cache') (hef : Corresponds i j record e f) :
    cache'.comparable f = cache.comparable e := by
  induction h with
  | nil => rfl
  | cons hhead _ ih =>
    simp only [Cache.comparable, List.all_cons] at ih ⊢
    rw [hhead.corresponds.comparable_eq hef, ih]

theorem store (h : SameBases i j record cache cache') (hef : Own i j record e f)
    (table table' : Window.Table Element) :
    SameBases i j record (cache.store e table) (cache'.store f table') := by
  unfold Cache.store
  rw [h.hasTable_eq hef.corresponds]
  split
  · rw [SameBases, List.forall₂_map_left_iff, List.forall₂_map_right_iff]
    refine List.Forall₂.imp (fun entry entry' hentry => ?_) h
    rw [hentry.corresponds.same_eq hef.corresponds]
    split <;> exact hentry
  · exact List.rel_append h (.cons hef .nil)

theorem release (h : SameBases i j record cache cache') (hef : Corresponds i j record e f) :
    SameBases i j record (cache.release e) (cache'.release f) := by
  induction h with
  | nil => exact .nil
  | cons hhead _ ih =>
    unfold Cache.release at ih ⊢
    rw [List.filter_cons, List.filter_cons, hhead.corresponds.same_eq hef]
    split
    · exact .cons hhead ih
    · exact ih

end SameBases

/-- Whether two groups with tables are those of the two engines for one record, with sound tables for
    bases that correspond. -/
structure Parallel (i j : ℕ) (record : ResidueRecord) (S T : CachedGroup) : Prop where
  signed_eq : S.group = .residues (signedGroup i record)
  natural_eq : T.group = .residues (naturalGroup j record)
  sound_signed : S.IsSound
  sound_natural : T.IsSound
  bases : SameBases i j record S.cache T.cache

namespace Parallel

variable {S T : CachedGroup} {v w : Value}

theorem lookUp_agree (h : Parallel i j record S T) (hvw : Matches i j record v w) :
    Outcome.Agree (Option.Rel (Corresponds i j record)) (S.lookUp v) (T.lookUp w) := by
  cases hvw with
  | element hef =>
    simp only [CachedGroup.lookUp, h.bases.comparable_eq hef]
    split
    · exact .some hef
    · exact rfl
  | plain hv =>
    have hne : ∀ e, v ≠ .element e := by
      rintro e rfl
      cases hv
    rw [S.lookUp_of_ne hne, T.lookUp_of_ne hne]
    exact (Outcome.Agree.of_eq _).map fun _ _ _ => .none

theorem hasTable_agree (h : Parallel i j record S T) (hvw : Matches i j record v w) :
    Outcome.Agree Eq (S.hasTable v) (T.hasTable w) :=
  (h.lookUp_agree hvw).map fun base base' hbase => by
    cases hbase with
    | none => rfl
    | some hef => exact (h.bases.hasTable_eq hef).symm

theorem release_agree (h : Parallel i j record S T) (hvw : Matches i j record v w) :
    Outcome.Agree (fun S' T' => SameBases i j record S'.cache T'.cache) (S.release v)
      (T.release w) := by
  have hempty : T.cache.isEmpty = S.cache.isEmpty := by
    rw [Bool.eq_iff_iff, List.isEmpty_iff_length_eq_zero, List.isEmpty_iff_length_eq_zero,
      h.bases.length_eq]
  unfold CachedGroup.release
  rw [hempty]
  split
  · exact h.bases
  · refine (h.lookUp_agree hvw).map fun base base' hbase => ?_
    cases hbase with
    | none => exact h.bases
    | some hef => exact h.bases.release hef

theorem cachedPower_agree (hsafe : record.params.IsSafe p q) (h : Parallel i j record S T)
    (hvw : Matches i j record v w) (k : ℤ) :
    Outcome.Agree (Own i j record) (S.cachedPower v k).1 (T.cachedPower w k).1 ∧
      SameBases i j record (S.cachedPower v k).2.cache (T.cachedPower w k).2.cache := by
  have hcheck := hvw.check_agree
  rw [← h.signed_eq, ← h.natural_eq] at hcheck
  rcases hcheck.elim with ⟨error, error', hv, hw, hkind⟩ | ⟨e, f, hv, hw, hef⟩
  · simp only [CachedGroup.cachedPower, hv, hw]
    exact ⟨hkind, h.bases⟩
  · obtain ⟨hown, hown'⟩ := hef.raises
    rw [← h.signed_eq] at hown
    rw [← h.natural_eq] at hown'
    have hsigned : S.cachedPower v k = S.cachedPower (.element e) k := by
      simp only [CachedGroup.cachedPower, hv, hown.holds.check_eq]
    have hnatural : T.cachedPower w k = T.cachedPower (.element f) k := by
      simp only [CachedGroup.cachedPower, hw, hown'.holds.check_eq]
    obtain ⟨z, table, hz, hplain, -⟩ := h.sound_signed.cachedPower hown.holds k
    obtain ⟨z', table', hz', hplain', -⟩ := h.sound_natural.cachedPower hown'.holds k
    -- both powers by a table are the plain ones, and these agree
    have hpower := power_agree hsafe (Matches.element (Corresponds.own hef)) k
    rw [← h.signed_eq, ← h.natural_eq, hplain hown, hplain' hown'] at hpower
    rw [hsigned, hnatural, hz, hz']
    exact ⟨hpower, h.bases.store hef table table'⟩

end Parallel

/-- Whether two replies correspond: their outcomes do, the bases of the groups after them do, and the
    sources after them are equal. -/
structure RepliesAgree {σ : Type} (i j : ℕ) (record : ResidueRecord) (r r' : Reply σ) : Prop where
  outcome : Outcome.Agree (Matches i j record) r.outcome r'.outcome
  bases : SameBases i j record r.group.cache r'.group.cache
  source_eq : r.source = r'.source

section Calls

variable {σ : Type} [RandomSource σ] (isPrime : PrimalityTest) {S T : CachedGroup}

/-- Both groups make the square of a root in range. -/
theorem exists_ofDraw_own (hsafe : record.params.IsSafe p q) (i j : ℕ) {root : ℤ} (hpos : 0 < root)
    (hlt : root < p) :
    ∃ x y, (signedGroup i record).ofDraw root = .ok x ∧ (naturalGroup j record).ofDraw root = .ok y ∧
      Own i j record (.residue x) (.residue y) := by
  have : Fact p.Prime := ⟨hsafe.prime⟩
  have hroot := ResidueGroup.intCast_ne_zero hpos hlt
  have hown : Own i j record _ _ :=
    Own.ofZMod hsafe.modulus_eq (Units.mk0 _ hroot * Units.mk0 _ hroot)
  obtain ⟨x, hx, hxsquare⟩ := Outcome.map_eq_ok_iff.mp
    (ResidueGroup.ofDraw_eq_ofZMod (G := signedGroup i record) hsafe.modulus_eq hpos.le)
  obtain ⟨y, hy, hysquare⟩ := Outcome.map_eq_ok_iff.mp
    (ResidueGroup.ofDraw_eq_ofZMod (G := naturalGroup j record) hsafe.modulus_eq hpos.le)
  refine ⟨x, y, hx, hy, ?_⟩
  rw [hxsquare, hysquare]
  exact hown

/-- Equal sources draw elements for one residue and are equal after it. -/
theorem random_agree (hsafe : record.params.IsSafe p q) (hσ : RandomSource.KeepsBounds σ) (i j : ℕ)
    (source : σ) :
    Outcome.Agree (fun drawn drawn' => Own i j record drawn.1 drawn'.1 ∧ drawn.2 = drawn'.2)
      ((Group.residues (signedGroup i record)).random source)
      ((Group.residues (naturalGroup j record)).random source) := by
  have hmodulus := hsafe.modulus_eq
  have hseven := hsafe.seven_le
  simp only [Group.random, ResidueGroup.random]
  cases hdraw : RandomSource.draw 1 (record.params.modulus - 1) source with
  | error error => exact rfl
  | ok drawn =>
    obtain ⟨root, next⟩ := drawn
    obtain ⟨hone, hlast⟩ := hσ _ _ _ _ _ (by omega) hdraw
    obtain ⟨x, y, hx, hy, hown⟩ :=
      exists_ofDraw_own hsafe i j (by omega : 0 < root) (by omega)
    simp only [Outcome.ok_bind, hx, hy]
    exact ⟨hown, rfl⟩

/-- Calls that correspond have replies that correspond. -/
theorem Parallel.call_agree (hsafe : record.params.IsSafe p q) (hσ : RandomSource.KeepsBounds σ)
    (h : Parallel i j record S T) {c c' : Call} (hc : CallMatches i j record c c') (source : σ) :
    RepliesAgree i j record (S.call isPrime c source) (T.call isPrime c' source) := by
  cases hc with
  | query hq =>
    refine ⟨?_, h.bases, rfl⟩
    simp only [CachedGroup.call, h.signed_eq, h.natural_eq]
    exact answer_agree hsafe hq
  | random =>
    have hdraw := random_agree hsafe hσ i j source
    rw [← h.signed_eq, ← h.natural_eq] at hdraw
    rcases hdraw.elim with ⟨e, e', he, he', hkind⟩ | ⟨⟨x, next⟩, ⟨y, next'⟩, hx, hy, hown, hnext⟩
    · simp only [CachedGroup.call, he, he']
      exact ⟨hkind, h.bases, rfl⟩
    · simp only [CachedGroup.call, hx, hy]
      exact ⟨.element (.own hown), h.bases, hnext⟩
  | cachedPower k hvw =>
    obtain ⟨hpower, hbases⟩ := h.cachedPower_agree hsafe hvw k
    exact ⟨matches_of_own hpower, hbases, rfl⟩
  | release hvw =>
    rcases (h.release_agree hvw).elim with ⟨e, e', he, he', hkind⟩ | ⟨S', T', hS, hT, hbases⟩
    · simp only [CachedGroup.call, he, he']
      exact ⟨hkind, h.bases, rfl⟩
    · simp only [CachedGroup.call, hS, hT]
      exact ⟨.plain rfl, hbases, rfl⟩
  | hasTable hvw =>
    exact ⟨matches_of_eq (h.hasTable_agree hvw) fun b => matches_number (.truth b), h.bases, rfl⟩
  | cacheSize =>
    refine ⟨?_, h.bases, rfl⟩
    simp only [CachedGroup.call, h.bases.length_eq]
    exact matches_number _

theorem Parallel.call (hsafe : record.params.IsSafe p q) (hσ : RandomSource.KeepsBounds σ)
    (h : Parallel i j record S T) {c c' : Call} (hc : CallMatches i j record c c') (source : σ) :
    Parallel i j record (S.call isPrime c source).group (T.call isPrime c' source).group := by
  have hfrom : c.IsFrom S.group := h.signed_eq ▸ c.isFrom_residues
  have hfrom' : c'.IsFrom T.group := h.natural_eq ▸ c'.isFrom_residues
  constructor
  case signed_eq => exact (h.sound_signed.group_call isPrime hfrom source).trans h.signed_eq
  case natural_eq => exact (h.sound_natural.group_call isPrime hfrom' source).trans h.natural_eq
  case sound_signed => exact h.sound_signed.call isPrime hfrom source
  case sound_natural => exact h.sound_natural.call isPrime hfrom' source
  case bases => exact (h.call_agree isPrime hsafe hσ hc source).bases

/-- Runs of calls that correspond have replies that correspond. -/
theorem Parallel.replies_agree (hsafe : record.params.IsSafe p q) (hσ : RandomSource.KeepsBounds σ)
    (h : Parallel i j record S T) {calls calls' : List Call}
    (hcalls : calls.Forall₂ (CallMatches i j record) calls') (source : σ) :
    (S.replies isPrime source calls).Forall₂ (RepliesAgree i j record)
      (T.replies isPrime source calls') := by
  induction hcalls generalizing S T source with
  | nil => exact .nil
  | cons hc _ ih =>
    have hreplies := h.call_agree isPrime hsafe hσ hc source
    refine .cons hreplies ?_
    rw [← hreplies.source_eq]
    exact ih (h.call isPrime hsafe hσ hc source) _

end Calls

/-- The request for a group with given parameters. -/
def request (record : ResidueRecord) : GroupRequest :=
  ⟨none, some (.parameters (.residues record))⟩

theorem build_eq_ok_iff {σ : Type} [RandomSource σ] {isPrime : PrimalityTest} {engine : Engine}
    {id : ℕ} {source : σ} {built : Group × σ} :
    Group.build isPrime (.residues engine) id (request record) source = .ok built ↔
      record.params.isValid isPrime = true ∧ built = (.residues ⟨id, engine, record⟩, source) := by
  rw [request, ← Group.requestFor, Group.build_residues_requestFor]
  split_ifs with hvalid
  · rw [and_iff_right hvalid]
    exact ⟨fun h => (Except.ok.inj h).symm, fun h => congrArg Except.ok h.symm⟩
  · constructor
    · intro h
      cases h
    · exact fun h => absurd h.1 hvalid

/-- With primality tests that decide primality both engines accept the same parameters. Groups of
    accepted parameters answer calls that correspond alike, over runs of any length. -/
theorem engines_agree {isPrime isPrime' : PrimalityTest} (hprime : isPrime.Decides)
    (hprime' : isPrime'.Decides) {σ : Type} [RandomSource σ] (hσ : RandomSource.KeepsBounds σ)
    (record : ResidueRecord) (i j : ℕ) (source : σ) :
    ((∃ built, Group.build isPrime (.residues .signed) i (request record) source = .ok built) ↔
      ∃ built, Group.build isPrime' (.residues .natural) j (request record) source = .ok built) ∧
    ∀ G H, Group.build isPrime (.residues .signed) i (request record) source = .ok (G, source) →
      Group.build isPrime' (.residues .natural) j (request record) source = .ok (H, source) →
      ∀ calls calls', calls.Forall₂ (CallMatches i j record) calls' →
        (CachedGroup.replies isPrime ⟨G, []⟩ source calls).Forall₂ (RepliesAgree i j record)
          (CachedGroup.replies isPrime' ⟨H, []⟩ source calls') := by
  obtain rfl := hprime.eq hprime'
  simp only [build_eq_ok_iff, Prod.mk.injEq, and_true]
  refine ⟨by simp, ?_⟩
  rintro _ _ ⟨hvalid, rfl⟩ ⟨-, rfl⟩ calls calls' hcalls
  have husable := ResidueParams.isUsable_of_isValid hprime.isSound hvalid
  obtain ⟨p, q, hsafe⟩ := (ResidueParams.isValid_iff hprime _).mp hvalid
  have hparallel : Parallel i j record ⟨.residues (signedGroup i record), []⟩
      ⟨.residues (naturalGroup j record), []⟩ :=
    ⟨rfl, rfl, CachedGroup.isSound_fresh husable, CachedGroup.isSound_fresh husable, .nil⟩
  exact hparallel.replies_agree isPrime hsafe hσ hcalls source

theorem isValid_modulo23 :
    ResidueGroup.modulo23.record.params.isValid (fun x => decide x.toNat.Prime) = true :=
  (ResidueParams.isValid_iff PrimalityTest.decides_trialDivision _).mpr
    ⟨23, 11, ResidueGroup.isSafe_modulo23⟩

/-- The squares modulo 23, made in both groups, raised by tables and drawn at random. -/
theorem engines_agree_modulo23 :
    PrimalityTest.Decides (fun x => decide x.toNat.Prime) ∧
      ((∃ built, Group.build (fun x => decide x.toNat.Prime) (.residues .signed) 0
          (request ResidueGroup.modulo23.record) (Generator.ofSeed 1) = .ok built) ↔
        ∃ built, Group.build (fun x => decide x.toNat.Prime) (.residues .natural) 1
          (request ResidueGroup.modulo23.record) (Generator.ofSeed 1) = .ok built) ∧
      (CachedGroup.replies (fun x => decide x.toNat.Prime)
          ⟨.residues (signedGroup 0 ResidueGroup.modulo23.record), []⟩ (Generator.ofSeed 1)
          [.query (.generate true [.int 4]),
            .cachedPower (.element (.residue ⟨signedGroup 0 ResidueGroup.modulo23.record, 4⟩)) (-3),
            .random]).Forall₂
        (RepliesAgree 0 1 ResidueGroup.modulo23.record)
        (CachedGroup.replies (fun x => decide x.toNat.Prime)
          ⟨.residues (naturalGroup 1 ResidueGroup.modulo23.record), []⟩ (Generator.ofSeed 1)
          [.query (.generate true [.int 4]),
            .cachedPower (.element (.residue ⟨naturalGroup 1 ResidueGroup.modulo23.record, 4⟩)) (-3),
            .random]) := by
  have hdecides := PrimalityTest.decides_trialDivision
  obtain ⟨haccept, hruns⟩ := engines_agree hdecides hdecides Generator.staysInRange.keepsBounds
    ResidueGroup.modulo23.record 0 1 (Generator.ofSeed 1)
  refine ⟨hdecides, haccept, hruns _ _ (build_eq_ok_iff.mpr ⟨isValid_modulo23, rfl⟩)
    (build_eq_ok_iff.mpr ⟨isValid_modulo23, rfl⟩) _ _ ?_⟩
  have hask : ∀ v ∈ [Value.int 4], v.IsAskable := by
    intro v hv
    obtain rfl := List.mem_singleton.mp hv
    refine ⟨rfl, fun n hn => ?_⟩
    cases hn
    decide
  exact .cons (.query (.generate true (.cons (.plain rfl) .nil) hask))
    (.cons (.cachedPower (-3) (.element (.own ⟨4, by decide, rfl, rfl⟩))) (.cons .random .nil))

/-- A negative integer is refused as an argument by the engine that can hold it, and as a number by
    the one that cannot. -/
theorem not_agree_generate_negative :
    (∃ built, Group.build (fun x => decide x.toNat.Prime) (.residues .signed) 0
        (request ResidueGroup.modulo23.record) (Generator.ofSeed 1) = .ok built) ∧
      (∃ built, Group.build (fun x => decide x.toNat.Prime) (.residues .natural) 1
        (request ResidueGroup.modulo23.record) (Generator.ofSeed 1) = .ok built) ∧
      ¬ Outcome.Agree (Matches 0 1 ResidueGroup.modulo23.record)
        ((Query.generate true [.int (-1)]).answer (fun x => decide x.toNat.Prime)
          (.residues (signedGroup 0 ResidueGroup.modulo23.record)))
        ((Query.generate true [.int (-1)]).answer (fun x => decide x.toNat.Prime)
          (.residues (naturalGroup 1 ResidueGroup.modulo23.record))) := by
  refine ⟨⟨_, build_eq_ok_iff.mpr ⟨isValid_modulo23, rfl⟩⟩,
    ⟨_, build_eq_ok_iff.mpr ⟨isValid_modulo23, rfl⟩⟩, ?_⟩
  have hsigned : (Query.generate true [.int (-1)]).answer (fun x => decide x.toNat.Prime)
      (.residues (signedGroup 0 ResidueGroup.modulo23.record)) =
        .error (.outsideResidues (.native (-1))) := rfl
  have hnatural : (Query.generate true [.int (-1)]).answer (fun x => decide x.toNat.Prime)
      (.residues (naturalGroup 1 ResidueGroup.modulo23.record)) = .error .negativeNatural := rfl
  rw [hsigned, hnatural]
  exact fun hkind : ErrorKind.invalidArgument = ErrorKind.value => ErrorKind.noConfusion hkind

end PrimeOrder.Engine
