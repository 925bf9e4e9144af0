import Mathlib
import PrimeOrder.Proofs.Engine.Runs
import PrimeOrder.Proofs.Group.Bases
import PrimeOrder.Proofs.Group.Held
import PrimeOrder.Proofs.Group.Total
import PrimeOrder.Proofs.Window.Growth

namespace PrimeOrder

variable {isPrime : PrimalityTest} {σ : Type} [RandomSource σ]

namespace Element

variable {e f g : Element}

/-- Whether some group made an element. -/
def HasGroup (e : Element) : Prop :=
  ∃ G : Group, G.ownsElement e = true

/-- Between elements of groups equality can always be told. -/
theorem equals_eq_same (he : e.HasGroup) (hf : f.HasGroup) : e.equals f = .ok (e.same f) := by
  obtain ⟨G, hG⟩ := he
  obtain ⟨H, hH⟩ := hf
  have hcomparable : e.comparable f = true := by
    rw [comparable, Group.parameters?_of_ownsElement hG, Group.parameters?_of_ownsElement hH]
    exact Bool.or_true _
  rw [equals, if_pos hcomparable]

end Element

/-- Two calls of one operation with the same exponents, and with operands that are related one by
    one. -/
inductive Call.Alike (related : Element → Element → Prop) : Call → Call → Prop where
  | isMember {e f : Element} (h : related e f) :
      Alike related (.query (.isMember (.element e))) (.query (.isMember (.element f)))
  | inverse {e f : Element} (h : related e f) :
      Alike related (.query (.inverse (.element e))) (.query (.inverse (.element f)))
  | multiply {e f e' f' : Element} (h : related e f) (h' : related e' f') :
      Alike related (.query (.multiply (.element e) (.element e')))
        (.query (.multiply (.element f) (.element f')))
  | power {e f : Element} (h : related e f) (k : ℤ) :
      Alike related (.query (.power (.element e) k)) (.query (.power (.element f) k))
  | productOfPowers {es fs : List Element} (h : es.Forall₂ related fs) (exponents : List ℤ) :
      Alike related (.query (.productOfPowers (es.map .element) exponents))
        (.query (.productOfPowers (fs.map .element) exponents))
  | cachedPower {e f : Element} (h : related e f) (k : ℤ) :
      Alike related (.cachedPower (.element e) k) (.cachedPower (.element f) k)
  | decode {e f : Element} (h : related e f) :
      Alike related (.query (.decode (.element e))) (.query (.decode (.element f)))
  | image {e f : Element} (h : related e f) :
      Alike related (.query (.image (.element e))) (.query (.image (.element f)))

theorem Call.Alike.mono {related related' : Element → Element → Prop} {c d : Call}
    (hcd : Alike related c d) (h : ∀ e f, related e f → related' e f) : Alike related' c d := by
  cases hcd with
  | isMember hef => exact .isMember (h _ _ hef)
  | inverse hef => exact .inverse (h _ _ hef)
  | multiply hef hef' => exact .multiply (h _ _ hef) (h _ _ hef')
  | power hef k => exact .power (h _ _ hef) k
  | productOfPowers hef exponents => exact .productOfPowers (hef.imp h) exponents
  | cachedPower hef k => exact .cachedPower (h _ _ hef) k
  | decode hef => exact .decode (h _ _ hef)
  | image hef => exact .image (h _ _ hef)

/-- Two values that are related elements, or one value that is no element. -/
inductive Value.Alike (related : Element → Element → Prop) : Value → Value → Prop where
  | element {e f : Element} (h : related e f) : Alike related (.element e) (.element f)
  | plain {v : Value} (h : v.isElement = false) : Alike related v v

theorem Value.Alike.mono {related related' : Element → Element → Prop} {v w : Value}
    (hvw : Alike related v w) (h : ∀ e f, related e f → related' e f) : Alike related' v w := by
  cases hvw with
  | element hef => exact .element (h _ _ hef)
  | plain hv => exact .plain hv

namespace CachedGroup

variable {S : CachedGroup} {e : Element}

/-- Whether every table of a group is one of its base that rows were added to. -/
def HasGrown (S : CachedGroup) : Prop :=
  ∀ entry ∈ S.cache,
    Window.Table.GrownFrom S.group.law entry.1 S.group.tableWidth entry.2

/-- The power of an element by a table that is new. -/
def newPower (G : Group) (e : Element) (k : ℤ) : Except Error Element :=
  ((Window.Table.empty e G.tableWidth).power G.law (G.reduceExponent k)).1

namespace HasGrown

variable (hgrown : S.HasGrown) (hS : S.IsSound)
include hgrown hS

theorem tableOf (he : S.group.Holds e) :
    Window.Table.GrownFrom S.group.law e S.group.tableWidth (S.tableOf e) := by
  unfold CachedGroup.tableOf
  cases htable : S.cache.table? e with
  | none => exact Window.Table.grownFrom_empty
  | some table =>
    obtain ⟨base, hmem, hsame⟩ := Cache.mem_of_table?_eq_some htable
    obtain rfl : base = e := ((hS.holds _ hmem).same_iff_eq he).mp hsame
    exact hgrown _ hmem

/-- A power by the table of a base does not depend on the table, which only grows. -/
theorem power_tableOf (he : S.group.Holds e) (k : ℤ) :
    ((S.tableOf e).power S.group.law (S.group.reduceExponent k)).1 = newPower S.group e k ∧
      Window.Table.GrownFrom S.group.law e S.group.tableWidth
        ((S.tableOf e).power S.group.law (S.group.reduceExponent k)).2 := by
  have hwidth : 0 < S.group.tableWidth := Window.widthFor_pos _
  refine (hgrown.tableOf hS he).power hwidth (fun count => ?_) (hS.proper.reduceExponent_nonneg k)
  -- on what a group holds its multiplication never fails, so rows can always be added
  obtain ⟨grown, hrows, -⟩ :=
    (Group.isTableOf_empty he).holds.addRows hS.proper.law_holds hwidth count
  exact ⟨grown, hrows⟩

theorem grown (he : S.group.Holds e) (k : ℤ) : (S.grown e k).HasGrown := by
  intro entry hentry
  obtain ⟨-, htable⟩ := hgrown.power_tableOf hS he k
  rcases hS.mem_store he hentry with hold | rfl
  · exact hgrown entry hold
  · exact htable

theorem call {c : Call} (hc : c.IsFrom S.group) (source : σ) :
    (S.call isPrime c source).group.HasGrown := by
  rcases S.group_call_cases isPrime c source with ⟨e, k, rfl, howns, h⟩ | ⟨e, -, h⟩ | h
  · rw [h]
    exact hgrown.grown hS (hc e k rfl howns) k
  · rw [h]
    exact fun entry hentry => hgrown entry (List.mem_of_mem_filter hentry)
  · rw [h]
    exact hgrown

end HasGrown

end CachedGroup

namespace Group

variable {G : Group}

theorem hasGrown_of_run (hprime : isPrime.IsSound) (hG : G.IsAccepted isPrime) {S : CachedGroup}
    {made : List Element} (hrun : Run σ isPrime G false S made) : S.HasGrown := by
  induction hrun with
  | new => exact fun _ hentry => absurd hentry List.not_mem_nil
  | call c source hrun hknown _ ih =>
    obtain ⟨hS, hgroup, hmade⟩ := holds_of_run hprime hG hrun
    refine ih.call hS ?_ source
    rintro f k rfl howns
    rw [hgroup] at howns ⊢
    exact hmade f (hknown f List.mem_cons_self howns)
  | compute _ _ ih => exact ih

namespace Twins

variable {H : Group} (hGH : Twins G H)
include hGH

theorem newPower {e f : Element} (h : Corresponds G H e f) (k : ℤ) :
    Outcome.Alike (Corresponds G H) (CachedGroup.newPower G e k) (CachedGroup.newPower H f k) := by
  rw [CachedGroup.newPower, CachedGroup.newPower, hGH.tableWidth_eq, hGH.reduceExponent_eq]
  exact (Window.Table.alike_empty h _).power hGH.law_alike _

end Twins

theorem twins_of_build {τ : Type} [RandomSource τ] {backend : Backend} {i j : ℕ}
    {r r' : GroupRequest} {s s₁ : σ} {t t₁ : τ} {H : Group}
    (hG : build isPrime backend i r s = .ok (G, s₁))
    (hH : build isPrime backend j r' t = .ok (H, t₁)) (hparams : G.parameters = H.parameters) :
    Twins G H := by
  cases backend with
  | residues engine =>
    obtain ⟨_, -, hpure⟩ := Outcome.bind_eq_ok_iff.mp hG
    obtain ⟨_, -, hpure'⟩ := Outcome.bind_eq_ok_iff.mp hH
    cases hpure
    cases hpure'
    exact .residues rfl (Parameters.residues.inj hparams)
  | points =>
    obtain ⟨_, -, hpure⟩ := Outcome.bind_eq_ok_iff.mp hG
    obtain ⟨_, -, hpure'⟩ := Outcome.bind_eq_ok_iff.mp hH
    cases hpure
    cases hpure'
    exact .points (Parameters.curve.inj hparams)

end Group

namespace CachedGroup

variable {S T : CachedGroup} {τ : Type} [RandomSource τ]

/-- On operands of the same numbers two groups of one kind and parameters do the same, also where
    they keep different tables. -/
theorem call_alike (isPrime : PrimalityTest) (hST : S.group.Twins T.group) (hS : S.IsSound)
    (hT : T.IsSound) (hSgrown : S.HasGrown) (hTgrown : T.HasGrown) {c d : Call}
    (hcd : Call.Alike (fun e f => S.group.Holds e ∧ T.group.Holds f ∧
      S.group.Corresponds T.group e f) c d) (source : σ) (source' : τ) :
    Outcome.Alike (Value.Alike fun e f => S.group.Corresponds T.group e f)
      (S.call isPrime c source).outcome (T.call isPrime d source').outcome := by
  have helement : ∀ {x y : Except Error Element},
      Outcome.Alike (S.group.Corresponds T.group) x y →
      Outcome.Alike (Value.Alike (S.group.Corresponds T.group)) (x.map .element)
        (y.map .element) :=
    fun h => h.map fun _ _ => .element
  cases hcd with
  | isMember h =>
    simp only [call, Query.answer, hST.isMember_eq h.2.2]
    exact .ok (.plain rfl)
  | inverse h => exact helement (hST.inverse h.2.2)
  | multiply h h' => exact helement (hST.multiply h.2.2 h'.2.2)
  | power h k => exact helement (hST.power h.2.2 k)
  | productOfPowers h exponents =>
    exact helement (hST.productOfPowers (h.imp fun _ _ h => h.2.2) exponents)
  | cachedPower h k =>
    obtain ⟨he, hf, hef⟩ := h
    simp only [call, cachedPower_of_owns he.owns, cachedPower_of_owns hf.owns,
      (hSgrown.power_tableOf hS he k).1, (hTgrown.power_tableOf hT hf k).1]
    exact helement (hST.newPower hef k)
  | decode h =>
    simp only [call, Query.answer, hST.decode_eq h.2.2]
    exact (Outcome.Alike.of_eq _).map fun _ _ heq => heq ▸ .plain rfl
  | image h =>
    simp only [call, Query.answer, hST.image_eq h.2.2]
    exact (Outcome.Alike.of_eq _).map fun _ _ heq => heq ▸ .plain rfl

end CachedGroup

namespace Group

variable {τ : Type} [RandomSource τ]

/-- Between elements of groups equality can be told, is an equivalence, and gives equal elements the
    same key. Two groups that are built by one backend and have the same parameters hold all that they
    hand out; and on operands that they hold and that are equal one by one, every operation has equal
    elements, the same answer or the same failure as its outcome, wherever runs of the two groups have
    led. Over a prime modulus it is never a failure, unless bases and exponents do not pair up or an
    element is decoded that encodes nothing. -/
theorem equality_congruent (hprime : isPrime.IsSound) :
    (∀ e f g : Element, e.HasGroup → f.HasGroup → g.HasGroup →
      e.equals e = .ok true ∧
      (∃ same, e.equals f = .ok same ∧ f.equals e = .ok same ∧ (same = true → e.key = f.key)) ∧
      (e.equals f = .ok true → f.equals g = .ok true → e.equals g = .ok true)) ∧
    ∀ (backend : Backend) (i j : ℕ) (r r' : GroupRequest) (s s₁ : σ) (t t₁ : τ) (G H : Group),
      build isPrime backend i r s = .ok (G, s₁) → build isPrime backend j r' t = .ok (H, t₁) →
      G.parameters = H.parameters →
      ∀ S T made made', Run σ isPrime G false S made → Run τ isPrime H false T made' →
        (∀ e ∈ made, G.Holds e) ∧ (∀ f ∈ made', H.Holds f) ∧
        ∀ c d, Call.Alike (fun e f => G.Holds e ∧ H.Holds f ∧ e.equals f = .ok true) c d →
          ∀ (source : σ) (source' : τ),
            Outcome.Alike (Value.Alike fun e f => e.equals f = .ok true)
              (S.call isPrime c source).outcome (T.call isPrime d source').outcome ∧
            (G.modulus.toNat.Prime → RandomSource.KeepsBounds σ → c.ActsOn (· ∈ made) →
              ∃ v, (S.call isPrime c source).outcome = .ok v) := by
  refine ⟨fun e f g he hf hg => ?_, ?_⟩
  · simp only [Element.equals_eq_same, he, hf, hg, Except.ok.injEq]
    exact ⟨e.same_refl, ⟨_, rfl, Element.same_comm f e, fun h => (Element.same_iff.mp h).1⟩,
      Element.same_trans⟩
  · intro backend i j r r' s s₁ t t₁ G H hG hH hparams S T made made' hS hT
    have hGaccepted := isAccepted_of_build hG
    have hHaccepted := isAccepted_of_build hH
    have hGH := twins_of_build hG hH hparams
    obtain ⟨hSsound, rfl, hmade⟩ := holds_of_run hprime hGaccepted hS
    obtain ⟨hTsound, rfl, hmade'⟩ := holds_of_run hprime hHaccepted hT
    refine ⟨hmade, hmade', fun c d hcd source source' => ?_⟩
    have hcorrespond : Call.Alike (fun e f => S.group.Holds e ∧ T.group.Holds f ∧
        S.group.Corresponds T.group e f) c d :=
      hcd.mono fun e f ⟨he, hf, hef⟩ => ⟨he, hf, hGH.corresponds_of_equals he hf hef⟩
    have halike := CachedGroup.call_alike isPrime hGH hSsound hTsound
      (hasGrown_of_run hprime hGaccepted hS) (hasGrown_of_run hprime hHaccepted hT) hcorrespond
      source source'
    refine ⟨halike.mono fun v w h => h.mono fun e f => hGH.equals_eq, fun hp hσ hc => ?_⟩
    have hclosed := (isInvariant_inRange hprime.rejectsBelowTwo hσ hGaccepted hp).toIsClosed
    obtain ⟨-, -, hrange⟩ := inRange_of_run hprime.rejectsBelowTwo hσ hGaccepted hp hS
    exact hclosed.exists_outcome_eq_ok (fun _ he => he) isPrime hSsound rfl (hc.mono hrange) source

/-- A residue that is no square, raised on a group that has a table for it and on one without. -/
theorem equality_congruent_modulo23 :
    let H : ResidueGroup := ⟨1, .signed, ResidueGroup.modulo23.record⟩
    let a := Element.residue ⟨.modulo23, 5⟩
    let b := Element.residue ⟨H, 5⟩
    let S := (CachedGroup.call (fun x => decide x.toNat.Prime) ⟨.residues .modulo23, []⟩
      (.cachedPower (.element a) 40) (Generator.ofSeed 1)).group
    let raised := (S.call (fun x => decide x.toNat.Prime) (.cachedPower (.element a) 3)
      (Generator.ofSeed 1)).outcome
    a.equals b = .ok true ∧ S.cache.hasTable a = true ∧ (∃ v, raised = .ok v) ∧
      Outcome.Alike (Value.Alike fun e f => e.equals f = .ok true) raised
        (CachedGroup.call (fun x => decide x.toNat.Prime) ⟨.residues H, []⟩
          (.cachedPower (.element b) 3) (Generator.ofSeed 2)).outcome := by
  intro H a b S raised
  have hmade : Run Generator (fun x => decide x.toNat.Prime) (.residues .modulo23) false
      ⟨.residues .modulo23, []⟩ [a] :=
    .call (.query (.generate false [.int 5])) (Generator.ofSeed 1) .new
      (fun _ he _ => absurd he List.not_mem_nil) (fun h => absurd h Bool.false_ne_true)
  have hraised := Run.call (.cachedPower (.element a) 40) (Generator.ofSeed 1) hmade
    (fun e he _ => by cases List.mem_singleton.mp he; exact List.mem_cons_self)
    (fun h => absurd h Bool.false_ne_true)
  have hequal : a.equals b = .ok true := by decide
  obtain ⟨-, hcongruent⟩ := equality_congruent (σ := Generator) (τ := Generator)
    PrimalityTest.decides_trialDivision.isSound
  obtain ⟨-, -, hcalls⟩ := hcongruent (.residues .signed) 0 1
    (Engine.request ResidueGroup.modulo23.record) (Engine.request ResidueGroup.modulo23.record)
    (Generator.ofSeed 1) _ (Generator.ofSeed 2) _ _ (.residues H)
    (Engine.build_eq_ok_iff.mpr ⟨Engine.isValid_modulo23, rfl⟩)
    (Engine.build_eq_ok_iff.mpr ⟨Engine.isValid_modulo23, rfl⟩) rfl S ⟨.residues H, []⟩ _ _
    hraised .new
  obtain ⟨halike, hresult⟩ := hcalls _ _ (.cachedPower (e := a) (f := b) ⟨rfl, rfl, hequal⟩ 3)
    (Generator.ofSeed 1) (Generator.ofSeed 2)
  refine ⟨hequal, by decide +kernel, ?_, halike⟩
  exact hresult (by norm_num : Nat.Prime 23) Generator.staysInRange.keepsBounds
    (.cachedPower List.mem_cons_self 3)

end Group

end PrimeOrder
