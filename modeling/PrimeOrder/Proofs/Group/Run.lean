import Mathlib
import PrimeOrder.Proofs.Group.Closed
import PrimeOrder.Proofs.Group.Given

namespace PrimeOrder

/-- The values that a question takes for elements. -/
def Query.operands : Query → List Value
  | .owns v | .check v | .isMember v | .inverse v | .power v _ | .decode v | .image v => [v]
  | .multiply v w => [v, w]
  | .productOfPowers bases _ => bases
  | _ => []

/-- The values that a call takes for elements. -/
def Call.operands : Call → List Value
  | .query q => q.operands
  | .cachedPower v _ | .release v | .hasTable v => [v]
  | .random | .cacheSize => []

/-- Whether a call asks for the check of membership if it makes an element of given values. -/
def Call.isChecked : Call → Bool
  | .query (.generate checked _) | .query (.reconstruct checked _) => checked
  | _ => true

/-- The element that a reply hands out, if it does. -/
def Reply.elements {σ : Type} (r : Reply σ) : List Element :=
  match r.outcome with
  | .ok (.element e) => [e]
  | _ => []

theorem Reply.mem_elements_iff {σ : Type} {r : Reply σ} {e : Element} :
    e ∈ r.elements ↔ r.outcome = .ok (.element e) := by
  unfold elements
  split
  · rename_i f hf
    simp [hf, eq_comm]
  · rename_i hne
    exact ⟨fun h => absurd h List.not_mem_nil, fun h => absurd h (hne e)⟩

/-- The states that calls lead a new group to, each beside the elements handed out so far and what
    was computed from them. Every operand that the group owns is one of these; all others may be
    anything. The source of a call is arbitrary, as others may draw from it in between. -/
inductive Group.Run (σ : Type) [RandomSource σ] (isPrime : PrimalityTest) (G : Group)
    (checked : Bool) : CachedGroup → List Element → Prop where
  | new : Run σ isPrime G checked ⟨G, []⟩ []
  | call {S : CachedGroup} {made : List Element} (c : Call) (source : σ)
      (h : Run σ isPrime G checked S made)
      (hknown : ∀ e, .element e ∈ c.operands → G.ownsElement e = true → e ∈ made)
      (hchecked : checked = true → c.isChecked = true) :
      Run σ isPrime G checked (S.call isPrime c source).group
        (made ++ (S.call isPrime c source).elements)
  | compute {S : CachedGroup} {made : List Element} {P : Point} (h : Run σ isPrime G checked S made)
      (hP : P.IsComputed fun Q => .point Q ∈ made) : Run σ isPrime G checked S (made ++ [.point P])

/-- Whether a property holds moreover of all elements that a group makes without operands. -/
structure Group.IsInvariant (σ : Type) [RandomSource σ] (G : Group) (checked : Bool)
    (good : Element → Prop) : Prop extends G.IsClosed good where
  generator : good G.generator
  generate : ∀ check values e, (checked = true → check = true) →
    G.generate check values = .ok e → good e
  encode : ∀ data e, G.encode data = .ok e → good e
  random : ∀ (s : σ) e next, G.random s = .ok (e, next) → good e

namespace Group

variable {G : Group} {good : Element → Prop}

theorem check_eq_ok_iff {v : Value} {e : Element} :
    G.check v = .ok e ↔ v = .element e ∧ G.ownsElement e = true := by
  cases v with
  | element f =>
    rw [check, Value.element.injEq]
    split_ifs with howns
    · rw [Except.ok.injEq]
      exact ⟨fun h => ⟨h, h ▸ howns⟩, And.left⟩
    · simp only [false_iff]
      rintro ⟨rfl, hown⟩
      exact howns hown
  | _ => simp [check]

theorem map_element_eq_ok_iff {x : Except Error Element} {e : Element} :
    x.map Value.element = .ok (.element e) ↔ x = .ok e := by
  simp [Outcome.map_eq_ok_iff]

/-- An operation that succeeds has found the group to own its operand. -/
theorem exists_own_of_bind {α : Type} {v : Value} {f : Element → Except Error α} {a : α}
    (h : (G.check v >>= f) = .ok a) : ∃ e, v = .element e ∧ G.ownsElement e = true := by
  obtain ⟨e, he, -⟩ := Outcome.bind_eq_ok_iff.mp h
  exact ⟨e, check_eq_ok_iff.mp he⟩

theorem checkAll_eq_ok {values : List Value} {elements : List Element}
    (h : G.checkAll values = .ok elements) :
    values = elements.map .element ∧ ∀ e ∈ elements, G.ownsElement e = true := by
  induction values generalizing elements with
  | nil =>
    cases h
    exact ⟨rfl, fun _ he => absurd he List.not_mem_nil⟩
  | cons v rest ih =>
    rw [checkAll, Outcome.bind_eq_ok_iff] at h
    obtain ⟨e, he, h⟩ := h
    obtain ⟨es, hes, h⟩ := Outcome.bind_eq_ok_iff.mp h
    cases h
    obtain ⟨rfl, howns⟩ := check_eq_ok_iff.mp he
    obtain ⟨rfl, hrest⟩ := ih hes
    exact ⟨rfl, List.forall_mem_cons.mpr ⟨howns, hrest⟩⟩

end Group

/-- The elements that a group answers questions with, each with what it comes of. All operands are
    elements that the group owns. -/
inductive Query.Makes (G : Group) : Query → Element → Prop where
  | generator : Makes G .generator G.generator
  | identity : Makes G .identity G.identity
  | check {e : Element} (howns : G.ownsElement e = true) : Makes G (.check (.element e)) e
  | generate {checked : Bool} {values : List Value} {e : Element}
      (h : G.generate checked values = .ok e) : Makes G (.generate checked values) e
  | reconstruct {checked : Bool} {data : Value} {values : List Value} {e : Element}
      (h : G.generate checked values = .ok e) : Makes G (.reconstruct checked data) e
  | inverse {f e : Element} (howns : G.ownsElement f = true)
      (h : G.inverse (.element f) = .ok e) : Makes G (.inverse (.element f)) e
  | multiply {f g e : Element} (hf : G.ownsElement f = true) (hg : G.ownsElement g = true)
      (h : G.multiply (.element f) (.element g) = .ok e) :
      Makes G (.multiply (.element f) (.element g)) e
  | power {f e : Element} {k : ℤ} (howns : G.ownsElement f = true)
      (h : G.power (.element f) k = .ok e) : Makes G (.power (.element f) k) e
  | productOfPowers {bases : List Element} {exponents : List ℤ} {e : Element}
      (hlength : bases.length = exponents.length) (hne : bases ≠ [])
      (howns : ∀ f ∈ bases, G.ownsElement f = true)
      (h : G.productOfPowers (bases.map .element) exponents = .ok e) :
      Makes G (.productOfPowers (bases.map .element) exponents) e
  | encode {data : Octets} {e : Element} (h : G.encode data = .ok e) : Makes G (.encode data) e

theorem Query.makes_of_answer {isPrime : PrimalityTest} {G : Group} {q : Query} {e : Element}
    (he : q.answer isPrime G = .ok (.element e)) : q.Makes G e := by
  cases q with
  | generator =>
    cases he
    exact .generator
  | identity =>
    cases he
    exact .identity
  | check v =>
    obtain ⟨rfl, howns⟩ := Group.check_eq_ok_iff.mp (Group.map_element_eq_ok_iff.mp he)
    exact .check howns
  | generate check values => exact .generate (Group.map_element_eq_ok_iff.mp he)
  | reconstruct check data =>
    obtain ⟨values, -, hgenerate⟩ :=
      Group.exists_fields_of_reconstruct (Group.map_element_eq_ok_iff.mp he)
    exact .reconstruct hgenerate
  | inverse v =>
    have hinverse := Group.map_element_eq_ok_iff.mp he
    obtain ⟨f, rfl, howns⟩ := Group.exists_own_of_bind hinverse
    exact .inverse howns hinverse
  | power v k =>
    have hpower := Group.map_element_eq_ok_iff.mp he
    obtain ⟨f, rfl, howns⟩ := Group.exists_own_of_bind hpower
    exact .power howns hpower
  | multiply v w =>
    have hproduct := Group.map_element_eq_ok_iff.mp he
    obtain ⟨f, rfl, hf⟩ := Group.exists_own_of_bind hproduct
    obtain ⟨_, -, hrest⟩ := Outcome.bind_eq_ok_iff.mp hproduct
    obtain ⟨g, rfl, hg⟩ := Group.exists_own_of_bind hrest
    exact .multiply hf hg hproduct
  | productOfPowers bases exponents =>
    have hproduct := Group.map_element_eq_ok_iff.mp he
    have hchecks := hproduct
    unfold Group.productOfPowers at hchecks
    split_ifs at hchecks with hlength hempty
    obtain ⟨elements, helements, -⟩ := Outcome.bind_eq_ok_iff.mp hchecks
    obtain ⟨rfl, howns⟩ := Group.checkAll_eq_ok helements
    exact .productOfPowers (by simpa using hlength) (by simpa using hempty) howns hproduct
  | encode data => exact .encode (Group.map_element_eq_ok_iff.mp he)
  | modulus => cases G <;> cases he
  | _ => simp [Query.answer, Outcome.map_eq_ok_iff] at he

/-- An element that a call hands out answers a question, was drawn at random, or is a power by the
    table of an element of the group. -/
theorem CachedGroup.outcome_cases {σ : Type} [RandomSource σ] (isPrime : PrimalityTest)
    (S : CachedGroup) {c : Call} {source : σ} {e : Element}
    (he : (S.call isPrime c source).outcome = .ok (.element e)) :
    (∃ q, c = .query q ∧ q.answer isPrime S.group = .ok (.element e)) ∨
    (∃ next, c = .random ∧ S.group.random source = .ok (e, next)) ∨
    ∃ f k, c = .cachedPower (.element f) k ∧ S.group.ownsElement f = true ∧
      (S.cachedPower (.element f) k).1 = .ok e := by
  cases c with
  | query q => exact .inl ⟨q, rfl, he⟩
  | random =>
    rw [call] at he
    split at he
    · cases he
    · rename_i drawn next hdrawn
      cases he
      exact .inr (.inl ⟨next, rfl, hdrawn⟩)
  | cachedPower v k =>
    have hpower : (S.cachedPower v k).1 = .ok e := Group.map_element_eq_ok_iff.mp he
    cases hcheck : S.group.check v with
    | error error =>
      rw [cachedPower, hcheck] at hpower
      cases hpower
    | ok f =>
      obtain ⟨rfl, howns⟩ := Group.check_eq_ok_iff.mp hcheck
      exact .inr (.inr ⟨f, k, rfl, howns, hpower⟩)
  | release v =>
    rw [call] at he
    split at he <;> cases he
  | hasTable v =>
    obtain ⟨b, -, heq⟩ := Outcome.map_eq_ok_iff.mp he
    cases heq
  | cacheSize => cases he

namespace Group

variable {G : Group} {good : Element → Prop}

namespace IsInvariant

variable {σ : Type} [RandomSource σ] {checked : Bool} (hG : G.IsInvariant σ checked good)
include hG

/-- An element that answers a question has the property if the operands that the group owns do. -/
theorem answer {isPrime : PrimalityTest} {q : Query} {e : Element}
    (hchecked : checked = true → (Call.query q).isChecked = true)
    (hown : ∀ f, .element f ∈ q.operands → G.ownsElement f = true → good f)
    (he : q.answer isPrime G = .ok (.element e)) : good e := by
  cases Query.makes_of_answer he with
  | generator => exact hG.generator
  | identity => exact hG.law.made_one
  | check howns => exact hown e List.mem_cons_self howns
  | generate h => exact hG.generate _ _ e hchecked h
  | reconstruct h => exact hG.generate _ _ e hchecked h
  | inverse howns h => exact Outcome.of_eq_ok (hG.inverse _ (hown _ List.mem_cons_self howns)) h
  | multiply hf hg h =>
    exact Outcome.of_eq_ok (hG.multiply (hown _ List.mem_cons_self hf)
      (hown _ (List.mem_cons_of_mem _ List.mem_cons_self) hg)) h
  | power howns h => exact Outcome.of_eq_ok (hG.power _ _ (hown _ List.mem_cons_self howns)) h
  | productOfPowers hlength hne howns h =>
    refine Outcome.of_eq_ok (hG.productOfPowers hlength hne fun f hf => ?_) h
    exact hown f (List.mem_map_of_mem hf) (howns f hf)
  | encode h => exact hG.encode _ e h

/-- An element that a call hands out has the property if the operands that the group owns do. -/
theorem outcome {isPrime : PrimalityTest} {S : CachedGroup} (hS : S.IsSound) (hgroup : S.group = G)
    {c : Call} (hchecked : checked = true → c.isChecked = true)
    (hown : ∀ f, .element f ∈ c.operands → G.ownsElement f = true → good f) {source : σ}
    {e : Element} (he : (S.call isPrime c source).outcome = .ok (.element e)) : good e := by
  subst hgroup
  rcases S.outcome_cases isPrime he with
    ⟨q, rfl, hanswer⟩ | ⟨next, rfl, hdrawn⟩ | ⟨f, k, rfl, howns, hpower⟩
  · exact hG.answer hchecked hown hanswer
  · exact hG.random source e next hdrawn
  · obtain ⟨g, after, hcached, hgood⟩ := hG.cachedPower hS rfl (hown f List.mem_cons_self howns) k
    rw [hcached] at hpower
    cases hpower
    exact hgood

/-- The property holds of all elements that are handed out in a run. -/
theorem run (hproper : G.IsProper) {isPrime : PrimalityTest} {S : CachedGroup} {made : List Element}
    (hrun : Run σ isPrime G checked S made) :
    S.IsSound ∧ S.group = G ∧ ∀ e ∈ made, good e := by
  induction hrun with
  | new => exact ⟨CachedGroup.isSound_fresh hproper, rfl, fun _ he => absurd he List.not_mem_nil⟩
  | @call S made c source _ hknown hchecked ih =>
    obtain ⟨hS, hgroup, hmade⟩ := ih
    have hown : ∀ f, .element f ∈ c.operands → G.ownsElement f = true → good f :=
      fun f hf howns => hmade f (hknown f hf howns)
    have hfrom : c.IsFrom S.group := by
      rintro f k rfl howns
      rw [hgroup] at howns ⊢
      exact hG.holds f (hown f List.mem_cons_self howns)
    refine ⟨hS.call isPrime hfrom source, (hS.group_call isPrime hfrom source).trans hgroup, ?_⟩
    intro e he
    rcases List.mem_append.mp he with hold | hnew
    · exact hmade e hold
    · exact hG.outcome hS hgroup hchecked hown (Reply.mem_elements_iff.mp hnew)
  -- the group takes no part in what is computed outside of it
  | compute _ hP ih =>
    obtain ⟨hS, hgroup, hmade⟩ := ih
    refine ⟨hS, hgroup, List.forall_mem_append.mpr ⟨hmade, List.forall_mem_singleton.mpr ?_⟩⟩
    exact hG.of_isComputed (hP.mono fun Q hQ => hmade _ hQ)

end IsInvariant

end Group

end PrimeOrder
