import Mathlib
import PrimeOrder.Group.Query
import PrimeOrder.Proofs.Engine.Correspondence
import PrimeOrder.Proofs.Group.Range

namespace PrimeOrder

/-- Whether a value can be asked of both engines: it is no numeral, and if it stands for an integer
    this is not negative and short enough to be written in a refusal. -/
def Value.IsAskable (v : Value) : Prop :=
  v.isNumeral = false ∧ ∀ n, v.integer? = some n → 0 ≤ n ∧ Text.Numeral.isLong n = false

namespace Engine

variable {i j : ℕ} {record : ResidueRecord} {v w : Value} {p q : ℕ}

section Operations

/-- Both engines multiply the units that the factors stand for. -/
theorem multiply_agree (hsafe : record.params.IsSafe p q) {v' w' : Value}
    (h : Matches i j record v w) (h' : Matches i j record v' w') :
    Outcome.Agree (Own i j record) ((Group.residues (signedGroup i record)).multiply v v')
      ((Group.residues (naturalGroup j record)).multiply w w') := by
  have : Fact p.Prime := ⟨hsafe.prime⟩
  refine h.check_agree.bind fun e f hef => h'.check_agree.bind fun e' f' hef' => ?_
  obtain ⟨a, rfl, rfl⟩ := hef.exists_unit hsafe.modulus_eq
  obtain ⟨b, rfl, rfl⟩ := hef'.exists_unit hsafe.modulus_eq
  have hsigned := (ResidueGroup.computes (G := signedGroup i record) hsafe).multiply_eq a b
  have hnatural := (ResidueGroup.computes (G := naturalGroup j record) hsafe).multiply_eq a b
  simp only [Group.multiply, ResidueGroup.ofZMod, ResidueGroup.check_residue, Outcome.ok_bind]
    at hsigned hnatural
  simp only [ResidueGroup.ofZMod, hsigned, hnatural]
  exact Own.ofZMod hsafe.modulus_eq (a * b)

/-- Both algorithms for the inverse find that of the unit. -/
theorem inverse_agree (hsafe : record.params.IsSafe p q) (h : Matches i j record v w) :
    Outcome.Agree (Own i j record) ((Group.residues (signedGroup i record)).inverse v)
      ((Group.residues (naturalGroup j record)).inverse w) := by
  have : Fact p.Prime := ⟨hsafe.prime⟩
  refine h.check_agree.bind fun e f hef => ?_
  obtain ⟨a, rfl, rfl⟩ := hef.exists_unit hsafe.modulus_eq
  have hsigned := (ResidueGroup.computes (G := signedGroup i record) hsafe).inverse_eq a
  have hnatural := (ResidueGroup.computes (G := naturalGroup j record) hsafe).inverse_eq a
  simp only [Group.inverse, ResidueGroup.ofZMod, ResidueGroup.check_residue, Outcome.ok_bind]
    at hsigned hnatural
  simp only [ResidueGroup.ofZMod, hsigned, hnatural]
  exact Own.ofZMod hsafe.modulus_eq a⁻¹

/-- Squaring from the left and from the right gives the same power of the unit. -/
theorem power_agree (hsafe : record.params.IsSafe p q) (h : Matches i j record v w) (k : ℤ) :
    Outcome.Agree (Own i j record) ((Group.residues (signedGroup i record)).power v k)
      ((Group.residues (naturalGroup j record)).power w k) := by
  have : Fact p.Prime := ⟨hsafe.prime⟩
  refine h.check_agree.bind fun e f hef => ?_
  obtain ⟨a, rfl, rfl⟩ := hef.exists_unit hsafe.modulus_eq
  have hsigned := (ResidueGroup.computes (G := signedGroup i record) hsafe).power_eq a k
  have hnatural := (ResidueGroup.computes (G := naturalGroup j record) hsafe).power_eq a k
  simp only [Group.power, ResidueGroup.ofZMod, ResidueGroup.check_residue, Outcome.ok_bind]
    at hsigned hnatural
  simp only [ResidueGroup.ofZMod, hsigned, hnatural]
  exact Own.ofZMod hsafe.modulus_eq _

/-- The bytes of the two engines differ for zero alone, which neither engine decodes. -/
theorem decode_agree (h : Matches i j record v w) :
    Outcome.Agree Eq ((Group.residues (signedGroup i record)).decode v)
      ((Group.residues (naturalGroup j record)).decode w) := by
  refine h.check_agree.bind fun e f hef => ?_
  obtain ⟨n, -, rfl, rfl⟩ := hef
  simp only [ResidueGroup.decode_eq]
  exact Outcome.Agree.of_eq _

theorem image_agree (hsafe : record.params.IsSafe p q) (h : Matches i j record v w) :
    Outcome.Agree Eq ((Group.residues (signedGroup i record)).image v)
      ((Group.residues (naturalGroup j record)).image w) := by
  have hmodulus : record.params.modulus ≠ 0 := by
    have := hsafe.modulus_eq
    have := hsafe.seven_le
    omega
  refine h.check_agree.bind fun e f hef => ?_
  obtain ⟨n, -, rfl, rfl⟩ := hef
  simp only [ResidueGroup.image_eq (signedGroup i record) hmodulus,
    ResidueGroup.image_eq (naturalGroup j record) hmodulus]
  exact Outcome.Agree.of_eq _

theorem owns_eq (h : Matches i j record v w) :
    (Group.residues (signedGroup i record)).owns v =
      (Group.residues (naturalGroup j record)).owns w := by
  cases h with
  | element hef =>
    rcases hef.owns_cases with ⟨n, -, rfl, rfl⟩ | ⟨he, hf, -⟩
    · simp [Group.owns, Group.ownsElement, ResidueGroup.owns]
    · rw [Group.owns, Group.owns, he, hf]
  | plain hv => cases v <;> first | rfl | cases hv

theorem isMember_eq (h : Matches i j record v w) :
    (Group.residues (signedGroup i record)).isMember v =
      (Group.residues (naturalGroup j record)).isMember w := by
  cases h with
  | element hef =>
    rcases hef.owns_cases with ⟨n, -, rfl, rfl⟩ | ⟨he, hf, -⟩
    · simp [Group.isMember, ResidueGroup.owns, ResidueGroup.inSubgroup_eq]
    · have hmembers := And.intro (Group.isMember_eq_false (v := .element _) he)
        (Group.isMember_eq_false (v := .element _) hf)
      rw [hmembers.1, hmembers.2]
  | plain hv => cases v <;> first | rfl | cases hv

theorem checkAll_agree {vs ws : List Value} (h : vs.Forall₂ (Matches i j record) ws) :
    Outcome.Agree (List.Forall₂ (Own i j record)) ((Group.residues (signedGroup i record)).checkAll vs)
      ((Group.residues (naturalGroup j record)).checkAll ws) := by
  induction h with
  | nil => exact List.Forall₂.nil
  | cons hhead _ ih =>
    exact hhead.check_agree.bind fun e f hef => ih.bind fun es fs hrest => .cons hef hrest

theorem Own.raises {e f : Element} (h : Own i j record e f) :
    (Group.residues (signedGroup i record)).Raises e ∧
      (Group.residues (naturalGroup j record)).Raises f := by
  obtain ⟨n, -, rfl, rfl⟩ := h
  exact ⟨rfl, rfl⟩

theorem map_toZMod_eq {p : ℕ} {es fs : List Element} (h : es.Forall₂ (Own i j record) fs) :
    fs.map (ResidueGroup.toZMod p) = es.map (ResidueGroup.toZMod p) := by
  induction h with
  | nil => rfl
  | cons hhead _ ih =>
    obtain ⟨n, -, rfl, rfl⟩ := hhead
    rw [List.map_cons, List.map_cons, ih]
    rfl

/-- Elements that the groups made stand for classes other than zero, and so do their products. -/
theorem prod_powers_ne_zero [Fact p.Prime] (hmodulus : record.params.modulus = p)
    {es fs : List Element} (h : es.Forall₂ (Own i j record) fs) (ks : List ℕ) :
    (((es.map (ResidueGroup.toZMod p)).zip ks).map fun term => term.1 ^ term.2).prod ≠ 0 := by
  have hne : ∀ a ∈ es.map (ResidueGroup.toZMod p), a ≠ 0 := by
    induction h with
    | nil => exact fun _ h => absurd h List.not_mem_nil
    | cons hhead _ ih =>
      obtain ⟨n, ⟨hpos, hlt⟩, rfl, rfl⟩ := hhead
      exact List.forall_mem_cons.mpr ⟨ResidueGroup.intCast_ne_zero hpos (hmodulus ▸ hlt), ih⟩
  rw [ne_eq, List.prod_eq_zero_iff, List.mem_map]
  rintro ⟨term, hterm, hzero⟩
  exact pow_ne_zero _ (hne term.1 (List.of_mem_zip hterm).1) hzero

/-- The product of powers of elements is that of the classes they belong to. -/
theorem map_zip_toZMod {p : ℕ} (es : List Element) (ks : List ℕ) :
    ((es.zip ks).map fun term => ResidueGroup.toZMod p term.1 ^ term.2) =
      ((es.map (ResidueGroup.toZMod p)).zip ks).map fun term => term.1 ^ term.2 := by
  rw [List.zip_map_left, List.map_map]
  rfl

/-- The elements of two lists beside exponents were made by the groups. -/
theorem raises_of_forall₂ {es fs : List Element} (h : es.Forall₂ (Own i j record) fs) :
    (∀ e ∈ es, (Group.residues (signedGroup i record)).Raises e) ∧
      ∀ f ∈ fs, (Group.residues (naturalGroup j record)).Raises f := by
  induction h with
  | nil => exact ⟨fun _ h => absurd h List.not_mem_nil, fun _ h => absurd h List.not_mem_nil⟩
  | cons hhead _ ih =>
    exact ⟨List.forall_mem_cons.mpr ⟨hhead.raises.1, ih.1⟩,
      List.forall_mem_cons.mpr ⟨hhead.raises.2, ih.2⟩⟩

/-- Elements that the groups made in normal form for one class are those for one residue. -/
theorem own_of_gives [Fact p.Prime] (hmodulus : record.params.modulus = p)
    {x y : Except Error Element} {a : ZMod p} (ha : a ≠ 0)
    (hx : Window.Law.Gives (fun e => ∃ a : ZMod p, e = (signedGroup i record).ofZMod a)
      (ResidueGroup.toZMod p) x a)
    (hy : Window.Law.Gives (fun e => ∃ a : ZMod p, e = (naturalGroup j record).ofZMod a)
      (ResidueGroup.toZMod p) y a) :
    Outcome.Agree (Own i j record) x y := by
  obtain ⟨_, rfl, ⟨b, rfl⟩, hb⟩ := hx
  obtain ⟨_, rfl, ⟨c, rfl⟩, hc⟩ := hy
  rw [ResidueGroup.toZMod_ofZMod] at hb hc
  rw [hb, hc]
  exact Own.ofZMod hmodulus (Units.mk0 a ha)

/-- The products agree because each is the product of the powers of the classes. -/
theorem productOfPowers_agree (hsafe : record.params.IsSafe p q) {vs ws : List Value}
    (h : vs.Forall₂ (Matches i j record) ws) (ks : List ℤ) :
    Outcome.Agree (Own i j record)
      ((Group.residues (signedGroup i record)).productOfPowers vs ks)
      ((Group.residues (naturalGroup j record)).productOfPowers ws ks) := by
  have : Fact p.Prime := ⟨hsafe.prime⟩
  have hlength := h.length_eq
  have hempty : vs.isEmpty = ws.isEmpty := by
    rw [Bool.eq_iff_iff, List.isEmpty_iff_length_eq_zero, List.isEmpty_iff_length_eq_zero, hlength]
  unfold Group.productOfPowers
  rw [hlength, hempty]
  split_ifs
  · exact rfl
  · exact rfl
  refine (checkAll_agree h).bind fun es fs hown => ?_
  obtain ⟨hes, hfs⟩ := raises_of_forall₂ hown
  have hp := hsafe.prime.one_lt
  have hsigned := ResidueGroup.exponentiates (G := signedGroup i record) hp hsafe.modulus_eq
  have hnatural := ResidueGroup.exponentiates (G := naturalGroup j record) hp hsafe.modulus_eq
  have hsignedTerms : ∀ term ∈ es.zip (ks.map fun k =>
      ((Group.residues (signedGroup i record)).reduceExponent k).toNat),
      (Group.residues (signedGroup i record)).Raises term.1 :=
    fun term hterm => hes _ (List.of_mem_zip hterm).1
  have hnaturalTerms : ∀ term ∈ fs.zip (ks.map fun k =>
      ((Group.residues (naturalGroup j record)).reduceExponent k).toNat),
      (Group.residues (naturalGroup j record)).Raises term.1 :=
    fun term hterm => hfs _ (List.of_mem_zip hterm).1
  have hx := hsigned.law.productOfPowers_gives hsignedTerms
  have hy := hnatural.law.productOfPowers_gives hnaturalTerms
  rw [map_zip_toZMod] at hx hy
  rw [map_toZMod_eq hown] at hy
  exact own_of_gives hsafe.modulus_eq (prod_powers_ne_zero hsafe.modulus_eq hown _) hx hy

/-- A short number is written in the refusals of both engines. -/
theorem report_number_eq {n : ℤ} (hshort : Text.Numeral.isLong n = false) (cause : Number → Error)
    (hnumbers : ∀ x, (cause x).numbers = [x]) (hkind : ∀ x y, (cause x).kind = (cause y).kind) :
    (cause (Engine.signed.number n)).report.1 = (cause (Engine.natural.number n)).report.1 := by
  rw [Error.report_eq_kind, Error.report_eq_kind]
  · exact hkind _ _
  · rw [hnumbers, List.forall_mem_singleton]
    exact hshort
  · rw [hnumbers, List.forall_mem_singleton]
    rfl

/-- What can be asked of both engines is one integer to both, or none to either. -/
theorem askedInteger_cases (hask : v.IsAskable) (hint : w.integer? = v.integer?)
    (hnumeral : w.isNumeral = v.isNumeral) :
    (∃ n, (0 ≤ n ∧ Text.Numeral.isLong n = false) ∧ Group.askedInteger .signed v = .ok n ∧
        Group.askedInteger .natural w = .ok n) ∨
      Group.askedInteger .signed v = .error .notNumeric ∧
        Group.askedInteger .natural w = .error (.notIntegral w.sort) := by
  obtain ⟨hplain, hbounds⟩ := hask
  rw [hplain] at hnumeral
  have hsigned : Group.askedInteger .signed v = v.numeric := by
    cases v <;> first | rfl | cases hplain
  have hnatural : Group.askedInteger .natural w =
      w.integer?.elim (.error (.notIntegral w.sort)) .ok := by
    cases w <;> first | rfl | cases hnumeral
  rw [hsigned, hnatural, hint, Value.numeric]
  cases hv : v.integer? with
  | none => exact .inr ⟨rfl, rfl⟩
  | some n => exact .inl ⟨n, hbounds n hv, rfl, rfl⟩

/-- Integers that can be asked of both engines become elements in both groups or in neither. -/
theorem generate_agree (hask : v.IsAskable) (hint : w.integer? = v.integer?)
    (hnumeral : w.isNumeral = v.isNumeral) (checked : Bool) :
    Outcome.Agree (Own i j record)
      ((Group.residues (signedGroup i record)).generate checked [v])
      ((Group.residues (naturalGroup j record)).generate checked [w]) := by
  simp only [Group.generate]
  rcases askedInteger_cases hask hint hnumeral with
    ⟨n, ⟨hnonneg, hshort⟩, hsigned, hnatural⟩ | ⟨hsigned, hnatural⟩
  · have hmodulus :
        (naturalGroup j record).params.modulus = (signedGroup i record).params.modulus := rfl
    have hmember : (naturalGroup j record).inSubgroup n = (signedGroup i record).inSubgroup n := by
      rw [ResidueGroup.inSubgroup_eq, ResidueGroup.inSubgroup_eq]
    simp only [hsigned, hnatural, Outcome.ok_bind, ResidueGroup.generate_of_nonneg _ hnonneg,
      hmodulus, hmember]
    split_ifs with hrange
    · exact report_number_eq hshort Error.outsideResidues (fun _ => rfl) fun _ _ => rfl
    · exact report_number_eq hshort Error.outsideSubgroup (fun _ => rfl) fun _ _ => rfl
    · obtain ⟨hpos, hlt⟩ := not_or.mp hrange
      exact ⟨n, ⟨not_le.mp hpos, not_le.mp hlt⟩, rfl, rfl⟩
  · rw [hsigned, hnatural]
    exact rfl

theorem generateAll_agree {vs ws : List Value} (h : vs.Forall₂ (Matches i j record) ws)
    (hask : ∀ v ∈ vs, v.IsAskable) (checked : Bool) :
    Outcome.Agree (Own i j record) ((Group.residues (signedGroup i record)).generate checked vs)
      ((Group.residues (naturalGroup j record)).generate checked ws) := by
  cases h with
  | nil => exact (rfl : Error.notOneValue.report.1 = _)
  | cons hhead htail =>
    cases htail with
    | nil =>
      exact generate_agree (hask _ List.mem_cons_self) hhead.integer?_eq hhead.isNumeral_eq checked
    | cons _ _ => exact (rfl : Error.notOneValue.report.1 = _)

theorem reconstruct_agree (h : Matches i j record v w)
    (hask : ∀ x, v = .residueData x → x.IsAskable)
    (hshort : ∀ f, w = .element f → Value.isLongElement f = false) (checked : Bool) :
    Outcome.Agree (Own i j record) ((Group.residues (signedGroup i record)).reconstruct checked v)
      ((Group.residues (naturalGroup j record)).reconstruct checked w) := by
  have hrefused :=
    h.report_showing_eq hshort Error.notResidueData Error.notResidueData fun _ _ => rfl
  cases h with
  | element hef => exact hrefused
  | plain hv =>
    cases v with
    | element e => cases hv
    | residueData x => exact generate_agree (hask x rfl) rfl rfl checked
    | _ => exact hrefused

/-- The Legendre and the Jacobi symbol choose the same of two numbers that are in range. -/
theorem encode_agree (hsafe : record.params.IsSafe p q) (data : Octets) :
    Outcome.Agree (Own i j record) ((Group.residues (signedGroup i record)).encode data)
      ((Group.residues (naturalGroup j record)).encode data) := by
  have hmodulus : record.params.modulus = 2 * record.params.order + 1 := by
    have := hsafe.safe
    have := hsafe.modulus_eq
    have := hsafe.order_eq
    omega
  have horder : 0 < record.params.order := by
    rw [hsafe.order_eq]
    exact_mod_cast hsafe.order_prime.pos
  have hrange : ∀ x, (signedGroup i record).encode data = .ok x →
      (Group.residues (signedGroup i record)).InRange (.residue x) :=
    fun x => ResidueGroup.inRange_of_encode hmodulus horder
  have hpos : 0 < record.params.modulus := by omega
  have hodd : record.params.modulus % 2 = 1 := by omega
  simp only [Group.encode]
  rw [ResidueGroup.encode_eq (signedGroup i record) hpos hodd] at hrange ⊢
  rw [ResidueGroup.encode_eq (naturalGroup j record) hpos hodd]
  cases hencode : SignedResidues.encode record.params data with
  | error error => exact rfl
  | ok n =>
    obtain ⟨m, hm, hbounds⟩ := Group.inRange_residue_iff.mp (hrange ⟨_, n⟩ (by rw [hencode]; rfl))
    cases hm
    exact ⟨n, hbounds, rfl, rfl⟩

end Operations

/-- Whether a question hands no value over that a group could take for an element or a number to
    make one of. -/
def takesNoValue : Query → Bool
  | .owns _ | .check _ | .generate .. | .reconstruct .. | .isMember _ | .inverse _ | .multiply ..
  | .power .. | .productOfPowers .. | .decode _ | .image _ => false
  | _ => true

/-- Whether two questions are the same but for operands that correspond, and ask both engines for
    integers only that they can be asked for. -/
inductive QueryMatches (i j : ℕ) (record : ResidueRecord) : Query → Query → Prop where
  | plain {q : Query} (h : takesNoValue q = true) : QueryMatches i j record q q
  | owns {v w : Value} (h : Matches i j record v w) : QueryMatches i j record (.owns v) (.owns w)
  | check {v w : Value} (h : Matches i j record v w) : QueryMatches i j record (.check v) (.check w)
  | generate {vs ws : List Value} (checked : Bool) (h : vs.Forall₂ (Matches i j record) ws)
      (hask : ∀ v ∈ vs, v.IsAskable) :
      QueryMatches i j record (.generate checked vs) (.generate checked ws)
  | reconstruct {v w : Value} (checked : Bool) (h : Matches i j record v w)
      (hask : ∀ x, v = .residueData x → x.IsAskable)
      (hshort : ∀ f, w = .element f → Value.isLongElement f = false) :
      QueryMatches i j record (.reconstruct checked v) (.reconstruct checked w)
  | isMember {v w : Value} (h : Matches i j record v w) :
      QueryMatches i j record (.isMember v) (.isMember w)
  | inverse {v w : Value} (h : Matches i j record v w) :
      QueryMatches i j record (.inverse v) (.inverse w)
  | multiply {v v' w w' : Value} (h : Matches i j record v w) (h' : Matches i j record v' w') :
      QueryMatches i j record (.multiply v v') (.multiply w w')
  | power {v w : Value} (k : ℤ) (h : Matches i j record v w) :
      QueryMatches i j record (.power v k) (.power w k)
  | productOfPowers {vs ws : List Value} (ks : List ℤ) (h : vs.Forall₂ (Matches i j record) ws) :
      QueryMatches i j record (.productOfPowers vs ks) (.productOfPowers ws ks)
  | decode {v w : Value} (h : Matches i j record v w) :
      QueryMatches i j record (.decode v) (.decode w)
  | image {v w : Value} (h : Matches i j record v w) :
      QueryMatches i j record (.image v) (.image w)

theorem matches_of_own {x y : Except Error Element} (h : Outcome.Agree (Own i j record) x y) :
    Outcome.Agree (Matches i j record) (x.map .element) (y.map .element) :=
  h.map fun _ _ hown => .element (.own hown)

theorem matches_of_eq {α : Type} {x y : Except Error α} (h : Outcome.Agree Eq x y) {f : α → Value}
    (hf : ∀ a, Matches i j record (f a) (f a)) :
    Outcome.Agree (Matches i j record) (x.map f) (y.map f) :=
  h.map fun a _ hab => hab ▸ hf a

theorem matches_number (x : Number) : Matches i j record (.number x) (.number x) :=
  .plain rfl

theorem matches_octets (data : Octets) : Matches i j record (.octets data) (.octets data) :=
  .plain rfl

theorem own_of_lt (hsafe : record.params.IsSafe p q) {n : ℤ} (hpos : 0 < n) (hlt : n < p) :
    Own i j record (.residue ⟨signedGroup i record, n⟩) (.residue ⟨naturalGroup j record, n⟩) :=
  ⟨n, ⟨hpos, by rwa [hsafe.modulus_eq]⟩, rfl, rfl⟩

theorem own_generator (hsafe : record.params.IsSafe p q) :
    Own i j record (Group.residues (signedGroup i record)).generator
      (Group.residues (naturalGroup j record)).generator := by
  exact own_of_lt hsafe (one_pos.trans hsafe.one_lt_generator) hsafe.generator_lt

theorem isGenerator_eq (hsafe : record.params.IsSafe p q) :
    (Group.residues (signedGroup i record)).isGenerator =
      (Group.residues (naturalGroup j record)).isGenerator := by
  have hmember : Matches i j record (.element (Group.residues (signedGroup i record)).generator)
      (.element (Group.residues (naturalGroup j record)).generator) :=
    .element (.own (own_generator hsafe))
  rw [Group.isGenerator, Group.isGenerator, isMember_eq hmember]
  rfl

/-- What is asked of a group without operands depends on the parameters alone. -/
theorem answer_plain_agree (hsafe : record.params.IsSafe p q) {isPrime : PrimalityTest}
    {question : Query} (hplain : takesNoValue question = true) :
    Outcome.Agree (Matches i j record) (question.answer isPrime (.residues (signedGroup i record)))
      (question.answer isPrime (.residues (naturalGroup j record))) := by
  cases question with
  | generator => exact Matches.element (.own (own_generator hsafe))
  | identity =>
    have := hsafe.seven_le
    exact Matches.element (.own (own_of_lt hsafe one_pos (by omega)))
  | encode data => exact matches_of_own (encode_agree hsafe data)
  | isPrimeOrder =>
    exact matches_of_eq (x := Integer.isProbablePrime isPrime record.params.order orderRounds)
      (Outcome.Agree.of_eq _) fun b => matches_number (.truth b)
  | isGenerator =>
    rw [Query.answer, Query.answer, isGenerator_eq hsafe (j := j)]
    exact matches_number _
  | validate =>
    simp only [Query.answer, Group.validate, ResidueGroup.isValid_eq]
    exact matches_number (.truth (record.params.isValid isPrime))
  | order => exact matches_number _
  | modulus => exact matches_number _
  | kindName => exact (.plain rfl : Matches i j record (.text "Zp*") (.text "Zp*"))
  | parameters =>
    exact (.plain rfl : Matches i j record (.parameters (.residues record))
      (.parameters (.residues record)))
  | isOrderGreaterThan bound => exact matches_number _
  | reduceExponent k => exact matches_number _
  | encodingLimit =>
    simp only [Query.answer, Group.encodingLimit, ResidueGroup.encodingLimit_eq]
    exact matches_number _
  | _ => cases hplain

/-- Questions that correspond have answers that correspond. -/
theorem answer_agree (hsafe : record.params.IsSafe p q) {isPrime : PrimalityTest}
    {question question' : Query} (h : QueryMatches i j record question question') :
    Outcome.Agree (Matches i j record) (question.answer isPrime (.residues (signedGroup i record)))
      (question'.answer isPrime (.residues (naturalGroup j record))) := by
  cases h with
  | plain hplain => exact answer_plain_agree hsafe hplain
  | owns h =>
    rw [Query.answer, Query.answer, owns_eq h]
    exact matches_number _
  | check h => exact matches_of_own h.check_agree
  | generate checked h hask => exact matches_of_own (generateAll_agree h hask checked)
  | reconstruct checked h hask hshort =>
    exact matches_of_own (reconstruct_agree h hask hshort checked)
  | isMember h =>
    rw [Query.answer, Query.answer, isMember_eq h]
    exact matches_number _
  | inverse h => exact matches_of_own (inverse_agree hsafe h)
  | multiply h h' => exact matches_of_own (multiply_agree hsafe h h')
  | power k h => exact matches_of_own (power_agree hsafe h k)
  | productOfPowers ks h => exact matches_of_own (productOfPowers_agree hsafe h ks)
  | decode h => exact matches_of_eq (decode_agree h) matches_octets
  | image h => exact matches_of_eq (image_agree hsafe h) matches_octets

end Engine

end PrimeOrder
