import Mathlib
import PrimeOrder.Number.Encoding
import PrimeOrder.Proofs.Text.Blank
import PrimeOrder.Proofs.Text.Numeral

namespace PrimeOrder.Text.Decimal

/-- Whether a text is a row of digits with single underscores between some neighbours. -/
inductive Separated : List Char → List Char → Prop
  | last (c : Char) : Separated [c] [c]
  | next (c : Char) {digits text : List Char} (h : Separated digits text) :
    Separated (c :: digits) (c :: text)
  | underscore (c : Char) {digits text : List Char} (h : Separated digits text) :
    Separated (c :: digits) (c :: '_' :: text)

/-- Whether a text is an integer with zeros in front of its digits, underscores between them and blanks
    around it. -/
inductive Spells (n : ℤ) (zeros : ℕ) : List Char → Prop
  | intro {before digits after : List Char} (hbefore : ∀ c ∈ before, isBlank c = true)
    (hdigits : Separated (List.replicate zeros '0' ++ Nat.toDigits 10 n.natAbs) digits)
    (hafter : ∀ c ∈ after, isBlank c = true) :
    Spells n zeros (before ++ ((if n < 0 then ['-'] else []) ++ digits) ++ after)

theorem digitValue?_digitChar {d : ℕ} (hd : d < 10) : digitValue? d.digitChar = some d := by
  revert d
  decide +kernel

theorem Separated.ne_nil {digits text : List Char} (h : Separated digits text) : text ≠ [] := by
  cases h <;> exact List.cons_ne_nil _ _

theorem Separated.head?_eq {digits text : List Char} (h : Separated digits text) :
    text.head? = digits.head? := by
  cases h <;> rfl

theorem Separated.head?_ne {row : List ℕ} {text : List Char} (h : Separated (row.map Nat.digitChar) text)
    {c : Char} (hc : ∀ d : ℕ, d.digitChar ≠ c) : text.head? ≠ some c := by
  rw [h.head?_eq, List.head?_map, Ne, Option.map_eq_some_iff]
  rintro ⟨d, -, hd⟩
  exact hc d hd

theorem Separated.eq_or_mem {digits text : List Char} (h : Separated digits text) {c : Char}
    (hc : c ∈ text) : c = '_' ∨ c ∈ digits := by
  induction h with
  | last _ => exact .inr hc
  | next _ _ ih =>
    rcases List.mem_cons.mp hc with rfl | hc
    · exact .inr List.mem_cons_self
    · exact (ih hc).imp id (List.mem_cons_of_mem _)
  | underscore _ _ ih =>
    rcases List.mem_cons.mp hc with rfl | hc
    · exact .inr List.mem_cons_self
    · rcases List.mem_cons.mp hc with rfl | hc
      · exact .inl rfl
      · exact (ih hc).imp id (List.mem_cons_of_mem _)

theorem Separated.refl {text : List Char} (hne : text ≠ []) : Separated text text := by
  induction text with
  | nil => exact absurd rfl hne
  | cons c text ih =>
    by_cases hnil : text = []
    · subst hnil
      exact .last c
    · exact .next c (ih hnil)

theorem digits?_cons {c : Char} {text : List Char} (hne : text ≠ []) (hhead : text.head? ≠ some '_') :
    digits? (c :: text) = (do
      let digit ← digitValue? c
      let digits ← digits? text
      pure (digit :: digits)) := by
  rw [digits?]
  case x_1 => exact hne
  case x_2 =>
    rintro rest rfl
    exact hhead rfl

/-- The digits of a separated row are read, whatever underscores are between them. -/
theorem Separated.digits?_eq {row : List ℕ} {text : List Char}
    (h : Separated (row.map Nat.digitChar) text) (hrow : ∀ d ∈ row, d < 10) :
    digits? text = some row := by
  generalize hdigits : row.map Nat.digitChar = digits at h
  induction h generalizing row with
  | last c =>
    obtain ⟨d, rfl, rfl⟩ := List.map_eq_singleton_iff.mp hdigits
    rw [digits?, digitValue?_digitChar (hrow d List.mem_cons_self)]
    rfl
  | next c h ih =>
    obtain ⟨d, rest, rfl, rfl, hrest⟩ := List.map_eq_cons_iff.mp hdigits
    subst hrest
    rw [digits?_cons h.ne_nil (h.head?_ne fun _ => Nat.digitChar_ne '_' rfl),
      digitValue?_digitChar (hrow d List.mem_cons_self),
      ih (fun c hc => hrow c (List.mem_cons_of_mem _ hc)) rfl]
    rfl
  | underscore c h ih =>
    obtain ⟨d, rest, rfl, rfl, hrest⟩ := List.map_eq_cons_iff.mp hdigits
    rw [digits?, digitValue?_digitChar (hrow d List.mem_cons_self),
      ih (fun c hc => hrow c (List.mem_cons_of_mem _ hc)) hrest]
    rfl

/-- A row is within the limit or not read, and its digits alone count. -/
theorem Separated.magnitude?_eq {row : List ℕ} {text : List Char}
    (h : Separated (row.map Nat.digitChar) text) (hrow : ∀ d ∈ row, d < 10) :
    magnitude? text =
      if row.length ≤ Numeral.digitLimit then some (Numeral.value 10 row) else none := by
  rw [magnitude?, h.digits?_eq hrow, Option.bind_some]

theorem integer?_of_head {text : List Char} (hminus : text.head? ≠ some '-')
    (hplus : text.head? ≠ some '+') : integer? text = (magnitude? text).map (Numeral.signed false) := by
  unfold integer?
  split
  case h_1 => exact absurd rfl hminus
  case h_2 => exact absurd rfl hplus
  case h_3 => rfl

/-- The digits of a number with zeros in front of them are a row of its value. -/
theorem exists_row (n zeros : ℕ) :
    ∃ row, List.replicate zeros '0' ++ Nat.toDigits 10 n = row.map Nat.digitChar ∧
      (∀ d ∈ row, d < 10) ∧ Numeral.value 10 row = n ∧
      row.length = zeros + (Nat.toDigits 10 n).length := by
  obtain ⟨digits, hreduced, hvalue, hdigits⟩ := Numeral.exists_toDigits_eq_map (show 1 < 10 by norm_num) n
  refine ⟨List.replicate zeros 0 ++ digits, ?_, ?_, ?_, ?_⟩
  · rw [hdigits, List.map_append, List.map_replicate]
    rfl
  · intro d hd
    rcases List.mem_append.mp hd with hd | hd
    · rw [List.eq_of_mem_replicate hd]
      norm_num
    · exact hreduced.lt_base d hd
  · rw [Numeral.value_replicate_append, hvalue]
  · rw [hdigits, List.length_append, List.length_replicate, List.length_map]

/-- A sign is read apart from the digits after it. -/
theorem integer?_sign_append {digits : List Char} (hminus : digits.head? ≠ some '-')
    (hplus : digits.head? ≠ some '+') (n : ℤ) :
    integer? ((if n < 0 then ['-'] else []) ++ digits) =
      (magnitude? digits).map (Numeral.signed (decide (n < 0))) := by
  by_cases hneg : n < 0
  · rw [if_pos hneg, decide_eq_true hneg]
    rfl
  · rw [if_neg hneg, decide_eq_false hneg]
    exact integer?_of_head hminus hplus

theorem integer?_of_separated {n : ℤ} {zeros : ℕ} {digits : List Char}
    (h : Separated (List.replicate zeros '0' ++ Nat.toDigits 10 n.natAbs) digits) :
    integer? ((if n < 0 then ['-'] else []) ++ digits) =
      if zeros + (Nat.toDigits 10 n.natAbs).length ≤ Numeral.digitLimit then some n else none := by
  obtain ⟨row, hdigits, hrow, hvalue, hlength⟩ := exists_row n.natAbs zeros
  rw [hdigits] at h
  rw [integer?_sign_append (h.head?_ne fun _ => Nat.digitChar_ne '-' rfl)
    (h.head?_ne fun _ => Nat.digitChar_ne '+' rfl), h.magnitude?_eq hrow, hvalue, hlength]
  split_ifs
  · rw [Option.map_some, Numeral.signed_natAbs]
  · rfl

theorem isBlank_of_separated {n zeros : ℕ} {digits : List Char}
    (h : Separated (List.replicate zeros '0' ++ Nat.toDigits 10 n) digits) {c : Char} (hc : c ∈ digits) :
    isBlank c = false := by
  obtain ⟨row, hdigits, hrow, -⟩ := exists_row n zeros
  rw [hdigits] at h
  rcases h.eq_or_mem hc with rfl | hc
  · rfl
  · obtain ⟨d, hd, rfl⟩ := List.mem_map.mp hc
    exact isBlank_digitChar ((hrow d hd).trans (by norm_num))

/-- A text of an integer is read exactly if its digits are within the limit. -/
theorem read_of_spells {n : ℤ} {zeros : ℕ} {text : String} (h : Spells n zeros text.toList) :
    read text =
      if zeros + (Nat.toDigits 10 n.natAbs).length ≤ Numeral.digitLimit then .ok n
      else .error (.notDecimal (Quoted.ofString text)) := by
  generalize hlist : text.toList = list at h
  obtain ⟨hbefore, hdigits, hafter⟩ := h
  rw [read, hlist, trim_append hbefore ?nonblank ?nonempty hafter, integer?_of_separated hdigits]
  case nonblank =>
    intro c hc
    rcases List.mem_append.mp hc with hsign | hdigit
    · split_ifs at hsign
      · rw [List.mem_singleton.mp hsign]
        rfl
      · cases hsign
    · exact isBlank_of_separated hdigits hdigit
  case nonempty => exact List.append_ne_nil_of_right_ne_nil _ hdigits.ne_nil
  split_ifs <;> rfl

/-- The shortest numeral is a text of its integer, with nothing added. -/
theorem spells_of_isCanonical {n : ℤ} {text : List Char} (h : Numeral.IsCanonical 10 n text) :
    Spells n 0 text := by
  obtain rfl := (Numeral.isCanonical_iff (show 1 < 10 by norm_num)).mp h
  have hspells : Spells n 0 ([] ++ ((if n < 0 then ['-'] else []) ++ Nat.toDigits 10 n.natAbs) ++ []) :=
    .intro (by simp) (.refl (by simp)) (by simp)
  rw [Numeral.write]
  split_ifs at hspells ⊢ <;> simpa using hspells

theorem exists_decimal_eq_ok {n : ℤ} (hshort : (Nat.toDigits 10 n.natAbs).length ≤ Numeral.digitLimit) :
    ∃ text, Number.decimal n = .ok text ∧ Numeral.IsCanonical 10 n text.toList := by
  have hlong : ¬Numeral.isLong n = true := by
    rw [Numeral.isLong, decide_eq_true_eq]
    omega
  refine ⟨_, if_neg hlong, ?_⟩
  rw [String.toList_ofList, Numeral.isCanonical_iff (by norm_num)]

theorem exists_decimal_eq_error {n : ℤ} (hlong : Numeral.digitLimit < (Nat.toDigits 10 n.natAbs).length) :
    ∃ e, Number.decimal n = .error e ∧ e.report.1 = .value :=
  ⟨_, if_pos (decide_eq_true hlong), rfl⟩

/-- An integer within the limit is written as its shortest numeral and read back, also with blanks around
    it, zeros in front of its digits and underscores between them, as long as the zeros are within the
    limit as well. Beyond the limit neither is it written nor any text of it read. -/
theorem reads_back_within_limit (n : ℤ) :
    ((Nat.toDigits 10 n.natAbs).length ≤ Numeral.digitLimit →
      ∃ text, Number.decimal n = .ok text ∧ Numeral.IsCanonical 10 n text.toList ∧
        read text = .ok n) ∧
    (Numeral.digitLimit < (Nat.toDigits 10 n.natAbs).length →
      (∃ e, Number.decimal n = .error e ∧ e.report.1 = .value) ∧
      ∀ text : String, Numeral.IsCanonical 10 n text.toList →
        ∃ e, read text = .error e ∧ e.report.1 = .invalidArgument) ∧
    ∀ zeros (text : String), Spells n zeros text.toList →
      (zeros + (Nat.toDigits 10 n.natAbs).length ≤ Numeral.digitLimit → read text = .ok n) ∧
      (Numeral.digitLimit < zeros + (Nat.toDigits 10 n.natAbs).length → ∃ e, read text = .error e ∧
        e.report = (.invalidArgument, "not a decimal string: " ++ Quoted.ofString text)) := by
  refine ⟨fun hshort => ?_, fun hlong => ⟨exists_decimal_eq_error hlong, fun text htext => ?_⟩,
    fun zeros text htext => ⟨fun hshort => ?_, fun hlong => ?_⟩⟩
  · obtain ⟨text, hwrite, hcanonical⟩ := exists_decimal_eq_ok hshort
    refine ⟨text, hwrite, hcanonical, ?_⟩
    rw [read_of_spells (spells_of_isCanonical hcanonical), if_pos (by omega)]
  · rw [read_of_spells (spells_of_isCanonical htext), if_neg (by omega)]
    exact ⟨_, rfl, rfl⟩
  · rw [read_of_spells htext, if_pos hshort]
  · rw [read_of_spells htext, if_neg (by omega)]
    exact ⟨_, rfl, rfl⟩

/-- Minus 1024 in its shortest text and in one with all that may be added, and a power of ten beyond the
    limit. -/
theorem reads_back_within_limit_minus1024 :
    (Number.decimal (-1024 : ℤ) = .ok "-1024" ∧ Numeral.IsCanonical 10 (-1024) "-1024".toList ∧
      read "-1024" = .ok (-1024)) ∧
    (Spells (-1024) 2 " -0_01_024\n".toList ∧ read " -0_01_024\n" = .ok (-1024)) ∧
    (Numeral.digitLimit < (Nat.toDigits 10 (10 ^ 4300 : ℤ).natAbs).length ∧
      (∃ e, Number.decimal (10 ^ 4300 : ℤ) = .error e ∧ e.report.1 = .value) ∧
      ∀ text : String, Numeral.IsCanonical 10 (10 ^ 4300) text.toList →
        ∃ e, read text = .error e ∧ e.report.1 = .invalidArgument) := by
  obtain ⟨hwithin, -, hspelled⟩ := reads_back_within_limit (-1024)
  have hspells : Spells (-1024) 2 " -0_01_024\n".toList :=
    @Spells.intro _ _ [' '] "0_01_024".toList ['\n'] (by simp [isBlank])
      (.underscore '0' (.next '0' (.underscore '1' (.next '0' (.next '2' (.last '4')))))) (by simp [isBlank])
  have hlong : Numeral.digitLimit < (Nat.toDigits 10 (10 ^ 4300 : ℤ).natAbs).length :=
    of_decide_eq_true Numeral.isLong_ten_pow
  have hwrite : Number.decimal (-1024 : ℤ) = .ok "-1024" := rfl
  refine ⟨?_, ⟨hspells, (hspelled 2 _ hspells).1 (by decide)⟩, hlong, ?_⟩
  · obtain ⟨text, htext, hcanonical, hread⟩ := hwithin (by decide)
    cases hwrite.symm.trans htext
    exact ⟨hwrite, hcanonical, hread⟩
  · -- the power is not to be computed
    generalize (10 ^ 4300 : ℤ) = n at hlong ⊢
    exact (reads_back_within_limit n).2.1 hlong

end PrimeOrder.Text.Decimal
