import SceneLang.Proofs.Token.Breaks
import SceneLang.Proofs.Token.Layout
import SceneLang.Proofs.Token.Tiling
import SceneLang.Value.Literal

/-!
# Number literals

The scanner reads a number forwards and takes the letters behind it as its unit; the value of the
literal splits them off from the end.  Both part the literal at the same place, since a decimal
number ends with a digit, which is no letter.  What is left in front of the unit is a decimal
number, so the value is never the zero that stands in for a text that is none.
-/

namespace SceneLang

/-! ## Decimal numbers -/

/-- The text of a decimal number. -/
def IsDigits (text : List Char) : Prop :=
  text ≠ [] ∧ ∀ c ∈ text, c.isDigit = true

def IsFraction (text : List Char) : Prop :=
  text = [] ∨ ∃ digits, text = '.' :: digits ∧ IsDigits digits

def IsExponent (text : List Char) : Prop :=
  text = [] ∨ ∃ mark sign digits, text = mark :: (sign ++ digits) ∧ (mark = 'e' ∨ mark = 'E') ∧
    (sign = [] ∨ sign = ['+'] ∨ sign = ['-']) ∧ IsDigits digits

/-- An optional minus sign, digits, an optional point with digits behind it, and an optional
exponent. -/
def IsDecimal (text : List Char) : Prop :=
  ∃ sign digits fraction exponent, text = sign ++ (digits ++ (fraction ++ exponent)) ∧
    (sign = [] ∨ sign = ['-']) ∧ IsDigits digits ∧ IsFraction fraction ∧ IsExponent exponent

theorem ne_of_isDigit {c d : Char} (hc : c.isDigit = true) (hd : d.isDigit = false) : c ≠ d := by
  rintro rfl
  rw [hc] at hd
  contradiction

section

variable {digits fraction exponent rest : List Char}

theorem IsDigits.takeWhile_append (h : IsDigits digits)
    (hrest : ∀ c ∈ rest.head?, c.isDigit = false) :
    (digits ++ rest).takeWhile Char.isDigit = digits := by
  rw [takeWhile_append_of_head hrest, List.takeWhile_eq_self_iff]
  exact h.2

theorem IsDigits.dropWhile_append (h : IsDigits digits)
    (hrest : ∀ c ∈ rest.head?, c.isDigit = false) :
    (digits ++ rest).dropWhile Char.isDigit = rest := by
  have hsplit := List.takeWhile_append_dropWhile (p := Char.isDigit) (l := digits ++ rest)
  rw [h.takeWhile_append hrest] at hsplit
  exact List.append_cancel_left hsplit

theorem IsExponent.head (h : IsExponent exponent) :
    ∀ c ∈ exponent.head?, c = 'e' ∨ c = 'E' := by
  obtain rfl | ⟨mark, sign, digits, rfl, hmark, -⟩ := h
  · simp
  · rintro _ ⟨⟩
    exact hmark

theorem IsExponent.head_not_digit (h : IsExponent exponent) :
    ∀ c ∈ exponent.head?, c.isDigit = false := by
  intro c hmem
  obtain rfl | rfl := h.head c hmem <;> rfl

theorem IsFraction.head_not_digit (h : IsFraction fraction) (hexponent : IsExponent exponent) :
    ∀ c ∈ (fraction ++ exponent).head?, c.isDigit = false := by
  obtain rfl | ⟨digits, rfl, -⟩ := h
  · exact hexponent.head_not_digit
  · rintro _ ⟨⟩
    rfl

theorem IsExponent.exists_value (h : IsExponent exponent) :
    ∃ value, Decimal.exponent? exponent = some value := by
  obtain rfl | ⟨mark, sign, digits, rfl, hmark, hsign, hdigits⟩ := h
  · exact ⟨0, rfl⟩
  · have hall : digits ≠ [] ∧ digits.all Char.isDigit = true :=
      ⟨hdigits.1, List.all_eq_true.mpr hdigits.2⟩
    obtain ⟨c, others, rfl⟩ := List.exists_cons_of_ne_nil hdigits.1
    have hc : c.isDigit = true := hdigits.2 c List.mem_cons_self
    have hminus : c ≠ '-' := ne_of_isDigit hc rfl
    have hplus : c ≠ '+' := ne_of_isDigit hc rfl
    obtain rfl | rfl | rfl := hsign
    · have hothers : ∀ d ∈ others, d.isDigit = true :=
        fun d hmem => hdigits.2 d (List.mem_cons_of_mem c hmem)
      simpa [Decimal.exponent?, hmark, hminus, hplus, hc] using hothers
    · simp [Decimal.exponent?, hmark, hall]
    · simp [Decimal.exponent?, hmark, hall]

theorem exists_unsigned (negative : Bool) (hdigits : IsDigits digits)
    (hfraction : IsFraction fraction) (hexponent : IsExponent exponent) :
    ∃ d, Decimal.unsigned? negative (digits ++ (fraction ++ exponent)) = some d := by
  obtain ⟨value, hvalue⟩ := hexponent.exists_value
  have hhead := hfraction.head_not_digit hexponent
  unfold Decimal.unsigned?
  rw [hdigits.takeWhile_append hhead, hdigits.dropWhile_append hhead]
  obtain rfl | ⟨places, rfl, hplaces⟩ := hfraction
  · cases exponent with
    | nil => simp [hdigits.1, Decimal.exponent?]
    | cons mark rest => obtain rfl | rfl := hexponent.head mark rfl <;> simp [hdigits.1, hvalue]
  · simp [hplaces.takeWhile_append hexponent.head_not_digit,
      hplaces.dropWhile_append hexponent.head_not_digit, hdigits.1, hvalue]

/-- Every decimal number is read. -/
theorem IsDecimal.exists_value {text : List Char} (h : IsDecimal text) :
    ∃ d, Decimal.ofText? text = some d := by
  obtain ⟨sign, digits, fraction, exponent, rfl, hsign, hdigits, hfraction, hexponent⟩ := h
  obtain rfl | rfl := hsign
  · obtain ⟨d, hd⟩ := exists_unsigned false hdigits hfraction hexponent
    obtain ⟨c, others, rfl⟩ := List.exists_cons_of_ne_nil hdigits.1
    have hc : c.isDigit = true := hdigits.2 c List.mem_cons_self
    have hminus : c ≠ '-' := ne_of_isDigit hc rfl
    have hplus : c ≠ '+' := ne_of_isDigit hc rfl
    refine ⟨d, hd ▸ ?_⟩
    simp [Decimal.ofText?, hminus, hplus]
  · change ∃ d, Decimal.unsigned? true (digits ++ (fraction ++ exponent)) = some d
    exact exists_unsigned true hdigits hfraction hexponent

/-- The last character of a decimal number is a digit. -/
theorem IsDecimal.last_digit {text : List Char} (h : IsDecimal text) :
    ∃ front c, text = front ++ [c] ∧ c.isDigit = true := by
  have hlast {digits : List Char} (hdigits : IsDigits digits) (front : List Char) :
      ∃ others c, front ++ digits = others ++ [c] ∧ c.isDigit = true := by
    refine ⟨front ++ digits.dropLast, digits.getLast hdigits.1, ?_,
      hdigits.2 _ (List.getLast_mem hdigits.1)⟩
    rw [List.append_assoc, List.dropLast_append_getLast]
  obtain ⟨sign, digits, fraction, exponent, rfl, -, hdigits, hfraction, hexponent⟩ := h
  obtain rfl | ⟨mark, esign, edigits, rfl, -, -, hedigits⟩ := hexponent
  · obtain rfl | ⟨places, rfl, hplaces⟩ := hfraction
    · simpa using hlast hdigits sign
    · simpa using hlast hplaces (sign ++ digits ++ ['.'])
  · simpa using hlast hedigits (sign ++ digits ++ fraction ++ mark :: esign)

end

/-! ## Units -/

theorem Text.isAlphabetic_of_isDigit {c : Char} (h : c.isDigit = true) :
    isAlphabetic c = false := by
  simp only [Char.isDigit, Bool.and_eq_true, decide_eq_true_eq, UInt32.le_iff_toNat_le,
    ge_iff_le] at h
  change 48 ≤ c.toNat ∧ c.toNat ≤ 57 at h
  have hletter : ¬c.isAlpha = true := by
    change ¬(decide (c.val ≥ 65 ∧ c.val ≤ 90) ||
      decide (c.val ≥ 97) && decide (c.val ≤ 122)) = true
    simp only [Bool.or_eq_true, Bool.and_eq_true, decide_eq_true_eq, UInt32.le_iff_toNat_le,
      ge_iff_le]
    change ¬((65 ≤ c.toNat ∧ c.toNat ≤ 90) ∨ (97 ≤ c.toNat ∧ c.toNat ≤ 122))
    omega
  rw [isAlphabetic, if_pos (by omega), Bool.eq_false_iff.mpr hletter]

namespace Value

theorem isUnitPart_of_isDigit {c : Char} (h : c.isDigit = true) : isUnitPart c = false := by
  have hpercent : c ≠ '%' := ne_of_isDigit h rfl
  simp [isUnitPart, Text.isAlphabetic_of_isDigit h, hpercent]

/-- The unit behind a decimal number is split off as it was put there. -/
theorem splitUnit_append {text unit : List Char} (htext : IsDecimal text)
    (hunit : ∀ c ∈ unit, isUnitPart c = true) : splitUnit (text ++ unit) = (text, unit) := by
  obtain ⟨front, c, rfl, hc⟩ := htext.last_digit
  have htake : ((front ++ [c] ++ unit).reverse.takeWhile isUnitPart).length = unit.length := by
    have hall : ∀ d ∈ unit.reverse, isUnitPart d = true := fun d hmem =>
      hunit d (List.mem_reverse.mp hmem)
    rw [List.reverse_append, List.takeWhile_append_of_pos hall, List.reverse_append,
      List.reverse_singleton, List.singleton_append,
      List.takeWhile_cons_of_neg (by simp [isUnitPart_of_isDigit hc]), List.append_nil,
      List.length_reverse]
  have hlength : (front ++ [c] ++ unit).length - unit.length = (front ++ [c]).length := by
    rw [List.length_append, Nat.add_sub_cancel]
  unfold splitUnit
  dsimp only
  rw [htake, hlength, List.take_left, List.drop_left]

/-- The value of a literal made of a decimal number and a unit. -/
theorem ofLiteral_append {text unit : List Char} (htext : IsDecimal text)
    (hunit : ∀ c ∈ unit, isUnitPart c = true) :
    ∃ d, Decimal.ofText? text = some d ∧
      ofLiteral (String.ofList (text ++ unit)) =
        .number d.toBinary64 (if unit = [] then none else some (String.ofList unit))
          (String.ofList (text ++ unit)) := by
  obtain ⟨d, hd⟩ := htext.exists_value
  refine ⟨d, hd, ?_⟩
  unfold ofLiteral
  rw [String.toList_ofList, splitUnit_append htext hunit]
  dsimp only
  rw [hd]
  simp [List.isEmpty_iff]

end Value

namespace Lexeme

/-! ## What the scanner reads -/

/-- The digits, the fraction and the exponent at the head of a text. -/
def decimalWidth (text : List Char) : Nat :=
  let digits := digitsWidth text
  let fraction := fractionWidth (text.drop digits)
  digits + fraction + exponentWidth ((text.drop digits).drop fraction)

/-- The decimal number at the head of a text. -/
def decimal (text : List Char) : List Char :=
  text.take (decimalWidth text)

/-- The unit behind the decimal number at the head of a text. -/
def unit (text : List Char) : List Char :=
  let back := text.drop (decimalWidth text)
  back.take (unitWidth back)

theorem take_numberWidth (text : List Char) :
    text.take (numberWidth text) = decimal text ++ unit text := by
  rw [decimal, unit, ← List.take_add]
  simp only [decimalWidth, numberWidth, List.drop_drop]

theorem isDigits_take {text : List Char} (h : digitsWidth text ≠ 0) :
    IsDigits (text.take (digitsWidth text)) := by
  rw [digitsWidth, take_length_takeWhile]
  exact ⟨fun hnone => h (congrArg List.length hnone), fun c => List.mem_takeWhile_imp⟩

theorem isFraction_take (text : List Char) : IsFraction (text.take (fractionWidth text)) := by
  unfold fractionWidth
  split
  next c rest =>
      split
      next hc =>
        refine .inr ⟨(c :: rest).take (digitsWidth (c :: rest)), ?_, isDigits_take ?_⟩
        · simp [digitsWidth, hc]
        · simp [digitsWidth, hc]
      next => exact .inl rfl
  next => exact .inl rfl

theorem isExponent_take (text : List Char) : IsExponent (text.take (exponentWidth text)) := by
  unfold exponentWidth
  split
  next mark c rest =>
      split
      next hmark =>
        have hmark : mark = 'e' ∨ mark = 'E' := by simpa using hmark
        split
        next hc =>
          refine .inr ⟨mark, [], (c :: rest).take (digitsWidth (c :: rest)), ?_, hmark, .inl rfl,
            isDigits_take ?_⟩
          · simp [digitsWidth, hc]
          · simp [digitsWidth, hc]
        split
        next hsign =>
          have hsign : c = '+' ∨ c = '-' := by simpa using hsign
          dsimp only
          split
          next => exact .inl rfl
          next hdigits =>
            refine .inr ⟨mark, [c], rest.take (digitsWidth rest), rfl, hmark, ?_,
              isDigits_take hdigits⟩
            obtain rfl | rfl := hsign
            · exact .inr (.inl rfl)
            · exact .inr (.inr rfl)
        next => exact .inl rfl
      next => exact .inl rfl
  next => exact .inl rfl

/-- Where a text starts with a digit, perhaps behind a sign, a decimal number is read. -/
theorem isDecimal_decimal {sign text : List Char} (hsign : sign = [] ∨ sign = ['-'])
    (hdigit : digitsWidth text ≠ 0) : IsDecimal (sign ++ decimal text) := by
  refine ⟨sign, _, _, _, ?_, hsign, isDigits_take hdigit,
    isFraction_take (text.drop (digitsWidth text)), isExponent_take ((text.drop (digitsWidth text)
      ).drop (fractionWidth (text.drop (digitsWidth text))))⟩
  rw [decimal, decimalWidth, List.take_add, List.take_add, List.drop_drop, List.append_assoc]

theorem isUnitPart_of_mem_unit {text : List Char} {c : Char} (h : c ∈ unit text) :
    Value.isUnitPart c = true := by
  rw [unit] at h
  generalize text.drop (decimalWidth text) = back at h
  unfold unitWidth at h
  split at h
  next rest =>
      obtain rfl : c = '%' := by simpa using h
      rfl
  next =>
      rw [take_length_takeWhile] at h
      simp [Value.isUnitPart, List.mem_takeWhile_imp h]

theorem wordKind_ne_number (word : List Char) : wordKind word ≠ .number := by
  unfold wordKind
  split
  · decide
  split
  · decide
  · decide

/-- What a number starts with: a digit, perhaps behind a minus sign. -/
theorem number_of_scan {afterValue : Bool} {c : Char} {rest : List Char} {lexeme : Lexeme}
    (hscan : scan afterValue c rest = some lexeme) (hkind : lexeme.kind = .number) :
    ∃ sign text, c :: rest = sign ++ text ∧ (sign = [] ∨ sign = ['-']) ∧ digitsWidth text ≠ 0 ∧
      lexeme = plain .number (sign.length + numberWidth text) := by
  unfold scan at hscan
  dsimp only at hscan
  split at hscan
  next hsign =>
    cases hscan
    obtain ⟨rfl, hdigit, -⟩ := hsign
    refine ⟨['-'], rest, rfl, .inr rfl, ?_, by rw [Nat.add_comm]; rfl⟩
    cases rest with
    | nil => contradiction
    | cons d rest =>
        have hd : d.isDigit = true := hdigit
        simp [digitsWidth, hd]
  split at hscan
  next =>
    cases hscan
    split at hkind <;> contradiction
  split at hscan
  next =>
    cases hscan
    contradiction
  split at hscan
  next hdigit =>
    cases hscan
    exact ⟨[], c :: rest, rfl, .inl rfl, by simp [digitsWidth, hdigit], by simp⟩
  split at hscan
  next =>
    cases hscan
    exact absurd hkind (wordKind_ne_number _)
  next => exact absurd (hkind ▸ by decide) (kind_of_symbol? hscan)

end Lexeme

/-! ## Tokens -/

namespace Scanner

variable {s next : Scanner} {token : Token} {source : List Char} {emitted : List Token}

/-- A number is read from a text that starts with a digit, perhaps behind a minus sign. -/
theorem Emits.number (hrun : Emits (ofText source) emitted s) (hstep : s.step = .emit token next)
    (hkind : token.kind = .number) :
    ∃ front sign text, source = front ++ (sign ++ text) ∧
      token.span.start = Text.byteLength front ∧ (sign = [] ∨ sign = ['-']) ∧
      Lexeme.digitsWidth text ≠ 0 ∧
      token.text = String.ofList (sign ++ Lexeme.decimal text ++ Lexeme.unit text) := by
  obtain ⟨front, rest, hsource, hcursor⟩ := hrun.in
  have hmoves := hstep ▸ moves_step s
  cases hmoves with
  | owed howed =>
      obtain hlayout | hlayout :=
        hrun.layered.owed _ (by rw [howed]; exact List.mem_cons_self) <;>
        exact absurd (hkind.symm.trans hlayout) (by decide)
  | endLine | endLevel | breakLine => contradiction
  | lexeme _ hrest _ hscan =>
      obtain ⟨sign, text, hsplit, hsign, hdigits, rfl⟩ := Lexeme.number_of_scan hscan hkind
      rw [hcursor, Cursor.rest_behind, hsplit] at hrest
      refine ⟨front, sign, text, hrest ▸ hsource, by rw [hcursor]; rfl, hsign, hdigits, ?_⟩
      change String.ofList (s.cursor.rest.take (sign.length + Lexeme.numberWidth text)) = _
      rw [hcursor, Cursor.rest_behind, hrest, List.take_length_add_append,
        Lexeme.take_numberWidth, List.append_assoc]

end Scanner

/-- The literal of every number in a text is made of a decimal number, whose value it has, and of
the unit that was found behind the number in the text, which is the unit of its value. -/
theorem tokenize_numbers (source : List Char) (token : Token) (hmem : token ∈ tokenize source)
    (hkind : token.kind = .number) :
    ∃ front sign text, source = front ++ (sign ++ text) ∧
      token.span.start = Text.byteLength front ∧
      token.text = String.ofList (sign ++ Lexeme.decimal text ++ Lexeme.unit text) ∧
      IsDecimal (sign ++ Lexeme.decimal text) ∧
      ∃ d, Decimal.ofText? (sign ++ Lexeme.decimal text) = some d ∧
        Value.ofLiteral token.text = .number d.toBinary64
          (if Lexeme.unit text = [] then none else some (String.ofList (Lexeme.unit text)))
          token.text := by
  obtain ⟨tokens, last, final, hrun, hfinish, htokens⟩ :=
    (Scanner.ofText source).exists_emits_finish
  have htoken : token ∈ tokens := by
    rw [tokenize, htokens] at hmem
    obtain hmem | hmem := List.mem_append.mp hmem
    · exact hmem
    · have hfinal := Scanner.kind_of_finish hfinish
      rw [List.mem_singleton.mp hmem, hfinal] at hkind
      contradiction
  obtain ⟨before, after, rfl⟩ := List.append_of_mem htoken
  obtain ⟨s, next, hfront, hemit, -⟩ := hrun.cut
  obtain ⟨front, sign, text, hsource, hstart, hsign, hdigits, htext⟩ := hfront.number hemit hkind
  have hdecimal := Lexeme.isDecimal_decimal hsign hdigits
  obtain ⟨d, hd, hvalue⟩ :=
    Value.ofLiteral_append hdecimal fun _ hmem => Lexeme.isUnitPart_of_mem_unit hmem
  exact ⟨front, sign, text, hsource, hstart, htext, hdecimal, d, hd, htext ▸ hvalue⟩

/-- The token of a negative number with an exponent and a unit. -/
def negativeNumber : Token := ⟨.number, "-1.5e2px", ⟨3, 11⟩, ⟨1, 4⟩⟩

theorem tokenize_numbers_negative :
    negativeNumber ∈ tokenize "x: -1.5e2px e".toList ∧ negativeNumber.kind = .number ∧
      ∃ front sign text, "x: -1.5e2px e".toList = front ++ (sign ++ text) ∧
        negativeNumber.span.start = Text.byteLength front ∧
        negativeNumber.text = String.ofList (sign ++ Lexeme.decimal text ++ Lexeme.unit text) ∧
        IsDecimal (sign ++ Lexeme.decimal text) ∧
        ∃ d, Decimal.ofText? (sign ++ Lexeme.decimal text) = some d ∧
          Value.ofLiteral negativeNumber.text = .number d.toBinary64
            (if Lexeme.unit text = [] then none else some (String.ofList (Lexeme.unit text)))
            negativeNumber.text := by
  have hmem : negativeNumber ∈ tokenize "x: -1.5e2px e".toList := by decide +kernel
  exact ⟨hmem, rfl, tokenize_numbers _ _ hmem rfl⟩

end SceneLang
