import SceneLang.Proofs.Token.Steps
import Mathlib.Data.List.TakeWhile

/-!
# In front of a line break

How a text is cut into tokens does not depend on what stands behind it, if that starts with a
line break or there is nothing.  Only interpolations and block comments go on over a line break;
so what is said of them holds where they come to their end before.  Words, numbers and symbols
end in front of some other characters as well.
-/

namespace SceneLang

/-- What is left of a text in front of a character that fails a test. -/
theorem takeWhile_append_of_head {p : Char → Bool} {back : List Char}
    (hback : ∀ c ∈ back.head?, p c = false) (front : List Char) :
    (front ++ back).takeWhile p = front.takeWhile p := by
  have hnone : back.takeWhile p = [] := by
    cases back with
    | nil => rfl
    | cons c rest => exact List.takeWhile_cons_of_neg (by simp [hback c rfl])
  rw [List.takeWhile_append, hnone, List.append_nil]
  split
  next hall => exact (List.takeWhile_prefix p).eq_of_length hall |>.symm
  next => rfl

/-! ## Boundaries -/

/-- Characters that belong to no word, number or symbol in front of them. -/
def boundaries : List Char := ['\n', ' ', ':', ',', ']']

theorem forall_boundaries {p : Char → Prop} (h : p '\n' ∧ p ' ' ∧ p ':' ∧ p ',' ∧ p ']') :
    ∀ c ∈ boundaries, p c := by
  simpa [boundaries] using h

/-- The text starts with such a character, or it is empty. -/
def Bounds (back : List Char) : Prop :=
  ∀ c ∈ back.head?, c ∈ boundaries

theorem bounds_cons {c : Char} (hc : c ∈ boundaries) (back : List Char) : Bounds (c :: back) := by
  rintro _ ⟨⟩
  exact hc

namespace Bounds

variable {back : List Char}

theorem cases (h : Bounds back) : back = [] ∨ ∃ c rest, back = c :: rest ∧ c ∈ boundaries := by
  cases back with
  | nil => exact .inl rfl
  | cons c rest => exact .inr ⟨c, rest, rfl, h c rfl⟩

theorem takeWhile_append (h : Bounds back) {p : Char → Bool} (hp : ∀ c ∈ boundaries, p c = false)
    (front : List Char) : (front ++ back).takeWhile p = front.takeWhile p :=
  takeWhile_append_of_head (fun c hmem => hp c (h c hmem)) front

theorem head_append (h : Bounds back) {c : Char} (hc : c ∉ boundaries) (front : List Char) :
    (front ++ back).head? = some c ↔ front.head? = some c := by
  cases front with
  | cons => rfl
  | nil =>
      constructor
      · intro hhead
        exact absurd (h c hhead) hc
      · intro hhead
        cases hhead

theorem isPrefixOf_append (h : Bounds back) {spelling : List Char}
    (hspelling : ∀ c ∈ spelling, c ∉ boundaries) (front : List Char) :
    spelling.isPrefixOf (front ++ back) = spelling.isPrefixOf front := by
  induction spelling generalizing front with
  | nil => rfl
  | cons c spelling ih =>
      obtain ⟨hc, hrest⟩ := List.forall_mem_cons.mp hspelling
      cases front with
      | cons d front =>
          rw [List.cons_append, List.isPrefixOf_cons_cons, List.isPrefixOf_cons_cons, ih hrest]
      | nil =>
          obtain rfl | ⟨d, rest, rfl, hd⟩ := h.cases
          · rfl
          · have hother : (c == d) = false := beq_false_of_ne fun heq => hc (heq ▸ hd)
            rw [List.nil_append, List.isPrefixOf_cons_cons, hother]
            rfl

end Bounds

/-! ## Line breaks -/

/-- The text starts with a line break, or it is empty. -/
def Breaks (back : List Char) : Prop :=
  ∀ c ∈ back.head?, c = '\n'

theorem breaks_nil : Breaks [] := by
  simp [Breaks]

theorem breaks_cons (back : List Char) : Breaks ('\n' :: back) := by
  simp [Breaks]

namespace Breaks

variable {front back : List Char}

theorem cases (h : Breaks back) : back = [] ∨ ∃ rest, back = '\n' :: rest := by
  cases back with
  | nil => exact .inl rfl
  | cons c rest => exact .inr ⟨rest, by rw [h c rfl]⟩

theorem bounds (h : Breaks back) : Bounds back := by
  intro c hmem
  rw [h c hmem]
  exact List.mem_cons_self

theorem takeWhile_append (h : Breaks back) {p : Char → Bool} (hp : p '\n' = false)
    (front : List Char) : (front ++ back).takeWhile p = front.takeWhile p := by
  refine takeWhile_append_of_head (fun c hmem => ?_) front
  rw [h c hmem, hp]

theorem head_append (h : Breaks back) {c : Char} (hc : c ∉ boundaries) (front : List Char) :
    (front ++ back).head? = some c ↔ front.head? = some c :=
  h.bounds.head_append hc front

/-- Is it the end of a line in front of which the text stands? -/
theorem ends_append (h : Breaks back) (front : List Char) :
    (front ++ back = [] ∨ (front ++ back).head? = some '\n') ↔
      (front = [] ∨ front.head? = some '\n') := by
  cases front with
  | cons c front => simp
  | nil => obtain rfl | ⟨rest, rfl⟩ := h.cases <;> simp

end Breaks

namespace Lexeme

/-! ## What ends before a boundary -/

section

variable {back : List Char}

theorem digitsWidth_le (text : List Char) : digitsWidth text ≤ text.length :=
  (List.takeWhile_prefix _).length_le

theorem fractionWidth_le (text : List Char) : fractionWidth text ≤ text.length := by
  unfold fractionWidth
  split
  next c rest =>
      have hdigits := digitsWidth_le rest
      simp only [List.length_cons]
      split <;> omega
  next => exact Nat.zero_le _

theorem exponentWidth_le (text : List Char) : exponentWidth text ≤ text.length := by
  unfold exponentWidth
  split
  next mark c rest =>
      have hdigits := digitsWidth_le rest
      simp only [List.length_cons]
      repeat' split
      all_goals omega
  next => exact Nat.zero_le _

variable (h : Bounds back)
include h

theorem digitsWidth_append (front : List Char) :
    digitsWidth (front ++ back) = digitsWidth front :=
  congrArg List.length (h.takeWhile_append (forall_boundaries (by decide)) front)

theorem fractionWidth_append (front : List Char) :
    fractionWidth (front ++ back) = fractionWidth front := by
  obtain _ | ⟨c, _ | ⟨d, front⟩⟩ := front
  · obtain rfl | ⟨c, rest, rfl, hc⟩ := h.cases
    · rfl
    · have hpoint : c ≠ '.' := by
        rintro rfl
        exact absurd hc (by decide)
      simp [fractionWidth, hpoint]
  · obtain rfl | ⟨d, rest, rfl, hd⟩ := h.cases
    · rfl
    · have hdigit : ∀ d ∈ boundaries, d.isDigit = false := forall_boundaries (by decide)
      by_cases hpoint : c = '.'
      · subst hpoint
        simp [fractionWidth, hdigit d hd]
      · simp [fractionWidth, hpoint]
  · by_cases hpoint : c = '.'
    · subst hpoint
      simp only [List.cons_append, fractionWidth, digitsWidth_append h]
    · simp [fractionWidth, hpoint]

theorem exponentWidth_append (front : List Char) :
    exponentWidth (front ++ back) = exponentWidth front := by
  have hother : ∀ c ∈ boundaries, c ≠ 'e' ∧ c ≠ 'E' ∧ c.isDigit = false ∧ c ≠ '+' ∧ c ≠ '-' :=
    forall_boundaries (by decide)
  obtain _ | ⟨mark, _ | ⟨c, front⟩⟩ := front
  · obtain rfl | ⟨c, _ | ⟨d, rest⟩, rfl, hc⟩ := h.cases
    · rfl
    · rfl
    · simp [exponentWidth, hother c hc]
  · obtain rfl | ⟨c, rest, rfl, hc⟩ := h.cases
    · rfl
    · simp [exponentWidth, hother c hc]
  · simp only [List.cons_append, exponentWidth, digitsWidth_append h]

theorem unitWidth_append (front : List Char) : unitWidth (front ++ back) = unitWidth front := by
  have hletters := congrArg List.length
    (h.takeWhile_append (p := Text.isAlphabetic) (forall_boundaries (by decide)) front)
  have hunit {c : Char} (hpercent : c ≠ '%') (rest : List Char) :
      unitWidth (c :: rest) = ((c :: rest).takeWhile Text.isAlphabetic).length := by
    simp [unitWidth, hpercent]
  cases front with
  | nil =>
      obtain rfl | ⟨c, rest, rfl, hc⟩ := h.cases
      · rfl
      · have hpercent : c ≠ '%' := by
          rintro rfl
          exact absurd hc (by decide)
        rw [List.nil_append, hunit hpercent]
        exact hletters
  | cons c front =>
      by_cases hpercent : c = '%'
      · subst hpercent
        rfl
      · rw [List.cons_append, hunit hpercent, hunit hpercent]
        exact hletters

theorem numberWidth_append (front : List Char) :
    numberWidth (front ++ back) = numberWidth front := by
  have hdigits := digitsWidth_le front
  have hfraction := fractionWidth_le (front.drop (digitsWidth front))
  have hexponent := exponentWidth_le
    ((front.drop (digitsWidth front)).drop (fractionWidth (front.drop (digitsWidth front))))
  simp only [numberWidth, digitsWidth_append h, List.drop_append_of_le_length hdigits,
    fractionWidth_append h, List.drop_append_of_le_length hfraction, exponentWidth_append h,
    List.drop_append_of_le_length hexponent, unitWidth_append h]

theorem name_append (c : Char) (front : List Char) : name c (front ++ back) = name c front := by
  rw [name, name, h.takeWhile_append (forall_boundaries (by decide))]

theorem symbol?_append (c : Char) (front : List Char) :
    symbol? c (front ++ back) = symbol? c front := by
  have hfollows {spelling : List Char} (hspelling : spelling.all (· ∉ boundaries) = true) :
      spelling.isPrefixOf (front ++ back) = spelling.isPrefixOf front :=
    h.isPrefixOf_append (by simpa using hspelling) front
  simp only [symbol?, hfollows (by decide : ['.', '.'].all (· ∉ boundaries) = true),
    hfollows (by decide : ['=', '='].all (· ∉ boundaries) = true),
    hfollows (by decide : ['='].all (· ∉ boundaries) = true),
    hfollows (by decide : ['>'].all (· ∉ boundaries) = true),
    hfollows (by decide : ['&'].all (· ∉ boundaries) = true),
    hfollows (by decide : ['|'].all (· ∉ boundaries) = true),
    hfollows (by decide : ['?', '='].all (· ∉ boundaries) = true),
    hfollows (by decide : ['?'].all (· ∉ boundaries) = true)]

theorem isDigit_head_append (front : List Char) :
    ((front ++ back).head?.map Char.isDigit).getD false =
      (front.head?.map Char.isDigit).getD false := by
  have hdigit : ∀ c ∈ boundaries, c.isDigit = false := forall_boundaries (by decide)
  cases front with
  | cons => rfl
  | nil =>
      obtain rfl | ⟨c, rest, rfl, hc⟩ := h.cases
      · rfl
      · exact hdigit c hc

end

/-! ## What ends before a line break -/

variable {back : List Char} (h : Breaks back)
include h

theorem lineWidth_append (front : List Char) : lineWidth (front ++ back) = lineWidth front :=
  congrArg List.length (h.takeWhile_append rfl front)

theorem marksName_append (front : List Char) : marksName (front ++ back) = marksName front := by
  cases front with
  | cons => rfl
  | nil =>
      obtain rfl | ⟨rest, rfl⟩ := h.cases
      · rfl
      · exact show isNameStart '\n' = false by decide

omit h in
theorem quoted_break (quote : Char) (rest : List Char) :
    quoted quote ('\n' :: rest) = ⟨[], 0, false⟩ := by
  rw [quoted.eq_def]
  exact if_pos rfl

omit h in
theorem quoted_quote {quote : Char} (hquote : quote ≠ '\n') (rest : List Char) :
    quoted quote (quote :: rest) = ⟨[], 1, true⟩ := by
  rw [quoted.eq_def]
  dsimp only
  rw [if_neg hquote, if_pos rfl]

omit h in
theorem quoted_char {quote c : Char} (hbreak : c ≠ '\n') (hquote : c ≠ quote) (hescape : c ≠ '\\')
    (rest : List Char) :
    quoted quote (c :: rest) =
      ⟨c :: (quoted quote rest).contents, (quoted quote rest).width + 1,
        (quoted quote rest).closed⟩ := by
  rw [quoted.eq_def]
  dsimp only
  rw [if_neg hbreak, if_neg hquote, if_neg hescape]

omit h in
theorem quoted_escape {quote c : Char} (hquote : '\\' ≠ quote) (hbreak : c ≠ '\n')
    (rest : List Char) :
    quoted quote ('\\' :: c :: rest) =
      ⟨unescape c ++ (quoted quote rest).contents, (quoted quote rest).width + 2,
        (quoted quote rest).closed⟩ := by
  rw [quoted.eq_def]
  dsimp only
  rw [if_neg (by decide), if_neg hquote, if_pos rfl]
  exact if_neg hbreak

omit h in
theorem quoted_escape_break {quote : Char} (hquote : '\\' ≠ quote) (rest : List Char) :
    quoted quote ('\\' :: '\n' :: rest) = ⟨['\\'], 1, false⟩ := by
  rw [quoted.eq_def]
  dsimp only
  rw [if_neg (by decide), if_neg hquote, if_pos rfl]
  exact if_pos rfl

/-- A quoted text ends at the end of its line, if it does not end before. -/
theorem quoted_append (quote : Char) (front : List Char) :
    quoted quote (front ++ back) = quoted quote front := by
  induction front using quoted.induct quote with
  | case1 =>
      obtain rfl | ⟨rest, rfl⟩ := h.cases
      · rfl
      · exact quoted_break quote rest
  | case2 rest => rw [List.cons_append, quoted_break, quoted_break]
  | case3 rest hbreak => rw [List.cons_append, quoted_quote hbreak, quoted_quote hbreak]
  | case4 hbreak hquote =>
      obtain rfl | ⟨rest, rfl⟩ := h.cases
      · rfl
      · rw [List.singleton_append, quoted_escape_break hquote, quoted.eq_def]
        dsimp only
        rw [if_neg hbreak, if_neg hquote, if_pos rfl]
  | case5 rest _ hquote =>
      rw [List.cons_append, List.cons_append, quoted_escape_break hquote,
        quoted_escape_break hquote]
  | case6 c rest hbreak _ hquote ih =>
      rw [List.cons_append, List.cons_append, quoted_escape hquote hbreak,
        quoted_escape hquote hbreak, ih]
  | case7 c rest hbreak hquote hescape ih =>
      rw [List.cons_append, quoted_char hbreak hquote hescape, quoted_char hbreak hquote hescape,
        ih]

/-! ## What may go on over a line break -/

variable {front rest : List Char}

omit h in
/-- An interpolation that ends before a line break ends there whatever stands behind it. -/
theorem interpolation_append {depth : Nat}
    (hwidth : (interpolation depth (front ++ '\n' :: rest)).width ≤ front.length)
    (back : List Char) :
    interpolation depth (front ++ back) = interpolation depth (front ++ '\n' :: rest) := by
  induction front generalizing depth with
  | nil =>
      rw [List.nil_append, interpolation, if_neg (by simp)] at hwidth
      exact absurd hwidth (Nat.not_succ_le_zero _)
  | cons c front ih =>
      rw [List.cons_append, interpolation] at hwidth
      rw [List.cons_append, List.cons_append, interpolation, interpolation]
      by_cases hend : c = '\x7d' ∧ depth ≤ 1
      · rw [if_pos hend, if_pos hend]
      · rw [if_neg hend] at hwidth
        rw [if_neg hend, if_neg hend]
        dsimp only
        rw [ih (Nat.le_of_succ_le_succ hwidth)]

omit h in
theorem blockWidth_cons {c : Char} (hend : ¬(c = '*' ∧ rest.head? = some '/')) :
    blockWidth (c :: rest) = blockWidth rest + 1 := by
  rw [blockWidth]
  rintro others hc rfl
  exact hend ⟨hc, rfl⟩

/-- So does a block comment, if what stands behind it does not begin with a slash. -/
theorem blockWidth_append (hwidth : blockWidth (front ++ '\n' :: rest) ≤ front.length) :
    blockWidth (front ++ back) = blockWidth (front ++ '\n' :: rest) := by
  induction front with
  | nil =>
      rw [List.nil_append, blockWidth_cons (by simp)] at hwidth
      exact absurd hwidth (Nat.not_succ_le_zero _)
  | cons c front ih =>
      have hslash {back : List Char} (h : Breaks back) :
          (front ++ back).head? = some '/' ↔ front.head? = some '/' :=
        h.head_append (by decide) front
      by_cases hend : c = '*' ∧ front.head? = some '/'
      · obtain ⟨rfl, hfront⟩ := hend
        obtain ⟨others, rfl⟩ := List.head?_eq_some_iff.mp hfront
        rfl
      · rw [List.cons_append, blockWidth_cons (by rwa [hslash (breaks_cons rest)])] at hwidth
        rw [List.cons_append, List.cons_append, blockWidth_cons (by rwa [hslash h]),
          blockWidth_cons (by rwa [hslash (breaks_cons rest)]), ih (Nat.le_of_succ_le_succ hwidth)]

omit h in
theorem triviaWidth_cons (lineHasToken : Bool) (c : Char) (rest : List Char) :
    triviaWidth lineHasToken (c :: rest) =
      if c = '/' ∧ rest.head? = some '/' then lineWidth rest.tail + 2
      else if c = '/' ∧ rest.head? = some '*' then blockWidth rest.tail + 2
      else if c = '#' then if lineHasToken && marksName rest then 0 else lineWidth rest + 1
      else if isInlineBlank c then 1
      else 0 := by
  unfold triviaWidth
  split
  next hsplit =>
    obtain ⟨rfl, rfl⟩ := List.cons.inj hsplit
    rfl
  next hsplit =>
    obtain ⟨rfl, rfl⟩ := List.cons.inj hsplit
    rfl
  next hsplit =>
    obtain ⟨rfl, rfl⟩ := List.cons.inj hsplit
    rfl
  next c' rest' hline hblock hhash hsplit =>
    obtain ⟨rfl, rfl⟩ := List.cons.inj hsplit
    have hmark {mark : Char} (hother : ∀ others, c = '/' → rest = mark :: others → False) :
        ¬(c = '/' ∧ rest.head? = some mark) := by
      rintro ⟨hc, hhead⟩
      obtain ⟨others, hrest⟩ := List.head?_eq_some_iff.mp hhead
      exact hother others hc hrest
    rw [if_neg (hmark hline), if_neg (hmark hblock), if_neg hhash]
  next hsplit => cases hsplit

theorem triviaWidth_append {lineHasToken : Bool} {c : Char}
    (hwidth : triviaWidth lineHasToken (c :: (front ++ '\n' :: rest)) ≤ front.length + 1) :
    triviaWidth lineHasToken (c :: (front ++ back)) =
      triviaWidth lineHasToken (c :: (front ++ '\n' :: rest)) := by
  have hrest := breaks_cons rest
  rw [triviaWidth_cons] at hwidth
  rw [triviaWidth_cons, triviaWidth_cons]
  simp only [h.head_append (by decide : '/' ∉ boundaries),
    h.head_append (by decide : '*' ∉ boundaries),
    hrest.head_append (by decide : '/' ∉ boundaries),
    hrest.head_append (by decide : '*' ∉ boundaries)]
    at hwidth ⊢
  split
  next hline =>
    obtain ⟨others, rfl⟩ := List.head?_eq_some_iff.mp hline.2
    simp only [List.cons_append, List.tail_cons, lineWidth_append h, lineWidth_append hrest]
  next hline =>
  rw [if_neg hline] at hwidth
  split
  next hblock =>
    obtain ⟨others, rfl⟩ := List.head?_eq_some_iff.mp hblock.2
    rw [if_pos hblock] at hwidth
    simp only [List.cons_append, List.tail_cons, List.length_cons] at hwidth ⊢
    have hinside : blockWidth (others ++ '\n' :: rest) ≤ others.length := by omega
    rw [blockWidth_append h hinside]
  next hblock =>
    rw [marksName_append h, marksName_append hrest, lineWidth_append h, lineWidth_append hrest]

theorem scan_append {afterValue : Bool} {c : Char}
    (hwidth : ∀ lexeme, scan afterValue c (front ++ '\n' :: rest) = some lexeme →
      lexeme.width ≤ front.length + 1) :
    scan afterValue c (front ++ back) = scan afterValue c (front ++ '\n' :: rest) := by
  have hrest := breaks_cons rest
  have hnumber {back : List Char} (h : Bounds back) :
      numberWidth (c :: (front ++ back)) = numberWidth (c :: front) :=
    numberWidth_append h (c :: front)
  unfold scan at hwidth ⊢
  simp only [isDigit_head_append h.bounds, isDigit_head_append hrest.bounds, hnumber h.bounds,
    hnumber hrest.bounds, numberWidth_append h.bounds, numberWidth_append hrest.bounds,
    quoted_append h, quoted_append hrest, name_append h.bounds, name_append hrest.bounds,
    symbol?_append h.bounds, symbol?_append hrest.bounds,
    h.head_append (by decide : '\x7b' ∉ boundaries),
    hrest.head_append (by decide : '\x7b' ∉ boundaries)] at hwidth ⊢
  split
  · rfl
  next hsign =>
  rw [if_neg hsign] at hwidth
  split
  · rfl
  next hquote =>
  rw [if_neg hquote] at hwidth
  split
  next hopen =>
    obtain ⟨others, rfl⟩ := List.head?_eq_some_iff.mp hopen.2
    rw [if_pos hopen] at hwidth
    have hlength := hwidth _ rfl
    simp only [List.cons_append, List.tail_cons, List.length_cons] at hlength ⊢
    have hinside : (interpolation 1 (others ++ '\n' :: rest)).width ≤ others.length := by omega
    rw [interpolation_append hinside]
  next => rfl

end Lexeme

end SceneLang
