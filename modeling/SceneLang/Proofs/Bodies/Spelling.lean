import SceneLang.Proofs.Bodies.Items
import SceneLang.Proofs.Margins.Layout
import SceneLang.Proofs.Shelter.Locality
import SceneLang.Proofs.Token.Block

/-!
# Literals and lines are spelt

In front of a boundary the scanner cuts a word, a number or a closed text in quotes as it does
where this stands alone.  So it cuts the text of a literal into the tokens of the literal.

The margin of a line changes the levels that are open, and owes the layout tokens that lead
there.  Behind the margin a line is cut into the tokens of the property, the trait or the head
of an element that stands on it.
-/

namespace SceneLang

namespace Lexeme

variable {afterValue : Bool} {c : Char} {front back rest : List Char} {lexeme : Lexeme}

/-! ## Words -/

theorem quoted_append_of_closed {quote : Char} (h : (quoted quote front).closed = true)
    (back : List Char) : quoted quote (front ++ back) = quoted quote front := by
  induction front using quoted.induct quote with
  | case1 => contradiction
  | case2 rest => rw [List.cons_append, quoted_break, quoted_break]
  | case3 rest hbreak => rw [List.cons_append, quoted_quote hbreak, quoted_quote hbreak]
  | case4 hbreak hquote =>
      rw [quoted.eq_def] at h
      dsimp only at h
      rw [if_neg hbreak, if_neg hquote, if_pos rfl] at h
      contradiction
  | case5 rest _ hquote =>
      rw [quoted_escape_break hquote] at h
      contradiction
  | case6 c rest hbreak _ hquote ih =>
      rw [quoted_escape hquote hbreak] at h
      rw [List.cons_append, List.cons_append, quoted_escape hquote hbreak,
        quoted_escape hquote hbreak, ih h]
  | case7 c rest hbreak hquote hescape ih =>
      rw [quoted_char hbreak hquote hescape] at h
      rw [List.cons_append, quoted_char hbreak hquote hescape, quoted_char hbreak hquote hescape,
        ih h]

/-- A word that ends with a text also ends there in front of a boundary. -/
theorem scan_of_bounds (h : Bounds back) (hscan : scan afterValue c front = some lexeme)
    (hkind : lexeme.kind ∈ wordKinds) : scan afterValue c (front ++ back) = some lexeme := by
  have hnumber : numberWidth (c :: (front ++ back)) = numberWidth (c :: front) :=
    numberWidth_append h (c :: front)
  unfold scan at hscan ⊢
  simp only [isDigit_head_append h, hnumber, numberWidth_append h, name_append h,
    symbol?_append h, h.head_append (by decide : '\x7b' ∉ boundaries)]
  split
  next hsign => rwa [if_pos hsign] at hscan
  next hsign =>
  rw [if_neg hsign] at hscan
  split
  next hquote =>
    rw [if_pos hquote] at hscan
    dsimp only at hscan
    split at hscan
    next hclosed =>
      rw [quoted_append_of_closed hclosed, if_pos hclosed]
      exact hscan
    next =>
      cases hscan
      exact absurd hkind (show TokenKind.unterminatedString ∉ wordKinds by decide)
  next hquote =>
  rw [if_neg hquote] at hscan
  split
  next hopen =>
    rw [if_pos hopen] at hscan
    cases hscan
    exact absurd hkind (show TokenKind.interpolation ∉ wordKinds by decide)
  next hopen => rwa [if_neg hopen] at hscan

/-- No word starts with a blank, a line break or the mark of a comment. -/
theorem head_of_scan (hscan : scan afterValue c rest = some lexeme)
    (hkind : lexeme.kind ∈ wordKinds) :
    isInlineBlank c = false ∧ c ≠ '\n' ∧ c ≠ '#' ∧ c ≠ '/' := by
  have hsymbol {d : Char} (hother : scan afterValue d rest = symbol? d rest) : c ≠ d := by
    rintro rfl
    rw [hother] at hscan
    exact kind_of_symbol? hscan hkind
  have hspace : c ≠ ' ' := hsymbol rfl
  have htab : c ≠ '\t' := hsymbol rfl
  have hreturn : c ≠ '\r' := hsymbol rfl
  refine ⟨?_, hsymbol rfl, hsymbol rfl, hsymbol rfl⟩
  simp [isInlineBlank, hspace, htab, hreturn]

theorem triviaWidth_of_scan (hscan : scan afterValue c rest = some lexeme)
    (hkind : lexeme.kind ∈ wordKinds) (lineHasToken : Bool) (others : List Char) :
    triviaWidth lineHasToken (c :: others) = 0 := by
  obtain ⟨hblank, -, hhash, hslash⟩ := head_of_scan hscan hkind
  rw [triviaWidth_cons, if_neg fun h => hslash h.1, if_neg fun h => hslash h.1, if_neg hhash,
    hblank, if_neg Bool.false_ne_true]

/-- Only a number can start with a sign, which is one where no value stands in front of it. -/
theorem scan_of_afterValue (hscan : scan false c rest = some lexeme)
    (hkind : lexeme.kind ∈ wordKinds) (hnumber : afterValue = false ∨ lexeme.kind ≠ .number) :
    scan afterValue c rest = some lexeme := by
  rcases hnumber with rfl | hnumber
  · exact hscan
  · have hsign : c ≠ '-' := by
      rintro rfl
      unfold scan at hscan
      dsimp only at hscan
      split at hscan
      · cases hscan
        exact hnumber rfl
      · change symbol? '-' rest = some lexeme at hscan
        exact kind_of_symbol? hscan hkind
    rw [← hscan]
    simp only [scan, hsign, false_and]

/-- The character is a token of its own wherever it stands. -/
structure IsMark (c : Char) (kind : TokenKind) : Prop where
  trivia : ∀ lineHasToken rest, triviaWidth lineHasToken (c :: rest) = 0
  ne_break : c ≠ '\n'
  scan : ∀ afterValue rest, scan afterValue c rest = some (plain kind 1)

theorem isMark_colon : IsMark ':' .colon := ⟨fun _ _ => rfl, by decide, fun _ _ => rfl⟩

theorem isMark_comma : IsMark ',' .comma := ⟨fun _ _ => rfl, by decide, fun _ _ => rfl⟩

theorem isMark_at : IsMark '@' .at := ⟨fun _ _ => rfl, by decide, fun _ _ => rfl⟩

theorem isMark_leftBracket : IsMark '[' .leftBracket :=
  ⟨fun _ _ => rfl, by decide, fun _ _ => rfl⟩

theorem isMark_rightBracket : IsMark ']' .rightBracket :=
  ⟨fun _ _ => rfl, by decide, fun _ _ => rfl⟩

theorem isMark_leftBrace : IsMark '\x7b' .leftBrace :=
  ⟨fun _ _ => rfl, by decide, fun _ _ => rfl⟩

theorem isMark_rightBrace : IsMark '\x7d' .rightBrace :=
  ⟨fun _ _ => rfl, by decide, fun _ _ => rfl⟩

end Lexeme

open Lexeme

/-- A text that is a lexeme as a whole is not empty. -/
theorem Written.exists_scan {kinds : List TokenKind} (written : Written kinds) :
    ∃ c rest, written.chars = c :: rest ∧ scan false c rest = some written.lexeme ∧
      written.lexeme.width = rest.length + 1 := by
  obtain ⟨chars, lexeme, hwhole, -⟩ := written
  cases chars with
  | nil => cases hwhole
  | cons c rest =>
      obtain ⟨hscan, hwidth⟩ := Option.filter_eq_some_iff.mp hwhole
      exact ⟨c, rest, rfl, hscan, of_decide_eq_true hwidth⟩

namespace Scanner

variable {levels : List Nat} {groups : Nat} {rest follow : List Char} {s : Scanner}

/-! ## Within a line -/

/-- The scanner is within a line, where no layout is owed. -/
structure InLine (levels : List Nat) (groups : Nat) (rest : List Char) (s : Scanner) : Prop where
  owed : s.owed = []
  atLineStart : s.atLineStart = false
  groups : s.groups = groups
  levels : s.levels = levels
  rest : s.cursor.rest = rest

theorem InLine.free (h : InLine levels 0 rest s) : Free levels rest s :=
  ⟨h.owed, h.groups, h.levels, h.rest⟩

theorem step_of_written {kinds : List TokenKind} (written : Written kinds)
    (hkinds : kinds ⊆ wordKinds) (h : InLine levels groups (written.chars ++ follow) s)
    (hfollow : Bounds follow)
    (hnumber : s.afterValue = false ∨ written.lexeme.kind ≠ .number) :
    ∃ token next, s.step = .emit token next ∧ token.kind = written.lexeme.kind ∧
      token.text = written.text ∧ token.position = s.cursor.position ∧
      next.cursor = s.cursor.skip written.chars.length ∧ InLine levels groups follow next ∧
      next.lineHasToken = true := by
  obtain ⟨c, rest, hchars, hscan, hwidth⟩ := written.exists_scan
  have hkind := hkinds written.kind_mem
  have hrest := h.rest
  rw [hchars, List.cons_append] at hrest
  have hstep := step_of_lexeme h.owed h.atLineStart hrest
    (triviaWidth_of_scan hscan hkind _ _) (head_of_scan hscan hkind).2.1
    (scan_of_bounds hfollow (scan_of_afterValue hscan hkind hnumber) hkind)
  have hlength : written.lexeme.width = written.chars.length := by
    rw [hwidth, hchars, List.length_cons]
  have htext : s.cursor.rest.take written.lexeme.width = written.chars := by
    rw [h.rest, hlength, List.take_left]
  have hbehind : (s.cursor.skip written.lexeme.width).rest = follow := by
    rw [Cursor.rest_skip, h.rest, hlength, List.drop_left]
  have hgroups : groupsAfter written.lexeme.kind s.groups = groups := by
    have hsame : ∀ kind ∈ wordKinds, groupsAfter kind groups = groups := by
      simp [wordKinds, groupsAfter]
    rw [h.groups, hsame _ hkind]
  refine ⟨_, _, hstep, rfl, ?_, rfl, by rw [← hlength],
    ⟨h.owed, h.atLineStart, hgroups, h.levels, hbehind⟩, rfl⟩
  rw [Written.text, ← htext]

theorem step_of_mark {c : Char} {kind : TokenKind} (hmark : IsMark c kind)
    (h : InLine levels groups (c :: rest) s) :
    ∃ token next, s.step = .emit token next ∧ token.kind = kind ∧
      InLine levels (groupsAfter kind groups) rest next ∧ next.lineHasToken = true ∧
      next.afterValue = kind.endsValue := by
  have hstep := step_of_lexeme h.owed h.atLineStart h.rest (hmark.trivia _ _) hmark.ne_break
    (hmark.scan _ _)
  have hgroups : groupsAfter kind s.groups = groupsAfter kind groups := by rw [h.groups]
  have hbehind : (s.cursor.skip 1).rest = rest := by
    rw [Cursor.rest_skip, h.rest, List.drop_one, List.tail_cons]
  exact ⟨_, _, hstep, rfl, ⟨h.owed, h.atLineStart, hgroups, h.levels, hbehind⟩, rfl, rfl⟩

theorem step_of_space (h : InLine levels groups (' ' :: rest) s) :
    ∃ next, s.step = .skip next ∧ InLine levels groups rest next ∧
      next.lineHasToken = s.lineHasToken ∧ next.afterValue = s.afterValue ∧
      next.cursor.position.line = s.cursor.position.line := by
  have hstep := step_of_trivia h.owed h.atLineStart h.rest Nat.one_pos
  have hbehind : (s.cursor.skip 1).rest = rest := by
    rw [Cursor.rest_skip, h.rest, List.drop_one, List.tail_cons]
  refine ⟨_, hstep, ⟨h.owed, h.atLineStart, h.groups, h.levels, hbehind⟩, rfl, rfl, ?_⟩
  change s.cursor.next.position.line = _
  rw [Cursor.next, h.rest]
  rfl

end Scanner

open Scanner

namespace Outline

namespace Literal

theorem bounds_charsBehind (items : List Literal) (follow : List Char) :
    Bounds (charsBehind items ++ follow) := by
  cases items with
  | nil => exact bounds_cons (by decide) follow
  | cons item items => exact bounds_cons (by decide) _

mutual

/-- The text of a literal is cut into its tokens. -/
theorem emits (literal : Literal) {levels : List Nat} {groups : Nat} {follow : List Char}
    {s : Scanner} (h : InLine levels groups (literal.chars ++ follow) s)
    (hvalue : s.afterValue = false) (hfollow : Bounds follow) :
    ∃ tokens next, Emits s tokens next ∧ literal.Spelt tokens ∧
      InLine levels groups follow next ∧ next.lineHasToken = true := by
  match literal with
  | .atom word =>
      obtain ⟨token, next, hstep, hkind, htext, -, -, hnext, hline⟩ :=
        step_of_written word (by decide) h hfollow (.inl hvalue)
      exact ⟨[token], next, .emit hstep (.refl next), ⟨token, rfl, hkind, htext⟩, hnext, hline⟩
  | .array [] =>
      obtain ⟨opening, inside, hopen, hopening, hinside, -⟩ := step_of_mark isMark_leftBracket h
      obtain ⟨closing, next, hclose, hclosing, hnext, hline, -⟩ :=
        step_of_mark isMark_rightBracket hinside
      exact ⟨[opening, closing], next, .emit hopen (.emit hclose (.refl next)),
        ⟨opening, closing, rfl, hopening, hclosing⟩, hnext, hline⟩
  | .array (item :: rest) =>
      rw [chars, List.cons_append, List.append_assoc] at h
      obtain ⟨opening, inside, hopen, hopening, hinside, -, hfirst⟩ :=
        step_of_mark isMark_leftBracket h
      obtain ⟨front, middle, hfront, hitem, hmiddle, -⟩ :=
        item.emits hinside hfirst (bounds_charsBehind rest follow)
      obtain ⟨back, next, hback, hrest, hnext⟩ := emitsBehind rest hmiddle
      exact ⟨opening :: (front ++ back), next, .emit hopen (hfront.append hback),
        ⟨opening, front, back, rfl, hopening, hitem, hrest⟩, hnext⟩

theorem emitsBehind (items : List Literal) {levels : List Nat} {groups : Nat}
    {follow : List Char} {s : Scanner}
    (h : InLine levels (groups + 1) (charsBehind items ++ follow) s) :
    ∃ tokens next, Emits s tokens next ∧ SpeltBehind items tokens ∧
      InLine levels groups follow next ∧ next.lineHasToken = true := by
  match items with
  | [] =>
      obtain ⟨closing, next, hclose, hclosing, hnext, hline, -⟩ :=
        step_of_mark isMark_rightBracket h
      exact ⟨[closing], next, .emit hclose (.refl next), ⟨closing, rfl, hclosing⟩, hnext, hline⟩
  | item :: rest =>
      rw [charsBehind, List.append_assoc, List.append_assoc] at h
      obtain ⟨comma, spaced, hstep, hcomma, hspaced, -, hvalue⟩ := step_of_mark isMark_comma h
      obtain ⟨inside, hspace, hinside, -, hsame, -⟩ := step_of_space hspaced
      obtain ⟨front, middle, hfront, hitem, hmiddle, -⟩ :=
        item.emits hinside (hsame.trans hvalue) (bounds_charsBehind rest follow)
      obtain ⟨back, next, hback, hrest, hnext⟩ := emitsBehind rest hmiddle
      exact ⟨comma :: (front ++ back), next, .emit hstep (.skip hspace (hfront.append hback)),
        ⟨comma, front, back, rfl, hcomma, hitem, hrest⟩, hnext⟩

end

end Literal

end Outline

/-! ## Words that stand alone -/

namespace Lexeme

theorem whole?_of_isWord {word : List Char} (h : isWord word = true) :
    whole? word = some (plain .identifier word.length) := by
  cases word with
  | nil => cases h
  | cons c word =>
      have hscan : scan false c (word ++ []) = _ := scan_of_isWord h false (by simp)
      rw [List.append_nil] at hscan
      rw [whole?, hscan]
      exact Option.filter_some_pos (by simp [plain])

end Lexeme

/-- A word is a text of its own. -/
def Written.ofWord {word : String} (h : isWord word.toList = true) : Written [.identifier] where
  chars := word.toList
  lexeme := plain .identifier word.toList.length
  whole := whole?_of_isWord h
  kind_mem := List.mem_singleton.mpr rfl

theorem Written.text_ofWord {word : String} (h : isWord word.toList = true) :
    (ofWord h).text = word :=
  String.ofList_toList

theorem isWord_of_isTrait {name : String} (h : Vocabulary.isTrait name = true) :
    isWord name.toList = true := by
  have hall : ∀ name ∈ Vocabulary.traits, isWord name.toList = true := by decide +kernel
  exact hall name (List.contains_iff_mem.mp h)

theorem break_notMem_of_isWord {word : List Char} (h : isWord word = true) : '\n' ∉ word := by
  cases word with
  | nil => cases h
  | cons c word =>
      simp only [isWord, Bool.and_eq_true, List.all_eq_true] at h
      intro hmem
      obtain rfl | hmem := List.mem_cons.mp hmem
      · exact absurd h.1.1.1.1 (by decide)
      · exact absurd (h.1.2 _ hmem) (by decide)

namespace Scanner

variable {levels : List Nat} {rest : List Char} {s : Scanner}

/-! ## Margins and ends of lines -/

/-- The scanner is at the start of a line. -/
structure Begins (levels : List Nat) (rest : List Char) (s : Scanner) : Prop
    extends Free levels rest s where
  atLineStart : s.atLineStart = true
  lineHasToken : s.lineHasToken = false

theorem step_of_break_within (h : InLine levels 0 ('\n' :: rest) s)
    (hline : s.lineHasToken = true) :
    ∃ token next, s.step = .emit token next ∧ token.kind = .newline ∧ Begins levels rest next := by
  obtain ⟨token, next, hstep, hkind, hfree, hnext, hempty, -⟩ :=
    step_of_lineEnd h.free h.atLineStart hline
  exact ⟨token, next, hstep, hkind, hfree, hnext, hempty⟩

/-- The text starts neither with a blank nor with a comment, nor is a line over. -/
def Opens (text : List Char) : Prop :=
  ∃ c rest, text = c :: rest ∧ isInlineBlank c = false ∧ c ≠ '\n' ∧ c ≠ '#' ∧ c ≠ '/'

theorem indentation_append_cons {margin : List Char} {c : Char}
    (hmargin : ∀ d ∈ margin, d = ' ' ∨ d = '\t') (hc : isInlineBlank c = false) :
    indentation (margin ++ c :: rest) = indentation margin := by
  induction margin with
  | nil => exact indentation_cons hc rest
  | cons d margin ih =>
      obtain ⟨hd, hmargin⟩ := List.forall_mem_cons.mp hmargin
      rw [List.cons_append, indentation, indentation, ih hmargin]

/-- The margin of a line leads to the levels of its width. -/
theorem emits_margin {margin : List Char} (hmargin : ∀ c ∈ margin, c = ' ' ∨ c = '\t')
    (hopens : Opens rest) (h : Begins levels (margin ++ rest) s) :
    ∃ marks next, Emits s marks next ∧
      marks.map Token.kind = (relevel (indentation margin) levels).2 ∧
      InLine (relevel (indentation margin) levels).1 0 rest next := by
  obtain ⟨c, rest, rfl, hblank, hbreak, hhash, hslash⟩ := hopens
  have hstep := step_of_lineStart h.owed h.atLineStart h.groups
  have hhead : lineHead (margin ++ c :: rest) = (margin.length, true) := by
    have hblanks : ∀ d ∈ margin, Text.isMargin d = true := fun d hmem => by
      simpa [Text.isMargin] using hmargin d hmem
    rw [lineHead_margin hblanks, lineHead_cons hblank hbreak hhash hslash, Nat.add_zero]
  have hline : s.startLine = { s with
      cursor := s.cursor.skip margin.length
      levels := (relevel (indentation margin) levels).1
      owed := (relevel (indentation margin) levels).2
      atLineStart := false } := by
    unfold startLine
    rw [h.rest, hhead, indentation_append_cons hmargin hblank, h.levels]
    rfl
  rw [hline] at hstep
  obtain ⟨marks, next, hmarks, hkinds, hfree, hnext⟩ := emits_owed (s := { s with
    cursor := s.cursor.skip margin.length
    levels := (relevel (indentation margin) levels).1
    owed := (relevel (indentation margin) levels).2
    atLineStart := false }) h.groups
  have hbehind : (s.cursor.skip margin.length).rest = c :: rest := by
    rw [Cursor.rest_skip, h.rest, List.drop_left]
  exact ⟨marks, next, .skip hstep hmarks, hkinds, hfree.owed, hnext, hfree.groups, hfree.levels,
    hfree.rest.trans hbehind⟩

end Scanner

/-- Words open lines. -/
theorem Written.opens (written : Written [.identifier]) (rest : List Char) :
    Opens (written.chars ++ rest) := by
  obtain ⟨c, others, hchars, hscan, -⟩ := written.exists_scan
  have hkinds : [TokenKind.identifier] ⊆ wordKinds := by decide
  exact ⟨c, others ++ rest, by rw [hchars, List.cons_append],
    head_of_scan hscan (hkinds written.kind_mem)⟩

theorem opens_at (rest : List Char) : Opens ('@' :: rest) :=
  ⟨'@', rest, rfl, by decide⟩

theorem opens_rightBrace (rest : List Char) : Opens ('\x7d' :: rest) :=
  ⟨'\x7d', rest, rfl, by decide⟩

namespace Outline

theorem opens_headChars (keyword : Keyword) (name : Option Quoted) (rest : List Char) :
    Opens (headChars keyword name ++ rest) := by
  rw [headChars, List.append_assoc]
  exact (Written.ofWord (Document.isWord_of_isConstruct keyword.construct)).opens _

section

variable {levels : List Nat} {follow : List Char} {s : Scanner}

/-! ## What stands on a line -/

/-- The head of an element is cut into its tokens. -/
theorem emits_head (keyword : Keyword) (name : Option Quoted)
    (h : InLine levels 0 (headChars keyword name ++ follow) s) (hfollow : Bounds follow) :
    ∃ tokens next, Emits s tokens next ∧ HeadSpelt keyword name tokens ∧
      InLine levels 0 follow next ∧ next.lineHasToken = true := by
  have hword := Document.isWord_of_isConstruct keyword.construct
  have hplain : (Written.ofWord hword).lexeme.kind ≠ .number := TokenKind.noConfusion
  rw [headChars, List.append_assoc] at h
  have hbounds : Bounds (nameChars name ++ follow) := by
    cases name with
    | none => exact hfollow
    | some name => exact bounds_cons (by decide) _
  obtain ⟨word, behind, hstep, hkind, htext, hposition, hcursor, hbehind, hline⟩ :=
    step_of_written (.ofWord hword) (by decide) h hbounds (.inr hplain)
  rw [Written.text_ofWord] at htext
  cases name with
  | none =>
      exact ⟨[word], behind, .emit hstep (.refl behind), ⟨word, hkind, htext, rfl⟩, hbehind, hline⟩
  | some name =>
      obtain ⟨inside, hspace, hinside, -, -, hsame⟩ := step_of_space hbehind
      have hname : name.lexeme.kind = .string := List.mem_singleton.mp name.kind_mem
      obtain ⟨quoted, next, hquoted, hstring, hcontents, hplace, -, hnext, hline⟩ :=
        step_of_written name (by decide) hinside hfollow (.inr (by rw [hname]; decide))
      have hlines : quoted.line = word.line := by
        have htake : s.cursor.rest.take keyword.word.toList.length = keyword.word.toList := by
          rw [h.rest, List.take_left]
        rw [Token.line, Token.line, hplace, hsame, hcursor, hposition, Cursor.line_skip]
        change _ + (s.cursor.rest.take keyword.word.toList.length).count '\n' = _
        rw [htake, List.count_eq_zero.mpr (break_notMem_of_isWord hword), Nat.add_zero]
      exact ⟨[word, quoted], next, .emit hstep (.skip hspace (.emit hquoted (.refl next))),
        ⟨word, hkind, htext, quoted, rfl, hstring.trans hname, hcontents, hlines⟩, hnext, hline⟩

/-- A line with a property. -/
theorem emits_property {style : Style} (key : Key) (literal : Literal)
    (h : InLine levels 0 (key.chars ++ ':' :: ' ' :: (literal.chars ++ '\n' :: follow)) s) :
    ∃ tokens line next, Emits s (tokens ++ [line]) next ∧
      (Item.property key literal).Spelt style tokens ∧ line.kind = .newline ∧
      Begins levels follow next := by
  have hkey : key.lexeme.kind = .identifier := List.mem_singleton.mp key.kind_mem
  obtain ⟨word, named, hstep, hkind, htext, -, -, hnamed, -⟩ :=
    step_of_written key (by decide) h (bounds_cons (by decide) _) (.inr (by rw [hkey]; decide))
  obtain ⟨colon, parted, hmark, hcolon, hparted, -, hvalue⟩ := step_of_mark isMark_colon hnamed
  obtain ⟨inside, hspace, hinside, -, hsame, -⟩ := step_of_space hparted
  obtain ⟨value, behind, hvalue, hspelt, hbehind, hline⟩ :=
    literal.emits hinside (hsame.trans hvalue) (bounds_cons (by decide) follow)
  obtain ⟨line, next, hend, hnewline, hnext⟩ := step_of_break_within hbehind hline
  refine ⟨word :: colon :: value, line, next, ?_,
    ⟨word, colon, value, rfl, hkind.trans hkey, htext, hcolon, hspelt⟩, hnewline, hnext⟩
  exact .emit hstep (.emit hmark (.skip hspace (hvalue.append (.emit hend (.refl next)))))

/-- A line with a trait. -/
theorem emits_trait {style : Style} (name : String) (known : Vocabulary.isTrait name = true)
    (h : InLine levels 0 ('@' :: (name.toList ++ '\n' :: follow)) s) :
    ∃ tokens line next, Emits s (tokens ++ [line]) next ∧
      (Item.trait name known).Spelt style tokens ∧ line.kind = .newline ∧
      Begins levels follow next := by
  have hword := isWord_of_isTrait known
  have hplain : (Written.ofWord hword).lexeme.kind ≠ .number := TokenKind.noConfusion
  obtain ⟨mark, inside, hmark, hat, hinside, -⟩ := step_of_mark isMark_at h
  obtain ⟨word, behind, hstep, hkind, htext, -, -, hbehind, hline⟩ :=
    step_of_written (.ofWord hword) (by decide) hinside (bounds_cons (by decide) follow)
      (.inr hplain)
  rw [Written.text_ofWord] at htext
  obtain ⟨line, next, hend, hnewline, hnext⟩ := step_of_break_within hbehind hline
  exact ⟨[mark, word], line, next, .emit hmark (.emit hstep (.emit hend (.refl next))),
    ⟨mark, word, rfl, hat, hkind, htext⟩, hnewline, hnext⟩

end

end Outline

end SceneLang
