import SceneLang.Proofs.Token.Numbers
import SceneLang.Proofs.Written.Properties
import SceneLang.Proofs.Written.Quotes

/-!
# Strings and keys are read back

A string, and an object of strings with any keys, is written as a text that is read as the same
value again, whatever characters the strings and the keys are made of.
-/

namespace SceneLang

open Lexeme Scanner Grammar

/-! ## Keys -/

/-- What the token of a key can be. -/
def keyKinds : List TokenKind := [.identifier, .string, .boolean, .null]

theorem isKey_of_mem {kind : TokenKind} (h : kind ∈ keyKinds) : isKey kind = true := by
  have hall : ∀ kind ∈ keyKinds, isKey kind = true := by decide
  exact hall kind h

theorem wordKind_mem (word : List Char) : wordKind word ∈ keyKinds := by
  unfold wordKind
  split
  · decide
  split
  · decide
  · decide

theorem whole?_of_isBareKey {key : List Char} (h : isBareKey key = true) :
    whole? key = some (plain (wordKind key) key.length) := by
  cases key with
  | nil => cases h
  | cons c rest =>
  obtain ⟨hc, hrest⟩ : isNameStart c = true ∧ ∀ d ∈ rest, isNamePart d = true := by
    simpa [isBareKey] using h
  have hne {d : Char} (hd : isNameStart d = false) : c ≠ d := ne_of_isNameStart hc hd
  have hquote : ¬(c = '"' ∨ c = '\'') := by
    rintro (h | h)
    · exact hne (by decide) h
    · exact hne (by decide) h
  have hopen : ¬(c = '$' ∧ rest.head? = some '\x7b') := by
    rintro ⟨-, hhead⟩
    exact absurd (hrest _ (List.mem_of_head? hhead)) (by decide)
  have hdigit : ¬c.isDigit = true := by
    intro hdigit
    have hother : isNameStart c = false := by
      have hunderscore : c ≠ '_' := ne_of_isDigit hdigit rfl
      have hdollar : c ≠ '$' := ne_of_isDigit hdigit rfl
      simp [isNameStart, Text.isAlphabetic_of_isDigit hdigit, hunderscore, hdollar]
    rw [hc] at hother
    contradiction
  have hscan : scan false c rest = some (plain (wordKind (c :: rest)) (c :: rest).length) := by
    have htake : rest.takeWhile isNamePart = rest := List.takeWhile_eq_self_iff.mpr hrest
    unfold scan
    dsimp only
    rw [if_neg fun h => hne (by decide) h.1, if_neg hquote, if_neg hopen, if_neg hdigit, if_pos hc,
      name, htake]
  rw [whole?, hscan]
  exact Option.filter_some_pos (by simp [plain])

/-- The text that a key is written as. -/
def keyChars (key : String) : List Char :=
  if isBareKey key.toList then key.toList else escapeText key.toList

namespace Written

/-- A key as it is written is a text of its own. -/
def ofKey (key : String) : Written keyKinds :=
  if h : isBareKey key.toList = true then
    ⟨key.toList, plain (wordKind key.toList) key.toList.length, whole?_of_isBareKey h,
      wordKind_mem key.toList⟩
  else
    ⟨escapeText key.toList, (ofText key.toList).lexeme, (ofText key.toList).whole,
      show TokenKind.string ∈ keyKinds by decide⟩

theorem chars_ofKey (key : String) : (ofKey key).chars = keyChars key := by
  unfold ofKey keyChars
  split <;> rfl

theorem text_ofKey (key : String) : (ofKey key).text = key := by
  unfold ofKey
  split
  · exact String.ofList_toList
  · exact String.ofList_toList

end Written

/-! ## Objects of strings -/

/-- Entries with strings as their values. -/
def stringEntries (entries : List (String × String)) : List ObjectEntry :=
  entries.map fun entry => .field entry.1 (.string entry.2)

theorem entryTexts_stringEntries (entries : List (String × String)) :
    Value.entryTexts (stringEntries entries) =
      entries.map fun entry => keyChars entry.1 ++ ':' :: ' ' :: escapeText entry.2.toList := by
  induction entries with
  | nil => rfl
  | cons entry entries ih =>
      rw [stringEntries, List.map_cons, Value.entryTexts, ← stringEntries, ih]
      rfl

theorem derives_string {token : Token} (hkind : token.kind = .string) (depth : Nat)
    (table : Table String) :
    Derives (depth + 1) (.nested .any (.string token.text)) table [token] table :=
  .nested ((Derives.string hkind).weaken (by decide))

section

variable {levels : List Nat} {groups : Nat} {follow : List Char} {s : Scanner}

/-- An entry is cut into its tokens. -/
theorem emits_entry (entry : String × String)
    (h : InLine levels groups
      (keyChars entry.1 ++ ':' :: ' ' :: (escapeText entry.2.toList ++ follow)) s)
    (hfollow : Bounds follow) :
    ∃ key colon token next, Emits s [key, colon, token] next ∧ InLine levels groups follow next ∧
      isKey key.kind = true ∧ key.text = entry.1 ∧ colon.kind = .colon ∧ token.kind = .string ∧
      token.text = entry.2 := by
  rw [← Written.chars_ofKey] at h
  have hkey : (Written.ofKey entry.1).lexeme.kind ∈ keyKinds := (Written.ofKey entry.1).kind_mem
  have hnumber : (Written.ofKey entry.1).lexeme.kind ≠ .number := by
    intro hkind
    rw [hkind] at hkey
    exact absurd hkey (by decide)
  obtain ⟨key, named, hstep, hkind, htext, -, -, hnamed, -⟩ :=
    step_of_written (.ofKey entry.1) (by decide) h (bounds_cons (by decide) _) (.inr hnumber)
  obtain ⟨colon, parted, hmark, hcolon, hparted, -⟩ := step_of_mark isMark_colon hnamed
  obtain ⟨inside, hspace, hinside, -⟩ := step_of_space hparted
  obtain ⟨token, next, hquoted, hstring, hcontents, -, -, hnext, -⟩ :=
    step_of_written (.ofText entry.2.toList) (by decide) hinside hfollow
      (.inr TokenKind.noConfusion)
  refine ⟨key, colon, token, next,
    .emit hstep (.emit hmark (.skip hspace (.emit hquoted (.refl next)))), hnext, ?_, ?_, hcolon,
    hstring, ?_⟩
  · rw [hkind]
    exact isKey_of_mem hkey
  · rw [htext, Written.text_ofKey]
  · rw [hcontents, Written.text_ofText, String.ofList_toList]

theorem derives_entry {entry : String × String} {key colon token : Token}
    {entries : List (String × String)} {tokens : List Token} {table : Table String}
    (hkey : isKey key.kind = true) (htext : key.text = entry.1) (hcolon : colon.kind = .colon)
    (hkind : token.kind = .string) (hvalue : token.text = entry.2)
    (hrest : Derives 1 (.entries (stringEntries entries)) table tokens table) :
    Derives 1 (.entries (stringEntries (entry :: entries))) table (key :: colon :: token :: tokens)
      table := by
  have hentries := Derives.field hkey (by rw [hcolon]; rfl : colon.kind.separatesKey = true)
    (derives_string hkind 0 table) hrest
  rw [htext, hvalue] at hentries
  exact hentries

/-- The entries of an object are cut into tokens that stand for them. -/
theorem emits_entries (entry : String × String) (entries : List (String × String))
    (h : InLine levels groups
      (Value.separated (Value.entryTexts (stringEntries (entry :: entries))) ++ ' ' :: follow) s) :
    ∃ tokens next, Emits s tokens next ∧ InLine levels groups (' ' :: follow) next ∧
      ∀ table, Derives 1 (.entries (stringEntries (entry :: entries))) table tokens table := by
  rw [entryTexts_stringEntries] at h
  induction entries generalizing entry s with
  | nil =>
      simp only [List.map_cons, List.map_nil, Value.separated, List.append_assoc,
        List.cons_append] at h
      obtain ⟨key, colon, token, next, hrun, hnext, hkey, htext, hcolon, hkind, hvalue⟩ :=
        emits_entry entry h (bounds_cons (by decide) _)
      exact ⟨[key, colon, token], next, hrun, hnext,
        fun table => derives_entry hkey htext hcolon hkind hvalue .noEntries⟩
  | cons second entries ih =>
      simp only [List.map_cons, Value.separated, List.append_assoc, List.cons_append] at h ih
      obtain ⟨key, colon, token, behind, hrun, hbehind, hkey, htext, hcolon, hkind, hvalue⟩ :=
        emits_entry entry h (bounds_cons (by decide) _)
      obtain ⟨comma, parted, hmark, hcomma, hparted, -⟩ := step_of_mark isMark_comma hbehind
      obtain ⟨inside, hspace, hinside, -⟩ := step_of_space hparted
      obtain ⟨tokens, next, hmore, hnext, hrest⟩ := ih second hinside
      exact ⟨key :: colon :: token :: (comma :: tokens), next,
        hrun.append (.emit hmark (.skip hspace hmore)), hnext, fun table =>
          derives_entry hkey htext hcolon hkind hvalue (.separator (.inl hcomma) (hrest table))⟩

/-- An object of strings is cut into tokens that stand for it. -/
theorem emits_object (entries : List (String × String))
    (h : InLine levels groups
      ((Value.object (stringEntries entries)).chars ++ ' ' :: follow) s) :
    ∃ tokens next, Emits s tokens next ∧ InLine levels groups (' ' :: follow) next ∧
      ∀ table, Derives 2 (.nested .any (.object (stringEntries entries))) table tokens table := by
  cases entries with
  | nil =>
      obtain ⟨opening, inside, hopen, hopening, hinside, -⟩ := step_of_mark isMark_leftBrace h
      obtain ⟨closing, next, hclose, hclosing, hnext, -⟩ :=
        step_of_mark isMark_rightBrace hinside
      refine ⟨[opening, closing], next, .emit hopen (.emit hclose (.refl next)), hnext,
        fun table => ?_⟩
      have hobject : Derives 1 _ table (opening :: ([] ++ [closing])) table :=
        .object hopening hclosing .noEntries
      exact .nested (hobject.weaken (by decide))
  | cons entry entries =>
      have hchars : (Value.object (stringEntries (entry :: entries))).chars ++ ' ' :: follow =
          '\x7b' :: ' ' :: (Value.separated (Value.entryTexts (stringEntries (entry :: entries))) ++
            ' ' :: '\x7d' :: ' ' :: follow) := by
        rw [Value.chars, entryTexts_stringEntries, List.map_cons]
        simp
      rw [hchars] at h
      obtain ⟨opening, opened, hopen, hopening, hopened, -⟩ := step_of_mark isMark_leftBrace h
      obtain ⟨inside, hspace, hinside, -⟩ := step_of_space hopened
      obtain ⟨tokens, filled, hentries, hfilled, hderives⟩ := emits_entries entry entries hinside
      obtain ⟨before, hblank, hbefore, -⟩ := step_of_space hfilled
      obtain ⟨closing, next, hclose, hclosing, hnext, -⟩ :=
        step_of_mark isMark_rightBrace hbefore
      refine ⟨opening :: (tokens ++ [closing]), next, .emit hopen (.skip hspace
        (hentries.append (.skip hblank (.emit hclose (.refl next))))), hnext, fun table => ?_⟩
      exact .nested ((Derives.object hopening hclosing (hderives table)).weaken (by decide))

/-- A string is cut into a token that stands for it. -/
theorem emits_string (text : String)
    (h : InLine levels groups ((Value.string text).chars ++ ' ' :: follow) s) :
    ∃ tokens next, Emits s tokens next ∧ InLine levels groups (' ' :: follow) next ∧
      ∀ table, Derives 1 (.nested .any (.string text)) table tokens table := by
  obtain ⟨token, next, hstep, hkind, htext, -, -, hnext, -⟩ :=
    step_of_written (.ofText text.toList) (by decide) h (bounds_cons (by decide) _)
      (.inr TokenKind.noConfusion)
  rw [Written.text_ofText, String.ofList_toList] at htext
  exact ⟨[token], next, .emit hstep (.refl next), hnext,
    fun table => htext ▸ derives_string hkind 0 table⟩

end

/-! ## Whole texts -/

/-- All tokens of a text without line breaks are on its only line. -/
theorem line_of_mem_tokenize {source : List Char} (hbreak : '\n' ∉ source) {token : Token}
    (hmem : token ∈ tokenize source) : token.line = 1 := by
  have htiles : Tiles [] source (tokenize source) := tiles_tokens rfl
  obtain ⟨gap, inside, after, rfl, hcovers⟩ := htiles.exists_covers token hmem
  have hgap : '\n' ∉ gap := fun h => hbreak (by simp [h])
  rw [Token.line, hcovers.position, Position.behind, List.nil_append,
    List.count_eq_zero.mpr hgap]

namespace Document

theorem propertyText_eq (text : List Char) :
    propertyText text = "object".toList ++ ' ' :: '\x7b' :: ' ' ::
      ("v".toList ++ ':' :: ' ' :: (text ++ [' ', '\x7d'])) := by
  have hfront : "object \x7b v: ".toList =
      "object".toList ++ ' ' :: '\x7b' :: ' ' :: ("v".toList ++ [':', ' ']) := by decide +kernel
  have hback : " \x7d".toList = [' ', '\x7d'] := by decide +kernel
  have hassoc (word name : List Char) :
      word ++ ' ' :: '\x7b' :: ' ' :: (name ++ [':', ' ']) ++ text ++ [' ', '\x7d'] =
        word ++ ' ' :: '\x7b' :: ' ' :: (name ++ ':' :: ' ' :: (text ++ [' ', '\x7d'])) := by
    simp
  calc propertyText text = "object \x7b v: ".toList ++ text ++ " \x7d".toList := rfl
    _ = _ := congr (congrArg _ (congrArg (· ++ text) hfront)) hback
    _ = _ := hassoc _ _

theorem break_notMem_propertyText {text : List Char} (h : '\n' ∉ text) :
    '\n' ∉ propertyText text := by
  have hfront : '\n' ∉ "object \x7b v: ".toList := by decide +kernel
  have hback : '\n' ∉ " \x7d".toList := by decide +kernel
  intro hmem
  obtain hmem | hmem := List.mem_append.mp hmem
  · exact (List.mem_append.mp hmem).elim hfront h
  · exact hback hmem

/-- Where a text is cut into tokens, the text of its property is cut into these and the tokens
around them. -/
theorem exists_propertyTokens {text : List Char} {P : List Token → Prop}
    (h : ∀ s, InLine [] 0 (text ++ [' ', '\x7d']) s → ∃ tokens next, Emits s tokens next ∧
      InLine [] 0 [' ', '\x7d'] next ∧ P tokens) :
    ∃ tokens, PropertyTokens tokens (tokenize (propertyText text)) ∧ P tokens := by
  have hobject : isWord "object".toList = true := by decide +kernel
  have hname : isWord "v".toList = true := by decide +kernel
  have hsource := propertyText_eq text
  have hbegins := Outline.begins_ofText (propertyText text)
  rw [List.append_nil, hsource] at hbegins
  obtain ⟨marks, headed, hmargin, hmarks, hheaded⟩ :=
    emits_margin (List.forall_mem_nil _) ((Written.ofWord hobject).opens _) hbegins
  have hlevels : relevel (indentation []) [] = ([], []) := rfl
  rw [hlevels] at hmarks hheaded
  obtain rfl := List.map_eq_nil_iff.mp hmarks
  obtain ⟨word, named, hword, hkind, htext, -, -, hnamed, -⟩ :=
    step_of_written (.ofWord hobject) (by decide) hheaded (bounds_cons (by decide) _)
      (.inr TokenKind.noConfusion)
  obtain ⟨before, hspace, hbefore, -⟩ := step_of_space hnamed
  obtain ⟨opening, opened, hopen, hopening, hopened, -⟩ := step_of_mark isMark_leftBrace hbefore
  obtain ⟨inside, hblank, hinside, -⟩ := step_of_space hopened
  obtain ⟨key, keyed, hkey, hkeyed, hv, -, -, hbehind, -⟩ :=
    step_of_written (.ofWord hname) (by decide) hinside (bounds_cons (by decide) _)
      (.inr TokenKind.noConfusion)
  obtain ⟨colon, parted, hmark, hcolon, hparted, -⟩ := step_of_mark isMark_colon hbehind
  obtain ⟨start, hgap, hstart, -⟩ := step_of_space hparted
  obtain ⟨tokens, stop, hvalue, hstop, htokens⟩ := h start hstart
  obtain ⟨last, hrest, hlast, -⟩ := step_of_space hstop
  obtain ⟨closing, next, hclose, hclosing, hnext, hline, -⟩ :=
    step_of_mark isMark_rightBrace hlast
  have hrun := hmargin.append (.emit hword (.skip hspace (.emit hopen (.skip hblank
    (.emit hkey (.emit hmark (.skip hgap (hvalue.append (.skip hrest (.emit hclose
      (.refl next)))))))))))
  have hend := tokens_of_close hnext.owed hnext.atLineStart hnext.rest
  rw [if_pos hline, hnext.levels] at hend
  have hall : tokenize (propertyText text) = word :: opening :: key :: colon ::
      (tokens ++ [closing, next.mark .newline, next.mark .eof]) := by
    rw [tokenize, hsource, hrun.tokens_eq, hend]
    simp
  refine ⟨tokens, ?_, htokens⟩
  rw [hall]
  exact .mk hkind htext hopening hkeyed hv hcolon hclosing rfl rfl

/-- A text that is cut into the tokens of a value on one line is what an object has as its
property. -/
theorem property?_of_emits (options : ParseOptions) {depth : Nat} {text : List Char}
    {expected : Value} (hbreak : '\n' ∉ text) (hroom : 1 + depth ≤ maxNesting)
    (h : ∀ s, InLine [] 0 (text ++ [' ', '\x7d']) s → ∃ tokens next, Emits s tokens next ∧
      InLine [] 0 [' ', '\x7d'] next ∧
      ∀ table, Derives depth (.nested .any expected) table tokens table) :
    property? options text = some expected := by
  obtain ⟨tokens, htokens, hderives⟩ := exists_propertyTokens h
  have hlines (token : Token) (hmem : token ∈ tokens) : token.line = 1 :=
    line_of_mem_tokenize (break_notMem_propertyText hbreak) (htokens.mem hmem)
  exact property?_of_derives options htokens hderives hlines hroom

end Document

/-! ## Strings and objects of strings -/

theorem break_notMem_escapeText (text : List Char) : '\n' ∉ escapeText text := by
  have hchar (c : Char) : '\n' ∉ escapeChar c := by
    unfold escapeChar
    split
    · decide
    split
    · decide
    split
    · decide
    next hbreak =>
    split
    · decide
    split
    · decide
    · simpa using Ne.symm hbreak
  simp [escapeText, hchar]

theorem break_notMem_keyChars (key : String) : '\n' ∉ keyChars key := by
  unfold keyChars
  split
  next hbare =>
    intro hmem
    cases hkey : key.toList with
    | nil =>
        rw [hkey] at hmem
        contradiction
    | cons c rest =>
        rw [hkey] at hbare hmem
        simp only [isBareKey, Bool.and_eq_true, List.all_eq_true] at hbare
        obtain rfl | hmem := List.mem_cons.mp hmem
        · exact absurd hbare.1 (by decide)
        · exact absurd (hbare.2 _ hmem) (by decide)
  next => exact break_notMem_escapeText key.toList

theorem break_notMem_separated {texts : List (List Char)} (h : ∀ text ∈ texts, '\n' ∉ text) :
    '\n' ∉ Value.separated texts := by
  induction texts with
  | nil => exact List.not_mem_nil
  | cons text rest ih =>
      obtain ⟨htext, hrest⟩ := List.forall_mem_cons.mp h
      cases rest with
      | nil => exact htext
      | cons next rest => simp [Value.separated, htext, ih hrest]

theorem break_notMem_object (entries : List (String × String)) :
    '\n' ∉ (Value.object (stringEntries entries)).chars := by
  have hseparated :
      '\n' ∉ Value.separated (Value.entryTexts (stringEntries entries)) := by
    rw [entryTexts_stringEntries]
    apply break_notMem_separated
    intro text hmem
    obtain ⟨entry, -, rfl⟩ := List.mem_map.mp hmem
    simp [break_notMem_keyChars, break_notMem_escapeText]
  rw [Value.chars]
  split
  · decide
  · simp [hseparated]

namespace Document

theorem property?_string (options : ParseOptions) (text : String) :
    property? options (Value.string text).chars = some (.string text) :=
  property?_of_emits options (break_notMem_escapeText text.toList) (by decide)
    fun _ h => emits_string text h

theorem property?_object (options : ParseOptions) (entries : List (String × String)) :
    property? options (Value.object (stringEntries entries)).chars =
      some (.object (stringEntries entries)) :=
  property?_of_emits options (break_notMem_object entries) (by decide)
    fun _ h => emits_object entries h

end Document

/-- A text in quotes is read back.  At the start of a text it is the first token, with the text
that was written and for all of the quotes; wherever else the scanner comes to it, nothing but
layout is emitted before its token.  So strings and keys, in whatever characters they are, are
those that were written. -/
theorem escapeText_reads_back (text rest : List Char) :
    (∃ more, tokenize (escapeText text ++ rest) =
      ⟨.string, String.ofList text, ⟨0, Text.byteLength (escapeText text)⟩, .start⟩ :: more) ∧
    (∀ front emitted s, Emits (.ofText (front ++ (escapeText text ++ rest))) emitted s →
      s.cursor = .behind front (escapeText text ++ rest) →
      ∃ marks more, tokenize (front ++ (escapeText text ++ rest)) =
          emitted ++ marks ++ ⟨.string, String.ofList text,
            ⟨Text.byteLength front, Text.byteLength (front ++ escapeText text)⟩,
            .behind front⟩ :: more ∧
        ∀ mark ∈ marks, mark.kind.isLayout = true) ∧
    ∀ options,
      Document.property? options (Value.string (String.ofList text)).chars =
        some (.string (String.ofList text)) ∧
      ∀ entries, Document.property? options (Value.object (stringEntries entries)).chars =
        some (.object (stringEntries entries)) := by
  refine ⟨?_, ?_, fun options =>
    ⟨Document.property?_string options _, Document.property?_object options⟩⟩
  · have hcursor : (Scanner.ofText (escapeText text ++ rest)).cursor =
        .behind [] (escapeText text ++ rest) := rfl
    obtain ⟨marks, next, hrun, hmarks, -⟩ := emits_quotes text hcursor
    obtain rfl := List.map_eq_nil_iff.mp hmarks
    exact ⟨next.tokens, hrun.tokens_eq⟩
  · intro front emitted s hrun hcursor
    obtain ⟨marks, next, hquotes, hmarks, -⟩ := emits_quotes text hcursor
    refine ⟨marks, next.tokens, ?_, fun mark hmem => ?_⟩
    · rw [tokenize, hrun.tokens_eq, hquotes.tokens_eq]
      simp [quotesToken]
    · have hkind := List.mem_map_of_mem (f := Token.kind) hmem
      rw [hmarks] at hkind
      have hlayout : mark.kind = .indent ∨ mark.kind = .dedent := by
        obtain howed | hdue := List.mem_append.mp hkind
        · exact hrun.layered.owed _ howed
        · split at hdue
          · exact mem_relevel hdue
          · contradiction
      obtain hlayout | hlayout := hlayout <;> rw [hlayout] <;> rfl

end SceneLang
