import SceneLang.Proofs.Bodies.Spelling

/-!
# Outlines are spelt

The text of an outline is cut into its tokens.  Where bodies are indented, an item may leave
levels open that are deeper than its own: the tokens that close them stand in front of the next
line, or at the end of the text, and belong to the item.  Where bodies are in braces, the layout
that the margins come to stands within these.
-/

namespace SceneLang

open Scanner

/-! ## Levels -/

namespace Scanner

variable {width : Nat} {deeper levels : List Nat}

theorem headD_relevel (width : Nat) (levels : List Nat) :
    (relevel width levels).1.headD 0 = width := by
  have hkept : (levels.dropWhile (width < ·)).headD 0 ≤ width := by
    have hhead := List.head?_dropWhile_not (fun level => decide (width < level)) levels
    cases hdrop : levels.dropWhile (width < ·) with
    | nil => exact Nat.zero_le width
    | cons level outer =>
        rw [hdrop, List.head?_cons] at hhead
        exact Nat.le_of_not_lt (of_decide_eq_false hhead)
  unfold relevel
  dsimp only
  split
  next => rfl
  next hwide => exact Nat.le_antisymm hkept (Nat.le_of_not_lt hwide)

theorem split_of_headD_le (h : levels.headD 0 ≤ width) :
    levels.dropWhile (width < ·) = levels ∧ levels.takeWhile (width < ·) = [] := by
  cases levels with
  | nil => exact ⟨rfl, rfl⟩
  | cons level outer =>
      have hlevel : ¬decide (width < level) = true := by simpa using h
      exact ⟨List.dropWhile_cons_of_neg hlevel, List.takeWhile_cons_of_neg hlevel⟩

/-- A line that is indented further opens one level. -/
theorem relevel_deeper (h : levels.headD 0 < width) :
    relevel width levels = (width :: levels, [.indent]) := by
  obtain ⟨hdrop, htake⟩ := split_of_headD_le (Nat.le_of_lt h)
  rw [relevel, hdrop, htake, if_pos h]
  rfl

/-- A line that goes back to an open level closes those that are deeper. -/
theorem relevel_back (hdeeper : ∀ level ∈ deeper, width < level)
    (hlevels : levels.headD 0 = width) :
    relevel width (deeper ++ levels) = (levels, List.replicate deeper.length .dedent) := by
  have hall : ∀ level ∈ deeper, decide (width < level) = true := fun level hmem =>
    decide_eq_true (hdeeper level hmem)
  obtain ⟨hdrop, htake⟩ := split_of_headD_le (Nat.le_of_eq hlevels)
  rw [relevel, List.dropWhile_append_of_pos hall, List.takeWhile_append_of_pos hall, hdrop, htake,
    if_neg (by omega), List.append_nil]

/-- At the end of the text every open level is closed. -/
theorem Begins.tokens_eq {s : Scanner} (h : Begins levels [] s) :
    ∃ dedents last, s.tokens = dedents ++ [last] ∧
      dedents.map Token.kind = List.replicate levels.length .dedent ∧ last.kind = .eof := by
  have hstep := step_of_lineStart h.owed h.atLineStart h.groups
  have hline : s.startLine = { s with cursor := s.cursor.skip 0, atLineStart := false } := by
    unfold startLine
    rw [h.rest]
    rfl
  rw [hline] at hstep
  have htokens := tokens_of_close
    (s := { s with cursor := s.cursor.skip 0, atLineStart := false }) h.owed rfl h.rest
  rw [if_neg (by rw [h.lineHasToken]; exact Bool.false_ne_true), List.nil_append] at htokens
  refine ⟨_, _, (tokens_of_skip hstep).trans htokens, ?_, rfl⟩
  rw [List.map_map, ← h.levels]
  exact List.map_id' _

end Scanner

namespace Outline

/-! ## Indented bodies -/

section

variable {spelt : List Token → Prop} {width : Nat} {levels : List Nat} {follow : List Char}
  {s : Scanner}

/-- Some lines with a margin of a width come to the tokens of something, up to the tokens that
close the levels deeper than the width which they leave open. -/
def Lays (spelt : List Token → Prop) (width : Nat) (levels : List Nat) (follow : List Char)
    (s : Scanner) : Prop :=
  ∃ marks tokens next deeper, Emits s (marks ++ tokens) next ∧
    marks.map Token.kind = (relevel width levels).2 ∧
    Begins (deeper ++ (relevel width levels).1) follow next ∧ (∀ level ∈ deeper, width < level) ∧
    ∀ dedents, dedents.map Token.kind = List.replicate deeper.length .dedent →
      spelt (tokens ++ dedents)

/-- The tokens are those of the item with what stands behind it. -/
def Item.SpeltOut (item : Item) (tokens : List Token) : Prop :=
  ∃ front gap, tokens = front ++ gap ∧ item.Spelt .indented front ∧ Between .indented item gap

/-- Lines that leave no level open. -/
theorem lays_of_line {item : Item} {marks front : List Token} {line : Token} {next : Scanner}
    (hrun : Emits s (marks ++ (front ++ [line])) next)
    (hmarks : marks.map Token.kind = (relevel width levels).2)
    (hnext : Begins (relevel width levels).1 follow next) (hfront : item.Spelt .indented front)
    (hline : line.kind = .newline) (hlines : item.hasLines = false) :
    Lays item.SpeltOut width levels follow s := by
  refine ⟨marks, front ++ [line], next, [], hrun, hmarks, hnext,
    fun level hmem => absurd hmem List.not_mem_nil, fun dedents hdedents => ?_⟩
  obtain rfl := List.map_eq_nil_iff.mp hdedents
  refine ⟨front, [line], List.append_nil _, hfront, ?_⟩
  unfold Between
  dsimp only
  rw [hlines, if_neg Bool.false_ne_true]
  exact ⟨line, rfl, hline⟩

/-- The tokens that close the levels of an item stand in front of the next one. -/
theorem lays_cons {item next : Item} {rest : List Item} {more : List Char}
    (hitem : Lays item.SpeltOut width levels more s)
    (hrest : ∀ levels s, Begins levels more s →
      Lays (Item.SpeltAll .indented (next :: rest)) width levels follow s) :
    Lays (Item.SpeltAll .indented (item :: next :: rest)) width levels follow s := by
  obtain ⟨marks, tokens, middle, deeper, hrun, hmarks, hmiddle, hdeeper, hspelt⟩ := hitem
  obtain ⟨closing, others, last, open', hmore, hclosing, hlast, hopen, hall⟩ :=
    hrest _ middle hmiddle
  rw [relevel_back hdeeper (headD_relevel width levels)] at hclosing hlast
  refine ⟨marks, tokens ++ (closing ++ others), last, open', ?_, hmarks, hlast, hopen,
    fun dedents hdedents => ?_⟩
  · have hwhole := hrun.append hmore
    rwa [List.append_assoc] at hwhole
  · obtain ⟨front, gap, hsplit, hfront, hgap⟩ := hspelt closing hclosing
    refine ⟨front, gap, others ++ dedents, ?_, hfront, hgap, hall dedents hdedents⟩
    rw [← List.append_assoc front, ← hsplit]
    simp only [List.append_assoc]

theorem lays_singleton {item : Item} (h : Lays item.SpeltOut width levels follow s) :
    Lays (Item.SpeltAll .indented [item]) width levels follow s := by
  obtain ⟨marks, tokens, next, deeper, hrun, hmarks, hnext, hdeeper, hspelt⟩ := h
  refine ⟨marks, tokens, next, deeper, hrun, hmarks, hnext, hdeeper, fun dedents hdedents => ?_⟩
  obtain ⟨front, gap, hsplit, hfront, hgap⟩ := hspelt dedents hdedents
  exact ⟨front, gap, [], by rw [hsplit, List.append_nil], hfront, hgap, rfl⟩

/-- An element with the lines of its body. -/
theorem lays_element {inner : Nat} {keyword : Keyword} {name : Option Quoted} {items : List Item}
    {marks head : List Token} {line : Token} {body : Scanner}
    (hrun : Emits s (marks ++ (head ++ [line])) body)
    (hmarks : marks.map Token.kind = (relevel width levels).2) (hhead : HeadSpelt keyword name head)
    (hline : line.kind = .newline) (hinner : width < inner) (hitems : items ≠ [])
    (hbody : Lays (Item.SpeltAll .indented items) inner (relevel width levels).1 follow body) :
    Lays (Item.element ⟨keyword, name, items⟩).SpeltOut width levels follow s := by
  obtain ⟨indents, inside, next, deeper, hinside, hindents, hnext, hdeeper, hall⟩ := hbody
  rw [relevel_deeper (by rw [headD_relevel]; exact hinner)] at hindents hnext
  obtain ⟨indent, rfl, hindent⟩ : ∃ indent, indents = [indent] ∧ indent.kind = .indent := by
    obtain ⟨indent, rfl, hindent⟩ := List.map_eq_singleton_iff.mp hindents
    exact ⟨indent, rfl, hindent⟩
  refine ⟨marks, head ++ line :: indent :: inside, next, deeper ++ [inner], ?_, hmarks, ?_, ?_,
    fun dedents hdedents => ?_⟩
  · have hwhole := hrun.append hinside
    simpa only [List.append_assoc, List.singleton_append, List.cons_append, List.nil_append] using
      hwhole
  · rwa [List.append_assoc]
  · intro level hmem
    obtain hmem | hmem := List.mem_append.mp hmem
    · exact Nat.lt_trans hinner (hdeeper level hmem)
    · exact List.mem_singleton.mp hmem ▸ hinner
  · rw [List.length_append, List.length_singleton, List.replicate_succ', List.map_eq_append_iff]
      at hdedents
    obtain ⟨closing, last, rfl, hclosing, hlast⟩ := hdedents
    obtain ⟨dedent, rfl, hdedent⟩ := List.map_eq_singleton_iff.mp hlast
    refine ⟨head ++ line :: indent :: (inside ++ closing ++ [dedent]), [], ?_, ?_, ?_⟩
    · simp only [List.append_assoc, List.cons_append, List.append_nil]
    · exact ⟨head, _, rfl, hhead, .inr ⟨hitems, line, indent, inside ++ closing, dedent, rfl,
        hline, hindent, hall closing hclosing, hdedent⟩⟩
    · obtain ⟨item, others, rfl⟩ := List.exists_cons_of_ne_nil hitems
      rfl

end

mutual

/-- The lines of an item are cut into its tokens. -/
theorem Item.lays {margins : Margins} (hdeepen : margins.Deepen) (path : List Nat) (index : Nat)
    (item : Item) {levels : List Nat} {follow : List Char} {s : Scanner}
    (h : Begins levels (item.chars .indented margins path index ++ follow) s) :
    Lays item.SpeltOut (indentation (margins.before path)) levels follow s := by
  match item with
  | .property key literal =>
      simp only [Item.chars, List.append_assoc, List.cons_append, List.nil_append] at h
      obtain ⟨marks, inside, hmargin, hmarks, hinside⟩ :=
        emits_margin (margins.blank path) (key.opens _) h
      obtain ⟨front, line, next, hrun, hfront, hline, hnext⟩ := emits_property key literal hinside
      exact lays_of_line (hmargin.append hrun) hmarks hnext hfront hline rfl
  | .trait name known =>
      simp only [Item.chars, List.append_assoc, List.cons_append, List.nil_append] at h
      obtain ⟨marks, inside, hmargin, hmarks, hinside⟩ :=
        emits_margin (margins.blank path) (opens_at _) h
      obtain ⟨front, line, next, hrun, hfront, hline, hnext⟩ := emits_trait name known hinside
      exact lays_of_line (hmargin.append hrun) hmarks hnext hfront hline rfl
  | .element element => exact Element.lays hdeepen path index element h

theorem Element.lays {margins : Margins} (hdeepen : margins.Deepen) (path : List Nat)
    (index : Nat) (element : Element) {levels : List Nat} {follow : List Char} {s : Scanner}
    (h : Begins levels (element.chars .indented margins path index ++ follow) s) :
    Lays (Item.element element).SpeltOut (indentation (margins.before path)) levels follow s := by
  obtain ⟨keyword, name, items⟩ := element
  simp only [Element.chars, List.append_assoc, List.cons_append] at h
  obtain ⟨marks, inside, hmargin, hmarks, hinside⟩ :=
    emits_margin (margins.blank path) (opens_headChars keyword name _) h
  obtain ⟨head, ended, hrun, hhead, hended, hline⟩ :=
    emits_head keyword name hinside (bounds_cons (by decide) _)
  obtain ⟨line, body, hend, hnewline, hbody⟩ := step_of_break_within hended hline
  have hlines := hmargin.append (hrun.append (.emit hend (.refl body)))
  by_cases hnone : items = []
  · subst hnone
    refine lays_of_line hlines hmarks hbody ?_ hnewline rfl
    exact ⟨head, [], (List.append_nil head).symm, hhead, .inl ⟨rfl, rfl⟩⟩
  · exact lays_element hlines hmarks hhead hnewline (hdeepen path index) hnone
      (Item.laysAll hdeepen (index :: path) 0 items hnone hbody)

/-- The lines of the items of a body are cut into their tokens. -/
theorem Item.laysAll {margins : Margins} (hdeepen : margins.Deepen) (path : List Nat)
    (index : Nat) (items : List Item) (hitems : items ≠ []) {levels : List Nat}
    {follow : List Char} {s : Scanner}
    (h : Begins levels (Item.charsAll .indented margins path index items ++ follow) s) :
    Lays (Item.SpeltAll .indented items) (indentation (margins.before path)) levels follow s := by
  match items with
  | [item] =>
      rw [Item.charsAll, Item.charsAll, List.append_nil] at h
      exact lays_singleton (Item.lays hdeepen path index item h)
  | item :: next :: rest =>
      rw [Item.charsAll, List.append_assoc] at h
      exact lays_cons (Item.lays hdeepen path index item h) fun levels s hmiddle =>
        Item.laysAll hdeepen path (index + 1) (next :: rest) (List.cons_ne_nil _ _) hmiddle

end

/-! ## Bodies in braces -/

/-- The tokens that lead to other levels are layout. -/
theorem isLayout_of_relevel {width : Nat} {levels : List Nat} {marks : List Token}
    (h : marks.map Token.kind = (relevel width levels).2) :
    ∀ token ∈ marks, token.kind.isLayout = true := by
  intro token hmem
  have hkind := List.mem_map_of_mem (f := Token.kind) hmem
  rw [h] at hkind
  obtain hkind | hkind := mem_relevel hkind <;> rw [hkind] <;> rfl

/-- Some lines come to the tokens of the items of a body in braces, behind some layout, whatever
layout stands behind them. -/
def LaysWithin (items : List Item) (follow : List Char) (s : Scanner) : Prop :=
  ∃ tokens next levels, Emits s tokens next ∧ Begins levels follow next ∧
    ∀ trail : List Token, (∀ token ∈ trail, token.kind.isLayout = true) →
      ∃ gap inside, tokens ++ trail = gap ++ inside ∧
        (∀ token ∈ gap, token.kind.isLayout = true) ∧ Item.SpeltAll .braced items inside

/-- The same for an item and the end of its last line. -/
def LaysOne (item : Item) (follow : List Char) (s : Scanner) : Prop :=
  ∃ marks front line next levels, Emits s (marks ++ (front ++ [line])) next ∧
    (∀ token ∈ marks, token.kind.isLayout = true) ∧ item.Spelt .braced front ∧
    line.kind = .newline ∧ Begins levels follow next

section

variable {levels : List Nat} {follow more : List Char} {s : Scanner}

theorem laysWithin_nil (h : Begins levels follow s) : LaysWithin [] follow s :=
  ⟨[], s, levels, .refl s, h, fun trail htrail => ⟨trail, [], by simp, htrail, rfl⟩⟩

/-- The layout in front of an item is what stands behind the item before. -/
theorem laysWithin_cons {item : Item} {rest : List Item} (hitem : LaysOne item more s)
    (hrest : ∀ levels s, Begins levels more s → LaysWithin rest follow s) :
    LaysWithin (item :: rest) follow s := by
  obtain ⟨marks, front, line, middle, _, hrun, hmarks, hfront, hline, hmiddle⟩ := hitem
  obtain ⟨tokens, next, levels, hmore, hnext, hall⟩ := hrest _ middle hmiddle
  refine ⟨marks ++ (front ++ [line]) ++ tokens, next, levels, hrun.append hmore, hnext,
    fun trail htrail => ?_⟩
  obtain ⟨gap, inside, hsplit, hgap, hinside⟩ := hall trail htrail
  refine ⟨marks, front ++ (line :: gap ++ inside), ?_, hmarks, front, line :: gap, inside, rfl,
    hfront, ?_, hinside⟩
  · rw [List.append_assoc, hsplit]
    simp only [List.append_assoc, List.cons_append, List.nil_append]
  · exact List.forall_mem_cons.mpr ⟨by rw [hline]; rfl, hgap⟩

end

mutual

/-- The lines of an item in braces are cut into its tokens. -/
theorem Item.laysOne (margins : Margins) (path : List Nat) (index : Nat) (item : Item)
    {levels : List Nat} {follow : List Char} {s : Scanner}
    (h : Begins levels (item.chars .braced margins path index ++ follow) s) :
    LaysOne item follow s := by
  match item with
  | .property key literal =>
      simp only [Item.chars, List.append_assoc, List.cons_append, List.nil_append] at h
      obtain ⟨marks, inside, hmargin, hmarks, hinside⟩ :=
        emits_margin (margins.blank path) (key.opens _) h
      obtain ⟨front, line, next, hrun, hfront, hline, hnext⟩ := emits_property key literal hinside
      exact ⟨marks, front, line, next, _, hmargin.append hrun, isLayout_of_relevel hmarks, hfront,
        hline, hnext⟩
  | .trait name known =>
      simp only [Item.chars, List.append_assoc, List.cons_append, List.nil_append] at h
      obtain ⟨marks, inside, hmargin, hmarks, hinside⟩ :=
        emits_margin (margins.blank path) (opens_at _) h
      obtain ⟨front, line, next, hrun, hfront, hline, hnext⟩ := emits_trait name known hinside
      exact ⟨marks, front, line, next, _, hmargin.append hrun, isLayout_of_relevel hmarks, hfront,
        hline, hnext⟩
  | .element element => exact Element.laysOne margins path index element h

theorem Element.laysOne (margins : Margins) (path : List Nat) (index : Nat) (element : Element)
    {levels : List Nat} {follow : List Char} {s : Scanner}
    (h : Begins levels (element.chars .braced margins path index ++ follow) s) :
    LaysOne (.element element) follow s := by
  obtain ⟨keyword, name, items⟩ := element
  simp only [Element.chars, List.append_assoc, List.cons_append, List.nil_append] at h
  obtain ⟨marks, inside, hmargin, hmarks, hinside⟩ :=
    emits_margin (margins.blank path) (opens_headChars keyword name _) h
  obtain ⟨head, ended, hrun, hhead, hended, -⟩ :=
    emits_head keyword name hinside (bounds_cons (by decide) _)
  obtain ⟨spaced, hspace, hspaced, -⟩ := step_of_space hended
  obtain ⟨opening, opened, hopen, hopening, hopened, hline, -⟩ :=
    step_of_mark Lexeme.isMark_leftBrace hspaced
  obtain ⟨line, body, hend, hnewline, hbody⟩ := step_of_break_within hopened hline
  obtain ⟨tokens, last, levels, hitems, hlast, hall⟩ :=
    Item.laysWithin margins (index :: path) 0 items hbody
  obtain ⟨dedents, closed, hdedents, hkinds, hclosed⟩ :=
    emits_margin (margins.blank path) (opens_rightBrace _) hlast
  obtain ⟨closing, outside, hclose, hclosing, houtside, hfull, -⟩ :=
    step_of_mark Lexeme.isMark_rightBrace hclosed
  obtain ⟨final, next, hfinal, hnewlines, hnext⟩ := step_of_break_within houtside hfull
  obtain ⟨gap, items', hsplit, hgap, hspelt⟩ := hall dedents (isLayout_of_relevel hkinds)
  refine ⟨marks, head ++ opening :: (line :: gap ++ (items' ++ [closing])), final, next, _, ?_,
    isLayout_of_relevel hmarks, ?_, hnewlines, hnext⟩
  · have hwhole := hmargin.append (hrun.append (.skip hspace (.emit hopen (.emit hend
      (hitems.append (hdedents.append (.emit hclose (.emit hfinal (.refl next)))))))))
    rw [← List.append_assoc tokens, hsplit] at hwhole
    simpa only [List.append_assoc, List.cons_append, List.nil_append] using hwhole
  · exact ⟨head, _, rfl, hhead, opening, line :: gap, items', closing, rfl, hopening,
      List.forall_mem_cons.mpr ⟨by rw [hnewline]; rfl, hgap⟩, hspelt, hclosing⟩

/-- The lines of the items of a body in braces are cut into their tokens. -/
theorem Item.laysWithin (margins : Margins) (path : List Nat) (index : Nat) (items : List Item)
    {levels : List Nat} {follow : List Char} {s : Scanner}
    (h : Begins levels (Item.charsAll .braced margins path index items ++ follow) s) :
    LaysWithin items follow s := by
  match items with
  | [] => exact laysWithin_nil h
  | item :: rest =>
      rw [Item.charsAll, List.append_assoc] at h
      exact laysWithin_cons (Item.laysOne margins path index item h) fun levels s hmiddle =>
        Item.laysWithin margins path (index + 1) rest hmiddle

end

/-! ## Texts -/

variable {margins : Margins} (outline : Outline)

theorem begins_ofText (text : List Char) : Begins [] (text ++ []) (ofText text) :=
  ⟨⟨rfl, rfl, rfl, (List.append_nil text).symm⟩, rfl, rfl⟩

/-- The tokens of a text are those of the outline, in front of the mark of its end. -/
def SpeltBy (style : Style) (tokens : List Token) : Prop :=
  ∃ gap inside last, tokens = gap ++ (inside ++ [last]) ∧
    (∀ token ∈ gap, token.kind.isLayout = true) ∧
    Item.SpeltAll style (outline.map .element) inside ∧ last.kind = .eof

theorem speltBy_indented (hdeepen : margins.Deepen) :
    SpeltBy outline .indented (tokenize (outline.chars .indented margins)) := by
  have hnone : ∀ token ∈ ([] : List Token), token.kind.isLayout = true := by simp
  have hbegins := begins_ofText (outline.chars .indented margins)
  cases outline with
  | nil =>
      obtain ⟨dedents, last, htokens, hdedents, hlast⟩ := hbegins.tokens_eq
      obtain rfl := List.map_eq_nil_iff.mp hdedents
      exact ⟨[], [], last, htokens, hnone, rfl, hlast⟩
  | cons element outline =>
      obtain ⟨marks, tokens, next, deeper, hrun, hmarks, hnext, -, hall⟩ :=
        Item.laysAll hdeepen [] 0 _ (by simp) hbegins
      -- Outermost lines have no margin, and lead to no level.
      have hlevels : relevel (indentation (margins.before [])) [] = ([], []) := by
        rw [margins.outermost]
        rfl
      rw [hlevels] at hmarks hnext
      obtain rfl := List.map_eq_nil_iff.mp hmarks
      rw [List.append_nil] at hnext
      obtain ⟨dedents, last, htokens, hdedents, hlast⟩ := hnext.tokens_eq
      refine ⟨[], tokens ++ dedents, last, ?_, hnone, hall dedents hdedents, hlast⟩
      rw [tokenize, hrun.tokens_eq, htokens]
      simp only [List.nil_append, List.append_assoc]

theorem speltBy_braced (margins : Margins) :
    SpeltBy outline .braced (tokenize (outline.chars .braced margins)) := by
  obtain ⟨tokens, next, levels, hrun, hnext, hall⟩ :=
    Item.laysWithin margins [] 0 _ (begins_ofText (outline.chars .braced margins))
  obtain ⟨dedents, last, htokens, hdedents, hlast⟩ := hnext.tokens_eq
  have hlayout : ∀ token ∈ dedents, token.kind.isLayout = true := by
    intro token hmem
    have hkind := List.mem_map_of_mem (f := Token.kind) hmem
    rw [hdedents] at hkind
    rw [List.eq_of_mem_replicate hkind]
    rfl
  obtain ⟨gap, inside, hsplit, hgap, hspelt⟩ := hall dedents hlayout
  refine ⟨gap, inside, last, ?_, hgap, hspelt, hlast⟩
  rw [tokenize, hrun.tokens_eq, htokens, ← List.append_assoc, hsplit, List.append_assoc]

end Outline

end SceneLang
