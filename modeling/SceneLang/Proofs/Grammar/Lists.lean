import SceneLang.Proofs.Grammar.Reading

/-!
# What is derived within brackets is read

A value within another one is read one level of nesting further in.  The items of a list and
the entries of an object are read by loops, of which each turn reads one item, or one entry or
a separator.
-/

namespace SceneLang
namespace Grammar

open Parser

section

variable {depth line levels : Nat} {before middle after : Table String} {context : Context}
  {state next : State} {token closing comma : Token} {tokens front back rest : List Token}
  {value : Value}

/-! ## Nested values -/

theorem nested_eq_deeper (levels : Nat) (strength : Strength) :
    nested (levels + 1) strength =
      deeper refuseValue ((Level.ofStrength strength).parser (nested levels)) := by
  cases strength <;> rfl

theorem returns_deeper_of_lt {α : Type} {refused body : Parser α} {post : α → State → Prop}
    (hroom : state.nesting < maxNesting) :
    Returns (deeper refused body) context state post ↔
      Returns body context { state with nesting := state.nesting + 1 } fun value next =>
        post value { next with nesting := next.nesting - 1 } := by
  rw [deeper, returns_bind, enter, returns_bind, returns_get, if_neg (Nat.not_le.mpr hroom),
    returns_bind, returns_modify, returns_pure, if_pos rfl, returns_bind]
  simp only [returns_bind, leave, returns_modify, returns_pure]

theorem parses_nested {strength : Strength}
    (ih : Parses depth (.expr (.ofStrength strength) value) before tokens after) :
    Parses (depth + 1) (.nested strength value) before tokens after := by
  intro line levels context state rest htokens hlevels hstart hstops post hpost
  have hroom := hstart.room
  cases levels with
  | zero => exact absurd hlevels (Nat.not_succ_le_zero depth)
  | succ levels =>
      rw [nested_eq_deeper, returns_deeper_of_lt (by omega)]
      have hinside : Start depth before (tokens ++ rest)
          { state with nesting := state.nesting + 1 } :=
        ⟨hstart.ended, hstart.visible, by dsimp only; omega, hstart.calm, hstart.table⟩
      refine ih.settle htokens (Nat.le_of_succ_le_succ hlevels) hinside hstops _
        fun next hread => ?_
      have hleft : Read line rest after state { next with nesting := next.nesting - 1 } :=
        ⟨hread.ended, hread.ahead, hread.shorter, hread.line, hread.braceDepth,
          by rw [hread.nesting]; exact Nat.add_sub_cancel _ _, hread.calm, hread.log,
          hread.imports, hread.table⟩
      rw [returns_pure]
      exact returns_pure.mp (hpost _ hleft)

/-! ## Items -/

theorem Read.noted (h : Read line rest after state next) (features : List Feature) :
    Read line rest after state { next with features := features } :=
  ⟨h.ended, h.ahead, h.shorter, h.line, h.braceDepth, h.nesting, h.calm, h.log, h.imports,
    h.table⟩

theorem startsValue_ne_spread {kind : TokenKind} (h : startsValue kind = true) :
    kind ≠ .spread := by
  rintro rfl
  contradiction

theorem parses_item (hvalue : Derives depth (.nested .any value) before tokens after)
    (ih : Parses depth (.nested .any value) before tokens after) :
    Parses depth (.item value) before tokens after := by
  intro line levels context state rest htokens hlevels hstart hstops post hpost
  obtain ⟨hempty, -⟩ | ⟨first, others, rfl, hfirst⟩ := hvalue.head
  · exact hempty.elim
  · rw [sequenceItem, returns_bind, hstart.sees.eat_of_ne (startsValue_ne_spread hfirst),
      if_neg Bool.false_ne_true]
    exact ih line levels context state rest htokens hlevels hstart hstops post hpost

theorem parses_spreadItem {dots : Token} (hdots : dots.kind = .spread)
    (hvalue : Derives depth (.nested .any value) before tokens after)
    (ih : Parses depth (.nested .any value) before tokens after) :
    Parses depth (.item (.spread value)) before (dots :: tokens) after := by
  intro line levels context state rest hline hlevels hstart hstops post hpost
  rw [List.forall_mem_cons] at hline
  have hdotted := hstart.read_advance (.of_kind hdots rfl) (by rw [hdots]; rfl) hline.1
  rw [sequenceItem, returns_bind, hstart.sees.eat_of_eq hdots, if_pos rfl, returns_bind]
  apply returns_use_features
  intro features
  have hnoted := hdotted.noted features
  have hinside := hvalue.start id hnoted hstart.room
  rw [returns_bind]
  apply ih line levels context _ rest hline.2 hlevels hinside
  · rw [hnoted.braceDepth]
    exact hstops
  · intro next hread
    rw [returns_pure, returns_pure]
    exact returns_pure.mp (hpost next (hnoted.trans hread))

theorem parses_noItems : Parses depth (.items []) before [] before := by
  intro line levels context state rest _ _ hstart hahead hline delimiter closing others _ _ _
    items post hpost
  have hread := read_refl hstart.ended hline hstart.calm
  rw [hahead, hstart.table] at hread
  exact hpost state hread

theorem startsItem_open {kind : TokenKind} (h : startsValue kind = true ∨ kind = .spread) :
    (∀ delimiter : Delimiter, kind ≠ delimiter.closing) ∧ kind.isCloser = false := by
  constructor
  · intro delimiter hkind
    subst hkind
    cases delimiter <;> rcases h with h | h <;> contradiction
  · cases kind <;> first | rfl | (rcases h with h | h <;> contradiction)

/-- One turn of the loop reads an item, and goes on behind it. -/
theorem Parses.turn {delimiter : Delimiter} {items : List Value}
    {post : ForInStep (List Value × Bool) → State → Prop}
    (hitem : Derives depth (.item value) before tokens after)
    (ih : Parses depth (.item value) before tokens after)
    (htokens : ∀ token ∈ tokens, token.line = line) (hlevels : depth ≤ levels)
    (hstart : Start depth before (tokens ++ rest) state)
    (hstops : Stops .coalesce line state.braceDepth rest)
    (hpost : ∀ next, Read line rest after state next →
      Returns (sequenceNext delimiter (value :: items)) context next post) :
    Returns (sequenceTurn (nested levels) delimiter items) context state post := by
  obtain ⟨hempty, -⟩ | ⟨first, others, hfirst, hstarts⟩ := hitem.head
  · exact hempty.elim
  have hsees : Sees first (others ++ rest) state := by
    rw [hfirst] at hstart
    exact hstart.sees
  obtain ⟨hopen, hcloser⟩ := startsItem_open hstarts
  rw [sequenceTurn, returns_bind, hsees.eat_of_ne (hopen delimiter), if_neg Bool.false_ne_true,
    returns_bind, hsees.currentKind, hcloser, if_neg Bool.false_ne_true, returns_bind,
    returns_setValueFailed hstart.calm, returns_bind]
  apply ih line levels context state rest htokens hlevels hstart hstops
  intro next hread
  rw [returns_pure, returns_bind, returns_ifFailed hread.calm]
  exact hpost next hread

theorem closing_ne_comma (delimiter : Delimiter) : delimiter.closing ≠ .comma := by
  cases delimiter <;> decide

theorem parses_lastItem (hitem : Derives depth (.item value) before tokens after)
    (ih : Parses depth (.item value) before tokens after) :
    Parses depth (.items [value]) before tokens after := by
  intro line levels context state rest htokens hlevels hstart hahead _ delimiter closing others _
    hrest hclosing items post hpost
  subst hrest
  have hplain := plain_closing hclosing
  have hstops : Stops .coalesce line state.braceDepth (closing :: others) :=
    stops_cons hplain.1 (ends_of_joins?_eq_none (joins?_closing hclosing))
  rw [returns_iterate]
  apply ih.turn hitem htokens hlevels hstart hstops
  intro next hread
  have hsees := hread.sees hplain.1
  have hcomma : closing.kind ≠ .comma := by
    rw [hclosing]
    exact closing_ne_comma delimiter
  rw [sequenceNext, returns_bind, hsees.eat_of_ne hcomma, if_neg Bool.false_ne_true, returns_bind,
    hsees.check, decide_eq_true hclosing, if_pos rfl, returns_pure]
  constructor
  · obtain ⟨hempty, -⟩ | ⟨first, back, rfl, -⟩ := hitem.head
    · exact hempty.elim
    · rw [hread.ahead, hahead, List.length_append]
      exact Nat.lt_add_of_pos_left (Nat.succ_pos _)
  · exact hpost next hread

theorem parses_consItem {values : List Value} (hcomma : comma.kind = .comma)
    (hitem : Derives depth (.item value) before front middle)
    (hitems : Derives depth (.items values) middle back after)
    (ih : Parses depth (.item value) before front middle)
    (ihItems : Parses depth (.items values) middle back after) :
    Parses depth (.items (value :: values)) before (front ++ comma :: back) after := by
  intro line levels context state rest hline hlevels hstart hahead _ delimiter closing others
    hbrackets hrest hclosing items post hpost
  rw [List.forall_mem_append, List.forall_mem_cons] at hline
  obtain ⟨hfront, hcommaLine, hback⟩ := hline
  rw [List.append_assoc] at hstart hahead
  have hplain : Plain comma := .of_kind hcomma rfl
  have hstops : Stops .coalesce line state.braceDepth (comma :: back ++ rest) :=
    stops_cons hplain.1 (ends_of_joins?_eq_none (by rw [joins?, hcomma]))
  rw [returns_iterate]
  apply ih.turn hitem hfront hlevels hstart hstops
  intro next hread
  have hsees := hread.sees hplain.1
  have hseparated := hread.advance hplain (by rw [hcomma]; rfl) hcommaLine
  rw [sequenceNext, returns_bind, hsees.eat_of_eq hcomma, if_pos rfl, returns_pure]
  constructor
  · have hafter : next.advance.ahead = back ++ rest := hseparated.ahead
    rw [hafter, hahead, List.cons_append, List.length_append, List.length_append,
      List.length_cons, List.length_append]
    omega
  · have hinside : Start depth middle (back ++ rest) next.advance := by
      subst hrest
      exact hseparated.start_closing hitems.plain (plain_closing hclosing) hstart.room
    apply ihItems line levels context next.advance rest hback hlevels hinside hseparated.ahead
      hseparated.line delimiter closing others hbrackets hrest hclosing (value :: items)
    intro last hlast
    have hdone := hpost last (hseparated.trans hlast)
    rwa [List.reverse_cons, List.append_assoc] at hdone

/-! ## Entries -/

theorem parses_noEntries : Parses depth (.entries []) before [] before := by
  intro line levels context state rest _ _ hstart hahead hline opening closing others _ _
    entries post hpost
  have hread := read_refl hstart.ended hline hstart.calm
  rw [hahead, hstart.table] at hread
  exact hpost state hread

theorem joins?_of_startsEntry (h : startsEntry token.kind = true) : joins? line token = none := by
  unfold joins?
  cases hkind : token.kind <;> rw [hkind] at h <;> first | rfl | contradiction

/-- Behind an entry comes another one or the closing brace. -/
theorem Derives.stops {entries : List ObjectEntry} {others : List Token} {braceDepth : Nat}
    (h : Derives depth (.entries entries) before tokens after)
    (hclosing : closing.kind = .rightBrace) :
    Stops .coalesce line braceDepth (tokens ++ closing :: others) := by
  have hplain := h.plain
  obtain ⟨-, rfl⟩ | ⟨first, rest, rfl, hfirst⟩ := h.head
  · exact stops_cons (by rw [hclosing]; rfl)
      (ends_of_joins?_eq_none (by rw [joins?, hclosing]))
  · exact stops_cons (hplain first List.mem_cons_self).1
      (ends_of_joins?_eq_none (joins?_of_startsEntry hfirst))

/-- What is left of the entries is read behind one that has been read. -/
theorem Parses.more {values entries : List ObjectEntry} {entry : ObjectEntry} {opening : Token}
    {others : List Token} {post : List ObjectEntry × Bool → State → Prop}
    (hentries : Derives depth (.entries entries) middle back after)
    (ih : Parses depth (.entries entries) middle back after)
    (hback : ∀ token ∈ back, token.line = line) (hlevels : depth ≤ levels)
    (hclosing : closing.kind = .rightBrace)
    (hread : Read line (back ++ closing :: others) middle state next)
    (hroom : state.nesting + depth ≤ maxNesting)
    (hpost : ∀ last, Read line (closing :: others) after state last →
      Returns (iterate ((entry :: entries).reverse ++ values, false) fun found =>
        objectTurn (nested levels) opening found.1) context last post) :
    Returns (iterate (entry :: values, false) fun found =>
      objectTurn (nested levels) opening found.1) context next post := by
  have hinside := hread.start_closing hentries.plain (.of_kind hclosing rfl) hroom
  apply ih line levels context next (closing :: others) hback hlevels hinside hread.ahead
    hread.line opening closing others rfl hclosing (entry :: values)
  intro last hlast
  have hdone := hpost last (hread.trans hlast)
  rwa [List.reverse_cons, List.append_assoc] at hdone

theorem parses_separator {mark : Token} {entries : List ObjectEntry}
    (hmark : mark.kind = .comma ∨ mark.kind = .semicolon)
    (hentries : Derives depth (.entries entries) before tokens after)
    (ih : Parses depth (.entries entries) before tokens after) :
    Parses depth (.entries entries) before (mark :: tokens) after := by
  intro line levels context state rest hline hlevels hstart hahead _ opening closing others
    hrest hclosing found post hpost
  subst hrest
  rw [List.forall_mem_cons] at hline
  have hplain : Plain mark := by
    rcases hmark with hmark | hmark
    · exact .of_kind hmark rfl
    · exact .of_kind hmark rfl
  have hbraces (depth : Nat) : depthAfter depth mark.kind = depth := by
    rcases hmark with hmark | hmark <;> rw [hmark] <;> rfl
  have hmarked := hstart.read_advance hplain (hbraces _) hline.1
  have hturn : Returns (objectTurn (nested levels) opening found) context state fun step next =>
      step = .yield (found, false) ∧ next = state.advance := by
    rw [objectTurn, returns_bind, hstart.sees.current]
    rcases hmark with hmark | hmark <;> rw [hmark] <;> dsimp only <;>
      rw [returns_bind, hstart.sees.advance, returns_pure] <;> exact ⟨rfl, rfl⟩
  rw [returns_iterate]
  apply hturn.mono
  rintro _ _ ⟨rfl, rfl⟩
  constructor
  · rw [hmarked.ahead]
    exact hstart.sees.shorter hplain
  · have hinside := hmarked.start_closing hentries.plain (.of_kind hclosing rfl) hstart.room
    apply ih line levels context state.advance (closing :: others) hline.2 hlevels hinside
      hmarked.ahead hmarked.line opening closing others rfl hclosing found
    intro last hlast
    exact hpost last (hmarked.trans hlast)

theorem returns_objectTurn_of_isKey {inner : Inner} {opening key : Token}
    {entries : List ObjectEntry} {post : ForInStep (List ObjectEntry × Bool) → State → Prop}
    (hsees : Sees key rest state) (hkey : isKey key.kind = true) :
    Returns (objectTurn inner opening entries) context state post ↔
      Returns (do
        let value ← fieldValue inner key
        ifFailed recoverInList
        return .yield (.field key.text value :: entries, false)) context state.advance post := by
  rw [objectTurn, returns_bind, hsees.current]
  cases hkind : key.kind <;> rw [hkind] at hkey <;>
    first
      | contradiction
      | (dsimp only; rw [returns_bind, hsees.advance])

theorem depthAfter_isKey (h : isKey token.kind = true) (depth : Nat) :
    depthAfter depth token.kind = depth := by
  cases hkind : token.kind <;> rw [hkind] at h <;> first | rfl | contradiction

theorem depthAfter_separatesKey (h : token.kind.separatesKey = true) (depth : Nat) :
    depthAfter depth token.kind = depth := by
  cases hkind : token.kind <;> rw [hkind] at h <;> first | rfl | contradiction

theorem parses_field {key colon : Token} {entries : List ObjectEntry}
    (hkey : isKey key.kind = true) (hcolon : colon.kind.separatesKey = true)
    (hvalue : Derives depth (.nested .any value) before front middle)
    (hentries : Derives depth (.entries entries) middle back after)
    (ih : Parses depth (.nested .any value) before front middle)
    (ihEntries : Parses depth (.entries entries) middle back after) :
    Parses depth (.entries (.field key.text value :: entries)) before
      (key :: colon :: (front ++ back)) after := by
  intro line levels context state rest hline hlevels hstart hahead _ opening closing others
    hrest hclosing found post hpost
  subst hrest
  rw [List.forall_mem_cons, List.forall_mem_cons, List.forall_mem_append] at hline
  obtain ⟨hkeyLine, hcolonLine, hfront, hback⟩ := hline
  have hassoc : key :: colon :: (front ++ back) ++ closing :: others =
      key :: colon :: (front ++ (back ++ closing :: others)) := by simp
  rw [hassoc] at hstart hahead
  have hnamed := hstart.read_advance (plain_key hkey) (depthAfter_isKey hkey _) hkeyLine
  have hsees := hnamed.sees (plain_separatesKey hcolon).1
  have hseparated := hnamed.advance (plain_separatesKey hcolon)
    (depthAfter_separatesKey hcolon _) hcolonLine
  rw [returns_iterate, returns_objectTurn_of_isKey hstart.sees hkey, returns_bind, fieldValue,
    returns_bind, hsees.currentKind, if_pos hcolon, returns_bind, hsees.advance]
  apply ih line levels context state.advance.advance _ hfront hlevels
    (hvalue.start id hseparated hstart.room) (hentries.stops hclosing)
  intro next hread
  rw [returns_pure, returns_bind, returns_ifFailed hread.calm, returns_pure]
  constructor
  · rw [hread.ahead, hahead]
    simp only [List.length_cons, List.length_append]
    omega
  · exact ihEntries.more hentries hback hlevels hclosing (hseparated.trans hread) hstart.room hpost

theorem parses_shorthand {key : Token} {entries : List ObjectEntry}
    (hkey : key.kind = .identifier) (hnext : ∀ next ∈ tokens.head?, next.kind = .comma)
    (hentries : Derives depth (.entries entries) before tokens after)
    (ih : Parses depth (.entries entries) before tokens after) :
    Parses depth (.entries (.field key.text (.reference key.text) :: entries)) before
      (key :: tokens) after := by
  intro line levels context state rest hline hlevels hstart hahead _ opening closing others
    hrest hclosing found post hpost
  subst hrest
  rw [List.forall_mem_cons] at hline
  have hisKey : isKey key.kind = true := by rw [hkey]; rfl
  have hnamed := hstart.read_advance (plain_key hisKey) (depthAfter_isKey hisKey _) hline.1
  obtain ⟨follow, more, hfollow, hkind⟩ : ∃ follow more, Sees follow more state.advance ∧
      (follow.kind = .comma ∨ follow.kind = .rightBrace) := by
    cases tokens with
    | nil => exact ⟨closing, others, hnamed.sees (by rw [hclosing]; rfl), .inr hclosing⟩
    | cons first tokens =>
        have hfirst := hnext first rfl
        exact ⟨first, _, hnamed.sees (by rw [hfirst]; rfl), .inl hfirst⟩
  have hcolon : ¬follow.kind.separatesKey = true := by
    rcases hkind with hkind | hkind <;> rw [hkind] <;> exact Bool.false_ne_true
  rw [returns_iterate, returns_objectTurn_of_isKey hstart.sees hisKey, returns_bind, fieldValue,
    returns_bind, hfollow.currentKind, if_neg hcolon, if_pos ⟨hkey, hkind⟩, returns_pure,
    returns_bind, returns_ifFailed hnamed.calm, returns_pure]
  constructor
  · rw [hnamed.ahead]
    exact hstart.sees.shorter (plain_key hisKey)
  · exact ih.more hentries hline.2 hlevels hclosing hnamed hstart.room hpost

theorem parses_spreadEntry {dots : Token} {entries : List ObjectEntry}
    (hdots : dots.kind = .spread)
    (hvalue : Derives depth (.nested .any value) before front middle)
    (hentries : Derives depth (.entries entries) middle back after)
    (ih : Parses depth (.nested .any value) before front middle)
    (ihEntries : Parses depth (.entries entries) middle back after) :
    Parses depth (.entries (.spread value :: entries)) before (dots :: (front ++ back))
      after := by
  intro line levels context state rest hline hlevels hstart hahead _ opening closing others
    hrest hclosing found post hpost
  subst hrest
  rw [List.forall_mem_cons, List.forall_mem_append] at hline
  obtain ⟨hdotsLine, hfront, hback⟩ := hline
  have hassoc : dots :: (front ++ back) ++ closing :: others =
      dots :: (front ++ (back ++ closing :: others)) := by simp
  rw [hassoc] at hstart hahead
  have hdotted := hstart.read_advance (.of_kind hdots rfl) (by rw [hdots]; rfl) hdotsLine
  rw [returns_iterate, objectTurn, returns_bind, hstart.sees.current, hdots]
  dsimp only
  rw [returns_bind, hstart.sees.advance, returns_bind]
  apply returns_use_features
  intro features
  have hnoted := hdotted.noted features
  rw [returns_bind]
  apply ih line levels context _ _ hfront hlevels (hvalue.start id hnoted hstart.room)
    (hentries.stops hclosing)
  intro next hread
  rw [returns_pure, returns_bind, returns_ifFailed hread.calm, returns_pure]
  constructor
  · rw [hread.ahead, hahead]
    simp only [List.length_cons, List.length_append]
    omega
  · exact ihEntries.more hentries hback hlevels hclosing (hnoted.trans hread) hstart.room hpost

end

end Grammar
end SceneLang
