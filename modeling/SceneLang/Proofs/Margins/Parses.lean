import SceneLang.Proofs.Margins.Documents
import SceneLang.Proofs.Margins.Scanners

/-!
# Layout within braces

Margins of lines within braces do not matter to a parse but for the texts that it keeps as they
are written, and for levels of indentation that are opened within braces and seen behind them.
-/

namespace SceneLang

/-! ## The tokens of two texts that differ in margins

The runs of two scanners side by side are woven together: plain tokens and line breaks come in
pairs, what the heads of lines ask for is hidden within braces and the same outside of them.
-/

open SceneLang.Parser (depthAfter)
open Text (isMargin ink Corresponds)

variable {source other : List Char} {depth : Nat} {behind : Bool} {tokens tokens' : List Token}

/-! ## Layout in a row -/

theorem Cursor.Along.twins {s s' : Scanner} {within : Nat → Prop}
    (h : s.cursor.Along source other within s'.cursor) {kind : TokenKind}
    (hbrace : kind.isBrace = false) :
    (s.mark kind).Twins (Corresponds source other) (s'.mark kind) where
  kind := rfl
  text := rfl
  line := h.line
  start := h.corresponds
  width := ⟨0, rfl, rfl⟩
  stop := fun _ => h.corresponds
  brace := fun hother => absurd (hbrace.symm.trans hother) Bool.false_ne_true

namespace Woven

variable {offset : Nat → Nat → Prop}

theorem hide {front front' : List Token} (hdepth : 0 < depth)
    (hfront : ∀ token ∈ front, token.kind.isLayout = true)
    (hfront' : ∀ token ∈ front', token.kind.isLayout = true)
    (h : Woven offset true depth tokens tokens') :
    Woven offset true depth (front ++ tokens) (front' ++ tokens') := by
  induction front with
  | cons token front ih =>
      obtain ⟨htoken, hfront⟩ := List.forall_mem_cons.mp hfront
      exact .left hdepth htoken (ih hfront)
  | nil =>
      induction front' with
      | nil => exact h
      | cons token front' ih =>
          obtain ⟨htoken, hfront'⟩ := List.forall_mem_cons.mp hfront'
          exact .right hdepth htoken (ih hfront')

theorem marks {s s' : Scanner} {kinds : List TokenKind}
    (hlayout : ∀ kind ∈ kinds, kind.isLayout = true)
    (htwins : ∀ kind ∈ kinds, (s.mark kind).Twins offset (s'.mark kind))
    (h : Woven offset true depth tokens tokens') :
    Woven offset true depth (kinds.map s.mark ++ tokens) (kinds.map s'.mark ++ tokens') := by
  induction kinds with
  | nil => exact h
  | cons kind kinds ih =>
      obtain ⟨hkind, hlayout⟩ := List.forall_mem_cons.mp hlayout
      obtain ⟨htwin, htwins⟩ := List.forall_mem_cons.mp htwins
      refine .both htwin ?_ ?_
      · rintro heof
        rw [show kind = .eof from heof] at hkind
        contradiction
      · rw [show (s'.mark kind).kind = kind from rfl, hkind, depthAfter_of_layout hkind]
        exact ih hlayout htwins

end Woven

theorem isLayout_of_mem_marks {s : Scanner} {kinds : List TokenKind}
    (hlayout : ∀ kind ∈ kinds, kind.isLayout = true) :
    ∀ token ∈ kinds.map s.mark, token.kind.isLayout = true :=
  List.forall_mem_map.mpr hlayout

theorem outerLayout_marks {s : Scanner} {kinds : List TokenKind} (hin : s.cursor.In source)
    (hlayout : ∀ kind ∈ kinds, kind.isLayout = true) :
    outerLayout source 0 (kinds.map s.mark ++ tokens) =
      kinds.map (·, ink s.cursor.rest) ++ outerLayout source 0 tokens := by
  induction kinds with
  | nil => rfl
  | cons kind kinds ih =>
      obtain ⟨hkind, hlayout⟩ := List.forall_mem_cons.mp hlayout
      rw [List.map_cons, List.cons_append, outerLayout_of_shown hkind, ih hlayout,
        show (s.mark kind).span.start = s.cursor.offset from rfl, hin.ink_eq]
      rfl

theorem outerLayout_tail {token token' : Token} (hkind : token.kind = token'.kind)
    (h : outerLayout source depth (token :: tokens) = outerLayout other depth (token' :: tokens')) :
    outerLayout source (depthAfter depth token'.kind) tokens =
      outerLayout other (depthAfter depth token'.kind) tokens' := by
  rw [outerLayout, outerLayout, hkind] at h
  split at h
  next hshown =>
    rw [Woven.depthAfter_of_layout hshown.2]
    exact (List.cons.inj h).2
  next => exact h

/-- What stands at one place comes first, and as much of it on both sides. -/
theorem eq_of_places {kinds kinds' : List TokenKind} {entries entries' : List (TokenKind × Nat)}
    {place : Nat} (hbehind : ∀ entry ∈ entries, entry.2 < place)
    (hbehind' : ∀ entry ∈ entries', entry.2 < place)
    (h : kinds.map (·, place) ++ entries = kinds'.map (·, place) ++ entries') :
    kinds = kinds' ∧ entries = entries' := by
  induction kinds generalizing kinds' with
  | nil =>
      cases kinds' with
      | nil => exact ⟨rfl, h⟩
      | cons kind kinds' =>
          have hmem : (kind, place) ∈ entries := by
            rw [show entries = _ from h]
            exact List.mem_cons_self
          exact absurd (hbehind _ hmem) (Nat.lt_irrefl place)
  | cons kind kinds ih =>
      cases kinds' with
      | nil =>
          have hmem : (kind, place) ∈ entries' := by
            rw [← show _ = entries' from h]
            exact List.mem_cons_self
          exact absurd (hbehind' _ hmem) (Nat.lt_irrefl place)
      | cons kind' kinds' =>
          obtain ⟨hkind, hrest⟩ := List.cons.inj h
          obtain ⟨rfl, hentries⟩ := ih hrest
          exact ⟨congrArg (· :: kinds) (Prod.mk.inj hkind).1, hentries⟩

namespace Scanner.Alongside

variable {s s' : Scanner}

/-! ## The head of a line -/

/-- Outside of braces the heads of both lines ask for the same. -/
theorem owed_eq (h : Alongside source other 0 s s') (hstart : s.atLineStart = true)
    (houter : outerLayout source 0 s.startLine.tokens =
      outerLayout other 0 s'.startLine.tokens) :
    s.startLine.owed = s'.startLine.owed ∧
      outerLayout source 0 s.startLine.paid.tokens =
        outerLayout other 0 s'.startLine.paid.tokens := by
  have hpaid := h.paid hstart
  have halong : s.startLine.cursor.Along source other _ s'.startLine.cursor :=
    hpaid.along (startLine_fields s).1
  have hvalue := h.value (h.begins hstart).1
  have hlayout := isLayout_of_owed_startLine h.owed
  have hlayout' := isLayout_of_owed_startLine h.owed'
  rw [tokens_of_owed ((startLine_fields s).2.2.2.trans hvalue),
    tokens_of_owed ((startLine_fields s').2.2.2.trans (h.afterValue ▸ hvalue)),
    outerLayout_marks halong.here hlayout, outerLayout_marks halong.there hlayout',
    show ink s'.startLine.cursor.rest = ink s.startLine.cursor.rest from
      halong.rest.aligned.ink_eq.symm] at houter
  by_cases hnone : s.startLine.owed = [] ∧ s'.startLine.owed = []
  · rw [hnone.1, hnone.2] at houter ⊢
    exact ⟨rfl, houter⟩
  obtain ⟨c, rest, rest', hrest, hrest', hbreak, hmargin⟩ : ∃ c rest rest',
      s.startLine.cursor.rest = c :: rest ∧ s'.startLine.cursor.rest = c :: rest' ∧ c ≠ '\n' ∧
        isMargin c = false := by
    have hmargins : Remargined _ s.startLine.cursor.rest s'.startLine.cursor.rest := halong.rest
    by_cases howed : s.startLine.owed = []
    · obtain ⟨c, rest', hrest', hbreak, hmargin⟩ :=
        exists_cons_of_owed h.owed' fun howed' => hnone ⟨howed, howed'⟩
      rw [hrest'] at hmargins
      cases hrest : s.startLine.cursor.rest with
      | nil =>
          rw [hrest] at hmargins
          exact absurd hmargins.nil (List.cons_ne_nil _ _)
      | cons d rest =>
          rw [hrest] at hmargins
          obtain ⟨tail, htail, -⟩ | ⟨-, -, _, _, _, _, -, hother, -⟩ := hmargins.cons
          · obtain ⟨rfl, rfl⟩ := List.cons.inj htail
            exact ⟨c, rest, rest', rfl, hrest', hbreak, hmargin⟩
          · exact absurd (List.cons.inj hother).1 hbreak
    · obtain ⟨c, rest, hrest, hbreak, hmargin⟩ := exists_cons_of_owed h.owed howed
      rw [hrest] at hmargins
      obtain ⟨rest', hrest', -⟩ | ⟨hother, -⟩ := hmargins.cons
      · exact ⟨c, rest, rest', hrest, hrest', hbreak, hmargin⟩
      · exact absurd hother hbreak
  refine eq_of_places ?_ ?_ houter
  · intro entry hmem
    obtain ⟨token, htoken, hkind, hplace⟩ := exists_of_mem_outerLayout hmem
    rw [← hplace]
    exact ink_lt_of_mem (s := s.startLine.paid) halong.here rfl (startLine_fields s).1 hrest hbreak
      hmargin htoken hkind
  · intro entry hmem
    obtain ⟨token, htoken, hkind, hplace⟩ := exists_of_mem_outerLayout hmem
    rw [← hplace, show ink s.startLine.cursor.rest = ink s'.startLine.cursor.rest from
      halong.rest.aligned.ink_eq]
    exact ink_lt_of_mem (s := s'.startLine.paid) halong.there rfl (startLine_fields s').1 hrest'
      hbreak hmargin htoken hkind

/-- What the heads of the lines ask for is woven together with what is behind them. -/
theorem woven_startLine (h : Alongside source other depth s s') (hstart : s.atLineStart = true)
    (houter : outerLayout source depth s.tokens = outerLayout other depth s'.tokens)
    (hpaid : outerLayout source depth s.startLine.paid.tokens =
        outerLayout other depth s'.startLine.paid.tokens →
      Woven (Corresponds source other) true depth s.startLine.paid.tokens
        s'.startLine.paid.tokens) :
    Woven (Corresponds source other) true depth s.tokens s'.tokens := by
  have hgroups := (h.begins hstart).2
  have hvalue := h.value (h.begins hstart).1
  have hlayout := isLayout_of_owed_startLine h.owed
  have hlayout' := isLayout_of_owed_startLine h.owed'
  rw [tokens_of_skip (step_of_lineStart h.owed hstart hgroups),
    tokens_of_skip (step_of_lineStart h.owed' (h.atLineStart ▸ hstart) (h.groups ▸ hgroups))] at *
  have htokens := tokens_of_owed ((startLine_fields s).2.2.2.trans hvalue)
  have htokens' := tokens_of_owed ((startLine_fields s').2.2.2.trans (h.afterValue ▸ hvalue))
  rcases Nat.eq_zero_or_pos depth with rfl | hdepth
  · obtain ⟨howed, hrest⟩ := h.owed_eq hstart houter
    rw [htokens, htokens', ← howed]
    refine Woven.marks hlayout (fun kind hmem => ?_) (hpaid hrest)
    refine Cursor.Along.twins ((h.paid hstart).along (startLine_fields s).1) ?_
    have hkind := hlayout kind hmem
    cases kind <;> first | rfl | contradiction
  · have hmarks := isLayout_of_mem_marks (s := s.startLine) hlayout
    have hmarks' := isLayout_of_mem_marks (s := s'.startLine) hlayout'
    rw [htokens, htokens'] at houter ⊢
    rw [outerLayout_append_of_hidden hdepth hmarks,
      outerLayout_append_of_hidden hdepth hmarks'] at houter
    exact Woven.hide hdepth hmarks hmarks' (hpaid houter)

/-! ## The end of the texts -/

theorem woven_close (h : Alongside source other depth s s') (hstart : s.atLineStart = false)
    (hrest : s.cursor.rest = []) (hbehind : s.lineHasToken = false → behind = true)
    (houter : outerLayout source depth s.tokens = outerLayout other depth s'.tokens) :
    Woven (Corresponds source other) behind depth s.tokens s'.tokens := by
  have halong := h.along hstart
  have hrest' : s'.cursor.rest = [] := by
    have hmargins := halong.rest
    rw [hrest] at hmargins
    exact hmargins.nil
  have htokens := tokens_of_close h.owed hstart hrest
  have htokens' := tokens_of_close h.owed' (h.atLineStart ▸ hstart) hrest'
  rw [← h.lineHasToken] at htokens'
  have hend : Woven (Corresponds source other) true depth [s.mark .eof] [s'.mark .eof] :=
    .stop (halong.twins rfl) rfl
  have hdedent {count : Nat} : ∀ kind ∈ List.replicate count TokenKind.dedent,
      kind.isLayout = true := fun kind hmem => by
    rw [List.eq_of_mem_replicate hmem]
    rfl
  -- Outside of braces as many levels are open on both sides.
  have hlevels (houter : outerLayout source depth
        ((List.replicate s.levels.length .dedent).map s.mark ++ [s.mark .eof]) =
      outerLayout other depth
        ((List.replicate s'.levels.length .dedent).map s'.mark ++ [s'.mark .eof])) :
      Woven (Corresponds source other) true depth
        ((List.replicate s.levels.length .dedent).map s.mark ++ [s.mark .eof])
        ((List.replicate s'.levels.length .dedent).map s'.mark ++ [s'.mark .eof]) := by
    rcases Nat.eq_zero_or_pos depth with rfl | hdepth
    · rw [outerLayout_marks halong.here hdedent, outerLayout_marks halong.there hdedent] at houter
      have hlength := congrArg List.length houter
      simp only [List.length_append, List.length_map, List.length_replicate] at hlength
      have hnone {text : List Char} {s : Scanner} : outerLayout text 0 [s.mark .eof] = [] := rfl
      rw [hnone, hnone] at hlength
      rw [show s.levels.length = s'.levels.length from hlength]
      refine Woven.marks hdedent (fun kind hmem => halong.twins ?_) hend
      rw [List.eq_of_mem_replicate hmem]
      rfl
    · exact Woven.hide hdepth (isLayout_of_mem_marks hdedent) (isLayout_of_mem_marks hdedent) hend
  cases hline : s.lineHasToken with
  | false =>
      rw [hline, if_neg Bool.false_ne_true, List.nil_append] at htokens htokens'
      rw [hbehind hline]
      rw [htokens, htokens'] at houter ⊢
      exact hlevels houter
  | true =>
      rw [hline, if_pos rfl] at htokens htokens'
      rw [htokens, htokens'] at houter ⊢
      have hnewline : (s.mark .newline).kind = (s'.mark .newline).kind := rfl
      exact .both (halong.twins rfl) TokenKind.noConfusion
        (hlevels (outerLayout_tail hnewline houter))

/-! ## Whole runs -/

theorem woven (h : Alongside source other depth s s')
    (hbehind : s.lineHasToken = false → behind = true)
    (houter : outerLayout source depth s.tokens = outerLayout other depth s'.tokens) :
    Woven (Corresponds source other) behind depth s.tokens s'.tokens := by
  induction hmeasure : s.measure using Nat.strong_induction_on
    generalizing s s' depth behind with
  | _ measure ih =>
    subst hmeasure
    cases hstart : s.atLineStart with
    | true =>
        have hline := (h.begins hstart).1
        have hless := measure_startLine h.owed hstart
        have hpaid : s.startLine.paid.measure ≤ s.startLine.measure :=
          Nat.add_le_add_right (Nat.add_le_add_left (Nat.zero_le _) _) _
        rw [hbehind hline]
        exact h.woven_startLine hstart houter fun houter =>
          ih _ (Nat.lt_of_le_of_lt hpaid hless) (h.paid hstart) (fun _ => rfl) houter rfl
    | false =>
    cases hrest : s.cursor.rest with
    | nil => exact h.woven_close hstart hrest hbehind houter
    | cons c rest =>
    have htogether := h.together hstart hrest
    generalize hstep : s.step = step, hstep' : s'.step = step' at htogether
    cases htogether with
    | skip halongside hline =>
        rw [tokens_of_skip hstep, tokens_of_skip hstep'] at houter ⊢
        exact ih _ (measure_skip hstep) halongside (hline ▸ hbehind) houter rfl
    | emit htwins heof halongside hline =>
        rw [tokens_of_emit hstep, tokens_of_emit hstep'] at houter ⊢
        exact .both htwins heof (ih _ (measure_emit hstep) halongside hline
          (outerLayout_tail htwins.kind houter) rfl)

end Scanner.Alongside

theorem alongside_ofText (h : SameBesideMargins source other) :
    Scanner.Alongside source other 0 (.ofText source) (.ofText other) where
  owed := rfl
  owed' := rfl
  atLineStart := rfl
  lineHasToken := rfl
  groups := rfl
  afterValue := rfl
  begins := fun _ => ⟨rfl, rfl⟩
  value := fun _ => rfl
  place := Scanner.Alongside.place_of_along
    ⟨Cursor.in_ofText source, Cursor.in_ofText other, rfl, h⟩

/-- The tokens of two texts that differ in the margins of lines within braces. -/
theorem woven_tokenize (hmargins : SameBesideMargins source other)
    (houter : SameOuterLayout source other) :
    Woven (Corresponds source other) true 0 (tokenize source) (tokenize other) :=
  (alongside_ofText hmargins).woven (fun _ => rfl) houter

end SceneLang

namespace SceneLang

open Text (flushed isMargin)

namespace Document

/-- Texts that differ only in the margins of lines within braces parse alike, up to such margins in
the texts that are kept as they are written, if the same layout is seen outside of braces. -/
theorem parse_alike_of_margins (options : ParseOptions) {source other : List Char}
    (hmargins : SameBesideMargins source other) (houter : SameOuterLayout source other) :
    (parse options source).Alike flushed (parse options other) := by
  have hwoven : Woven (Margins.ofAligned options hmargins.aligned).offset true 0
      (tokenize source) (tokenize other) := woven_tokenize hmargins houter
  exact alike_of_woven hwoven

/-- A body in braces within an indented body. -/
def bracedItem (margin : List Char) : List Char :=
  "object a\n  object b \x7b".toList ++ '\n' :: (margin ++ "x: 1\n  \x7d\n  y: 2\n".toList)

theorem parse_bracedItem_alike :
    (parse .default (bracedItem [' ', ' ', ' '])).Alike flushed
      (parse .default (bracedItem ['\t', ' '])) :=
  parse_alike_of_margins .default
    (.line _ (by decide +kernel) (by simp [isMargin]) (by simp [isMargin]) (.same _)) (by decide +kernel)

/-- A body that is kept as it is written, with the margin of its second line. -/
def hookBody (margin : List Char) : List Char :=
  "object a \x7b @on_mount \x7b\n  f()".toList ++ '\n' :: (margin ++ "g()\n\x7d \x7d\n".toList)

/-- The bodies of the hooks of a node, as they are kept. -/
def hookBodies (node : Node) : List String :=
  node.directives.map fun
    | .lifecycle _ _ body => body
    | _ => ""

/-- Behind its first entry a body in braces ends on the same line. -/
def closedItem (margin : List Char) : List Char :=
  "object a\n  object b \x7b".toList ++ '\n' :: (margin ++ "x: 1 \x7d\n  y: 2\n".toList)

/-- The margins matter to a body that is kept as it is written, and where a level that is opened
within braces is still open behind them. -/
theorem margins_matter :
    (∃ source other, SameBesideMargins source other ∧ SameOuterLayout source other ∧
      (parse .default source).success = true ∧ (parse .default other).success = true ∧
      (parse .default source).root.sketch id ≠ (parse .default other).root.sketch id) ∧
    ∃ source other, SameBesideMargins source other ∧
      (parse .default source).success ≠ (parse .default other).success := by
  constructor
  · refine ⟨hookBody [' ', ' '], hookBody [], .line _ (by decide +kernel) (by simp [isMargin]) (by simp [isMargin])
      (.same _), by decide +kernel, by decide +kernel, by decide +kernel, fun hsame => ?_⟩
    have hbodies : hookBodies ((parse .default (hookBody [' ', ' '])).root.sketch id) ≠
        hookBodies ((parse .default (hookBody [])).root.sketch id) := by decide +kernel
    exact hbodies (congrArg hookBodies hsame)
  · exact ⟨closedItem [' ', ' ', ' ', ' '], closedItem [' ', ' '], .line _ (by decide +kernel)
      (by simp [isMargin]) (by simp [isMargin]) (.same _), by decide +kernel⟩

end Document

end SceneLang
