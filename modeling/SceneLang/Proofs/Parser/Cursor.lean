import SceneLang.Document
import SceneLang.Proofs.Parser.Returns

/-!
# The cursor of a parse

The tokens ahead always end with one that marks the end, so that there is a token to look at.
Between two states of a parse the cursor has moved over some tokens, none of which marks the
end; the count of open braces follows the braces among them, and the nesting is what it was.
-/

namespace SceneLang
namespace Parser

/-! ## What a parse does to its state

Whatever a parser reads, it changes its state by a few small steps.  One state reaches another
if such steps lead there, so that what each step keeps is kept by a whole parse.
-/

inductive Step : State → State → Prop where
  | advance (state : State) : Step state state.advance
  | report (state : State) (d : Diagnostic) : Step state { state with log := state.log.push d }
  | valueFailed (state : State) (failed : Bool) : Step state { state with valueFailed := failed }
  | use (state : State) (feature : Feature) :
      Step state { state with features := feature :: state.features }
  | enter (state : State) : Step state { state with nesting := state.nesting + 1 }
  | leave (state : State) : Step state { state with nesting := state.nesting - 1 }
  | interpolation (state : State) (text : String) :
      Step state { state with
        expressions := state.expressions.insert (interpolationId state.expressions) text }
  | imports (state : State) (decl : ImportDecl) :
      Step state { state with imports := state.imports ++ [decl] }

inductive Reaches (state : State) : State → Prop where
  | refl : Reaches state state
  | tail {middle next : State} (h : Reaches state middle) (h' : Step middle next) :
      Reaches state next

namespace Reaches

variable {first second third : State}

theorem single (h : Step first second) : Reaches first second :=
  .tail .refl h

theorem trans (h : Reaches first second) (h' : Reaches second third) : Reaches first third := by
  induction h' with
  | refl => exact h
  | tail _ hstep ih => exact .tail ih hstep

/-- What each step keeps holds wherever a parse gets to. -/
theorem invariant {holds : State → Prop} (h : Reaches first second)
    (hstep : ∀ state next, Step state next → holds state → holds next) (hfirst : holds first) :
    holds second := by
  induction h with
  | refl => exact hfirst
  | tail _ hlast ih => exact hstep _ _ hlast ih

end Reaches

end Parser
end SceneLang

namespace SceneLang
namespace Parser

/-! ## Tokens that can be seen -/

/-- The tokens end with one that marks the end. -/
def Ended (tokens : List Token) : Prop :=
  tokens.getLast?.map Token.kind = some .eof

theorem Ended.ne_nil {tokens : List Token} (h : Ended tokens) : tokens ≠ [] := by
  rintro rfl
  simp [Ended] at h

theorem ended_append {front back : List Token} (h : back ≠ []) :
    Ended (front ++ back) ↔ Ended back := by
  have hlast : (front ++ back).getLast? = back.getLast? := by
    rw [List.getLast?_append, List.getLast?_eq_some_getLast h, Option.some_or]
  rw [Ended, hlast, Ended]

theorem ended_withEnd (source : List Char) (tokens : List Token) :
    Ended (withEnd source tokens) := by
  unfold withEnd
  split
  next h => exact h
  next => simp [Ended]

/-- What is hidden in front of the visible tokens is layout. -/
theorem visible_append (depth : Nat) (tokens : List Token) :
    ∃ hidden, tokens = hidden ++ visible depth tokens ∧
      ∀ token ∈ hidden, token.kind.isLayout = true := by
  induction tokens using visible.induct depth with
  | case1 token next rest hlayout ih =>
      obtain ⟨hidden, hsplit, hall⟩ := ih
      refine ⟨token :: hidden, ?_, ?_⟩
      · rw [visible, if_pos hlayout, List.cons_append, ← hsplit]
      · intro other hmem
        rcases List.mem_cons.mp hmem with rfl | hrest
        · simp only [Bool.and_eq_true] at hlayout
          exact hlayout.2
        · exact hall other hrest
  | case2 token next rest hshown =>
      exact ⟨[], by rw [visible, if_neg hshown]; rfl, by simp⟩
  | case3 tokens hshort =>
      refine ⟨[], ?_, by simp⟩
      rw [visible, List.nil_append]
      exact hshort

theorem visible_ne_nil {depth : Nat} {tokens : List Token} (h : tokens ≠ []) :
    visible depth tokens ≠ [] := by
  induction tokens using visible.induct depth with
  | case1 token next rest hlayout ih =>
      rw [visible, if_pos hlayout]
      exact ih (by simp)
  | case2 token next rest hshown =>
      rw [visible, if_neg hshown]
      simp
  | case3 tokens hshort =>
      rw [visible]
      · exact h
      · exact hshort

theorem Ended.visible {depth : Nat} {tokens : List Token} (h : Ended tokens) :
    Ended (visible depth tokens) := by
  obtain ⟨hidden, hsplit, -⟩ := visible_append depth tokens
  have hne : Parser.visible depth tokens ≠ [] := visible_ne_nil h.ne_nil
  rw [hsplit] at h
  exact (ended_append hne).mp h

theorem Ended.behind {tokens : List Token} (h : Ended tokens) : Ended (behind tokens) := by
  match tokens, h with
  | [], h => exact h
  | [last], h => exact h
  | first :: next :: rest, h =>
      have hsplit : first :: next :: rest = [first] ++ next :: rest := rfl
      rw [hsplit] at h
      exact (ended_append (List.cons_ne_nil next rest)).mp h

theorem Ended.visibleFrom {state : State} (h : Ended state.ahead) (n : Nat) :
    Ended (state.visibleFrom n) := by
  induction n with
  | zero => exact h.visible
  | succ n ih => exact ih.behind.visible

/-- The token `n` tokens after the current one, as `peek` sees it. -/
def State.tokenAt (state : State) (n : Nat) : Token :=
  (state.visibleFrom n).headD ⟨.eof, "", .point 0, .start⟩

def State.token (state : State) : Token :=
  state.tokenAt 0

theorem exists_visibleFrom {state : State} (h : Ended state.ahead) (n : Nat) :
    ∃ rest, state.visibleFrom n = state.tokenAt n :: rest := by
  cases hvisible : state.visibleFrom n with
  | nil => exact absurd hvisible (h.visibleFrom n).ne_nil
  | cons token rest => exact ⟨rest, by rw [State.tokenAt, hvisible]; rfl⟩

section

variable {context : Context} {state : State}

theorem returns_peek {n : Nat} {post : Token → State → Prop} (h : Ended state.ahead) :
    Returns (peek n) context state post ↔ post (state.tokenAt n) state := by
  obtain ⟨rest, hvisible⟩ := exists_visibleFrom h n
  simp only [peek, returns_bind, returns_get, hvisible, returns_pure]

theorem returns_current {post : Token → State → Prop} (h : Ended state.ahead) :
    Returns current context state post ↔ post state.token state :=
  returns_peek h

theorem returns_peekKind {n : Nat} {post : TokenKind → State → Prop} (h : Ended state.ahead) :
    Returns (peekKind n) context state post ↔ post (state.tokenAt n).kind state := by
  simp only [peekKind, returns_bind, returns_peek h, returns_pure]

theorem returns_currentKind {post : TokenKind → State → Prop} (h : Ended state.ahead) :
    Returns currentKind context state post ↔ post state.token.kind state := by
  simp only [currentKind, returns_bind, returns_current h, returns_pure]

theorem returns_check {kind : TokenKind} {post : Bool → State → Prop} (h : Ended state.ahead) :
    Returns (check kind) context state post ↔ post (decide (state.token.kind = kind)) state := by
  simp only [check, returns_bind, returns_currentKind h, returns_pure]

theorem returns_advance {post : Unit → State → Prop} (h : Ended state.ahead) :
    Returns advance context state post ↔ post () state.advance := by
  simp only [advance, returns_bind, returns_current h, returns_modify]

theorem returns_eat {kind : TokenKind} {post : Bool → State → Prop} (h : Ended state.ahead) :
    Returns (eat kind) context state post ↔
      (state.token.kind = kind → post true state.advance) ∧
        (state.token.kind ≠ kind → post false state) := by
  simp only [eat, returns_bind, returns_check h, returns_ite, returns_advance h, returns_pure,
    decide_eq_true_eq, ne_eq]

end

/-! ## Moving the cursor -/

def depthBehind (depth : Nat) (tokens : List Token) : Nat :=
  tokens.foldl (fun depth token => depthAfter depth token.kind) depth

theorem depthBehind_append (depth : Nat) (front back : List Token) :
    depthBehind depth (front ++ back) = depthBehind (depthBehind depth front) back :=
  List.foldl_append

theorem depthBehind_layout {depth : Nat} {tokens : List Token}
    (h : ∀ token ∈ tokens, token.kind.isLayout = true) : depthBehind depth tokens = depth := by
  induction tokens with
  | nil => rfl
  | cons token rest ih =>
      have hrest : ∀ other ∈ rest, other.kind.isLayout = true :=
        fun other hmem => h other (List.mem_cons_of_mem token hmem)
      have htoken : depthAfter depth token.kind = depth := by
        have hlayout := h token List.mem_cons_self
        cases hkind : token.kind <;> simp [hkind, TokenKind.isLayout, depthAfter] at hlayout ⊢
      calc
        depthBehind depth (token :: rest) = depthBehind (depthAfter depth token.kind) rest := rfl
        _ = depth := by rw [htoken, ih hrest]

/-- The cursor moves forward over tokens none of which marks the end, and the depth of braces
with it. -/
def Moved (state next : State) : Prop :=
  ∃ front, state.ahead = front ++ next.ahead ∧ (∀ token ∈ front, token.kind ≠ .eof) ∧
    next.braceDepth = depthBehind state.braceDepth front

/-- What every parser leaves as it should be: the cursor moves forward, the nesting is what it
was, and nothing but the steps of a parse has been done to the state. -/
structure Keeps (state next : State) : Prop where
  moved : Moved state next
  nesting : next.nesting = state.nesting
  reaches : Reaches state next

structure Reads (state next : State) : Prop extends Keeps state next where
  shorter : next.ahead.length < state.ahead.length

theorem Moved.refl (state : State) : Moved state state :=
  ⟨[], rfl, by simp, rfl⟩

theorem Moved.trans {first second third : State} (h : Moved first second)
    (h' : Moved second third) : Moved first third := by
  obtain ⟨front, hsplit, hfree, hdepth⟩ := h
  obtain ⟨front', hsplit', hfree', hdepth'⟩ := h'
  refine ⟨front ++ front', ?_, ?_, ?_⟩
  · rw [hsplit, hsplit', List.append_assoc]
  · intro token hmem
    rcases List.mem_append.mp hmem with hfront | hfront
    · exact hfree token hfront
    · exact hfree' token hfront
  · rw [hdepth', hdepth, depthBehind_append]

theorem Moved.length_le {state next : State} (h : Moved state next) :
    next.ahead.length ≤ state.ahead.length := by
  obtain ⟨front, hsplit, -, -⟩ := h
  rw [hsplit, List.length_append]
  exact Nat.le_add_left _ _

theorem Moved.visibleFrom_eq {state next : State} (h : Moved state next)
    (hlength : state.ahead.length ≤ next.ahead.length) (n : Nat) :
    next.visibleFrom n = state.visibleFrom n := by
  obtain ⟨front, hsplit, -, hdepth⟩ := h
  have hfront : front = [] := by
    rw [hsplit, List.length_append] at hlength
    exact List.length_eq_zero_iff.mp (by omega)
  subst hfront
  have hahead : next.ahead = state.ahead := hsplit.symm
  have hbraces : next.braceDepth = state.braceDepth := hdepth
  induction n with
  | zero => rw [State.visibleFrom, State.visibleFrom, hahead, hbraces]
  | succ n ih => rw [State.visibleFrom, State.visibleFrom, ih, hbraces]

theorem Moved.token_eq {state next : State} (h : Moved state next)
    (hlength : state.ahead.length ≤ next.ahead.length) : next.token = state.token := by
  rw [State.token, State.token, State.tokenAt, State.tokenAt, h.visibleFrom_eq hlength]

theorem Moved.ended {state next : State} (h : Moved state next) (hended : Ended state.ahead) :
    Ended next.ahead := by
  obtain ⟨front, hsplit, hfree, -⟩ := h
  by_cases hnil : next.ahead = []
  · rw [hnil, List.append_nil] at hsplit
    rw [hsplit, Ended, Option.map_eq_some_iff] at hended
    obtain ⟨last, hlast, hkind⟩ := hended
    exact absurd hkind (hfree last (List.mem_of_getLast? hlast))
  · rw [hsplit] at hended
    exact (ended_append hnil).mp hended

theorem Keeps.refl (state : State) : Keeps state state :=
  ⟨.refl state, rfl, .refl⟩

theorem Keeps.trans {first second third : State} (h : Keeps first second)
    (h' : Keeps second third) : Keeps first third :=
  ⟨h.moved.trans h'.moved, h'.nesting.trans h.nesting, h.reaches.trans h'.reaches⟩

theorem Keeps.reads {first second third : State} (h : Keeps first second)
    (h' : Reads second third) : Reads first third :=
  ⟨h.trans h'.toKeeps, Nat.lt_of_lt_of_le h'.shorter h.moved.length_le⟩

theorem Reads.keeps {first second third : State} (h : Reads first second)
    (h' : Keeps second third) : Reads first third :=
  ⟨h.toKeeps.trans h', Nat.lt_of_le_of_lt h'.moved.length_le h.shorter⟩

theorem Reads.trans {first second third : State} (h : Reads first second)
    (h' : Reads second third) : Reads first third :=
  h.keeps h'.toKeeps

theorem State.token_of_visible {state : State} {token : Token} {rest : List Token}
    (hvisible : state.visibleFrom 0 = token :: rest) : state.token = token := by
  rw [State.token, State.tokenAt, hvisible]
  rfl

theorem State.advance_of_visible {state : State} {token : Token} {rest : List Token}
    (hvisible : state.visibleFrom 0 = token :: rest) (heof : token.kind ≠ .eof) :
    state.advance =
      { state with
        ahead := rest
        braceDepth := depthAfter state.braceDepth token.kind
        previous := if token.kind.isLayout then state.previous else some token } := by
  unfold State.advance
  rw [hvisible]
  exact if_neg heof

theorem visible_zero (tokens : List Token) : visible 0 tokens = tokens := by
  unfold visible
  split
  next => exact if_neg (by simp)
  next => rfl

theorem visible_cons {depth : Nat} {token : Token} {rest : List Token}
    (hlayout : token.kind.isLayout = false) : visible depth (token :: rest) = token :: rest := by
  cases rest with
  | nil => rfl
  | cons next rest =>
      rw [visible, hlayout, Bool.and_false]
      exact if_neg Bool.false_ne_true

theorem advance_of_eof {state : State} (h : state.token.kind = .eof) :
    state.advance = state := by
  unfold State.advance
  cases hvisible : state.visibleFrom 0 with
  | nil => rfl
  | cons token rest =>
      rw [State.token_of_visible hvisible] at h
      exact if_pos h

/-- Stepping over a token moves the cursor over it and over the layout that hides it, if there is a
token to step over. -/
theorem moved_advance (state : State) : Moved state state.advance := by
  obtain ⟨hidden, hsplit, hlayout⟩ := visible_append state.braceDepth state.ahead
  cases hvisible : state.visibleFrom 0 with
  | nil =>
      have hstays : state.advance = state := by rw [State.advance, hvisible]
      rw [hstays]
      exact .refl state
  | cons token rest =>
      by_cases heof : token.kind = .eof
      · rw [advance_of_eof (by rw [State.token_of_visible hvisible]; exact heof)]
        exact .refl state
      rw [State.advance_of_visible hvisible heof]
      refine ⟨hidden ++ [token], ?_, ?_, ?_⟩
      · rw [List.append_assoc, List.singleton_append, ← hvisible]
        exact hsplit
      · intro other hmem
        rcases List.mem_append.mp hmem with hmem | hmem
        · intro hkind
          have := hlayout other hmem
          simp [hkind, TokenKind.isLayout] at this
        · rw [List.mem_singleton.mp hmem]
          exact heof
      · rw [depthBehind_append, depthBehind_layout hlayout]
        rfl

theorem State.advance_nesting (state : State) : state.advance.nesting = state.nesting := by
  unfold State.advance
  split
  · rfl
  · split <;> rfl

/-- Stepping over a token that does not mark the end reads it. -/
theorem advance_reads {state : State} (hended : Ended state.ahead)
    (h : state.token.kind ≠ .eof) : Reads state state.advance := by
  obtain ⟨rest, hvisible⟩ := exists_visibleFrom hended 0
  obtain ⟨hidden, hsplit, -⟩ := visible_append state.braceDepth state.ahead
  have hsplit : state.ahead = hidden ++ state.token :: rest := by
    rw [hsplit]
    exact congrArg (hidden ++ ·) hvisible
  refine ⟨⟨moved_advance state, state.advance_nesting, .single (.advance state)⟩, ?_⟩
  rw [State.advance_of_visible hvisible h, hsplit, List.length_append, List.length_cons]
  simp only
  omega

/-- Behind a word the next token is the current one. -/
theorem advance_token {state : State} (hended : Ended state.ahead)
    (hword : state.token.kind = .identifier) : state.advance.token = state.tokenAt 1 := by
  obtain ⟨rest, hvisible⟩ := exists_visibleFrom hended 0
  have hvisible : state.visibleFrom 0 = state.token :: rest := hvisible
  have hlast := hended.visibleFrom 0
  rw [hvisible] at hlast
  have hbehind : behind (state.token :: rest) = rest := by
    cases rest with
    | nil => simp [Ended, hword] at hlast
    | cons next rest => rfl
  have hadvance : state.advance.visibleFrom 0 = state.visibleFrom 1 := by
    rw [State.advance_of_visible hvisible (by simp [hword]), State.visibleFrom,
      State.visibleFrom, hvisible, hbehind, hword]
    rfl
  rw [State.token, State.tokenAt, hadvance, State.tokenAt]

theorem advance_keeps {state : State} (hended : Ended state.ahead) :
    Keeps state state.advance := by
  by_cases h : state.token.kind = .eof
  · rw [advance_of_eof h]
    exact .refl state
  · exact (advance_reads hended h).toKeeps

/-! ## Standing still -/

structure Same (state next : State) : Prop where
  ahead : next.ahead = state.ahead
  braceDepth : next.braceDepth = state.braceDepth
  nesting : next.nesting = state.nesting
  reaches : Reaches state next

theorem Same.refl (state : State) : Same state state :=
  ⟨rfl, rfl, rfl, .refl⟩

theorem Same.trans {first second third : State} (h : Same first second)
    (h' : Same second third) : Same first third :=
  ⟨h'.ahead.trans h.ahead, h'.braceDepth.trans h.braceDepth, h'.nesting.trans h.nesting,
    h.reaches.trans h'.reaches⟩

theorem Same.keeps {state next : State} (h : Same state next) : Keeps state next :=
  ⟨⟨[], h.ahead.symm, by simp, h.braceDepth⟩, h.nesting, h.reaches⟩

theorem Same.visibleFrom {state next : State} (h : Same state next) (n : Nat) :
    next.visibleFrom n = state.visibleFrom n :=
  h.keeps.moved.visibleFrom_eq (Nat.le_of_eq (congrArg List.length h.ahead.symm)) n

theorem Same.token {state next : State} (h : Same state next) : next.token = state.token := by
  rw [State.token, State.token, State.tokenAt, State.tokenAt, h.visibleFrom]

end Parser
end SceneLang
