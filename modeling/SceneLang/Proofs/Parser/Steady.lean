import SceneLang.Proofs.Parser.Cursor

/-!
# Steady parsers

A parser is steady if it always returns, with the cursor moved forward and the nesting as it
was.  It reads if it moves over a token at least, which it may do only at some kinds of
tokens.  Both are put together from the parts of a parser, and a loop is steady if each of its
turns reads a token when the loop goes on.
-/

namespace SceneLang
namespace Parser

/-! ## Steady parsers -/

/-- At most `bound` tokens are ahead, and the nesting is `depth`. -/
structure Within (bound depth : Nat) (state : State) : Prop where
  ended : Ended state.ahead
  short : state.ahead.length ≤ bound
  nesting : state.nesting = depth
  depth_le : depth ≤ maxNesting

theorem Within.keeps {bound depth : Nat} {state next : State} (h : Within bound depth state)
    (hkeeps : Keeps state next) : Within bound depth next :=
  ⟨hkeeps.moved.ended h.ended, Nat.le_trans hkeeps.moved.length_le h.short,
    hkeeps.nesting.trans h.nesting, h.depth_le⟩

theorem Within.reads {bound depth : Nat} {state next : State} (h : Within (bound + 1) depth state)
    (hreads : Reads state next) : Within bound depth next :=
  ⟨(h.keeps hreads.toKeeps).ended, Nat.le_of_lt_succ (Nat.lt_of_lt_of_le hreads.shorter h.short),
    hreads.nesting.trans h.nesting, h.depth_le⟩

theorem not_within_zero {depth : Nat} {state : State} : ¬Within 0 depth state := by
  intro h
  exact h.ended.ne_nil (List.length_eq_zero_iff.mp (Nat.le_zero.mp h.short))

section

variable {α β : Type} {starts : TokenKind → Prop} {bound depth : Nat}

/-- The parser always returns, with the cursor moved forward and the nesting as it was. -/
def Steady (bound depth : Nat) (p : Parser α) : Prop :=
  ∀ context state, Within bound depth state →
    Returns p context state fun _ next => Keeps state next

/-- At a token that it starts with the parser reads a token. -/
def Reading (starts : TokenKind → Prop) (bound depth : Nat) (p : Parser α) : Prop :=
  ∀ context state, Within bound depth state → starts state.token.kind →
    Returns p context state fun _ next => Reads state next

theorem Steady.pure (value : α) : Steady bound depth (pure value : Parser α) := by
  intro context state _
  exact returns_pure.mpr (.refl state)

theorem Steady.bind {p : Parser α} {f : α → Parser β} (hp : Steady bound depth p)
    (hf : ∀ value, Steady bound depth (f value)) : Steady bound depth (p >>= f) := by
  intro context state hwithin
  apply Returns.bind (hp context state hwithin)
  intro value next hnext
  exact (hf value context next (hwithin.keeps hnext)).mono fun _ _ hlast => hnext.trans hlast

theorem Steady.ite {c : Prop} [Decidable c] {p q : Parser α} (hp : Steady bound depth p)
    (hq : Steady bound depth q) : Steady bound depth (if c then p else q) := by
  intro context state hwithin
  exact .ite (hp context state hwithin) (hq context state hwithin)

theorem Steady.of_le {smaller : Nat} {p : Parser α} (h : Steady bound depth p)
    (hle : smaller ≤ bound) : Steady smaller depth p := by
  intro context state hwithin
  exact h context state ⟨hwithin.ended, Nat.le_trans hwithin.short hle, hwithin.nesting,
    hwithin.depth_le⟩

/-- What is read before a steady parser stays read. -/
theorem Steady.after_reads {p : Parser α} {context : Context} {state next : State}
    (hp : Steady bound depth p) (hwithin : Within bound depth next) (hreads : Reads state next) :
    Returns p context next fun _ last => Reads state last :=
  (hp context next hwithin).mono fun _ _ hlast => hreads.keeps hlast

theorem Steady.after_keeps {p : Parser α} {context : Context} {state next : State}
    (hp : Steady bound depth p) (hwithin : Within bound depth next) (hkeeps : Keeps state next) :
    Returns p context next fun _ last => Keeps state last :=
  (hp context next hwithin).mono fun _ _ hlast => hkeeps.trans hlast

theorem Reading.bind {p : Parser α} {f : α → Parser β} (hp : Reading starts bound depth p)
    (hf : ∀ value, Steady bound depth (f value)) : Reading starts bound depth (p >>= f) := by
  intro context state hwithin htoken
  apply Returns.bind (hp context state hwithin htoken)
  intro value next hnext
  exact (hf value).after_reads (hwithin.keeps hnext.toKeeps) hnext

theorem Reading.ite {c : Prop} [Decidable c] {p q : Parser α} (hp : Reading starts bound depth p)
    (hq : Reading starts bound depth q) : Reading starts bound depth (if c then p else q) := by
  intro context state hwithin htoken
  exact .ite (hp context state hwithin htoken) (hq context state hwithin htoken)

theorem Reading.steadyAt {p : Parser α} {context : Context} {state : State}
    (hp : Reading starts bound depth p) (hwithin : Within bound depth state)
    (htoken : starts state.token.kind) :
    Returns p context state fun _ next => Keeps state next :=
  (hp context state hwithin htoken).mono fun _ _ hreads => hreads.toKeeps

theorem Reading.weaken {fewer : TokenKind → Prop} {p : Parser α}
    (hp : Reading starts bound depth p) (himp : ∀ kind, fewer kind → starts kind) :
    Reading fewer bound depth p :=
  fun context state hwithin htoken => hp context state hwithin (himp _ htoken)

/-- Behind a reading parser one token less is ahead. -/
theorem Reading.bind_inner {p : Parser α} {f : α → Parser β}
    (hp : Reading starts (bound + 1) depth p) (hf : ∀ value, Steady bound depth (f value)) :
    Reading starts (bound + 1) depth (p >>= f) := by
  intro context state hwithin htoken
  apply Returns.bind (hp context state hwithin htoken)
  intro value next hnext
  exact (hf value).after_reads (hwithin.reads hnext) hnext

/-- Where a steady parser reads nothing, a reading parser behind it reads. -/
theorem Steady.reading {p : Parser α} {f : α → Parser β} (hp : Steady bound depth p)
    (hf : ∀ value, Steady bound depth (f value))
    (hreads : ∀ value, Reading starts bound depth (f value)) :
    Reading starts bound depth (p >>= f) := by
  intro context state hwithin htoken
  apply Returns.bind (hp context state hwithin)
  intro value next hnext
  have hwithin' := hwithin.keeps hnext
  by_cases hlength : next.ahead.length < state.ahead.length
  · exact (hf value).after_reads hwithin' ⟨hnext, hlength⟩
  · rw [← hnext.moved.token_eq (Nat.le_of_not_lt hlength)] at htoken
    apply (hreads value context next hwithin' htoken).mono
    intro _ last hlast
    exact hnext.reads hlast

end

/-! ## Parsers that leave the cursor where it is -/

section

variable {α β : Type} {starts : TokenKind → Prop} {bound depth : Nat}

/-- The parser always returns, and reads nothing. -/
def Resting (bound depth : Nat) (p : Parser α) : Prop :=
  ∀ context state, Within bound depth state →
    Returns p context state fun _ next => Same state next

theorem Resting.steady {p : Parser α} (h : Resting bound depth p) : Steady bound depth p :=
  fun context state hwithin => (h context state hwithin).mono fun _ _ hsame => hsame.keeps

theorem Resting.pure (value : α) : Resting bound depth (pure value : Parser α) := by
  intro context state _
  exact returns_pure.mpr (.refl state)

theorem Resting.modify {f : State → State} (h : ∀ state, Same state (f state)) :
    Resting bound depth (modify f : Parser Unit) := by
  intro context state _
  exact returns_modify.mpr (h state)

theorem Resting.bind {p : Parser α} {f : α → Parser β} (hp : Resting bound depth p)
    (hf : ∀ value, Resting bound depth (f value)) : Resting bound depth (p >>= f) := by
  intro context state hwithin
  apply Returns.bind (hp context state hwithin)
  intro value next hnext
  apply (hf value context next (hwithin.keeps hnext.keeps)).mono
  intro _ _ hlast
  exact hnext.trans hlast

theorem Resting.ite {c : Prop} [Decidable c] {p q : Parser α} (hp : Resting bound depth p)
    (hq : Resting bound depth q) : Resting bound depth (if c then p else q) := by
  intro context state hwithin
  exact .ite (hp context state hwithin) (hq context state hwithin)

theorem Resting.reading {p : Parser α} {f : α → Parser β} (hp : Resting bound depth p)
    (hf : ∀ value, Reading starts bound depth (f value)) :
    Reading starts bound depth (p >>= f) := by
  intro context state hwithin htoken
  apply Returns.bind (hp context state hwithin)
  intro value next hnext
  have htoken' : starts next.token.kind := by rwa [hnext.token]
  apply (hf value context next (hwithin.keeps hnext.keeps) htoken').mono
  intro _ _ hlast
  exact hnext.keeps.reads hlast

end

/-! ## Turns of a loop -/

section

variable {α β : Type} {starts : TokenKind → Prop} {bound depth : Nat}

/-- A turn of a loop moves forward, and reads a token when the loop goes on. -/
def Turn (state : State) : ForInStep β → State → Prop
  | .done _, next => Keeps state next
  | .yield _, next => Reads state next

theorem Turn.of_reads {state next : State} (h : Reads state next) (result : ForInStep β) :
    Turn state result next := by
  cases result with
  | done value => exact h.toKeeps
  | yield value => exact h

def Turning (bound depth : Nat) (p : Parser (ForInStep β)) : Prop :=
  ∀ context state, Within bound depth state → Returns p context state (Turn state)

theorem Turn.after_keeps {state next last : State} {result : ForInStep β} (h : Keeps state next)
    (h' : Turn next result last) : Turn state result last := by
  cases result with
  | done value => exact h.trans h'
  | yield value => exact h.reads h'

theorem Turning.done (value : β) : Turning bound depth (pure (.done value)) := by
  intro context state _
  exact returns_pure.mpr (Keeps.refl state)

theorem Steady.turning {p : Parser α} {f : α → Parser (ForInStep β)}
    (hp : Steady bound depth p) (hf : ∀ value, Turning bound depth (f value)) :
    Turning bound depth (p >>= f) := by
  intro context state hwithin
  apply Returns.bind (hp context state hwithin)
  intro value next hnext
  exact (hf value context next (hwithin.keeps hnext)).mono fun _ _ hlast =>
    hlast.after_keeps hnext

theorem Reading.turn {p : Parser (ForInStep β)} {context : Context} {state : State}
    (hp : Reading starts bound depth p) (hwithin : Within bound depth state)
    (htoken : starts state.token.kind) : Returns p context state (Turn state) :=
  (hp context state hwithin htoken).mono fun result _ hreads => .of_reads hreads result

theorem Steady.iterate {step : β → Parser (ForInStep β)} {start : β}
    (hturn : ∀ value, Turning bound depth (step value)) :
    Steady bound depth (iterate start step) := by
  intro context state hwithin
  apply Returns.iterate (fun _ next => Keeps state next) (.refl state)
  intro value next hnext
  apply (hturn value context next (hwithin.keeps hnext)).mono
  intro result last hlast
  cases result with
  | done value => exact hnext.trans hlast
  | yield value => exact ⟨hnext.trans hlast.toKeeps, hlast.shorter⟩

end

end Parser
end SceneLang
