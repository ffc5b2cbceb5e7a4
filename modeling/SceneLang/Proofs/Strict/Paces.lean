import SceneLang.Proofs.Shift.Limits

/-!
# Strict parses beside lenient ones

A strict parse and a lenient one of the same text keep pace: they read the same tokens whatever
either of them has reported.  As long as the strict one reports no error both report the same and
come to the same; after an error the strict one may have dropped what the other one keeps.
-/

namespace SceneLang

/-- None of the diagnostics is an error. -/
def Clean (ds : List Diagnostic) : Prop :=
  ∀ d ∈ ds, d.isError = false

theorem clean_append {ds others : List Diagnostic} :
    Clean (ds ++ others) ↔ Clean ds ∧ Clean others := by
  simp [Clean, or_imp, forall_and]

theorem Log.pushAll_append (log : Log) (ds others : List Diagnostic) :
    log.pushAll (ds ++ others) = (log.pushAll ds).pushAll others := by
  simp [pushAll]

/-- The options with strictness as said. -/
def ParseOptions.withStrict (options : ParseOptions) (strict : Bool) : ParseOptions :=
  { options with strict := strict }

namespace Parser

/-- The state with something else reported before. -/
def State.withLog (state : State) (log : Log) : State :=
  { state with log := log }

variable {α β : Type}

/-- Two runs come to the same fault, or to states that differ in what is reported alone and to
results that are of a kind.  If `base` holds and the first run reports no error, the second run
reports the same and has the same result. -/
inductive Abreast (base : Prop) (kin : α → α → Prop) (log log' : Log) :
    Except Fault (α × State) → Except Fault (α × State) → Prop
  | fault (fault : Fault) : Abreast base kin log log' (.error fault) (.error fault)
  | reached {value value' : α} {next : State} (new new' : List Diagnostic)
      (hlog : next.log = log.pushAll new) (hkin : kin value value')
      (hsame : base → Clean new → value = value' ∧ new = new') :
      Abreast base kin log log' (.ok (value, next))
        (.ok (value', next.withLog (log'.pushAll new')))

theorem Abreast.mono {base weaker : Prop} {kin kin' : α → α → Prop} {log log' : Log}
    {run run' : Except Fault (α × State)} (h : Abreast base kin log log' run run')
    (hbase : weaker → base) (hkin : ∀ value value', kin value value' → kin' value value') :
    Abreast weaker kin' log log' run run' := by
  cases h with
  | fault fault => exact .fault fault
  | reached _ _ hlog hvalue hsame => exact .reached _ _ hlog (hkin _ _ hvalue) fun h => hsame (hbase h)

theorem Abreast.split {base : Prop} {kin : α → α → Prop} {log log' : Log}
    {run run' : Except Fault (α × State)} (h : Abreast base kin log log' run run') :
    (∃ fault, run = .error fault ∧ run' = .error fault) ∨
      ∃ value value' next new new', run = .ok (value, next) ∧
        run' = .ok (value', next.withLog (log'.pushAll new')) ∧ next.log = log.pushAll new ∧
        kin value value' ∧ (base → Clean new → value = value' ∧ new = new') := by
  cases h with
  | fault fault => exact .inl ⟨fault, rfl, rfl⟩
  | reached _ _ hlog hkin hsame => exact .inr ⟨_, _, _, _, _, rfl, rfl, hlog, hkin, hsame⟩

/-- What comes behind two runs that go abreast goes abreast if it does from all states that they
may have come to. -/
theorem Abreast.bind {base : Prop} {kin : α → α → Prop} {kin' : β → β → Prop} {log log' : Log}
    {run run' : Except Fault (α × State)} {f g : α × State → Except Fault (β × State)}
    (h : Abreast base kin log log' run run')
    (hf : ∀ value value' next log'', kin value value' →
      Abreast (base ∧ value = value') kin' next.log log'' (f (value, next))
        (g (value', next.withLog log''))) :
    Abreast base kin' log log' (run >>= f) (run' >>= g) := by
  cases h with
  | fault fault => exact .fault fault
  | @reached value value' next new new' hlog hkin hsame =>
      change Abreast _ _ _ _ (f (value, next)) (g (value', next.withLog _))
      obtain ⟨fault, hrun, hrun'⟩ |
          ⟨result, result', last, newer, newer', hrun, hrun', hlast, hkin', hsame'⟩ :=
        (hf value value' next (log'.pushAll new') hkin).split
      · rw [hrun, hrun']
        exact .fault fault
      rw [hrun, hrun', ← Log.pushAll_append]
      rw [hlog, ← Log.pushAll_append] at hlast
      refine .reached _ _ hlast hkin' fun hbase hclean => ?_
      rw [clean_append] at hclean
      obtain ⟨hvalue, hnew⟩ := hsame hbase hclean.1
      obtain ⟨hresult, hnewer⟩ := hsame' ⟨hbase, hvalue⟩ hclean.2
      exact ⟨hresult, by rw [hnew, hnewer]⟩

/-- From the same state, but for what has been reported before, a strict run of the first parser
goes abreast of a lenient run of the second. -/
def Paces (base : Prop) (kin : α → α → Prop) (p q : Parser α) : Prop :=
  ∀ source (options : ParseOptions) state log, Abreast base kin state.log log
    (p ⟨source, options.withStrict true⟩ state)
    (q ⟨source, options.withStrict false⟩ (state.withLog log))

/-- The parser does not tell strict parses from lenient ones. -/
abbrev Blind (p : Parser α) : Prop := Paces True (· = ·) p p

/-- Results of any kind. -/
abbrev Loosely : α → α → Prop := fun _ _ => True

/-- Pairs of the same second part. -/
abbrev SameSecond (found found' : α × β) : Prop := found.2 = found'.2

namespace Paces

variable {base weaker : Prop} {kin : α → α → Prop} {kin' : β → β → Prop} {p q : Parser α}
  {f g : α → Parser β}

theorem pure {value value' : α} (hkin : kin value value') (hsame : base → value = value') :
    Paces base kin (pure value) (pure value') := by
  intro source options state log
  exact .reached [] [] rfl hkin fun hbase _ => ⟨hsame hbase, rfl⟩

theorem throw (fault : Fault) : Paces base kin (throw fault) (throw fault) := by
  intro source options state log
  exact .fault fault

theorem mono (h : Paces base kin p q) {kin' : α → α → Prop}
    (hbase : weaker → base) (hkin : ∀ value value', kin value value' → kin' value value') :
    Paces weaker kin' p q :=
  fun source options state log => (h source options state log).mono hbase hkin

theorem of_imp (h : Paces base kin p q) (hbase : weaker → base) : Paces weaker kin p q :=
  h.mono hbase fun _ _ => id

theorem bind (hp : Paces base kin p q)
    (hf : ∀ value value', kin value value' →
      Paces (base ∧ value = value') kin' (f value) (g value')) :
    Paces base kin' (p >>= f) (q >>= g) := by
  intro source options state log
  exact (hp source options state log).bind fun value value' next log' hkin =>
    hf value value' hkin source options next log'

theorem loosely {p : Parser α} (h : Blind p) : Paces base Loosely p p :=
  h.mono (fun _ => trivial) fun _ _ _ => trivial

/-- Behind a blind parser both runs go on with the same. -/
theorem andThen {p : Parser α} (hp : Blind p) (hf : ∀ value, Paces base kin' (f value) (g value)) :
    Paces base kin' (p >>= f) (p >>= g) := by
  apply (hp.of_imp fun _ => trivial).bind
  rintro value _ rfl
  exact (hf value).of_imp And.left

theorem ite {c : Prop} [Decidable c] {p' q' : Parser α} (hp : c → Paces base kin p q)
    (hq : ¬c → Paces base kin p' q') :
    Paces base kin (if c then p else p') (if c then q else q') := by
  by_cases h : c
  · simpa [h] using hp h
  · simpa [h] using hq h

/-- What a turn of a loop comes to, where values of the loop are of a kind. -/
inductive Turn (kin : β → β → Prop) : ForInStep β → ForInStep β → Prop
  | done {value value' : β} (h : kin value value') : Turn kin (.done value) (.done value')
  | yield {value value' : β} (h : kin value value') : Turn kin (.yield value) (.yield value')

/-- Loops keep pace if their turns do. -/
theorem iterate {step step' : β → Parser (ForInStep β)} {start start' : β}
    (hstart : kin' start start')
    (hturn : ∀ value value', kin' value value' →
      Paces (value = value') (Turn kin') (step value) (step' value')) :
    Paces (start = start') kin' (Parser.iterate start step) (Parser.iterate start' step') := by
  intro source options state log
  -- the induction is on the tokens ahead, of which each turn but the last one reads some
  induction hlength : state.ahead.length using Nat.strongRecOn generalizing start start' state log
  case ind n ih =>
  rw [Parser.iterate, Parser.iterate, turns, turns]
  refine (hturn start start' hstart source options state log).bind ?_
  rintro _ _ next log' (hvalue | hvalue)
  · exact .reached [] [] rfl hvalue fun hsame _ =>
      ⟨ForInStep.done.inj hsame.2, rfl⟩
  · change Abreast _ _ _ _ (if next.ahead.length < state.ahead.length then _ else _)
      (if next.ahead.length < state.ahead.length then _ else _)
    by_cases hshorter : next.ahead.length < state.ahead.length
    · rw [if_pos hshorter, if_pos hshorter]
      have hrest := ih _ (hlength ▸ hshorter) hvalue next log' rfl
      rw [Parser.iterate, Parser.iterate] at hrest
      exact hrest.mono (fun hsame => ForInStep.yield.inj hsame.2) fun _ _ => id
    · rw [if_neg hshorter, if_neg hshorter]
      exact .fault _

theorem get {f g : State → Parser β}
    (hf : ∀ state log, Paces base kin' (f state) (g (state.withLog log))) :
    Paces base kin' (MonadState.get >>= f) (MonadState.get >>= g) :=
  fun source options state log => hf state log source options state log

theorem read {f g : Context → Parser β}
    (hf : ∀ source (options : ParseOptions), Paces base kin' (f ⟨source, options.withStrict true⟩)
      (g ⟨source, options.withStrict false⟩)) :
    Paces base kin' (MonadReader.read >>= f) (MonadReader.read >>= g) :=
  fun source options state log => hf source options source options state log


end Paces

theorem blind_iterate {step : β → Parser (ForInStep β)} {start : β}
    (hturn : ∀ value, Blind (step value)) : Blind (iterate start step) := by
  have hloop : Paces (start = start) (· = ·) (iterate start step) (iterate start step) := by
    refine .iterate rfl ?_
    rintro value _ rfl
    refine (hturn value).mono (fun _ => trivial) ?_
    rintro result _ rfl
    cases result with
    | done value => exact .done rfl
    | yield value => exact .yield rfl
  exact hloop.of_imp fun _ => rfl

/-- A change of the state that leaves the log as it is. -/
theorem blind_modify {f : State → State} (hlog : ∀ state, (f state).log = state.log)
    (hf : ∀ state log, f (state.withLog log) = (f state).withLog log) :
    Blind (modify f : Parser Unit) := by
  intro source options state log
  change Abreast _ _ _ _ (.ok ((), f state)) (.ok ((), f (state.withLog log)))
  rw [hf]
  exact .reached [] [] (hlog state) rfl fun _ _ => ⟨rfl, rfl⟩

end Parser
end SceneLang

/-!
## Looks, steps and skips

A parser sees the tokens ahead and what has been read, but not its log.  Whatever it does with
them, other than to report a word that is not known, it does in strict and in lenient parses alike.
-/

namespace SceneLang
namespace Parser

variable {α β : Type}

/-! ## Tokens -/

@[simp] theorem State.visibleFrom_withLog (state : State) (log : Log) (n : Nat) :
    (state.withLog log).visibleFrom n = state.visibleFrom n := by
  induction n with
  | zero => rfl
  | succ n ih =>
      rw [visibleFrom, visibleFrom, ih]
      rfl

@[simp] theorem State.braceDepth_withLog (state : State) (log : Log) :
    (state.withLog log).braceDepth = state.braceDepth :=
  rfl

@[simp] theorem State.previous_withLog (state : State) (log : Log) :
    (state.withLog log).previous = state.previous :=
  rfl

theorem State.advance_withLog (state : State) (log : Log) :
    (state.withLog log).advance = state.advance.withLog log := by
  rw [advance, advance, visibleFrom_withLog]
  cases state.visibleFrom 0 with
  | nil => rfl
  | cons token rest =>
      dsimp only
      rw [apply_ite (State.withLog · log)]
      rfl

theorem State.log_advance (state : State) : state.advance.log = state.log := by
  unfold advance
  split
  · rfl
  · split <;> rfl

theorem blind_pure (value : α) : Blind (pure value : Parser α) :=
  .pure rfl fun _ => rfl

theorem blind_peek (n : Nat) : Blind (peek n) := by
  refine .get fun state log => ?_
  rw [State.visibleFrom_withLog]
  split
  · exact blind_pure _
  · exact .throw _

theorem blind_current : Blind current :=
  blind_peek 0

theorem blind_peekKind (n : Nat) : Blind (peekKind n) :=
  (blind_peek n).andThen fun _ => blind_pure _

theorem blind_currentKind : Blind currentKind :=
  blind_current.andThen fun _ => blind_pure _

theorem blind_check (kind : TokenKind) : Blind (check kind) :=
  blind_currentKind.andThen fun _ => blind_pure _

theorem blind_advance : Blind advance :=
  blind_current.andThen fun _ => blind_modify State.log_advance State.advance_withLog

theorem blind_eat (kind : TokenKind) : Blind (eat kind) :=
  (blind_check kind).andThen fun _ =>
    .ite (fun _ => blind_advance.andThen fun _ => blind_pure _) fun _ => blind_pure _

/-! ## Places -/

theorem blind_previousSpan : Blind previousSpan :=
  .get fun _ _ => blind_pure _

theorem blind_previousLine : Blind previousLine :=
  .get fun _ _ => blind_pure _

theorem blind_startPosition : Blind startPosition :=
  blind_current.andThen fun _ => blind_pure _

theorem blind_endPosition : Blind endPosition := by
  refine .get fun state log => ?_
  rw [State.previous_withLog]
  split
  · exact blind_pure _
  · exact .read fun _ _ => blind_pure _

theorem blind_locationFrom (start : Position) : Blind (locationFrom start) :=
  blind_endPosition.andThen fun _ => blind_pure _

theorem blind_sliceBetween (start stop : Nat) : Blind (sliceBetween start stop) :=
  .read fun _ _ => blind_pure _

/-! ## Diagnostics -/

/-- Both parsers report something, which is the same if it is no error. -/
theorem paces_report {base : Prop} {d d' : Diagnostic} (h : d.isError = false → d = d') :
    Paces base (· = ·) (report d) (report d') := by
  intro source options state log
  exact .reached [d] [d'] rfl rfl fun _ hclean =>
    ⟨rfl, congrArg (fun d => [d]) (h (hclean d (List.mem_singleton.mpr rfl)))⟩

/-- Behind an error nothing is said of what two parsers come to. -/
theorem Paces.afterError {base : Prop} {kin : β → β → Prop} {d d' : Diagnostic}
    {f g : Unit → Parser β} (herror : d.isError = true) (hf : Paces False kin (f ()) (g ())) :
    Paces base kin (Parser.report d >>= f) (Parser.report d' >>= g) := by
  intro source options state log
  have hunclean (ds : List Diagnostic) : ¬Clean (d :: ds) := by
    intro hclean
    rw [hclean d List.mem_cons_self] at herror
    contradiction
  change Abreast base kin state.log log (f () _ (state.withLog (state.log.push d)))
    (g () _ (state.withLog (log.push d')))
  obtain ⟨fault, hrun, hrun'⟩ | ⟨value, value', next, new, new', hrun, hrun', hlog, hkin, -⟩ :=
    (hf source options (state.withLog (state.log.push d)) (log.push d')).split
  · have hrun' : g () _ (state.withLog (log.push d')) = _ := hrun'
    rw [hrun, hrun']
    exact .fault fault
  · have hrun' : g () _ (state.withLog (log.push d')) = _ := hrun'
    rw [hrun, hrun']
    exact .reached (d :: new) (d' :: new') hlog hkin fun _ hclean => absurd hclean (hunclean new)

theorem blind_report (d : Diagnostic) : Blind (report d) :=
  paces_report fun _ => rfl

theorem blind_reportError (code : Code) (message : String) : Blind (reportError code message) :=
  blind_current.andThen fun _ => blind_report _

theorem blind_unexpected (place : String) : Blind (unexpected place) :=
  blind_current.andThen fun _ => blind_reportError _ _

theorem blind_reportUnterminated (token : Token) : Blind (reportUnterminated token) :=
  .read fun _ _ => blind_report _

theorem blind_reportUnclosed (opening : Token) : Blind (reportUnclosed opening) :=
  blind_previousSpan.andThen fun _ => blind_endPosition.andThen fun _ => blind_report _

/-! ## Nesting, failure and features -/

theorem blind_enter : Blind enter :=
  .get fun _ _ => .ite (fun _ => (blind_reportError _ _).andThen fun _ => blind_pure _) fun _ =>
    Paces.andThen (blind_modify (fun _ => rfl) fun _ _ => rfl) fun _ => blind_pure _

theorem blind_leave : Blind leave :=
  blind_modify (fun _ => rfl) fun _ _ => rfl

theorem paces_deeper {base : Prop} {kin : α → α → Prop} {refused refused' body body' : Parser α}
    (hrefused : Paces base kin refused refused') (hbody : Paces base kin body body') :
    Paces base kin (deeper refused body) (deeper refused' body') := by
  refine blind_enter.andThen fun entered => .ite (fun _ => ?_) fun _ => hrefused
  refine hbody.bind fun value value' hkin => ?_
  exact blind_leave.andThen fun _ => .pure hkin And.right

theorem blind_valueFailed : Blind valueFailed :=
  .get fun _ _ => blind_pure _

theorem blind_setValueFailed (failed : Bool) : Blind (setValueFailed failed) :=
  blind_modify (fun _ => rfl) fun _ _ => rfl

theorem blind_use (feature : Feature) : Blind (use feature) := by
  refine blind_modify (fun state => ?_) fun state log => ?_
  · split <;> rfl
  · rw [apply_ite (State.withLog · log)]
    rfl

/-! ## Skips -/

theorem blind_lower (count : Nat) : Blind (lower count) := by
  cases count with
  | zero => exact .throw _
  | succ count => exact blind_pure _

theorem blind_closingTurn (delimiter : Delimiter) (depth : Nat) :
    Blind (closingTurn delimiter depth) := by
  refine blind_currentKind.andThen fun kind => .ite (fun _ => blind_pure _) fun _ => ?_
  refine blind_advance.andThen fun _ => .ite (fun _ => blind_pure _) fun _ => ?_
  refine .ite (fun _ => ?_) fun _ => blind_pure _
  exact (blind_lower depth).andThen fun _ => blind_pure _

theorem blind_skipToClosing (delimiter : Delimiter) : Blind (skipToClosing delimiter) :=
  (blind_iterate (blind_closingTurn delimiter)).andThen fun _ => blind_pure _

theorem blind_skipBalanced : Blind skipBalanced := by
  refine blind_currentKind.andThen fun kind => ?_
  split
  · exact blind_advance.andThen fun _ => blind_pure _
  · exact blind_advance.andThen fun _ => blind_skipToClosing _

theorem blind_skipUntil {test : Parser Bool} (htest : Blind test) : Blind (skipUntil test) :=
  blind_iterate fun _ => htest.andThen fun _ => .ite (fun _ => blind_pure _) fun _ =>
    blind_skipBalanced.andThen fun _ => blind_pure _

theorem blind_atSafePlace : Blind atSafePlace :=
  blind_current.andThen fun _ => .get fun _ _ => blind_pure _

theorem blind_synchronize : Blind synchronize :=
  blind_currentKind.andThen fun _ => .ite (fun _ => blind_pure _) fun _ =>
    blind_skipBalanced.andThen fun _ => blind_skipUntil blind_atSafePlace

theorem blind_atListEnd : Blind atListEnd :=
  blind_currentKind.andThen fun _ => blind_pure _

theorem blind_recoverInList : Blind recoverInList :=
  blind_skipUntil blind_atListEnd

theorem blind_ifFailed {recover : Parser Unit} (hrecover : Blind recover) :
    Blind (ifFailed recover) :=
  blind_valueFailed.andThen fun _ => .ite (fun _ => hrecover) fun _ => blind_pure _

theorem blind_skipValue : Blind skipValue :=
  blind_currentKind.andThen fun _ => .ite (fun _ => blind_pure _) fun _ =>
    blind_skipBalanced.andThen fun _ => blind_pure _

end Parser
end SceneLang
