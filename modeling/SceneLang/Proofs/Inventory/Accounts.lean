import SceneLang.Proofs.Inventory.Constructs
import SceneLang.Proofs.Parser.Makes

/-!
# Parsers that account for what they build

A parse that builds a construct has to have noted it: the feature it belongs to among the features,
and an error where it is a defect.  What has been noted stays so, and therefore what a parser builds
is accounted for if it is built of what is given, of what it reads, and of what it notes down itself.
-/

namespace SceneLang

theorem Feature.mem_inOrder {feature : Feature} {features : List Feature} :
    feature ∈ inOrder features ↔ feature ∈ features := by
  cases feature <;> simp [inOrder, all]

theorem Log.Reports.hasErrors {code : Code} {log : Log} (h : log.Reports code) :
    log.hasErrors = true := by
  apply decide_eq_true
  obtain hdropped | ⟨d, hmem, -⟩ := h
  · exact Nat.lt_of_lt_of_le (Nat.pos_of_ne_zero hdropped) (Nat.le_add_left _ _)
  · exact Nat.lt_of_lt_of_le (List.length_pos_of_mem hmem) (Nat.le_add_right _ _)

namespace Parser

variable {options : ParseOptions} {given others : List Construct} {state next : State}

/-! ## What is accounted for -/

/-- What there is to be noted of a construct has been noted. -/
structure Noted (options : ParseOptions) (construct : Construct) (state : State) : Prop where
  feature : ∀ feature ∈ construct.feature? options.traits, feature ∈ state.features
  fault : construct ∈ Construct.faults → state.log.hasErrors = true
  allowed : construct.allowed options = true

theorem Reaches.mem_features {feature : Feature} (h : Reaches state next)
    (hmem : feature ∈ state.features) : feature ∈ next.features := by
  apply h.invariant _ hmem
  intro first second hstep hfirst
  cases hstep with
  | advance =>
      unfold State.advance
      split
      · exact hfirst
      · split <;> exact hfirst
  | use other => exact List.mem_cons_of_mem other hfirst
  | report | valueFailed | enter | leave | interpolation | imports => exact hfirst

theorem Reaches.hasErrors (h : Reaches state next) (herrors : state.log.hasErrors = true) :
    next.log.hasErrors = true := by
  apply h.invariant _ herrors
  intro first second hstep hfirst
  cases hstep with
  | advance => rwa [State.advance_log]
  | report d => rw [Log.hasErrors_push, hfirst, Bool.true_or]
  | valueFailed | use | enter | leave | interpolation | imports => exact hfirst

theorem Noted.later {construct : Construct} (h : Noted options construct state)
    (hreaches : Reaches state next) : Noted options construct next :=
  ⟨fun feature hfeature => hreaches.mem_features (h.feature feature hfeature),
    fun hfault => hreaches.hasErrors (h.fault hfault), h.allowed⟩

/-- An error accounts for the defects. -/
theorem noted_of_mem_faults {construct : Construct} (hfault : construct ∈ Construct.faults)
    (h : state.log.hasErrors = true) : Noted options construct state := by
  simp only [Construct.faults, List.mem_cons, List.not_mem_nil, or_false] at hfault
  rcases hfault with rfl | rfl
  · exact ⟨fun _ hsome => (nomatch hsome), fun _ => h, rfl⟩
  · exact ⟨fun _ hsome => (nomatch hsome), fun _ => h, rfl⟩

/-- There is nothing to be noted of what is allowed and belongs to no feature. -/
theorem noted_of_feature?_eq_none {construct : Construct}
    (hfeature : construct.feature? options.traits = none) (hfault : construct ∉ Construct.faults)
    (hallowed : construct.allowed options = true) : Noted options construct state := by
  refine ⟨fun feature hsome => ?_, fun h => absurd h hfault, hallowed⟩
  rw [hfeature] at hsome
  cases hsome

/-- A state that a parse can go on from, and that accounts for these constructs. -/
structure Answers (options : ParseOptions) (given : List Construct) (state : State) : Prop where
  ended : Ended state.ahead
  nesting : state.nesting ≤ maxNesting
  noted : ∀ construct ∈ given, Noted options construct state

namespace Answers

theorem within (h : Answers options given state) : Within state.ahead.length state.nesting state :=
  ⟨h.ended, Nat.le_refl _, rfl, h.nesting⟩

theorem subset (h : Answers options given state) (hsubset : others ⊆ given) :
    Answers options others state :=
  ⟨h.ended, h.nesting, fun construct hmem => h.noted construct (hsubset hmem)⟩

theorem keeps (h : Answers options given state) (hkeeps : Keeps state next) :
    Answers options given next :=
  ⟨hkeeps.moved.ended h.ended, hkeeps.nesting ▸ h.nesting,
    fun construct hmem => (h.noted construct hmem).later hkeeps.reaches⟩

/-- What was accounted for before still is, beside what is by now. -/
theorem append (h : Answers options given state) (hreaches : Reaches state next)
    (hnext : Answers options others next) : Answers options (given ++ others) next := by
  refine ⟨hnext.ended, hnext.nesting, fun construct hmem => ?_⟩
  rcases List.mem_append.mp hmem with hgiven | hother
  · exact (h.noted construct hgiven).later hreaches
  · exact hnext.noted construct hother

theorem faults (h : Answers options given state) (herrors : state.log.hasErrors = true) :
    Answers options Construct.faults state :=
  ⟨h.ended, h.nesting, fun _ hfault => noted_of_mem_faults hfault herrors⟩

end Answers

/-! ## What parsers account for -/

variable {α β : Type}

/-- If a parser starts where what is given is accounted for, then it ends where its result, which is
made of these parts, is accounted for. -/
def Accounts (options : ParseOptions) (given : List Construct) (p : Parser α)
    (parts : α → List Construct) : Prop :=
  ∀ source state, Answers options given state →
    Leads p ⟨source, options⟩ state fun value next =>
      Answers options (parts value) next ∧ Reaches state next

namespace Accounts

variable {p q : Parser α} {f : α → Parser β} {parts : α → List Construct}
  {parts' : β → List Construct}

theorem pure {value : α} (h : parts value ⊆ given) : Accounts options given (pure value) parts :=
  fun _ _ hstate => leads_pure ⟨hstate.subset h, .refl⟩

/-- A result that is made of what is given. -/
theorem give {value : α} (h : parts value = given) :
    Accounts options given (Pure.pure value) parts :=
  .pure (h ▸ List.Subset.refl _)

/-- A result with nothing in it. -/
theorem drop {value : α} (h : parts value = []) :
    Accounts options given (Pure.pure value) parts :=
  .pure (h ▸ List.nil_subset _)

theorem throw {fault : Fault} : Accounts options given (throw fault) parts :=
  fun _ _ _ => leads_throw

theorem mono (h : Accounts options given p parts) {weaker : α → List Construct}
    (hsubset : ∀ value, weaker value ⊆ parts value) : Accounts options given p weaker :=
  fun source state hstate => (h source state hstate).mono fun value _ ⟨hnext, hreaches⟩ =>
    ⟨hnext.subset (hsubset value), hreaches⟩

/-- More may be given than is used. -/
theorem of_subset (h : Accounts options others p parts) (hsubset : others ⊆ given) :
    Accounts options given p parts :=
  fun source state hstate => h source state (hstate.subset hsubset)

/-- What is accounted for in any state is given. -/
theorem of_noted (construct : Construct) (hnoted : ∀ state, Noted options construct state)
    (h : Accounts options (given ++ [construct]) p parts) : Accounts options given p parts := by
  intro source state hstate
  have hone : Answers options [construct] state :=
    ⟨hstate.ended, hstate.nesting, List.forall_mem_singleton.mpr (hnoted state)⟩
  exact h source state (hstate.append .refl hone)

theorem bind (hp : Accounts options given p parts)
    (hf : ∀ value, Accounts options (parts value) (f value) parts') :
    Accounts options given (p >>= f) parts' := by
  intro source state hstate
  refine (hp source state hstate).bind ?_
  rintro value next ⟨hnext, hreaches⟩
  refine (hf value source next hnext).mono fun result last ⟨hlast, hreaches'⟩ => ?_
  exact ⟨hlast, hreaches.trans hreaches'⟩

/-- What is not touched meanwhile stays in front. -/
theorem behind (h : Accounts options given p parts) (kept : List Construct) :
    Accounts options (kept ++ given) p fun value => kept ++ parts value := by
  intro source state hstate
  have hgiven := hstate.subset (List.subset_append_right kept given)
  refine (h source state hgiven).mono fun value next ⟨hnext, hreaches⟩ => ?_
  exact ⟨(hstate.subset (List.subset_append_left kept given)).append hreaches hnext, hreaches⟩

/-- What is not touched meanwhile stays behind. -/
theorem ahead (h : Accounts options given p parts) (kept : List Construct) :
    Accounts options (given ++ kept) p fun value => parts value ++ kept :=
  ((h.behind kept).of_subset List.perm_append_comm.subset).mono fun _ =>
    List.perm_append_comm.subset

/-- What a parser accounts for by itself is put beside what is given. -/
theorem read (hp : Accounts options [] p parts)
    (hf : ∀ value, Accounts options (given ++ parts value) (f value) parts') :
    Accounts options given (p >>= f) parts' := by
  have hbeside := hp.behind given
  rw [List.append_nil] at hbeside
  exact hbeside.bind hf

/-- Where a parser is steady, no more needs to be known of it. -/
theorem before (hp : ∀ {bound depth : Nat}, Steady bound depth p)
    (hf : ∀ value, Accounts options given (f value) parts') :
    Accounts options given (p >>= f) parts' := by
  have hkept : Accounts options given p fun _ => given := by
    intro source state hstate
    refine (hp _ state hstate.within).leads.mono fun value next hkeeps => ?_
    exact ⟨hstate.keeps hkeeps, hkeeps.reaches⟩
  exact hkept.bind hf

theorem ite {c : Prop} [Decidable c] (hp : c → Accounts options given p parts)
    (hq : ¬c → Accounts options given q parts) :
    Accounts options given (if c then p else q) parts :=
  fun source state hstate =>
    .ite (fun h => hp h source state hstate) fun h => hq h source state hstate

theorem lower (count : Nat) : Accounts options given (lower count) fun _ => given := by
  cases count with
  | zero => exact throw
  | succ count => exact .pure (List.Subset.refl _)

/-- The options of a parse are those that it was started with. -/
theorem context {f : Context → Parser β}
    (hf : ∀ source, Accounts options given (f ⟨source, options⟩) parts') :
    Accounts options given (MonadReader.read >>= f) parts' :=
  fun source state hstate => hf source source state hstate

end Accounts

/-! ## Loops and levels -/

/-- What a turn of a loop is made of: the result of the loop, or what the loop goes on with. -/
def turnConstructs (done yield : β → List Construct) : ForInStep β → List Construct
  | .done value => done value
  | .yield value => yield value

namespace Accounts

variable {parts result : β → List Construct} {start : β}

theorem iterate {step : β → Parser (ForInStep β)}
    (hturn : ∀ value, Accounts options (parts value) (step value)
      (turnConstructs result parts)) :
    Accounts options (parts start) (iterate start step) result := by
  intro source state hstate
  refine Leads.iterate (fun value next => Answers options (parts value) next ∧ Reaches state next)
    ⟨hstate, .refl⟩ ?_
  rintro value next ⟨hnext, hreaches⟩
  refine (hturn value source next hnext).mono fun turned last ⟨hlast, hreaches'⟩ => ?_
  cases turned with
  | done value => exact ⟨hlast, hreaches.trans hreaches'⟩
  | yield value => exact ⟨hlast, hreaches.trans hreaches'⟩

/-- What each item of a block accounts for beside the items before it, the block does. -/
theorem braced {item : β → Parser β}
    (hitem : ∀ value, Accounts options (parts value) (item value) parts) :
    Accounts options (parts start) (braced start item) parts := by
  have hyield (value : β) : Accounts options (parts value) (Pure.pure (.yield value))
      (turnConstructs parts parts) := .give rfl
  have hdone (value : β) : Accounts options (parts value) (Pure.pure (.done value))
      (turnConstructs parts parts) := .give rfl
  have hbraced (value : β) : Accounts options (parts value) (bracedItem (item value))
      (turnConstructs parts parts) := by
    refine .before resting_get.steady fun _ => .bind (hitem value) fun value =>
      .before resting_get.steady fun _ => .ite (fun _ => ?_) fun _ => hyield value
    exact .before resting_currentKind.steady fun _ => .ite (fun _ => hyield value) fun _ =>
      .before steady_advance fun _ => hyield value
  refine .before resting_current.steady fun opening => .before (steady_eat .leftBrace) fun _ =>
    .ite (fun _ => .iterate fun value => .before resting_currentKind.steady fun kind => ?_)
      fun _ => .before (resting_unexpected _).steady fun _ => .give rfl
  split
  · exact .before steady_advance fun _ => hdone value
  · exact .before (resting_reportUnclosed opening).steady fun _ => hdone value
  · exact .before steady_advance fun _ => hyield value
  · exact .before steady_advance fun _ => hyield value
  · exact hbraced value

/-- Where a level is refused, the error that says so accounts for the defects. -/
theorem deeper {refused body : Parser β}
    (hrefused : Accounts options (given ++ Construct.faults) refused parts)
    (hbody : Accounts options given body parts) :
    Accounts options given (deeper refused body) parts := by
  intro source state hstate
  refine (returns_enter hstate.ended).leads.bind ?_
  rintro _ next (⟨rfl, -, hsame, hreports⟩ | ⟨rfl, hlimit, rfl⟩)
  · rw [if_neg Bool.false_ne_true]
    have hnext := hstate.keeps hsame.keeps
    have hfaults := hnext.append .refl (hnext.faults hreports.hasErrors)
    refine (hrefused source next hfaults).mono fun value last ⟨hlast, hreaches⟩ => ?_
    exact ⟨hlast, hsame.reaches.trans hreaches⟩
  · rw [if_pos rfl]
    have hreaches : Reaches state { state with nesting := state.nesting + 1 } :=
      .single (.enter state)
    have hentered : Answers options given { state with nesting := state.nesting + 1 } :=
      ⟨hstate.ended, hlimit, fun one hmem => (hstate.noted one hmem).later hreaches⟩
    refine (hbody source _ hentered).bind ?_
    rintro value next ⟨hnext, hreaches'⟩
    have hleft : Reaches next { next with nesting := next.nesting - 1 } := .single (.leave next)
    have hleave : Returns leave ⟨source, options⟩ next fun _ last =>
        last = { next with nesting := next.nesting - 1 } := returns_modify.mpr rfl
    refine hleave.leads.bind ?_
    rintro _ _ rfl
    refine leads_pure ⟨⟨hnext.ended, Nat.le_trans (Nat.sub_le _ _) hnext.nesting, ?_⟩,
      (hreaches.trans hreaches').trans hleft⟩
    exact fun one hmem => (hnext.noted one hmem).later hleft

end Accounts

/-! ## What is noted down -/

/-- Once a feature is noted, a construct that belongs to it is accounted for. -/
theorem accounts_use (construct : Construct) {feature : Feature}
    (hfeature : construct.feature? options.traits = some feature)
    (hallowed : construct.allowed options = true) :
    Accounts options [] (use feature) fun _ => [construct] := by
  intro source state hstate
  have hnoted : Returns (use feature) ⟨source, options⟩ state fun _ next =>
      Same state next ∧ feature ∈ next.features := by
    apply returns_modify.mpr
    split
    next hcontains => exact ⟨.refl state, List.contains_iff_mem.mp hcontains⟩
    next => exact ⟨⟨rfl, rfl, rfl, .single (.use state feature)⟩, List.mem_cons_self⟩
  refine hnoted.leads.mono fun _ next ⟨hsame, hmem⟩ => ?_
  have hnext := hstate.keeps hsame.keeps
  refine ⟨⟨hnext.ended, hnext.nesting, List.forall_mem_singleton.mpr ?_⟩, hsame.reaches⟩
  refine ⟨fun other hother => ?_, fun hfault => ?_, hallowed⟩
  · rw [hfeature, Option.mem_some_iff] at hother
    exact hother ▸ hmem
  · simp only [Construct.faults, List.mem_cons, List.not_mem_nil, or_false] at hfault
    rcases hfault with rfl | rfl
    · cases hfeature
    · cases hfeature

theorem accounts_report {d : Diagnostic} (h : d.isError = true) :
    Accounts options [] (report d) fun _ => Construct.faults := by
  intro source state hstate
  have hsame : Same state { state with log := state.log.push d } :=
    ⟨rfl, rfl, rfl, .single (.report state d)⟩
  have hreport : Returns (report d) ⟨source, options⟩ state fun _ next =>
      next = { state with log := state.log.push d } := returns_modify.mpr rfl
  refine hreport.leads.mono ?_
  rintro _ _ rfl
  refine ⟨(hstate.keeps hsame.keeps).faults ?_, hsame.reaches⟩
  rw [Log.hasErrors_push, h, Bool.or_true]

theorem accounts_unexpected (place : String) :
    Accounts options [] (unexpected place) fun _ => Construct.faults :=
  .before resting_current.steady fun _ => .before resting_current.steady fun _ =>
    accounts_report rfl

/-- Where there is no name, an error says so. -/
theorem accounts_expectName (what : String) :
    Accounts options [] (expectName what) fun found =>
      if found.isSome then [] else Construct.faults := by
  refine .before resting_current.steady fun token => ?_
  split
  · exact .before steady_advance fun _ => .give rfl
  · exact .before steady_advance fun _ => .give rfl
  · exact .before (resting_reportUnterminated token).steady fun _ =>
      .before steady_advance fun _ => .give rfl
  · exact .bind (accounts_unexpected _) fun _ => .give rfl

end Parser

end SceneLang
