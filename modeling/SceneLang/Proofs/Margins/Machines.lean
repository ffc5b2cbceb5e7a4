import SceneLang.Proofs.Margins.Elements

/-!
# State machines in pairs

State machines, and the choice among the grammars of elements, come to what resembles each other.
Where the token behind a brace may be another one, no choice depends on it.
-/

namespace SceneLang

/-! ## States and machines with the same sketch -/

section

variable {text : String → String} {state state' : MachineState} {machine machine' : StateMachine}

theorem Resembles.with_onEntry (h : Resembles text state state') {found found' : Option String}
    (hfound : found.map text = found'.map text) :
    Resembles text { state with onEntry := found } { state' with onEntry := found' } :=
  congrArg₂ (fun (state : MachineState) onEntry => ({ state with onEntry := onEntry } : MachineState)) h hfound

theorem Resembles.with_onExit (h : Resembles text state state') {found found' : Option String}
    (hfound : found.map text = found'.map text) :
    Resembles text { state with onExit := found } { state' with onExit := found' } :=
  congrArg₂ (fun (state : MachineState) onExit => ({ state with onExit := onExit } : MachineState)) h hfound

theorem Resembles.with_stateProperty (h : Resembles text state state') (key : String)
    {value value' : Value} (hvalue : Resembles text value value') :
    Resembles text { state with properties := state.properties.insert key value }
      { state' with properties := state'.properties.insert key value' } :=
  congrArg₂ (fun (state : MachineState) properties =>
      ({ state with properties := properties } : MachineState)) h
    (Resembles.insert (MachineState.mk.inj h).2.2.2 hvalue)

theorem Resembles.initial (h : Resembles text machine machine') :
    machine.initial = machine'.initial :=
  (StateMachine.mk.inj h).1

theorem Resembles.with_initial (h : Resembles text machine machine') (initial : Option String) :
    Resembles text { machine with initial := initial } { machine' with initial := initial } :=
  congrArg (fun machine : StateMachine => ({ machine with initial := initial } : StateMachine)) h

theorem Resembles.with_state (h : Resembles text machine machine')
    (hstate : Resembles text state state') :
    Resembles text { machine with states := machine.states ++ [state] }
      { machine' with states := machine'.states ++ [state'] } := by
  have hstates : Resembles text machine.states machine'.states := (StateMachine.mk.inj h).2.1
  obtain ⟨hinitial, _, htransitions⟩ := StateMachine.mk.inj h
  change StateMachine.mk machine.initial (Sketched.sketch text (machine.states ++ [state]))
    machine.transitions = _
  rw [hstates.concat hstate, hinitial, htransitions]
  rfl

theorem Resembles.with_transition (h : Resembles text machine machine') (found : Transition) :
    Resembles text { machine with transitions := machine.transitions ++ [found] }
      { machine' with transitions := machine'.transitions ++ [found] } :=
  congrArg (fun machine : StateMachine =>
    ({ machine with transitions := machine.transitions ++ [found] } : StateMachine)) h

end

namespace Parser

variable {margins : Margins}

/-- A choice that looks at the next token only behind a token that is no brace. -/
theorem and_next_iff {kind next next' : TokenKind} {c : Prop} (hc : c → kind.isBrace = false)
    (hnext : kind.isBrace = false → next = next') (P : TokenKind → Prop) :
    c ∧ P next ↔ c ∧ P next' :=
  and_congr_right fun h => by rw [hnext (hc h)]

theorem isBrace_of_isWord {token : Token} {word : String} (h : token.isWord word = true) :
    token.kind.isBrace = false := by
  rw [Token.isWord, Bool.and_eq_true, decide_eq_true_eq] at h
  rw [h.1]
  rfl

theorem isBrace_of_key {kind : TokenKind} (h : kind = .identifier ∨ kind = .string) :
    kind.isBrace = false := by
  obtain rfl | rfl := h <;> rfl

/-! ## States and transitions -/

theorem pairs_stateItem {state state' : MachineState} (h : Resembles margins.text state state') :
    Pairs margins (stateItem state) (stateItem state') := by
  refine .current fun token other htwins => .peekKind fun next next' hnext => PairsBy.at ?_ _ _
  have hopens (c : Prop) : other.kind = .identifier ∧ next = .leftBrace ∧ c ↔
      other.kind = .identifier ∧ next' = .leftBrace ∧ c :=
    and_next_iff (fun h => isBrace_of_key (.inl h)) hnext fun next => next = .leftBrace ∧ c
  rw [htwins.kind, htwins.text]
  refine .ite (hopens _) (fun _ => ?_) fun _ => .ite (hopens _) (fun _ => ?_) fun _ =>
    .ite (and_next_iff isBrace_of_key hnext fun next => next.separatesKey = true) (fun _ => ?_)
      fun _ => ?_
  · exact pairs_advance.andThen fun _ => pairs_captureBlock.bindBy fun _ _ hfound =>
      .pure (h.with_onEntry hfound)
  · exact pairs_advance.andThen fun _ => pairs_captureBlock.bindBy fun _ _ hfound =>
      .pure (h.with_onExit hfound)
  · exact pairs_advance.andThen fun _ => pairs_advance.andThen fun _ =>
      pairs_logicValue.bindBy fun _ _ hvalue => .pure (h.with_stateProperty _ hvalue)
  · exact (pairs_unexpected _).andThen fun _ => pairs_synchronize.andThen fun _ => .pure h

theorem pairs_machineState : Pairs margins machineState machineState := by
  refine (pairs_expectName _).andThen fun found => ?_
  cases found with
  | none => exact .pure rfl
  | some name =>
      refine .check fun found => .ite Iff.rfl (fun _ => ?_) fun _ => .pure rfl
      exact (pairs_braced (.refl (MachineState.mk name none none [])) fun _ _ h' =>
        pairs_stateItem h').bindBy fun _ _ h' => .pure (congrArg some h')

theorem pairs_transition : Pairs margins transition transition := by
  refine (pairs_expectName _).andThen fun found => ?_
  cases found with
  | none => exact .pure rfl
  | some source =>
      refine (pairs_eat _).andThen fun arrow => .ite Iff.rfl (fun _ => ?_) fun _ => ?_
      · refine (pairs_expectName _).andThen fun found => ?_
        cases found with
        | none => exact pairs_synchronize.andThen fun _ => .pure rfl
        | some target =>
            refine (pairs_eat _).andThen fun colon => .ite Iff.rfl (fun _ => ?_) fun _ => ?_
            · exact (pairs_expectName _).andThen fun _ => .pure rfl
            · exact .pure rfl
      · exact (pairs_unexpected _).andThen fun _ => pairs_synchronize.andThen fun _ => .pure rfl

section

variable {machine machine' : StateMachine} (h : Resembles margins.text machine machine')
include h

theorem pairs_addTransition : Pairs margins (addTransition machine) (addTransition machine') := by
  refine pairs_transition.andThen fun found => ?_
  cases found with
  | some found => exact .pure (h.with_transition found)
  | none => exact .pure h

theorem pairs_initialName (keyword keyword' : Token) :
    Pairs margins (initialName machine keyword) (initialName machine' keyword') := by
  refine (pairs_expectName _).andThen fun found => ?_
  cases found with
  | none => exact pairs_synchronize.andThen fun _ => .pure h
  | some name =>
      refine .ite (by rw [h.initial]) (fun _ => ?_) fun _ => .pure (h.with_initial (some name))
      refine PairsBy.andThen (pairs_report ?_) fun _ => .pure h
      rfl

theorem pairs_initialState : Pairs margins (initialState machine) (initialState machine') := by
  refine .current fun keyword keyword' _ => PairsBy.at ?_ keyword keyword'
  refine pairs_advance.andThen fun _ => .currentKind fun token other _ => PairsBy.at ?_ token other
  refine .ite Iff.rfl (fun _ => ?_) fun _ => ?_
  · exact pairs_advance.andThen fun _ => pairs_initialName h keyword keyword'
  · refine PairsBy.andThen (pairs_report ?_) fun _ => pairs_initialName h keyword keyword'
    rfl

theorem pairs_transitionItem : Pairs margins (transitionItem machine) (transitionItem machine') := by
  refine .currentKind fun token other _ => PairsBy.at ?_ token other
  refine .ite Iff.rfl (fun _ => pairs_addTransition h) fun _ => ?_
  exact (pairs_unexpected _).andThen fun _ => pairs_synchronize.andThen fun _ => .pure h

end

/-! ## Bodies of state machines -/

section

variable {held held' : Held} (hheld : held.Pairs margins held') {node node' : Node}
include hheld

theorem pairs_machineItem {found found' : Node × StateMachine}
    (h : Resembles margins.text found found') :
    Pairs margins (machineItem held found) (machineItem held' found') := by
  obtain ⟨node, machine⟩ := found
  obtain ⟨node', machine'⟩ := found'
  obtain ⟨hnode, hmachine⟩ := Prod.mk.inj h
  have hbeside {node node' : Node} {machine machine' : StateMachine}
      (h : Resembles margins.text node node') (h' : Resembles margins.text machine machine') :
      Resembles margins.text (node, machine) (node', machine') :=
    congrArg₂ Prod.mk h h'
  refine .current fun token other htwins => .peekKind fun next next' hnext => PairsBy.at ?_ _ _
  have hword (word : String) (P : TokenKind → Prop) :
      other.isWord word = true ∧ P next ↔ other.isWord word = true ∧ P next' :=
    and_next_iff isBrace_of_isWord hnext P
  rw [htwins.kind, htwins.isWord, htwins.isWord, htwins.isWord]
  refine .ite Iff.rfl (fun _ => ?_) fun _ =>
    .ite (hword _ (· ≠ .arrow)) (fun _ => ?_) fun _ =>
    .ite (hword _ (· ≠ .arrow)) (fun _ => ?_) fun _ =>
    .ite (hword _ (· = .leftBrace)) (fun _ => ?_) fun _ =>
    .ite (and_next_iff isBrace_of_key hnext (· = .arrow)) (fun _ => ?_) fun _ =>
    .ite (and_next_iff (fun h => isBrace_of_key (.inl h)) hnext (·.separatesKey = true))
      (fun _ => ?_) fun _ => ?_
  · exact (pairs_attachDirective hheld true hnode).bindBy fun _ _ h' =>
      .pure (hbeside h' hmachine)
  · exact (pairs_initialState hmachine).bindBy fun _ _ h' => .pure (hbeside hnode h')
  · refine pairs_advance.andThen fun _ => pairs_machineState.bindBy fun found found' hfound => ?_
    cases found with
    | none =>
        cases found' with
        | none => exact .pure (hbeside hnode hmachine)
        | some => cases hfound
    | some state =>
        cases found' with
        | none => cases hfound
        | some state' =>
            exact .pure (hbeside hnode (Resembles.with_state hmachine (Option.some.inj hfound)))
  · exact pairs_advance.andThen fun _ =>
      (pairs_braced (S := Resembles margins.text) hmachine fun _ _ h' =>
        pairs_transitionItem h').bindBy fun _ _ h' => .pure (hbeside hnode h')
  · exact (pairs_addTransition hmachine).bindBy fun _ _ h' => .pure (hbeside hnode h')
  · exact (pairs_property hnode).bindBy fun _ _ h' => .pure (hbeside h' hmachine)
  · exact (pairs_unexpected _).andThen fun _ => pairs_synchronize.andThen fun _ =>
      .pure (hbeside hnode hmachine)

theorem pairs_machineBody (h : Resembles margins.text node node') :
    Pairs margins (machineBody held node) (machineBody held' node') := by
  have hstart : Resembles margins.text (node, StateMachine.empty) (node', StateMachine.empty) :=
    congrArg (·, StateMachine.empty) h
  refine .check fun found => .ite Iff.rfl (fun _ => ?_) fun _ => ?_
  · exact pairs_braced hstart fun _ _ h' => pairs_machineItem hheld h'
  · exact (pairs_unexpected _).andThen fun _ => pairs_synchronize.andThen fun _ => .pure hstart

theorem pairs_machineRest (h : Resembles margins.text node node') {keyword keyword' : Token}
    (hkeyword : keyword.Twins margins.offset keyword') :
    Pairs margins (machineRest held node keyword) (machineRest held' node' keyword') := by
  unfold machineRest
  rw [hkeyword.line]
  refine (pairs_elementName h _).bindBy fun node node' h => ?_
  refine (pairs_machineBody hheld h).bindBy ?_
  rintro ⟨node, machine⟩ ⟨node', machine'⟩ hfound
  obtain ⟨hnode, hmachine⟩ := Prod.mk.inj hfound
  have hdone : Pairs margins (pure { node with kind := .stateMachine machine })
      (pure { node' with kind := .stateMachine machine' }) :=
    .pure (Resembles.with_kind hnode (congrArg NodeKind.stateMachine hmachine))
  refine .ite (by rw [Resembles.initial hmachine]) (fun _ => ?_) fun _ => hdone
  refine PairsBy.andThen (pairs_report ?_) fun _ => hdone
  rfl

theorem pairs_stateMachine : Pairs margins (stateMachine held) (stateMachine held') := by
  refine .current fun keyword keyword' hkeyword => PairsBy.at ?_ keyword keyword'
  refine pairs_advance.andThen fun _ => (pairs_use _).andThen fun _ => ?_
  exact (pairs_deeper (pairs_refuseElement (.refl _))
    (pairs_machineRest hheld (.refl _) hkeyword)).bindBy fun _ _ h => pairs_close h _ _

/-! ## Elements -/

omit hheld in
theorem pairs_checkKeyword {token other : Token} (htwins : token.Twins margins.offset other) :
    Pairs margins (checkKeyword token) (checkKeyword other) := by
  unfold checkKeyword
  rw [htwins.text]
  refine .ite Iff.rfl (fun _ => .pure rfl) fun _ => .read (pairs_report ?_)
  rw [Diagnostic.unknownKeyword, Diagnostic.unknownKeyword,
    Diagnostic.isError_withCandidates, Diagnostic.isError_withCandidates]
  rfl

theorem pairs_elementWith : Pairs margins (elementWith held) (elementWith held') := by
  refine .current fun token other htwins => .peekKind fun next next' hnext => PairsBy.at ?_ _ _
  -- The words that depend on what follows them are longer than a brace.
  have hlong (word : String) (hword : word.length ≠ 1) :
      (decide (other.text = word) && decide (next = .identifier)) =
        (decide (other.text = word) && decide (next' = .identifier)) := by
    by_cases h : other.text = word
    · rw [hnext (Bool.eq_false_iff.mpr fun hbrace => hword (h ▸ htwins.brace hbrace))]
    · rw [decide_eq_false h, Bool.false_and, Bool.false_and]
  have hexport := hlong "export" (by decide)
  have hfunction := hlong "function" (by decide)
  rw [htwins.text]
  refine .ite (by rw [hexport]) (fun _ => pairs_exported hheld) fun _ =>
    .ite (by rw [hfunction]) (fun _ => pairs_function) fun _ =>
    .ite Iff.rfl (fun _ => pairs_logicElement hheld) fun _ =>
    .ite Iff.rfl (fun _ => pairs_stateMachine hheld) fun _ =>
    .ite Iff.rfl (fun _ => ?_) fun _ => .ite Iff.rfl (fun _ => ?_) fun _ =>
    .ite Iff.rfl (fun _ => ?_) fun _ => ?_
  · exact (pairs_use _).andThen fun _ => pairs_genericElement hheld _
  · exact (pairs_use _).andThen fun _ => pairs_genericElement hheld _
  · exact pairs_genericElement hheld _
  · exact (pairs_checkKeyword htwins).andThen fun _ => pairs_genericElement hheld _

end

end Parser
end SceneLang
