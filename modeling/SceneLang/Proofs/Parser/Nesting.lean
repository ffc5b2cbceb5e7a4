import SceneLang.Proofs.Parser.Values

/-!
# Nested values keep the cursor going forward

One level deeper the nesting is one more, and behind that level it is what it was.  Since it
never passes its limit, a value with more levels left than the limit leaves open never comes
to its bottom.
-/

namespace SceneLang
namespace Parser

variable {α : Type} {bound depth : Nat} {context : Context} {state : State}

/-- Below the limit a level is entered, and at the limit it is refused. -/
theorem returns_deeper {refused body : Parser α} (hwithin : Within bound depth state)
    (hrefused : Steady bound depth refused)
    (hbody : ∀ entered : State, Within bound (depth + 1) entered → entered.token = state.token →
      Returns body context entered fun _ next => Keeps entered next) :
    Returns (deeper refused body) context state fun _ next => Keeps state next := by
  rw [deeper, returns_bind, enter, returns_bind, returns_get, returns_ite]
  constructor
  · intro _
    have hreport : Steady bound depth (do
        reportError .nestingTooDeep s!"nesting too deep: more than {maxNesting} levels"
        return false) :=
      (resting_reportError _ _).steady.bind fun _ => .pure false
    have hstays := hreport context state hwithin
    simp only [returns_bind, returns_pure] at hstays ⊢
    apply hstays.mono
    intro _ next hnext
    rw [if_neg Bool.false_ne_true]
    exact hrefused.after_keeps (hwithin.keeps hnext) hnext
  · intro hlimit
    have hdepth : depth < maxNesting := by
      rw [← hwithin.nesting]
      exact Nat.lt_of_not_le hlimit
    have hentered : Within bound (depth + 1) { state with nesting := state.nesting + 1 } :=
      ⟨hwithin.ended, hwithin.short, congrArg (· + 1) hwithin.nesting, hdepth⟩
    rw [returns_bind, returns_modify, returns_pure, if_pos rfl, returns_bind]
    apply (hbody _ hentered rfl).mono
    intro value next hnext
    rw [returns_bind, leave, returns_modify, returns_pure]
    have hreaches : Reaches state { next with nesting := next.nesting - 1 } :=
      ((Reaches.single (.enter state)).trans hnext.reaches).tail (.leave next)
    exact ⟨hnext.moved, by rw [hnext.nesting]; exact Nat.add_sub_cancel _ _, hreaches⟩

theorem steady_deeper {refused body : Parser α} (hrefused : Steady bound depth refused)
    (hbody : Steady bound (depth + 1) body) : Steady bound depth (deeper refused body) :=
  fun _ _ hwithin => returns_deeper hwithin hrefused fun entered hentered _ =>
    hbody _ entered hentered

theorem steady_refuseValue : Steady bound depth refuseValue :=
  steady_skipValue.bind fun _ => (resting_setValueFailed true).steady.bind fun _ => .pure _

/-- Values are followed further than the nesting allows, so that their bottom is out of
reach. -/
theorem steady_nested {levels : Nat} (hlevels : maxNesting < levels + depth)
    (strength : Strength) : Steady bound depth (nested levels strength) := by
  induction levels generalizing depth strength with
  | zero =>
      intro context state hwithin
      exact absurd hwithin.depth_le (by omega)
  | succ levels ih =>
      have hinner (strength : Strength) : Steady bound (depth + 1) (nested levels strength) :=
        ih (by omega) strength
      cases strength with
      | any => exact steady_deeper steady_refuseValue (steady_coalesce hinner)
      | conditional => exact steady_deeper steady_refuseValue (steady_conditional hinner)

theorem steady_value : Steady bound depth value :=
  steady_nested (by omega) .any

theorem steady_object : Steady bound depth object :=
  steady_objectEntries fun strength => steady_nested (by omega) strength

theorem steady_valueOr {recover : Parser Unit} (h : Steady bound depth recover) :
    Steady bound depth (valueOr recover) :=
  (resting_setValueFailed false).steady.bind fun _ => steady_value.bind fun _ =>
    (steady_ifFailed h).bind fun _ => .pure _

/-! ## Arguments of directives -/

theorem steady_argument : Steady bound depth argument :=
  (steady_valueOr steady_recoverInList).bind fun _ =>
    (resting_setValueFailed false).steady.bind fun _ => .pure _

/-- An argument that reads nothing leaves the current token, and so its span, as it was. -/
theorem turning_argumentTurn (config : TraitConfig) :
    Turning bound depth (argumentTurn config) := by
  intro context state hwithin
  rw [argumentTurn, returns_bind, returns_current hwithin.ended]
  split
  next hkind => exact (reading_advance.bind fun _ => .pure _).turn hwithin (by simp [hkind])
  next =>
    exact (resting_unexpected _).steady.turning (fun _ => .done config) context state hwithin
  next hkind => exact (reading_advance.bind fun _ => .pure _).turn hwithin (by simp [hkind])
  next hparen heof hcomma =>
    rw [returns_bind, returns_peekKind hwithin.ended, returns_ite]
    constructor
    · intro _
      refine (reading_advance.bind fun _ => ?_).turn hwithin heof
      exact steady_advance.bind fun _ => steady_argument.bind fun _ => .pure _
    · intro _
      rw [returns_bind]
      apply (steady_argument context state hwithin).mono
      intro read next hnext
      rw [returns_bind, returns_current (hwithin.keeps hnext).ended, returns_ite]
      refine ⟨fun _ => returns_pure.mpr hnext, fun hspan => returns_pure.mpr ⟨hnext, ?_⟩⟩
      apply Nat.lt_of_not_le
      intro hlength
      apply hspan
      exact congrArg Token.span (hnext.moved.token_eq hlength)

theorem steady_arguments (line : Nat) : Steady bound depth (arguments line) := by
  apply resting_current.steady.bind
  intro token
  refine Steady.ite ?_ (.pure _)
  exact steady_advance.bind fun _ => .iterate turning_argumentTurn

theorem turning_textTurn (line : Nat) (config : TraitConfig) :
    Turning bound depth (textTurn line config) := by
  intro context state hwithin
  rw [textTurn, returns_bind, returns_current hwithin.ended, returns_ite]
  constructor
  · intro htext
    exact (reading_advance.bind fun _ => .pure _).turn hwithin (by simp [htext.1])
  · intro _
    exact returns_pure.mpr (Keeps.refl state)

theorem steady_directiveConfig (allowBody : Bool) :
    Steady bound depth (directiveConfig allowBody) := by
  apply resting_previousLine.steady.bind
  intro line
  apply (steady_arguments line).bind
  intro config
  apply Steady.bind (.iterate (turning_textTurn line))
  intro config
  apply (resting_check .leftBrace).steady.bind
  intro _
  refine Steady.ite ?_ (.pure config)
  exact steady_object.bind fun _ => .pure _

end Parser
end SceneLang
