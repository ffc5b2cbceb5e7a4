import SceneLang.Proofs.Parser.Returns

/-!
# What the body of a directive keeps of its items

The body of a directive that steers control flow is read item by item, each into a fragment of its
own, and what comes of a fragment is decided by what it holds.  So the body is what it would be if
the fragments were collected first and sorted out afterwards: one that holds a single node and
nothing else gives way to this node, one that holds nothing is dropped, and every other one stays
as it is.  A directive that owns no nodes counts for nothing here.
-/

namespace SceneLang

/-! ## Sorting out -/

theorem Directive.walkAll_eq_nil {directives : List Directive} :
    Directive.walkAll directives = [] ↔ ∀ directive ∈ directives, directive.walk = [] := by
  induction directives with
  | nil => simp [Directive.walkAll]
  | cons directive rest ih => simp [Directive.walkAll, ih]

namespace Node

/-- A node with children, but without anything else in its body. -/
structure OnlyChildren (item : Node) : Prop where
  properties : item.properties = []
  spreads : item.spreads = []
  traits : item.traits = []
  directives : item.directives = []

/-- A node without anything in its body, apart from directives that own no nodes. -/
structure Vanishes (item : Node) : Prop where
  children : item.children = []
  properties : item.properties = []
  spreads : item.spreads = []
  traits : item.traits = []
  directives : ∀ directive ∈ item.directives, directive.walk = []

def isPlain (item : Node) : Bool :=
  item.properties.isEmpty && item.spreads.isEmpty && item.traits.isEmpty

/-- What a body keeps of the fragment into which an item has been read. -/
def kept? (item : Node) : Option Node :=
  match item.children, item.isPlain && item.directives.isEmpty with
  | [child], true => some child
  | _, _ => if 1 < item.count || !item.isPlain then some item else none

theorem count_eq (item : Node) :
    item.count = (Directive.walkAll item.directives).length + countAll item.children + 1 := by
  rw [Directive.length_walkAll]
  cases item
  rw [count]

theorem countAll_eq_zero {nodes : List Node} : countAll nodes = 0 ↔ nodes = [] := by
  cases nodes with
  | nil => simp [countAll]
  | cons node rest =>
      have hcount := node.count_eq
      simp only [countAll, reduceCtorEq, iff_false]
      omega

theorem count_le_one_iff (item : Node) : item.count ≤ 1 ↔
    item.children = [] ∧ ∀ directive ∈ item.directives, directive.walk = [] := by
  rw [← Directive.walkAll_eq_nil, ← countAll_eq_zero, ← List.length_eq_zero_iff, count_eq]
  omega

theorem isPlain_iff (item : Node) : item.isPlain = true ↔
    item.properties = [] ∧ item.spreads = [] ∧ item.traits = [] := by
  simp [isPlain, and_assoc]

theorem vanishes_iff (item : Node) :
    item.Vanishes ↔ item.isPlain = true ∧ item.count ≤ 1 := by
  rw [isPlain_iff, count_le_one_iff]
  constructor
  · intro h
    exact ⟨⟨h.properties, h.spreads, h.traits⟩, h.children, h.directives⟩
  · rintro ⟨⟨hproperties, hspreads, htraits⟩, hchildren, hdirectives⟩
    exact ⟨hchildren, hproperties, hspreads, htraits, hdirectives⟩

theorem onlyChildren_iff (item : Node) :
    item.OnlyChildren ↔ (item.isPlain && item.directives.isEmpty) = true := by
  rw [Bool.and_eq_true, isPlain_iff, List.isEmpty_iff]
  constructor
  · intro h
    exact ⟨⟨h.properties, h.spreads, h.traits⟩, h.directives⟩
  · rintro ⟨⟨hproperties, hspreads, htraits⟩, hdirectives⟩
    exact ⟨hproperties, hspreads, htraits, hdirectives⟩

theorem kept?_of_single {item child : Node} (h : item.OnlyChildren)
    (hchildren : item.children = [child]) : item.kept? = some child := by
  simp only [kept?, hchildren, item.onlyChildren_iff.mp h]

theorem kept?_of_not_single {item : Node}
    (h : ¬(item.OnlyChildren ∧ item.children.length = 1)) :
    item.kept? = if 1 < item.count || !item.isPlain then some item else none := by
  rw [kept?]
  split
  next child hchildren honly =>
    exact absurd ⟨item.onlyChildren_iff.mpr honly, by rw [hchildren]; rfl⟩ h
  next => rfl

/-- Nothing is kept of a fragment if and only if it holds nothing but directives that own no
nodes. -/
theorem kept?_eq_none_iff (item : Node) : item.kept? = none ↔ item.Vanishes := by
  by_cases hsingle : item.OnlyChildren ∧ item.children.length = 1
  · obtain ⟨child, hchildren⟩ := List.length_eq_one_iff.mp hsingle.2
    rw [kept?_of_single hsingle.1 hchildren]
    constructor
    · intro h
      contradiction
    · intro h
      rw [h.children] at hchildren
      contradiction
  · rw [kept?_of_not_single hsingle, vanishes_iff]
    by_cases hplain : item.isPlain = true
    · simp [hplain]
    · simp [hplain]

/-- What is kept of a fragment is its only child, if it holds nothing else, or all of it. -/
theorem kept?_eq_some_iff (item node : Node) : item.kept? = some node ↔
    (item.OnlyChildren ∧ item.children = [node]) ∨
      (node = item ∧ ¬item.Vanishes ∧ ¬(item.OnlyChildren ∧ item.children.length = 1)) := by
  by_cases hsingle : item.OnlyChildren ∧ item.children.length = 1
  · obtain ⟨child, hchildren⟩ := List.length_eq_one_iff.mp hsingle.2
    rw [kept?_of_single hsingle.1 hchildren]
    simp [hsingle, hchildren]
  · have hnone : ¬(item.OnlyChildren ∧ item.children = [node]) := by
      rintro ⟨honly, hchildren⟩
      exact hsingle ⟨honly, by rw [hchildren]; rfl⟩
    have hvanishes := item.kept?_eq_none_iff
    rw [kept?_of_not_single hsingle] at hvanishes ⊢
    split
    next hkept =>
      rw [if_pos hkept] at hvanishes
      simp [hnone, hsingle, ← hvanishes, eq_comm]
    next hdropped =>
      rw [if_neg hdropped] at hvanishes
      simp [hnone, ← hvanishes]

theorem count_setLoc (item : Node) (loc : Location) :
    ({ item with loc := loc } : Node).count = item.count := by
  rw [count_eq, count_eq]

theorem onlyChildren_setLoc (item : Node) (loc : Location) :
    ({ item with loc := loc } : Node).OnlyChildren ↔ item.OnlyChildren := by
  rw [onlyChildren_iff, onlyChildren_iff]
  rfl

end Node

/-! ## Collecting first -/

namespace Parser

variable {β γ : Type}

/-- What a turn of a loop comes to, seen through a function. -/
def seen (f : β → γ) : ForInStep β → ForInStep γ
  | .done value => .done (f value)
  | .yield value => .yield (f value)

/-- What a loop comes to may be looked at through a function in every turn, or in the end. -/
theorem iterate_seen {f : β → γ} {step : β → Parser (ForInStep β)}
    {step' : γ → Parser (ForInStep γ)} (h : ∀ value, step' (f value) = seen f <$> step value)
    (start : β) : iterate (f start) step' = f <$> iterate start step := by
  funext context state
  -- The induction is on the tokens ahead, which every turn but the last one makes fewer.
  induction hlength : state.ahead.length using Nat.strongRecOn generalizing start state
  case ind n ih =>
  change turns step' (f start) context state =
    (turns step start context state >>= fun result => .ok (f result.1, result.2))
  rw [turns, turns, h]
  change ((step start context state >>= fun result => .ok (seen f result.1, result.2)) >>= _) = _
  cases hstep : step start context state with
  | error fault => rfl
  | ok result =>
      obtain ⟨turn, next⟩ := result
      cases turn with
      | done value => rfl
      | yield value =>
          simp only [bind, Except.bind, seen]
          split
          next hshorter => exact ih next.ahead.length (by omega) value next rfl
          next => rfl

theorem bracedItem_seen (f : β → γ) (item : Parser β) :
    bracedItem (f <$> item) = seen f <$> bracedItem item := by
  simp only [bracedItem, bind_map_left, map_bind]
  congr 1
  funext before
  congr 1
  funext value
  congr 1
  funext after
  split
  · simp only [map_bind]
    congr 1
    funext kind
    split <;> simp [seen]
  · simp [seen]

theorem bracedTurn_seen {f : β → γ} {item : β → Parser β} {item' : γ → Parser γ}
    (h : ∀ value, item' (f value) = f <$> item value) (opening : Token) (value : β) :
    bracedTurn opening item' (f value) = seen f <$> bracedTurn opening item value := by
  simp only [bracedTurn, h, bracedItem_seen, map_bind]
  congr 1
  funext kind
  cases kind <;> simp [seen]

theorem braced_seen {f : β → γ} {item : β → Parser β} {item' : γ → Parser γ}
    (h : ∀ value, item' (f value) = f <$> item value) (start : β) :
    braced (f start) item' = f <$> braced start item := by
  simp only [braced, map_bind]
  congr 1
  funext opening
  congr 1
  funext opened
  split
  · exact iterate_seen (bracedTurn_seen h opening) start
  · simp

/-! ## Bodies -/

/-- Read an item of a body into a fragment of its own. -/
def holderItem (held : Held) (items : List Node) : Parser (List Node) := do
  let start ← startPosition
  let item ← bodyItem held (.fragment [] default)
  return (← close item start) :: items

/-- Read the items of a body, each into a fragment of its own, and keep all of these. -/
def bodyItems (held : Held) : Parser (List Node) := do
  return (← braced [] (holderItem held)).reverse

/-- Closing a node reads nothing, and changes its location only. -/
theorem exists_close (item : Node) (start : Position) (context : Context) (state : State) :
    ∃ loc, ∀ f : Node → Parser γ,
      (close item start >>= f) context state = f { item with loc := loc } context state := by
  have hend : Returns endPosition context state fun _ next => next = state := by
    rw [endPosition, returns_bind, returns_get]
    split
    · exact returns_pure.mpr rfl
    · rw [returns_bind, returns_read, returns_pure]
  obtain ⟨position, _, hrun, rfl⟩ := hend
  refine ⟨⟨start, max position start⟩, fun f => ?_⟩
  rw [close, locationFrom, bind_assoc, bind_assoc]
  change (endPosition context _ >>= _) = _
  rw [hrun]
  rfl

/-- Keep an item of the body of a directive, as `controlItem` does. -/
def keepItem (start : Position) (item : Node) (nodes : List Node) : Parser (List Node) :=
  let plain := item.properties.isEmpty && item.spreads.isEmpty && item.traits.isEmpty
  match item.children, plain && item.directives.isEmpty with
  | [child], true => return child :: nodes
  | _, _ =>
      if 1 < item.count || !plain then do return (← close item start) :: nodes
      else return nodes

theorem keepItem_of_single {item child : Node} (h : item.OnlyChildren)
    (hchildren : item.children = [child]) (start : Position) (nodes : List Node) :
    keepItem start item nodes = pure (child :: nodes) := by
  have hplain := item.onlyChildren_iff.mp h
  rw [Node.isPlain] at hplain
  simp only [keepItem, hchildren, hplain]

theorem keepItem_of_not_single {item : Node}
    (h : ¬(item.OnlyChildren ∧ item.children.length = 1)) (start : Position) (nodes : List Node) :
    keepItem start item nodes =
      if 1 < item.count || !item.isPlain then do return (← close item start) :: nodes
      else return nodes := by
  rw [keepItem]
  split
  next child hchildren honly =>
    exact absurd ⟨item.onlyChildren_iff.mpr honly, by rw [hchildren]; rfl⟩ h
  next => rfl

theorem keepItem_eq (item : Node) (start : Position) (nodes : List Node) :
    keepItem start item nodes =
      (do return (← close item start).kept?.toList ++ nodes) := by
  funext context state
  obtain ⟨loc, hclose⟩ := exists_close item start context state
  rw [hclose]
  by_cases hsingle : item.OnlyChildren ∧ item.children.length = 1
  · obtain ⟨child, hchildren⟩ := List.length_eq_one_iff.mp hsingle.2
    have hkept : ({ item with loc := loc } : Node).kept? = some child :=
      Node.kept?_of_single ((item.onlyChildren_setLoc loc).mpr hsingle.1) hchildren
    rw [keepItem_of_single hsingle.1 hchildren, hkept]
    rfl
  · have hkept : ({ item with loc := loc } : Node).kept? =
        if 1 < item.count || !item.isPlain then some { item with loc := loc } else none := by
      rw [← item.count_setLoc loc]
      exact Node.kept?_of_not_single fun h => hsingle ⟨(item.onlyChildren_setLoc loc).mp h.1, h.2⟩
    rw [keepItem_of_not_single hsingle, hkept]
    split
    next => exact hclose _
    next => rfl

theorem controlItem_eq (held : Held) (items : List Node) :
    controlItem held (items.filterMap Node.kept?) =
      List.filterMap Node.kept? <$> holderItem held items := by
  have hcontrol : controlItem held (items.filterMap Node.kept?) =
      startPosition >>= fun start => bodyItem held (.fragment [] default) >>= fun item =>
        keepItem start item (items.filterMap Node.kept?) := rfl
  have hkept (closed : Node) : (closed :: items).filterMap Node.kept? =
      closed.kept?.toList ++ items.filterMap Node.kept? := by
    rw [List.filterMap_cons]
    cases closed.kept? <;> rfl
  simp only [hcontrol, keepItem_eq, holderItem, map_bind, map_pure, hkept]

theorem controlBody_eq (held : Held) :
    controlBody held = List.filterMap Node.kept? <$> bodyItems held := by
  have hbraced := braced_seen (controlItem_eq held) []
  rw [List.filterMap_nil] at hbraced
  rw [controlBody, bodyItems, hbraced]
  simp only [bind_map_left, map_bind, map_pure, List.filterMap_reverse]

end Parser

/-- The body of a directive that steers control flow is made of what is kept of its items, in the
order in which they are written.  An item is dropped if and only if all that it adds to its fragment
are directives that own no nodes.  Otherwise it is kept, as its only child or as a whole. -/
theorem Parser.controlBody_keeps (held : Held) :
    controlBody held = List.filterMap Node.kept? <$> bodyItems held ∧
    (∀ item : Node, item.kept? = none ↔ item.Vanishes) ∧
    ∀ item node : Node, item.kept? = some node ↔
      (item.OnlyChildren ∧ item.children = [node]) ∨
        (node = item ∧ ¬item.Vanishes ∧ ¬(item.OnlyChildren ∧ item.children.length = 1)) :=
  ⟨controlBody_eq held, Node.kept?_eq_none_iff, Node.kept?_eq_some_iff⟩

/-- The directives of the nodes that the directives of a node own. -/
def Node.ownedDirectives (node : Node) : List Directive :=
  (Directive.walkAll node.directives).flatMap (·.directives)

/-- A directive that a text has at its top is lost if the text is the body of a conditional. -/
theorem Document.not_branch_keeps_directives :
    ¬∀ body : List Char, (parse .default body).success = true →
      (parse .default ("@if a \x7b ".toList ++ body ++ " \x7d".toList)).success = true →
        (parse .default body).root.directives.length ≤
          (parse .default ("@if a \x7b ".toList ++ body ++ " \x7d".toList)).root.ownedDirectives.length := by
  intro hkeeps
  have hlength := hkeeps "@state \x7b x: 1 \x7d".toList (by decide +kernel) (by decide +kernel)
  exact absurd hlength (by decide +kernel)

end SceneLang
