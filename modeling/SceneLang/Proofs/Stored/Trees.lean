import SceneLang.Proofs.Stored.Values

/-!
# Trees are read as they are stored

What is stored of a tree is all there is: each record comes back from its fields, a kind and a
directive from the name of their case and what stands beside it, and the nodes that a directive
holds by induction on the tree, with fuel for each level of the stored form.
-/

namespace SceneLang

/-! ## Trees that can be stored -/

namespace Table

/-- The names are in order, as in every table that is filled entry by entry, and the entries can
be stored. -/
def isStorable {α : Type} (storable : α → Bool) (table : Table α) : Bool :=
  decide table.Ascending && table.all fun entry => storable entry.2

theorem ofJson?_storable {α : Type} {storable : α → Bool} {table : Table α}
    {f : Json → Option α} {g : α → Json} (h : table.isStorable storable = true)
    (hread : ∀ a, storable a = true → f (g a) = some a) :
    Table.ofJson? f (Table.toJson g table) = some table := by
  rw [isStorable, Bool.and_eq_true, decide_eq_true_eq, List.all_eq_true] at h
  exact ofJson?_toJson h.1 fun entry hmem => hread _ (h.2 entry hmem)

end Table

/-- A line and a column are stored in words. -/
def Position.isStorable (p : Position) : Bool :=
  p.line < wordCount && p.column < wordCount

def Location.isStorable (loc : Location) : Bool :=
  loc.start.isStorable && loc.stop.isStorable

def TraitConfig.isStorable (config : TraitConfig) : Bool :=
  config.args.all Value.isFinite && config.config.isStorable Value.isFinite

def MachineState.isStorable (state : MachineState) : Bool :=
  state.properties.isStorable Value.isFinite

def NodeKind.isStorable : NodeKind → Bool
  | .logic block => block.values.isStorable Value.isFinite
  | .stateMachine machine => machine.states.all MachineState.isStorable
  | _ => true

mutual

/-- All numbers in the tree are finite, its tables are in order, and its lines and columns fit
into the words in which they are stored. -/
def Node.isStorable : Node → Bool
  | ⟨kind, _, _, children, properties, spreads, directives, traits, _, loc⟩ =>
      kind.isStorable && Node.areStorable children && properties.isStorable Value.isFinite &&
        spreads.all Value.isFinite && Directive.areStorable directives &&
        traits.isStorable TraitConfig.isStorable && loc.isStorable

def Node.areStorable : List Node → Bool
  | [] => true
  | node :: rest => node.isStorable && Node.areStorable rest

def Directive.isStorable : Directive → Bool
  | .trait _ config | .generic _ config => config.isStorable
  | .lifecycle _ _ _ => true
  | .state properties => properties.isStorable Value.isFinite
  | .bindings table => table.isStorable Value.isFinite
  | .loop _ _ _ body => Node.areStorable body
  | .whileLoop _ body => Node.areStorable body
  | .conditional _ body none => Node.areStorable body
  | .conditional _ body (some elseBody) => Node.areStorable body && Node.areStorable elseBody
  | .imports _ => true
  | .setting _ config => config.isStorable
  | .topic _ _ config => config.isStorable

def Directive.areStorable : List Directive → Bool
  | [] => true
  | directive :: rest => directive.isStorable && Directive.areStorable rest

end

/-! ## Parts of trees -/

theorem Position.ofJson?_toJson {p : Position} (h : p.isStorable = true) :
    Position.ofJson? p.toJson = some p := by
  rw [isStorable, Bool.and_eq_true, decide_eq_true_eq, decide_eq_true_eq] at h
  have hrecord := Json.record?_object
    [("line", .ofNat p.line), ("column", .ofNat p.column)] (by simp)
  simp_all [toJson, Position.ofJson?, Json.asNat?_ofNat]

theorem Location.ofJson?_toJson {loc : Location} (h : loc.isStorable = true) :
    Location.ofJson? loc.toJson = some loc := by
  rw [isStorable, Bool.and_eq_true] at h
  have hrecord := Json.record?_object
    [("start", loc.start.toJson), ("end", loc.stop.toJson)] (by simp)
  simp_all [toJson, Location.ofJson?, Position.ofJson?_toJson]

theorem TraitConfig.ofJson?_toJson {config : TraitConfig} (h : config.isStorable = true)
    (reading : Reading) : TraitConfig.ofJson? reading config.toJson = some config := by
  rw [isStorable, Bool.and_eq_true, List.all_eq_true] at h
  have hargs := Json.asList?_ofList config.args fun value hmem =>
    Value.ofJson?_finite (h.1 value hmem) reading
  have hconfig := Table.ofJson?_storable h.2 fun _ hfinite =>
    Value.ofJson?_finite hfinite reading
  have hrecord := Json.record?_object [("args", .ofList Value.toJson config.args),
    ("config", Table.toJson Value.toJson config.config)] (by simp)
  simp_all [toJson, TraitConfig.ofJson?]

theorem ImportName.ofJson?_toJson (imported : ImportName) :
    ImportName.ofJson? imported.toJson = some imported := by
  have hrecord := Json.record?_object
    [("name", .string imported.name), ("alias", .ofOptionString imported.rename)]
    (by simp)
  simp_all [toJson, ImportName.ofJson?, Json.asString?, Json.asOption?_ofOptionString]

theorem ImportDecl.ofJson?_toJson (decl : ImportDecl) :
    ImportDecl.ofJson? decl.toJson = some decl := by
  have hnames := Json.asList?_ofList decl.names fun imported _ =>
    imported.ofJson?_toJson
  have hrecord := Json.record?_object decl.members (by simp [members])
  simp_all [toJson, members, ImportDecl.ofJson?, Json.asString?, Json.asOption?_ofOptionString]

theorem LogicFunction.ofJson?_toJson (function : LogicFunction) :
    LogicFunction.ofJson? function.toJson = some function := by
  have hrecord := Json.record?_object [("name", .string function.name),
    ("params", .ofStrings function.params), ("body", .string function.body)] (by simp)
  simp_all [toJson, LogicFunction.ofJson?, Json.asString?]

theorem EventHandler.ofJson?_toJson (handler : EventHandler) :
    EventHandler.ofJson? handler.toJson = some handler := by
  have hrecord := Json.record?_object [("event", .string handler.event),
    ("params", .ofStrings handler.params), ("body", .string handler.body)] (by simp)
  simp_all [toJson, EventHandler.ofJson?, Json.asString?]

theorem MachineState.ofJson?_toJson {state : MachineState} (h : state.isStorable = true)
    (reading : Reading) : MachineState.ofJson? reading state.toJson = some state := by
  have hproperties := Table.ofJson?_storable h fun _ hfinite =>
    Value.ofJson?_finite hfinite reading
  have hrecord := Json.record?_object [("name", .string state.name),
    ("on_entry", .ofOptionString state.onEntry), ("on_exit", .ofOptionString state.onExit),
    ("properties", Table.toJson Value.toJson state.properties)] (by simp)
  simp_all [toJson, MachineState.ofJson?, Json.asString?, Json.asOption?_ofOptionString]

theorem Transition.ofJson?_toJson (transition : Transition) :
    Transition.ofJson? transition.toJson = some transition := by
  have hrecord := Json.record?_object [("from", .string transition.source),
    ("to", .string transition.target), ("event", .ofOptionString transition.event)] (by simp)
  simp_all [toJson, Transition.ofJson?, Json.asString?, Json.asOption?_ofOptionString]

namespace NodeKind

/-- The fields of a kind have different names, and none of them is that of the tag. -/
theorem members_apart (kind : NodeKind) :
    (kind.members.map (·.1)).Nodup ∧ ∀ member ∈ kind.members, member.1 ≠ "kind" := by
  cases kind <;> simp [members]

theorem ofJson?_toJson {kind : NodeKind} (h : kind.isStorable = true) (reading : Reading) :
    NodeKind.ofJson? reading kind.toJson = some kind := by
  have htag := Json.tagged?_object reading kind.label labels kind.members_apart.2
  have hrecord := Json.record?_object kind.members kind.members_apart.1
  rw [toJson, NodeKind.ofJson?, htag, Option.bind_eq_bind, Option.bind_some]
  cases kind with
  | element | composition | fragment | environment | template | function =>
      simp only [members, List.map_cons, List.map_nil] at hrecord
      simp [label, members, hrecord, Json.asString?, Json.asOption?_ofOptionString]
  | logic block =>
      have hfunctions := Json.asList?_ofList block.functions fun function _ =>
        function.ofJson?_toJson
      have hhandlers := Json.asList?_ofList block.handlers fun handler _ =>
        handler.ofJson?_toJson
      have hvalues := Table.ofJson?_storable h fun _ hfinite =>
        Value.ofJson?_finite hfinite .aside
      simp only [members, List.map_cons, List.map_nil] at hrecord
      simp [label, members, hrecord, hfunctions, hhandlers, hvalues]
  | stateMachine machine =>
      rw [isStorable, List.all_eq_true] at h
      have hstates := Json.asList?_ofList machine.states fun state hmem =>
        MachineState.ofJson?_toJson (h state hmem) .aside
      have htransitions := Json.asList?_ofList machine.transitions
        fun transition _ => transition.ofJson?_toJson
      simp only [members, List.map_cons, List.map_nil] at hrecord
      simp [label, members, hrecord, hstates, htransitions, Json.asOption?_ofOptionString]

end NodeKind

/-! ## Nodes and directives -/

namespace Setting

theorem ofName?_name (which : Setting) : ofName? which.name = some which := by
  cases which <;> rfl

/-- No other directive has the name of a setting. -/
theorem name_apart (which : Setting) :
    ∀ label ∈ ["trait", "generic", "lifecycle", "state", "bindings", "for", "for_each", "while",
      "if", "import"], which.name ≠ label := by
  cases which <;> decide

end Setting

namespace Topic

theorem ofName?_name (which : Topic) : ofName? which.name = some which := by
  cases which <;> rfl

/-- No other directive has the name of a topic. -/
theorem name_apart (which : Topic) :
    (∀ label ∈ ["trait", "generic", "lifecycle", "state", "bindings", "for", "for_each", "while",
      "if", "import"], which.name ≠ label) ∧ Setting.ofName? which.name = none := by
  cases which <;> decide

end Topic

namespace Directive

def toJson (directive : Directive) : Json :=
  .object (("directive", .string directive.label) :: directive.members)

/-- The fields of a directive have different names, and none of them is that of the tag. -/
theorem members_apart (directive : Directive) :
    (directive.members.map (·.1)).Nodup ∧
      ∀ member ∈ directive.members, member.1 ≠ "directive" := by
  cases directive with
  | conditional condition body elseBody => cases elseBody <;> simp [members]
  | imports decl => simp [members, ImportDecl.members]
  | topic which subject config => cases which <;> simp [members, Topic.subjectName]
  | _ => simp [members]

theorem tagged?_toJson (directive : Directive) (reading : Reading) :
    directive.toJson.tagged? reading "directive" labels =
      some (directive.label, .object directive.members) :=
  Json.tagged?_object reading directive.label labels directive.members_apart.2

theorem record?_members (directive : Directive) :
    (Json.object directive.members).record? (directive.members.map (·.1)) =
      some (directive.members.map fun m => .value m.2) :=
  Json.record?_object directive.members directive.members_apart.1

theorem exists_fuel {directive : Directive} {fuel : Nat} (h : directive.toJson.depth ≤ fuel) :
    ∃ rest, fuel = rest + 1 ∧ Json.depthOfMembers directive.members ≤ rest := by
  simp only [toJson, Json.depth, Json.depthOfMembers] at h
  exact ⟨fuel - 1, by omega, by omega⟩

end Directive

/-- A directive that holds no nodes. -/
theorem Directive.readJson_plain {directive : Directive} (reading : Reading) {fuel : Nat}
    (hplain : directive.isControlFlow = false) (h : directive.isStorable = true)
    (hfuel : directive.toJson.depth ≤ fuel) :
    Directive.readJson fuel reading directive.toJson = some directive := by
  obtain ⟨fuel, rfl, -⟩ := Directive.exists_fuel hfuel
  have hrecord := directive.record?_members
  rw [Directive.readJson, directive.tagged?_toJson, Option.bind_eq_bind, Option.bind_some]
  cases directive with
  | trait name config =>
      have hconfig := TraitConfig.ofJson?_toJson h .aside
      simp only [Directive.members, List.map_cons, List.map_nil] at hrecord
      simp [Directive.label, Directive.members, hrecord, hconfig, Json.asString?]
  | generic name config =>
      have hconfig := TraitConfig.ofJson?_toJson h .aside
      simp only [Directive.members, List.map_cons, List.map_nil] at hrecord
      simp [Directive.label, Directive.members, hrecord, hconfig, Json.asString?]
  | lifecycle hook params body =>
      simp only [Directive.members, List.map_cons, List.map_nil] at hrecord
      simp [Directive.label, Directive.members, hrecord, Json.asString?]
  | state properties =>
      have hproperties := Table.ofJson?_storable h fun _ hfinite =>
        Value.ofJson?_finite hfinite .aside
      simp only [Directive.members, List.map_cons, List.map_nil] at hrecord
      simp [Directive.label, Directive.members, hrecord, hproperties]
  | bindings table =>
      have htable := Table.ofJson?_storable h fun _ hfinite =>
        Value.ofJson?_finite hfinite .aside
      simp only [Directive.members, List.map_cons, List.map_nil] at hrecord
      simp [Directive.label, Directive.members, hrecord, htable]
  | imports decl =>
      have hdecl := decl.ofJson?_toJson
      rw [ImportDecl.toJson] at hdecl
      simp [Directive.label, Directive.members, hdecl]
  | setting which config =>
      have hconfig := TraitConfig.ofJson?_toJson h .aside
      have hname := which.name_apart
      simp only [List.forall_mem_cons] at hname
      simp only [Directive.members, List.map_cons, List.map_nil] at hrecord
      simp [Directive.label, Directive.members, hrecord, hconfig, hname, Setting.ofName?_name]
  | topic which subject config =>
      have hconfig := TraitConfig.ofJson?_toJson h .aside
      obtain ⟨hname, hsetting⟩ := which.name_apart
      simp only [List.forall_mem_cons] at hname
      simp only [Directive.members, List.map_cons, List.map_nil] at hrecord
      simp [Directive.label, Directive.members, hrecord, hconfig, hname, hsetting,
        Topic.ofName?_name, Json.asOption?_ofOptionString]
  | loop | whileLoop | conditional => contradiction

mutual

/-- Read with fuel for its stored form, a node comes back as it was. -/
theorem Node.readJson_toJson : ∀ (node : Node) (reading : Reading) (fuel : Nat),
    node.isStorable = true → node.toJson.depth ≤ fuel →
      Node.readJson fuel reading node.toJson = some node
  | ⟨kind, name, id, children, properties, spreads, directives, traits, exported, loc⟩,
      reading, fuel, h, hfuel => by
      simp only [Node.isStorable, Bool.and_eq_true, List.all_eq_true] at h
      obtain ⟨⟨⟨⟨⟨⟨hkind, hchildren⟩, hproperties⟩, hspreads⟩, hdirectives⟩, htraits⟩, hloc⟩ := h
      simp only [Node.toJson, Json.depth, Json.depthOfMembers] at hfuel
      obtain ⟨fuel, rfl⟩ : ∃ less, fuel = less + 1 := ⟨fuel - 1, by omega⟩
      have hkind := NodeKind.ofJson?_toJson hkind reading
      have hchildren := Node.readList_toJson children reading fuel hchildren (by omega)
      have hproperties := Table.ofJson?_storable hproperties fun _ hfinite =>
        Value.ofJson?_finite hfinite reading
      have hspreads := Json.asList?_ofList spreads fun value hmem =>
        Value.ofJson?_finite (hspreads value hmem) reading
      have hdirectives := Directive.readList_toJson directives reading fuel hdirectives (by omega)
      have htraits := Table.ofJson?_storable htraits fun _ hstorable =>
        TraitConfig.ofJson?_toJson hstorable reading
      have hrecord := Json.record?_object [("kind", kind.toJson),
        ("name", .ofOptionString name), ("id", .ofOptionString id),
        ("children", .array (Node.listToJson children)),
        ("properties", Table.toJson Value.toJson properties),
        ("spreads", .ofList Value.toJson spreads),
        ("directives", .array (Directive.listToJson directives)),
        ("traits", Table.toJson TraitConfig.toJson traits), ("exported", .bool exported),
        ("loc", loc.toJson)] (by simp)
      simp only [List.map_cons, List.map_nil] at hrecord
      rw [Node.toJson, Node.readJson, hrecord]
      simp [hkind, hchildren, hproperties, hspreads, hdirectives, htraits,
        Location.ofJson?_toJson hloc, Json.asOption?_ofOptionString, Json.asBool?]

theorem Node.readList_toJson : ∀ (nodes : List Node) (reading : Reading) (fuel : Nat),
    Node.areStorable nodes = true → Json.depthOfItems (Node.listToJson nodes) ≤ fuel →
      (Json.array (Node.listToJson nodes)).asList? (Node.readJson fuel reading) = some nodes
  | [], _, _, _, _ => rfl
  | node :: rest, reading, fuel, h, hfuel => by
      rw [Node.areStorable, Bool.and_eq_true] at h
      rw [Node.listToJson, Json.depthOfItems] at hfuel
      have hnode := Node.readJson_toJson node reading fuel h.1 (by omega)
      have hrest := Node.readList_toJson rest reading fuel h.2 (by omega)
      rw [Json.asList?] at hrest ⊢
      rw [Node.listToJson, List.mapM_cons, hnode, hrest]
      rfl

/-- What stands beside the case of a directive is set aside, the nodes that it holds too. -/
theorem Directive.readJson_toJson : ∀ (directive : Directive) (reading : Reading) (fuel : Nat),
    directive.isStorable = true → directive.toJson.depth ≤ fuel →
      Directive.readJson fuel reading directive.toJson = some directive
  | .loop form item iterable body, reading, fuel, h, hfuel => by
      obtain ⟨fuel, rfl, hparts⟩ := Directive.exists_fuel hfuel
      simp only [Directive.members, Json.depthOfMembers, Json.depth] at hparts
      have hbody := Node.readList_toJson body .aside fuel h (by omega)
      have hrecord := Directive.record?_members (.loop form item iterable body)
      simp only [Directive.members, List.map_cons, List.map_nil] at hrecord
      rw [Directive.readJson, Directive.tagged?_toJson, Option.bind_eq_bind, Option.bind_some]
      cases form <;>
        simp [Directive.label, Directive.members, hrecord, hbody, Json.asString?]
  | .whileLoop condition body, reading, fuel, h, hfuel => by
      obtain ⟨fuel, rfl, hparts⟩ := Directive.exists_fuel hfuel
      simp only [Directive.members, Json.depthOfMembers, Json.depth] at hparts
      have hbody := Node.readList_toJson body .aside fuel h (by omega)
      have hrecord := Directive.record?_members (.whileLoop condition body)
      simp only [Directive.members, List.map_cons, List.map_nil] at hrecord
      rw [Directive.readJson, Directive.tagged?_toJson, Option.bind_eq_bind, Option.bind_some]
      simp [Directive.label, Directive.members, hrecord, hbody, Json.asString?]
  | .conditional condition body none, reading, fuel, h, hfuel => by
      obtain ⟨fuel, rfl, hparts⟩ := Directive.exists_fuel hfuel
      simp only [Directive.members, Json.depthOfMembers, Json.depth] at hparts
      have hbody := Node.readList_toJson body .aside fuel h (by omega)
      have hrecord := Directive.record?_members (.conditional condition body none)
      simp only [Directive.members, List.map_cons, List.map_nil] at hrecord
      rw [Directive.readJson, Directive.tagged?_toJson, Option.bind_eq_bind, Option.bind_some]
      simp [Directive.label, Directive.members, hrecord, hbody, Json.asString?, Json.asOption?]
  | .conditional condition body (some elseBody), reading, fuel, h, hfuel => by
      obtain ⟨fuel, rfl, hparts⟩ := Directive.exists_fuel hfuel
      simp only [Directive.members, Json.depthOfMembers, Json.depth] at hparts
      rw [Directive.isStorable, Bool.and_eq_true] at h
      have hbody := Node.readList_toJson body .aside fuel h.1 (by omega)
      have helse := Node.readList_toJson elseBody .aside fuel h.2 (by omega)
      have hrecord := Directive.record?_members (.conditional condition body (some elseBody))
      simp only [Directive.members, List.map_cons, List.map_nil] at hrecord
      rw [Directive.readJson, Directive.tagged?_toJson, Option.bind_eq_bind, Option.bind_some]
      simp [Directive.label, Directive.members, hrecord, hbody, helse, Json.asString?,
        Json.asOption?]
  | .trait _ _, reading, _, h, hfuel | .generic _ _, reading, _, h, hfuel
  | .lifecycle _ _ _, reading, _, h, hfuel | .state _, reading, _, h, hfuel
  | .bindings _, reading, _, h, hfuel | .imports _, reading, _, h, hfuel
  | .setting _ _, reading, _, h, hfuel | .topic _ _ _, reading, _, h, hfuel =>
      Directive.readJson_plain reading rfl h hfuel

theorem Directive.readList_toJson : ∀ (directives : List Directive) (reading : Reading)
    (fuel : Nat), Directive.areStorable directives = true →
      Json.depthOfItems (Directive.listToJson directives) ≤ fuel →
        (Json.array (Directive.listToJson directives)).asList?
          (Directive.readJson fuel reading) = some directives
  | [], _, _, _, _ => rfl
  | directive :: rest, reading, fuel, h, hfuel => by
      rw [Directive.areStorable, Bool.and_eq_true] at h
      rw [Directive.listToJson, Json.depthOfItems, ← Directive.toJson] at hfuel
      have hdirective := Directive.readJson_toJson directive reading fuel h.1 (by omega)
      have hrest := Directive.readList_toJson rest reading fuel h.2 (by omega)
      rw [Json.asList?] at hrest ⊢
      rw [Directive.listToJson, List.mapM_cons, ← Directive.toJson, hdirective, hrest]
      rfl

end

/-- The stored form of a tree loses nothing: reading it gives the tree again. -/
theorem Node.toJson_lossless (node : Node) (h : node.isStorable = true) :
    Node.ofJson? node.toJson = some node :=
  node.readJson_toJson .direct _ h (Nat.le_succ _)

/-- A tree of what is hard to tell apart in its stored form: entries that spread values of every
sort of contents, a value that is nothing, names that are those of cases and fields, a loop in an
alternative. -/
def Node.manifold : Node :=
  { Node.ofKind (.stateMachine ⟨some "kind", [⟨"type", none, some "", [("value", .null)]⟩],
      [⟨"a", "b", none⟩]⟩) ⟨⟨1, 1⟩, ⟨9, 2⟩⟩ with
    name := some "kind"
    children := [.ofKind (.logic ⟨[⟨"f", ["x"], ""⟩], [], [("null", .bool true)]⟩) default,
      .ofKind (.element "spread" (some "field")) default]
    properties := [("body", .object [.spread (.object [.spread .null, .field "kind" .null]),
      .spread (.arrow [⟨"xs", true⟩] (.block "expr")),
      .spread (.number ⟨0x8000000000000000⟩ none "-0")]),
      ("type", .arrow [] (.expr (.spread (.binary .or (.reference "a") (.unary .neg .null)))))]
    spreads := [.spread (.array [.null, .ternary .null (.bool false) (.string "")])]
    directives := [.conditional "c" [] (some [{ Node.ofKind .environment default with
        directives := [.loop .each "x" "xs" [.ofKind (.function [] "") default]] }]),
      .conditional "c" [] none, .topic .semantic none .empty,
      .setting .fog ⟨[.call (.member .null "object") []], [("args", .index .null .null)]⟩,
      .generic "trait" .empty, .imports ⟨"path", [⟨"name", some "alias"⟩], none⟩]
    traits := [("config", ⟨[], [("config", .null)]⟩)]
    exported := true }

theorem Node.toJson_lossless_manifold :
    Node.manifold.isStorable = true ∧ Node.ofJson? Node.manifold.toJson = some Node.manifold := by
  have h : Node.manifold.isStorable = true := by decide +kernel
  exact ⟨h, Node.toJson_lossless Node.manifold h⟩

end SceneLang
