import SceneLang.Node.Stored
import SceneLang.Proofs.Table.Ascending

/-!
# Values are read as they are stored

An object whose members have different names gives the fields of these names back.  A case whose
fields stand beside it comes back if none of them has the name of the tag, and what is left is
the object of the fields.  So values come back by induction, with fuel for two steps on each level
of the stored form.
-/

namespace SceneLang

variable {α : Type}

namespace Json

variable {members : List (String × Json)} {name : String}

theorem membersOf_nil (h : ∀ member ∈ members, member.1 ≠ name) : membersOf name members = [] := by
  rw [membersOf, List.map_eq_nil_iff, List.filter_eq_nil_iff]
  intro member hmem
  simpa using h member hmem

theorem membersOf_cons_self (value : Json) (h : ∀ member ∈ members, member.1 ≠ name) :
    membersOf name ((name, value) :: members) = [value] := by
  rw [membersOf, List.filter_cons_of_pos (by simp), List.map_cons]
  exact congrArg _ (membersOf_nil h)

theorem slotOf?_cons_of_ne {first : String × Json} (h : first.1 ≠ name) :
    slotOf? (first :: members) name = slotOf? members name := by
  rw [slotOf?, membersOf, List.filter_cons_of_neg (by simpa using h)]
  rfl

theorem slotOf?_of_mem (hnames : (members.map (·.1)).Nodup) {member : String × Json}
    (hmem : member ∈ members) : slotOf? members member.1 = some (.value member.2) := by
  induction members with
  | nil => nomatch hmem
  | cons first rest ih =>
      obtain ⟨hnew, hrest⟩ := List.nodup_cons.mp hnames
      have hothers : ∀ other ∈ rest, other.1 ≠ first.1 := by
        intro other hother heq
        exact hnew (List.mem_map.mpr ⟨other, hother, heq⟩)
      rcases List.mem_cons.mp hmem with rfl | hmem
      · rw [slotOf?, membersOf_cons_self member.2 hothers]
      · rw [slotOf?_cons_of_ne (hothers member hmem).symm]
        exact ih hrest hmem

theorem mapM_map_eq {β γ : Type} {f : β → Option γ} {g : α → β} {k : α → γ} {items : List α}
    (h : ∀ item ∈ items, f (g item) = some (k item)) :
    (items.map g).mapM f = some (items.map k) := by
  induction items with
  | nil => rfl
  | cons item rest ih =>
      rw [List.map_cons, List.mapM_cons, h item List.mem_cons_self,
        ih fun other hmem => h other (List.mem_cons_of_mem _ hmem)]
      rfl

/-- The fields of a record are the contents of its members. -/
theorem fields?_object (members : List (String × Json)) (hnames : (members.map (·.1)).Nodup) :
    (object members).fields? (members.map (·.1)) = some (members.map fun m => .value m.2) :=
  mapM_map_eq fun _ hmem => slotOf?_of_mem hnames hmem

theorem record?_object (members : List (String × Json)) (hnames : (members.map (·.1)).Nodup) :
    (object members).record? (members.map (·.1)) = some (members.map fun m => .value m.2) :=
  fields?_object members hnames

/-- The tag of a case is taken out, and the fields are left. -/
theorem tagged?_object (reading : Reading) {tag : String} (label : String) (cases : List String)
    (h : ∀ member ∈ members, member.1 ≠ tag) :
    (object ((tag, .string label) :: members)).tagged? reading tag cases =
      some (label, object members) := by
  have hleft : ((tag, .string label) :: members).filter (fun member => decide (member.1 ≠ tag)) =
      members := by
    rw [List.filter_cons_of_neg (by simp), List.filter_eq_self]
    intro member hmem
    simpa using h member hmem
  rw [tagged?, membersOf_cons_self _ h, hleft]
  rfl

/-- The contents of a case are set aside if their name comes before the tag. -/
theorem labelled?_object (reading : Reading) {tag contents : String} (label : String)
    (cases : List String) (value : Json) (hne : contents ≠ tag) :
    (object [(tag, .string label), (contents, value)]).labelled? reading tag contents cases =
      some (label, .value value, if contents < tag then .aside else reading) := by
  have hmark : slotOf? [(tag, .string label), (contents, value)] tag =
      some (.value (.string label)) := by
    simp [slotOf?, membersOf, hne]
  have hvalue : slotOf? [(tag, .string label), (contents, value)] contents =
      some (.value value) := by
    simp [slotOf?, membersOf, hne.symm]
  simp [labelled?, hmark, hvalue, caseName?]

/-! ## Fields -/

theorem asList?_ofList {f : Json → Option α} {g : α → Json} (items : List α)
    (h : ∀ item ∈ items, f (g item) = some item) : (ofList g items).asList? f = some items := by
  rw [ofList, asList?, mapM_map_eq (k := id) h, List.map_id]

theorem asOption?_ofOptionString (text : Option String) :
    (ofOptionString text).asOption? asString? = some text := by
  cases text <;> rfl

theorem asNat?_ofNat {limit n : Nat} (h : n < limit) : (ofNat n).asNat? limit = some n := by
  simp [ofNat, asNat?, h]

theorem asBinary64?_ofBinary64 {x : Binary64} (h : x.isFinite = true) :
    (ofBinary64 x).asBinary64? = some x := by
  simp [ofBinary64, h, asBinary64?]

end Json

@[simp] theorem Slot.required_value (f : Json → Option α) (value : Json) :
    (Slot.value value).required f = f value := rfl

@[simp] theorem Slot.optional_value (f : Json → Option α) (value : Json) :
    (Slot.value value).optional f = value.asOption? f := rfl

@[simp] theorem Slot.orElse_value (fallback : α) (f : Json → Option α) (value : Json) :
    (Slot.value value).orElse fallback f = f value := rfl

@[simp] theorem readStrings_ofStrings (texts : List String) :
    readStrings (.ofStrings texts) = some texts :=
  Json.asList?_ofList texts fun _ _ => rfl

/-! ## Tables -/

namespace Table

variable {table : Table α}

instance (table : Table α) : Decidable table.Ascending :=
  inferInstanceAs (Decidable (List.Pairwise _ _))

/-- A table that is in order is the table of its entries. -/
theorem Ascending.ofList_eq (h : table.Ascending) : ofList table = table := by
  have hnames : (table.map (·.1)).Nodup := by
    rw [List.Nodup, List.pairwise_map]
    exact h.imp ne_of_lt
  apply List.Perm.eq_of_pairwise _ (ascending_ofList table) h (ofList_perm hnames)
  intro a b _ _ hab hba
  exact absurd (String.lt_trans hab hba) (String.lt_irrefl a.1)

theorem ofJson?_toJson {f : Json → Option α} {g : α → Json} (h : table.Ascending)
    (hentries : ∀ entry ∈ table, f (g entry.2) = some entry.2) :
    Table.ofJson? f (Table.toJson g table) = some table := by
  have hread : (table.map fun entry => (entry.1, g entry.2)).mapM
      (fun member => (f member.2).map fun value => (member.1, value)) =
        some (table.map id) := by
    apply Json.mapM_map_eq
    intro entry hmem
    rw [hentries entry hmem]
    rfl
  rw [List.map_id] at hread
  simp only [Table.toJson, Table.ofJson?, hread, Option.map_some, h.ofList_eq]

end Table

end SceneLang

/-!
## Values

A spread entry of an object is stored as the value that it spreads with one more member, which tells
the kind of the entry; since no value has a member of that name, what is left without it is the
value.
-/

namespace SceneLang

theorem BinaryOp.ofJson?_name (reading : Reading) (op : BinaryOp) :
    BinaryOp.ofJson? reading (.string op.name) = some op := by
  cases op <;> rfl

theorem UnaryOp.ofJson?_name (reading : Reading) (op : UnaryOp) :
    UnaryOp.ofJson? reading (.string op.name) = some op := by
  cases op <;> rfl

theorem ArrowParam.ofJson?_toJson (param : ArrowParam) :
    ArrowParam.ofJson? param.toJson = some param := by
  have hrecord := Json.record?_object
    [("name", .string param.name), ("rest", .bool param.rest)] (by simp)
  simp_all [toJson, ofJson?, Json.asString?, Json.asBool?]

namespace Value

/-! ## Finite values -/

mutual

/-- All numbers in the value are finite. -/
def isFinite : Value → Bool
  | .number value _ _ => value.isFinite
  | .array items => areFinite items
  | .object entries => entriesFinite entries
  | .binary _ left right => left.isFinite && right.isFinite
  | .unary _ operand => operand.isFinite
  | .ternary condition thenBranch elseBranch =>
      condition.isFinite && thenBranch.isFinite && elseBranch.isFinite
  | .spread inner => inner.isFinite
  | .call callee args => callee.isFinite && areFinite args
  | .member target _ => target.isFinite
  | .index target key => target.isFinite && key.isFinite
  | .arrow _ body => bodyFinite body
  | .string _ | .bool _ | .null | .reference _ | .interpolation _ _ => true

def areFinite : List Value → Bool
  | [] => true
  | item :: rest => item.isFinite && areFinite rest

def entriesFinite : List ObjectEntry → Bool
  | [] => true
  | .field _ value :: rest => value.isFinite && entriesFinite rest
  | .spread value :: rest => value.isFinite && entriesFinite rest

def bodyFinite : ArrowBody → Bool
  | .expr value => value.isFinite
  | .block _ => true

end

/-! ## Stored forms -/

theorem depth_typed (type : String) (contents : Json) :
    (typed type contents).depth = contents.depth + 1 := by
  simp [typed, Json.depth, Json.depthOfMembers]

/-- A value is stored as an object, and the kind of an entry is not among its members. -/
theorem toJson_eq_object (value : Value) :
    ∃ members, value.toJson = .object members ∧ ∀ member ∈ members, member.1 ≠ "kind" := by
  cases value <;> exact ⟨_, rfl, by simp⟩

/-- The two steps that a level of the stored form takes. -/
theorem readJson_typed (fuel : Nat) (reading : Reading) {type : String} (contents : Json)
    (hnull : type ≠ "null") :
    readJson (fuel + 2) reading (typed type contents) =
      readContents (fuel + 1) reading type contents := by
  have hlabel := Json.labelled?_object reading type types contents
    (show "value" ≠ "type" by decide)
  have horder : ¬"value" < "type" := by decide
  rw [if_neg horder] at hlabel
  rw [readJson, typed, hlabel]
  simp [hnull]

theorem exists_fuel {type : String} {contents : Json} {fuel : Nat}
    (h : 2 * (typed type contents).depth ≤ fuel) :
    ∃ rest, fuel = rest + 2 ∧ 2 * contents.depth ≤ rest := by
  rw [depth_typed] at h
  exact ⟨fuel - 2, by omega, by omega⟩

mutual

/-- Read with fuel for its stored form, a value comes back as it was. -/
theorem readJson_toJson : ∀ (value : Value) (reading : Reading) (fuel : Nat),
    value.isFinite = true → 2 * value.toJson.depth ≤ fuel →
      readJson fuel reading value.toJson = some value
  | .string text, reading, fuel, _, hfuel => by
      obtain ⟨fuel, rfl, -⟩ := exists_fuel hfuel
      rw [toJson, readJson_typed _ _ _ (by decide)]
      rfl
  | .number value unit raw, reading, fuel, h, hfuel => by
      obtain ⟨fuel, rfl, -⟩ := exists_fuel hfuel
      rw [isFinite] at h
      have hfields := Json.fields?_object [("value", .ofBinary64 value),
        ("unit", .ofOptionString unit), ("raw", .string raw)] (by simp)
      rw [toJson, readJson_typed _ _ _ (by decide)]
      simp_all [readContents, Json.asBinary64?_ofBinary64, Json.asOption?_ofOptionString,
        Json.asString?]
  | .bool value, reading, fuel, _, hfuel => by
      obtain ⟨fuel, rfl, -⟩ := exists_fuel hfuel
      rw [toJson, readJson_typed _ _ _ (by decide)]
      rfl
  | .null, reading, fuel, _, hfuel => by
      have hpositive : 0 < fuel := by
        simp [toJson, Json.depth] at hfuel
        omega
      obtain ⟨fuel, rfl⟩ := Nat.exists_eq_succ_of_ne_zero (Nat.ne_of_gt hpositive)
      rfl
  | .array items, reading, fuel, h, hfuel => by
      obtain ⟨fuel, rfl, hitems⟩ := exists_fuel hfuel
      rw [Json.depth] at hitems
      have hread := readItems_toJson items reading fuel h (by omega)
      rw [toJson, readJson_typed _ _ _ (by decide)]
      simp [readContents, Json.asList?, hread]
  | .object entries, reading, fuel, h, hfuel => by
      obtain ⟨fuel, rfl, hentries⟩ := exists_fuel hfuel
      rw [Json.depth] at hentries
      have hread := readEntries_toJson entries reading fuel h (by omega)
      rw [toJson, readJson_typed _ _ _ (by decide)]
      simp [readContents, Json.asList?, hread]
  | .reference name, reading, fuel, _, hfuel => by
      obtain ⟨fuel, rfl, -⟩ := exists_fuel hfuel
      rw [toJson, readJson_typed _ _ _ (by decide)]
      rfl
  | .interpolation id expression, reading, fuel, _, hfuel => by
      obtain ⟨fuel, rfl, -⟩ := exists_fuel hfuel
      have hfields := Json.fields?_object
        [("id", .string id), ("expression", .string expression)] (by simp)
      rw [toJson, readJson_typed _ _ _ (by decide)]
      simp_all [readContents, Json.asString?]
  | .binary op left right, reading, fuel, h, hfuel => by
      obtain ⟨fuel, rfl, hparts⟩ := exists_fuel hfuel
      simp only [Json.depth, Json.depthOfMembers] at hparts
      rw [isFinite, Bool.and_eq_true] at h
      have hleft := readJson_toJson left reading fuel h.1 (by omega)
      have hright := readJson_toJson right reading fuel h.2 (by omega)
      have hfields := Json.fields?_object [("op", .string op.name),
        ("left", left.toJson), ("right", right.toJson)] (by simp)
      rw [toJson, readJson_typed _ _ _ (by decide)]
      simp_all [readContents, BinaryOp.ofJson?_name]
  | .unary op operand, reading, fuel, h, hfuel => by
      obtain ⟨fuel, rfl, hparts⟩ := exists_fuel hfuel
      simp only [Json.depth, Json.depthOfMembers] at hparts
      have hoperand := readJson_toJson operand reading fuel h (by omega)
      have hfields := Json.fields?_object
        [("op", .string op.name), ("operand", operand.toJson)] (by simp)
      rw [toJson, readJson_typed _ _ _ (by decide)]
      simp_all [readContents, UnaryOp.ofJson?_name]
  | .ternary condition thenBranch elseBranch, reading, fuel, h, hfuel => by
      obtain ⟨fuel, rfl, hparts⟩ := exists_fuel hfuel
      simp only [Json.depth, Json.depthOfMembers] at hparts
      rw [isFinite, Bool.and_eq_true, Bool.and_eq_true] at h
      have hcondition := readJson_toJson condition reading fuel h.1.1 (by omega)
      have hthen := readJson_toJson thenBranch reading fuel h.1.2 (by omega)
      have helse := readJson_toJson elseBranch reading fuel h.2 (by omega)
      have hfields := Json.fields?_object [("condition", condition.toJson),
        ("then_branch", thenBranch.toJson), ("else_branch", elseBranch.toJson)] (by simp)
      rw [toJson, readJson_typed _ _ _ (by decide)]
      simp_all [readContents]
  | .spread inner, reading, fuel, h, hfuel => by
      obtain ⟨fuel, rfl, hinner⟩ := exists_fuel hfuel
      have hread := readJson_toJson inner reading fuel h hinner
      rw [toJson, readJson_typed _ _ _ (by decide)]
      simp [readContents, hread]
  | .call callee args, reading, fuel, h, hfuel => by
      obtain ⟨fuel, rfl, hparts⟩ := exists_fuel hfuel
      simp only [Json.depth, Json.depthOfMembers] at hparts
      rw [isFinite, Bool.and_eq_true] at h
      have hcallee := readJson_toJson callee reading fuel h.1 (by omega)
      have hargs := readItems_toJson args reading fuel h.2 (by omega)
      have hfields := Json.fields?_object
        [("callee", callee.toJson), ("args", .array (itemsToJson args))] (by simp)
      rw [toJson, readJson_typed _ _ _ (by decide)]
      simp_all [readContents, Json.asList?]
  | .member target property, reading, fuel, h, hfuel => by
      obtain ⟨fuel, rfl, hparts⟩ := exists_fuel hfuel
      simp only [Json.depth, Json.depthOfMembers] at hparts
      have htarget := readJson_toJson target reading fuel h (by omega)
      have hfields := Json.fields?_object
        [("object", target.toJson), ("property", .string property)] (by simp)
      rw [toJson, readJson_typed _ _ _ (by decide)]
      simp_all [readContents, Json.asString?]
  | .index target key, reading, fuel, h, hfuel => by
      obtain ⟨fuel, rfl, hparts⟩ := exists_fuel hfuel
      simp only [Json.depth, Json.depthOfMembers] at hparts
      rw [isFinite, Bool.and_eq_true] at h
      have htarget := readJson_toJson target reading fuel h.1 (by omega)
      have hkey := readJson_toJson key reading fuel h.2 (by omega)
      have hfields := Json.fields?_object
        [("object", target.toJson), ("index", key.toJson)] (by simp)
      rw [toJson, readJson_typed _ _ _ (by decide)]
      simp_all [readContents]
  | .arrow params body, reading, fuel, h, hfuel => by
      obtain ⟨fuel, rfl, hparts⟩ := exists_fuel hfuel
      simp only [Json.depth, Json.depthOfMembers] at hparts
      have hbody := readBody_toJson body reading fuel h (by omega)
      have hparams := Json.asList?_ofList params fun param _ =>
        ArrowParam.ofJson?_toJson param
      have hfields := Json.fields?_object [("params", .ofList ArrowParam.toJson params),
        ("body", bodyToJson body)] (by simp)
      rw [toJson, readJson_typed _ _ _ (by decide)]
      simp_all [readContents]

theorem readItems_toJson : ∀ (items : List Value) (reading : Reading) (fuel : Nat),
    areFinite items = true → 2 * Json.depthOfItems (itemsToJson items) ≤ fuel →
      (itemsToJson items).mapM (readJson fuel reading) = some items
  | [], _, _, _, _ => rfl
  | item :: rest, reading, fuel, h, hfuel => by
      rw [areFinite, Bool.and_eq_true] at h
      rw [itemsToJson, Json.depthOfItems] at hfuel
      have hitem := readJson_toJson item reading fuel h.1 (by omega)
      have hrest := readItems_toJson rest reading fuel h.2 (by omega)
      rw [itemsToJson, List.mapM_cons, hitem, hrest]
      rfl

theorem readEntries_toJson : ∀ (entries : List ObjectEntry) (reading : Reading) (fuel : Nat),
    entriesFinite entries = true →
      2 * Json.depthOfItems (entriesToJson entries) + 1 ≤ fuel →
        (entriesToJson entries).mapM (readEntry fuel reading) = some entries
  | [], _, _, _, _ => rfl
  | .field key value :: rest, reading, fuel, h, hfuel => by
      rw [entriesFinite, Bool.and_eq_true] at h
      simp only [entriesToJson, Json.depthOfItems, Json.depth, Json.depthOfMembers] at hfuel
      obtain ⟨fuel, rfl⟩ : ∃ less, fuel = less + 1 := ⟨fuel - 1, by omega⟩
      have hvalue := readJson_toJson value .aside fuel h.1 (by omega)
      have hrest := readEntries_toJson rest reading (fuel + 1) h.2 (by omega)
      have hkinds : ∀ member ∈ [("key", Json.string key), ("value", value.toJson)],
          member.1 ≠ "kind" := by simp
      have htag := Json.tagged?_object reading "field" ["field", "spread"] hkinds
      have hrecord := Json.record?_object
        [("key", .string key), ("value", value.toJson)] (by simp)
      have hentry : readEntry (fuel + 1) reading
          (.object [("kind", .string "field"), ("key", .string key), ("value", value.toJson)]) =
            some (.field key value) := by
        simp_all [readEntry, Json.asString?]
      rw [entriesToJson, List.mapM_cons, hentry, hrest]
      rfl
  | .spread value :: rest, reading, fuel, h, hfuel => by
      rw [entriesFinite, Bool.and_eq_true] at h
      obtain ⟨members, hmembers, hkinds⟩ := toJson_eq_object value
      simp only [entriesToJson, hmembers, Json.depthOfItems, Json.depth, Json.depthOfMembers]
        at hfuel
      have hdepth : value.toJson.depth = Json.depthOfMembers members + 1 := by
        rw [hmembers, Json.depth]
      obtain ⟨fuel, rfl⟩ : ∃ less, fuel = less + 1 := ⟨fuel - 1, by omega⟩
      have hvalue := readJson_toJson value .aside fuel h.1 (by omega)
      have hrest := readEntries_toJson rest reading (fuel + 1) h.2 (by omega)
      have htag := Json.tagged?_object reading "spread" ["field", "spread"] hkinds
      have hentry : readEntry (fuel + 1) reading
          (.object (("kind", .string "spread") :: members)) = some (.spread value) := by
        rw [hmembers] at hvalue
        simp [readEntry, htag, hvalue]
      simp only [entriesToJson, hmembers]
      rw [List.mapM_cons, hentry, hrest]
      rfl

/-- The contents of a body are named before its kind, so a value in it is set aside. -/
theorem readBody_toJson : ∀ (body : ArrowBody) (reading : Reading) (fuel : Nat),
    bodyFinite body = true → 2 * (bodyToJson body).depth ≤ fuel + 1 →
      readBody fuel reading (bodyToJson body) = some body
  | .expr value, reading, fuel, h, hfuel => by
      simp only [bodyToJson, Json.depth, Json.depthOfMembers] at hfuel
      obtain ⟨fuel, rfl⟩ : ∃ less, fuel = less + 1 := ⟨fuel - 1, by omega⟩
      have hvalue := readJson_toJson value .aside fuel h (by omega)
      have hlabel := Json.labelled?_object reading "expr" ["expr", "block"] value.toJson
        (show "body" ≠ "kind" by decide)
      rw [if_pos (by decide)] at hlabel
      rw [bodyToJson, readBody, hlabel]
      simp [hvalue]
  | .block text, reading, fuel, _, hfuel => by
      simp only [bodyToJson, Json.depth, Json.depthOfMembers] at hfuel
      obtain ⟨fuel, rfl⟩ : ∃ less, fuel = less + 1 := ⟨fuel - 1, by omega⟩
      have hlabel := Json.labelled?_object reading "block" ["expr", "block"] (.string text)
        (show "body" ≠ "kind" by decide)
      rw [bodyToJson, readBody, hlabel]
      rfl

end

/-- A value is read as it is stored, however it is read. -/
theorem ofJson?_finite {value : Value} (h : value.isFinite = true) (reading : Reading) :
    ofJson? reading value.toJson = some value :=
  readJson_toJson value reading _ h (by omega)

theorem tableOfJson?_toJson {table : Table Value} (h : table.Ascending)
    (hfinite : ∀ entry ∈ table, entry.2.isFinite = true) (reading : Reading) :
    Table.ofJson? (ofJson? reading) (Table.toJson toJson table) = some table :=
  Table.ofJson?_toJson h fun entry hmem => ofJson?_finite (hfinite entry hmem) reading

end Value

end SceneLang
