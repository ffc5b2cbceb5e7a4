import SceneLang.Value
import SceneLang.Json.Record
import SceneLang.Table

/-!
# The stored form of values

A value is stored as its type and its contents, an operator by its name.  Reading follows
the depth of the stored form, which bounds how deeply values are nested in it.
-/

namespace SceneLang

namespace BinaryOp

def all : List BinaryOp :=
  [.coalesce, .or, .and, .eq, .ne, .lt, .le, .gt, .ge, .add, .sub, .mul, .div, .mod]

def name : BinaryOp → String
  | .coalesce => "coalesce"
  | .or => "or"
  | .and => "and"
  | .eq => "eq"
  | .ne => "ne"
  | .lt => "lt"
  | .le => "le"
  | .gt => "gt"
  | .ge => "ge"
  | .add => "add"
  | .sub => "sub"
  | .mul => "mul"
  | .div => "div"
  | .mod => "mod"

def ofJson? (reading : Reading) (stored : Json) : Option BinaryOp :=
  (stored.caseName? reading).bind fun name => all.find? (·.name = name)

end BinaryOp

namespace UnaryOp

def name : UnaryOp → String
  | .not => "not"
  | .neg => "neg"

def ofJson? (reading : Reading) (stored : Json) : Option UnaryOp :=
  (stored.caseName? reading).bind fun name => [UnaryOp.not, .neg].find? (·.name = name)

end UnaryOp

namespace ArrowParam

def toJson (param : ArrowParam) : Json :=
  .object [("name", .string param.name), ("rest", .bool param.rest)]

def ofJson? (stored : Json) : Option ArrowParam := do
  match ← stored.record? ["name", "rest"] with
  | [name, rest] => return ⟨← name.required Json.asString?, ← rest.required Json.asBool?⟩
  | _ => none

end ArrowParam

namespace Value

def typed (type : String) (contents : Json) : Json :=
  .object [("type", .string type), ("value", contents)]

mutual

def toJson : Value → Json
  | .string text => typed "string" (.string text)
  | .number value unit raw =>
      typed "number" (.object [("value", .ofBinary64 value), ("unit", .ofOptionString unit),
        ("raw", .string raw)])
  | .bool value => typed "bool" (.bool value)
  | .null => .object [("type", .string "null")]
  | .array items => typed "array" (.array (itemsToJson items))
  | .object entries => typed "object" (.array (entriesToJson entries))
  | .reference name => typed "reference" (.string name)
  | .interpolation id expression =>
      typed "interpolation" (.object [("id", .string id), ("expression", .string expression)])
  | .binary op left right =>
      typed "binary" (.object [("op", .string op.name), ("left", left.toJson),
        ("right", right.toJson)])
  | .unary op operand =>
      typed "unary" (.object [("op", .string op.name), ("operand", operand.toJson)])
  | .ternary condition thenBranch elseBranch =>
      typed "ternary" (.object [("condition", condition.toJson),
        ("then_branch", thenBranch.toJson), ("else_branch", elseBranch.toJson)])
  | .spread inner => typed "spread" inner.toJson
  | .call callee args =>
      typed "call" (.object [("callee", callee.toJson), ("args", .array (itemsToJson args))])
  | .member target property =>
      typed "member" (.object [("object", target.toJson), ("property", .string property)])
  | .index target key =>
      typed "index" (.object [("object", target.toJson), ("index", key.toJson)])
  | .arrow params body =>
      typed "arrow" (.object [("params", .ofList ArrowParam.toJson params),
        ("body", bodyToJson body)])

def itemsToJson : List Value → List Json
  | [] => []
  | item :: rest => item.toJson :: itemsToJson rest

def entriesToJson : List ObjectEntry → List Json
  | [] => []
  | .field key value :: rest =>
      .object [("kind", .string "field"), ("key", .string key), ("value", value.toJson)] ::
        entriesToJson rest
  | .spread value :: rest =>
      (match value.toJson with
        | .object members => .object (("kind", .string "spread") :: members)
        | stored => stored) :: entriesToJson rest

def bodyToJson : ArrowBody → Json
  | .expr value => .object [("kind", .string "expr"), ("body", value.toJson)]
  | .block text => .object [("kind", .string "block"), ("body", .string text)]

end

def types : List String :=
  ["string", "number", "bool", "null", "array", "object", "reference", "interpolation", "binary",
   "unary", "ternary", "spread", "call", "member", "index", "arrow"]

mutual

/-- Read a value that is nested at most `fuel` levels deep. -/
def readJson : Nat → Reading → Json → Option Value
  | 0, _, _ => none
  | fuel + 1, reading, stored => do
      let (type, slot, reading) ← stored.labelled? reading "type" "value" types
      if type = "null" then
        match slot with
        | .value .null | .absent => some .null
        | _ => none
      else slot.required (readContents fuel reading type)

/-- Read the contents of a value of the given type.  Fields are told by their names alone. -/
def readContents : Nat → Reading → String → Json → Option Value
  | 0, _, _, _ => none
  | fuel + 1, reading, type, stored =>
      let inner (slot : Slot) : Option Value := slot.required (readJson fuel reading)
      if type = "string" then stored.asString?.map .string
      else if type = "number" then do
        match ← stored.fields? ["value", "unit", "raw"] with
        | [value, unit, raw] =>
            return .number (← value.required Json.asBinary64?)
              (← unit.optional Json.asString?) (← raw.required Json.asString?)
        | _ => none
      else if type = "bool" then stored.asBool?.map .bool
      else if type = "array" then (stored.asList? (readJson fuel reading)).map .array
      else if type = "object" then (stored.asList? (readEntry fuel reading)).map .object
      else if type = "reference" then stored.asString?.map .reference
      else if type = "interpolation" then do
        match ← stored.fields? ["id", "expression"] with
        | [id, expression] =>
            return .interpolation (← id.required Json.asString?)
              (← expression.required Json.asString?)
        | _ => none
      else if type = "binary" then do
        match ← stored.fields? ["op", "left", "right"] with
        | [op, left, right] =>
            return .binary (← op.required (BinaryOp.ofJson? reading)) (← inner left)
              (← inner right)
        | _ => none
      else if type = "unary" then do
        match ← stored.fields? ["op", "operand"] with
        | [op, operand] =>
            return .unary (← op.required (UnaryOp.ofJson? reading)) (← inner operand)
        | _ => none
      else if type = "ternary" then do
        match ← stored.fields? ["condition", "then_branch", "else_branch"] with
        | [condition, thenBranch, elseBranch] =>
            return .ternary (← inner condition) (← inner thenBranch) (← inner elseBranch)
        | _ => none
      else if type = "spread" then (readJson fuel reading stored).map .spread
      else if type = "call" then do
        match ← stored.fields? ["callee", "args"] with
        | [callee, args] =>
            return .call (← inner callee) (← args.required (Json.asList? (readJson fuel reading)))
        | _ => none
      else if type = "member" then do
        match ← stored.fields? ["object", "property"] with
        | [target, property] =>
            return .member (← inner target) (← property.required Json.asString?)
        | _ => none
      else if type = "index" then do
        match ← stored.fields? ["object", "index"] with
        | [target, key] => return .index (← inner target) (← inner key)
        | _ => none
      else if type = "arrow" then do
        match ← stored.fields? ["params", "body"] with
        | [params, body] =>
            return .arrow (← params.required (Json.asList? ArrowParam.ofJson?))
              (← body.required (readBody fuel reading))
        | _ => none
      else none

def readEntry : Nat → Reading → Json → Option ObjectEntry
  | 0, _, _ => none
  | fuel + 1, reading, stored => do
      let (kind, rest) ← stored.tagged? reading "kind" ["field", "spread"]
      if kind = "field" then
        match ← rest.record? ["key", "value"] with
        | [key, value] =>
            return .field (← key.required Json.asString?)
              (← value.required (readJson fuel .aside))
        | _ => none
      else if kind = "spread" then (readJson fuel .aside rest).map .spread
      else none

def readBody : Nat → Reading → Json → Option ArrowBody
  | 0, _, _ => none
  | fuel + 1, reading, stored => do
      let (kind, body, reading) ← stored.labelled? reading "kind" "body" ["expr", "block"]
      if kind = "expr" then (body.required (readJson fuel reading)).map .expr
      else if kind = "block" then (body.required Json.asString?).map .block
      else none

end

/-- Read a stored value.  Two steps are made for each level of the stored form. -/
def ofJson? (reading : Reading) (stored : Json) : Option Value :=
  readJson (2 * stored.depth + 2) reading stored

end Value

def Table.toJson {α : Type} (f : α → Json) (table : Table α) : Json :=
  .object (table.map fun (name, value) => (name, f value))

/-- Read a stored table; the last member of a name counts. -/
def Table.ofJson? {α : Type} (f : Json → Option α) : Json → Option (Table α)
  | .object members =>
      (members.mapM fun member => (f member.2).map fun value => (member.1, value)).map
        Table.ofList
  | _ => none

end SceneLang
