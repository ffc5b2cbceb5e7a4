import SceneLang.Json.Unread
import SceneLang.Json.Writer
import SceneLang.Text.Words

/-!
# Forms

A form is read straight from a text, so that the first fault of the text is the one that is
reported, whether the text is no JSON there or does not have the form.  A record may be
written as an object with a member per field, or as an array of its fields in their order.
Members of other names are passed over; a field must not occur twice.
-/

namespace SceneLang.Json

def describe : Json → String
  | .null => "null"
  | .bool value => s!"boolean `{scalar (.bool value)}`"
  | .int value => s!"integer `{value}`"
  | .float value => s!"floating point `{scalar (.float value)}`"
  | .string text => "string " ++ Text.listing text
  | .array _ => "sequence"
  | .object _ => "map"

namespace Reader

def unfit {α : Type} (message : String) : Reader α :=
  fail (.unfit message)

def wrongType {α : Type} (found : Json) (wanted : String) : Reader α :=
  unfit s!"invalid type: {describe found}, expected {wanted}"

/-- Read a value without parts.  A value with parts is left to be read, and stands for
itself without them. -/
def front : Reader Json := do
  let c ← peekToken
  if c = some '[' then return .array []
  else if c = some '\x7b' then return .object []
  else value 1

def bool : Reader Bool := do
  match ← front with
  | .bool value => return value
  | found => wrongType found "a boolean"

/-- A whole number that is not negative, called `wanted` in faults. -/
def count (wanted : String) : Reader Nat := do
  match ← front with
  | .int value =>
      if 0 ≤ value then return value.toNat
      else unfit s!"invalid value: {describe (.int value)}, expected {wanted}"
  | found => wrongType found wanted

def optional {α : Type} (inner : Reader α) : Reader (Option α) := do
  if (← peekToken) = some 'n' then
    skip
    word ['u', 'l', 'l']
    return none
  else return some (← inner)

/-- A field of a record.  Reading it changes the record. -/
structure Field (α : Type) where
  name : String
  required : Bool
  read : α → Reader α

/-- Fail because of what a bracket holds.  The fault is reported behind the bracket that
closes it, if that comes next. -/
def unfitIn {α : Type} (bracket : Bracket) (message : String) : Reader α := do
  if (← peekToken) = some bracket.closing then skip
  unfit message

/-- Read members of an object up to its end.  `seen` holds the names of the fields that have
been read, and `fuel` bounds the members. -/
def fieldsByName {α : Type} (fields : List (Field α)) :
    Nat → Bool → List String → α → Reader α
  | 0, _, _, _ => fail .nestingLimit
  | fuel + 1, first, seen, record => do
      match ← nextKey? first with
      | some name =>
          match fields.find? (·.name = name) with
          | some field =>
              if seen.contains name then unfitIn .object s!"duplicate field `{name}`"
              colon
              fieldsByName fields fuel false (name :: seen) (← field.read record)
          | none =>
              colon
              pass
              fieldsByName fields fuel false seen record
      | none =>
          match fields.find? fun field => field.required && !seen.contains field.name with
          | some field =>
              let name := field.name
              unfitIn .object s!"missing field `{name}`"
          | none =>
              skip
              return record

/-- Read the end of an array that has an item for every field. -/
def endOfFields : Reader Unit := do
  match ← peekToken with
  | none => failAhead .endInList
  | some c =>
      if c = ']' then skip
      else if c = ',' then
        skip
        if (← peekToken) = some ']' then failAhead .trailingComma
        else failAhead .trailingCharacters
      else failAhead .trailingCharacters

/-- Read items of an array for fields.  `form` describes the record, and `index` counts the
items that have been read. -/
def fieldsByPlace {α : Type} (form : String) : Nat → List (Field α) → α → Reader α
  | _, [], record => do
      endOfFields
      return record
  | index, field :: rest, record => do
      if ← moreItems (index = 0) then
        fieldsByPlace form (index + 1) rest (← field.read record)
      else
        match (field :: rest).findIdx? (·.required) with
        | some place =>
            let length := index + place
            unfitIn .list s!"invalid length {length}, expected {form}"
        | none =>
            skip
            return record

/-- Read a record, starting from a record that has all defaults. -/
def record {α : Type} (name : String) (start : α) (fields : List (Field α)) : Reader α := do
  match ← front with
  | .array _ =>
      skip
      let length := fields.length
      let form := s!"struct {name} with {length} elements"
      fieldsByPlace form 0 fields start
  | .object _ =>
      skip
      fun input => fieldsByName fields (input.rest.length + 1) true [] start input
  | found => wrongType found s!"struct {name}"

end Reader

/-- Read a value that has been read before as a form. -/
def as? {α : Type} (form : Reader α) (stored : Json) : Option α :=
  (form.run stored.compact.toList).toOption

end SceneLang.Json
