import SceneLang.Json.Basic

/-!
# Records in JSON

A record is stored as an object with a member per field, or as an array of its fields in
their order.  Members of other names are passed over; a field must not occur twice, and an
array must not be longer than the record.

A record of a sum type tells its case.  Its fields stand beside the case, or are stored as
the contents of one more member.  What comes before the case is known is set aside, and
what is set aside is read more freely.
-/

namespace SceneLang

/-- What is stored for one field. -/
inductive Slot where
  | value (value : Json)
  | absent
  | cut

/-- How a stored form is read. -/
inductive Reading where
  | direct
  /-- The form was set aside: a case may be told by its place among the cases, and an empty
  object may stand for nothing. -/
  | aside
deriving DecidableEq, Repr

namespace Json

def membersOf (name : String) (members : List (String × Json)) : List Json :=
  (members.filter (·.1 = name)).map (·.2)

/-- What members store for a field, which must not occur twice. -/
def slotOf? (members : List (String × Json)) (name : String) : Option Slot :=
  match membersOf name members with
  | [] => some .absent
  | [value] => some (.value value)
  | _ => none

/-- What an object stores for the fields of the given names. -/
def fields? (names : List String) : Json → Option (List Slot)
  | .object members => names.mapM (slotOf? members)
  | _ => none

/-- What is stored for the fields of the given names. -/
def record? (names : List String) : Json → Option (List Slot)
  | .array items =>
      if items.length ≤ names.length then
        some (items.map .value ++ List.replicate (names.length - items.length) .cut)
      else none
  | stored => stored.fields? names

def isNothing (reading : Reading) : Json → Bool
  | .null => true
  | .object [] => reading = .aside
  | _ => false

/-- A case without fields: its name, alone or as the only member of an object, which holds
nothing. -/
def caseName? (reading : Reading) : Json → Option String
  | .string name => some name
  | .object [(name, value)] => if value.isNothing reading then some name else none
  | _ => none

/-- A case that is told by its name, or by its place in the list of cases. -/
def caseMark? (reading : Reading) (cases : List String) : Json → Option String
  | .string name => some name
  | .int place => if reading = .aside ∧ 0 ≤ place then cases[place.toNat]? else none
  | _ => none

/-- A record whose fields stand beside its case: the name of the case and what is stored
beside it, which is set aside. -/
def tagged? (reading : Reading) (tag : String) (cases : List String) :
    Json → Option (String × Json)
  | .object members =>
      match membersOf tag members with
      | [mark] =>
          (mark.caseMark? reading cases).map fun name =>
            (name, .object (members.filter (·.1 ≠ tag)))
      | _ => none
  | .array (mark :: rest) => (mark.caseMark? reading cases).map fun name => (name, .array rest)
  | _ => none

/-- A record whose fields are the contents of a member: the name of the case, the contents
and how to read them.  The members of an object come in the order of their names, so that
contents whose name comes before the tag are set aside. -/
def labelled? (reading : Reading) (tag contents : String) (cases : List String) :
    Json → Option (String × Slot × Reading)
  | .object members => do
      match ← slotOf? members tag, ← slotOf? members contents with
      | .value name, slot =>
          return (← name.caseName? reading, slot, if contents < tag then .aside else reading)
      | _, _ => none
  | .array [mark, value] =>
      (mark.caseMark? reading cases).map fun name => (name, .value value, reading)
  | _ => none

def asString? : Json → Option String
  | .string text => some text
  | _ => none

def asBool? : Json → Option Bool
  | .bool value => some value
  | _ => none

def asNat? (limit : Nat) : Json → Option Nat
  | .int n => if 0 ≤ n ∧ n.toNat < limit then some n.toNat else none
  | _ => none

def asBinary64? : Json → Option Binary64
  | .float x => some x
  | .int n => some (.nearest (n < 0) n.natAbs 1)
  | _ => none

def asOption? {α : Type} (f : Json → Option α) : Json → Option (Option α)
  | .null => some none
  | value => (f value).map some

def asList? {α : Type} (f : Json → Option α) : Json → Option (List α)
  | .array items => items.mapM f
  | _ => none

end Json

namespace Slot

def required {α : Type} (f : Json → Option α) : Slot → Option α
  | .value stored => f stored
  | _ => none

def optional {α : Type} (f : Json → Option α) : Slot → Option (Option α)
  | .value stored => stored.asOption? f
  | .absent => some none
  | .cut => none

/-- A field that may be left out for a default. -/
def orElse {α : Type} (fallback : α) (f : Json → Option α) : Slot → Option α
  | .value stored => f stored
  | _ => some fallback

end Slot

end SceneLang
