import SceneLang.Number.Binary64

/-!
# JSON values

The values that stored trees and settings are written in.  Whole numbers and binary
numbers are kept apart, as the written form keeps them apart; an object lists its members
in the order in which they are written.
-/

namespace SceneLang

inductive Json where
  | null
  | bool (value : Bool)
  | int (value : Int)
  | float (value : Binary64)
  | string (value : String)
  | array (items : List Json)
  | object (members : List (String × Json))
deriving Inhabited

namespace Json

def ofNat (n : Nat) : Json := .int n

def ofStrings (texts : List String) : Json := .array (texts.map .string)

def ofOption {α : Type} (f : α → Json) : Option α → Json
  | none => .null
  | some a => f a

def ofList {α : Type} (f : α → Json) (items : List α) : Json := .array (items.map f)

def ofOptionString : Option String → Json := ofOption .string

/-- A binary number has a written form only if it is finite. -/
def ofBinary64 (x : Binary64) : Json :=
  if x.isFinite then .float x else .null

/-- The member of a name, if the value is an object that has it. -/
def member? (name : String) : Json → Option Json
  | .object members => (members.find? (·.1 = name)).map (·.2)
  | _ => none

mutual

def depth : Json → Nat
  | .array items => depthOfItems items + 1
  | .object members => depthOfMembers members + 1
  | _ => 0

def depthOfItems : List Json → Nat
  | [] => 0
  | item :: rest => max item.depth (depthOfItems rest)

def depthOfMembers : List (String × Json) → Nat
  | [] => 0
  | (_, value) :: rest => max value.depth (depthOfMembers rest)

end

end Json

end SceneLang
