import SceneLang.Json.Reader

/-!
# Passing over values

A value that nobody asks for is passed over without being built.  It has to be JSON all the
same, but it may be nested to any depth, its numbers may be of any size, and its texts may
hold halves of surrogate pairs.
-/

namespace SceneLang.Json

/-- What an open bracket holds. -/
inductive Bracket where
  | list
  | object
deriving DecidableEq, Repr

namespace Bracket

def closing : Bracket → Char
  | .list => ']'
  | .object => '\x7d'

def endFault : Bracket → Fault
  | .list => .endInList
  | .object => .endInObject

def separatorFault : Bracket → Fault
  | .list => .expectedListCommaOrEnd
  | .object => .expectedObjectCommaOrEnd

end Bracket

namespace Reader

def passNumber : Reader Unit := do
  let first ← oneOf Char.isDigit .invalidNumber .invalidNumber
  if first = '0' then
    if let some c ← peek then
      if c.isDigit then failAhead .invalidNumber
  else discard digits
  if (← peek) = some '.' then
    skip
    if (← digits).isEmpty then failAhead .invalidNumber
  let mark ← peek
  if mark = some 'e' || mark = some 'E' then
    skip
    let sign ← peek
    if sign = some '+' || sign = some '-' then skip
    discard <| oneOf Char.isDigit .invalidNumber .invalidNumber
    discard digits

/-- Pass over the rest of a quoted text; `fuel` bounds the characters read. -/
def passQuotedRest : Nat → Reader Unit
  | 0 => fail .endInString
  | fuel + 1 => do
      match ← peek with
      | none => fail .endInString
      | some c =>
          if c.toNat < 0x20 then fail .controlCharacter
          skip
          if c = '\\' then
            if (← oneOf isEscape .endInString .invalidEscape) = 'u' then discard hexEscape
          unless c = '"' do passQuotedRest fuel

/-- Pass over a text whose opening quote has been read. -/
def passQuoted : Reader Unit := fun input =>
  passQuotedRest (input.rest.length + 1) input

/-- Pass over a value without parts, or over an opening bracket, which is returned. -/
def passFront : Reader (Option Bracket) := do
  match ← peekToken with
  | none => failAhead .endInValue
  | some c =>
      if c.isDigit then do passNumber; return none
      else if c = '-' then do skip; passNumber; return none
      else if c = '"' then do skip; passQuoted; return none
      else if c = 'n' then do skip; word ['u', 'l', 'l']; return none
      else if c = 't' then do skip; word ['r', 'u', 'e']; return none
      else if c = 'f' then do skip; word ['a', 'l', 's', 'e']; return none
      else if c = '[' then do skip; return some .list
      else if c = '\x7b' then do skip; return some .object
      else failAhead .expectedValue

def passKey : Reader Unit := do
  match ← peekToken with
  | none => failAhead .endInObject
  | some c =>
      if c = '"' then do skip; passQuoted; colon
      else failAhead .keyNotString

/-- Pass over the rest of what stands in open brackets, the innermost one first; `first`
tells that nothing in that one has been read, and `fuel` bounds the items and brackets. -/
def passRest : Nat → Bool → List Bracket → Reader Unit
  | _, _, [] => pure ()
  | 0, _, _ => fail .nestingLimit
  | fuel + 1, first, bracket :: outer => do
      match ← peekToken with
      | none => failAhead bracket.endFault
      | some c =>
          if c = bracket.closing then
            skip
            passRest fuel false outer
          else
            unless first do
              if c = ',' then skip else failAhead bracket.separatorFault
            if bracket = .object then passKey
            match ← passFront with
            | some inner => passRest fuel true (inner :: bracket :: outer)
            | none => passRest fuel false (bracket :: outer)

def pass : Reader Unit := do
  if let some bracket ← passFront then
    fun input => passRest (input.rest.length + 1) true [bracket] input

end Reader

end SceneLang.Json
