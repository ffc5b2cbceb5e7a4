import SceneLang.Text.Unicode.Alphabetic
import SceneLang.Text.Unicode.Numeric
import SceneLang.Text.Unicode.Case
import SceneLang.Text.Unicode.Printable

/-!
# Character classes and case

The classes of characters that the language and its listings ask for, the Unicode
lower-case mapping, and trimming.  Below U+0080 every class is decided without a table.
-/

namespace SceneLang.Text

/-- Does a code point lie in one of the closed ranges? -/
def inRanges (ranges : List (Nat × Nat)) (code : Nat) : Bool :=
  ranges.any fun range => range.1 ≤ code && code ≤ range.2

/-- The Unicode property Alphabetic. -/
def isAlphabetic (c : Char) : Bool :=
  if c.toNat < 128 then c.isAlpha else inRanges Unicode.alphabeticRanges c.toNat

/-- The general categories Nd, Nl and No. -/
def isNumeric (c : Char) : Bool :=
  if c.toNat < 128 then c.isDigit else inRanges Unicode.numericRanges c.toNat

def isAlphanumeric (c : Char) : Bool :=
  isAlphabetic c || isNumeric c

/-- The Unicode property White_Space. -/
def isBlank (c : Char) : Bool :=
  inRanges [(0x9, 0xD), (0x20, 0x20), (0x85, 0x85), (0xA0, 0xA0), (0x1680, 0x1680),
    (0x2000, 0x200A), (0x2028, 0x2029), (0x202F, 0x202F), (0x205F, 0x205F),
    (0x3000, 0x3000)] c.toNat

/-- Is the character shown as itself in a listing that escapes what cannot be seen? -/
def isPrintable (c : Char) : Bool :=
  if 0x20 ≤ c.toNat ∧ c.toNat < 0x7F then true
  else !inRanges Unicode.unprintableRanges c.toNat && !inRanges Unicode.fillerRanges c.toNat &&
    !inRanges Unicode.graphemeExtendRanges c.toNat

def trimStart (text : List Char) : List Char :=
  text.dropWhile isBlank

/-- The text without the blanks at its end. -/
def trimEnd : List Char → List Char
  | [] => []
  | c :: rest =>
      match trimEnd rest with
      | [] => if isBlank c then [] else [c]
      | kept => c :: kept

/-- The text without the blanks at either end. -/
def trim (text : List Char) : List Char :=
  trimEnd (trimStart text)

/-- The distance from a code point to its lower-case form, zero if it has none. -/
def lowerDistance (code : Nat) : Int :=
  match Unicode.lowerCaseRuns.find? fun (first, last, step, _) =>
      first ≤ code && code ≤ last && (code - first) % step == 0 with
  | some (_, _, _, distance) => distance
  | none => 0

/-- The lower-case form of one character, which is two characters for a capital I with a
dot above. -/
def lowerChar (c : Char) : List Char :=
  if c.toNat < 128 then [c.toLower]
  else if c.toNat = 0x130 then ['i', Char.ofNat 0x307]
  else [Char.ofNat (c.toNat + lowerDistance c.toNat).toNat]

/-- Does a cased character follow, once the characters that case ignores are skipped? -/
def casedFollows (text : List Char) : Bool :=
  match text.dropWhile (inRanges Unicode.caseIgnorableRanges ·.toNat) with
  | [] => false
  | c :: _ => inRanges Unicode.casedRanges c.toNat

/-- Lower case of `text`, which stands after the reversed text `before`.  A capital sigma
at the end of a word has a form of its own. -/
def lowerAfter (before : List Char) : List Char → List Char
  | [] => []
  | c :: rest =>
      let lowered :=
        if c.toNat = 0x3A3 then
          [Char.ofNat (if casedFollows before && !casedFollows rest then 0x3C2 else 0x3C3)]
        else lowerChar c
      lowered ++ lowerAfter (c :: before) rest

/-- The Unicode lower-case form of a text. -/
def lower (text : List Char) : List Char :=
  lowerAfter [] text

end SceneLang.Text
