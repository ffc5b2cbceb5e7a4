import SceneLang.Text.Character
import SceneLang.Text.Slice

/-!
# Words within a text

Looking for a stretch of text, and cutting a text into its words.
-/

namespace SceneLang.Text

/-- Does `needle` occur in the text? -/
def contains (needle : List Char) : List Char → Bool
  | [] => needle.isEmpty
  | c :: rest => needle.isPrefixOf (c :: rest) || contains needle rest

def isWordPart (c : Char) : Bool :=
  isAlphanumeric c || c = '_'

/-- The words of a text that stands at a byte offset, with their offsets; `current` holds
the part of a word just before it, in reverse. -/
def wordsFrom (offset : Nat) (current : List Char) : List Char → List (Nat × List Char)
  | [] => if current.isEmpty then [] else [(offset - byteLength current, current.reverse)]
  | c :: rest =>
      if isWordPart c then wordsFrom (offset + c.utf8Size) (c :: current) rest
      else if current.isEmpty then wordsFrom (offset + c.utf8Size) [] rest
      else
        (offset - byteLength current, current.reverse) ::
          wordsFrom (offset + c.utf8Size) [] rest

/-- The longest runs of letters, numbers and underscores, with their byte offsets. -/
def words (text : List Char) : List (Nat × List Char) :=
  wordsFrom 0 [] text

/-! ## Listings of text

A listing shows a text in quotation marks, so that every character of it can be told from
every other.  What cannot be seen is shown by its code point.
-/

def listChar (c : Char) : List Char :=
  if c = '"' then ['\\', '"']
  else if c = '\\' then ['\\', '\\']
  else if c = '\n' then ['\\', 'n']
  else if c = '\r' then ['\\', 'r']
  else if c = '\t' then ['\\', 't']
  else if c.toNat = 0 then ['\\', '0']
  else if isPrintable c then [c]
  else ['\\', 'u', '\x7b'] ++ Nat.toDigits 16 c.toNat ++ ['\x7d']

def listing (text : String) : String :=
  String.ofList ('"' :: text.toList.flatMap listChar ++ ['"'])

/-- A text in a field of some width, at its right end. -/
def padLeft (width : Nat) (text : String) : String :=
  String.ofList (List.replicate (width - text.length) ' ') ++ text

/-- A text in a field of some width, at its left end. -/
def padRight (width : Nat) (text : String) : String :=
  text ++ String.ofList (List.replicate (width - text.length) ' ')

end SceneLang.Text
