import SceneLang.Value
import SceneLang.Number.Decimal
import SceneLang.Text.Character

/-!
# Number literals

A number literal is a decimal number with an optional unit: the longest run of letters and
percent signs at its end.
-/

namespace SceneLang.Value

def isUnitPart (c : Char) : Bool :=
  Text.isAlphabetic c || c = '%'

def splitUnit (raw : List Char) : List Char × List Char :=
  let width := (raw.reverse.takeWhile isUnitPart).length
  (raw.take (raw.length - width), raw.drop (raw.length - width))

/-- The value of a literal; a text that is no decimal number counts as zero. -/
def ofLiteral (raw : String) : Value :=
  let (digits, unit) := splitUnit raw.toList
  let value := ((Decimal.ofText? digits).map Decimal.toBinary64).getD .zero
  .number value (if unit.isEmpty then none else some (String.ofList unit)) raw

end SceneLang.Value
