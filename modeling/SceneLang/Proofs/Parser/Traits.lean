import SceneLang.Proofs.Shift.Documents
import SceneLang.Proofs.Table.Ascending

/-!
# Traits that are declared more than once

Traits come to an element on two ways.  Those in its head and in its body are attached one after
another as they are read: the last one of a name counts, and each one whose name has been declared
before is reported.  Those written before the element are added at the end: they give way to what
is declared already, so that among them the first one of a name counts, and nothing is reported.
-/

namespace SceneLang

/-- The name and the configuration of a trait, known or not. -/
def Directive.trait? : Directive → Option (String × TraitConfig)
  | .trait name config | .generic name config => some (name, config)
  | _ => none

/-- The traits among some directives, in order. -/
def Directive.traits (directives : List Directive) : List (String × TraitConfig) :=
  directives.filterMap Directive.trait?

def Directive.declares (directive : Directive) (name : String) : Bool :=
  directive.trait?.any (·.1 = name)

namespace Node

/-! ## Which configuration counts -/

end Node

/-! ## What is reported -/

namespace Parser

variable {context : Context} {state : State}

end Parser

end SceneLang
