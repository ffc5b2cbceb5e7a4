/-!
# Features

The parts of the language that a text may make use of.
-/

namespace SceneLang

inductive Feature where
  | traits
  | templates
  | stateMachines
  | logic
  | spread
  | interpolation
  | controlFlow
  | imports
  | indentation
  | environment
  | arrowFunctions
deriving DecidableEq, Repr

namespace Feature

/-- All features, in the order in which they are listed. -/
def all : List Feature :=
  [.traits, .templates, .stateMachines, .logic, .spread, .interpolation, .controlFlow, .imports,
   .indentation, .environment, .arrowFunctions]

def name : Feature → String
  | .traits => "traits"
  | .templates => "templates"
  | .stateMachines => "state-machines"
  | .logic => "logic"
  | .spread => "spread"
  | .interpolation => "interpolation"
  | .controlFlow => "control-flow"
  | .imports => "imports"
  | .indentation => "indentation"
  | .environment => "environment"
  | .arrowFunctions => "arrow-functions"

/-- The listing of a collection of features: each once, in the order of `all`. -/
def inOrder (features : List Feature) : List Feature :=
  all.filter features.contains

end Feature

end SceneLang
