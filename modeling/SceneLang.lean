import SceneLang.Diagnostic.Fix
import SceneLang.Document.Stored
import SceneLang.Main
import SceneLang.Node.Same
import SceneLang.Proofs.Parser.Nesting
import SceneLang.Value.Written
import SceneLang.Proofs.Parser.Elements
import SceneLang.Proofs.Parser.Directives
import SceneLang.Proofs.Parser.Documents
import SceneLang.Proofs.Cache.Entries
import SceneLang.Proofs.Incremental.Transparent
import SceneLang.Proofs.Grammar.Derivation
import SceneLang.Proofs.Grammar.Levels
import SceneLang.Proofs.Grammar.Reading
import SceneLang.Proofs.Grammar.Lists
import SceneLang.Proofs.Grammar.Values
import SceneLang.Proofs.Token.Layout
import SceneLang.Proofs.Token.Tiling
import SceneLang.Proofs.Parser.Reports
import SceneLang.Proofs.Incremental.Agreement
import SceneLang.Proofs.Shelter.Locality
import SceneLang.Proofs.Written.Properties
import SceneLang.Proofs.Shift.Breaks
import SceneLang.Proofs.Margins.Parses
import SceneLang.Proofs.Shift.Limits
import SceneLang.Proofs.Cache.Shelf
import SceneLang.Proofs.Batch.Aggregates
import SceneLang.Proofs.Bodies.Documents
import SceneLang.Proofs.Strict.Documents
import SceneLang.Proofs.Depth.Documents
import SceneLang.Proofs.Origin.Documents
import SceneLang.Proofs.Incremental.Reparse
import SceneLang.Proofs.Stored.Trees
import SceneLang.Proofs.Place.Documents
import SceneLang.Proofs.Chunk.Partition
import SceneLang.Proofs.Batch.Sizes
import SceneLang.Proofs.Parser.ControlBodies
import SceneLang.Proofs.Parser.Traits
import SceneLang.Proofs.Chunk.Identifiers
import SceneLang.Proofs.Chunk.Keywords
import SceneLang.Proofs.Incremental.Dependents
import SceneLang.Proofs.Written.Objects
import SceneLang.Proofs.Token.BlankLines
import SceneLang.Proofs.Numbering.Documents
import SceneLang.Proofs.Diagnostic.Suggestions
import SceneLang.Proofs.Inventory.Documents
import SceneLang.Proofs.Tree.Shifting
import SceneLang.Proofs.Verbatim.Documents
import SceneLang.Proofs.Diagnostic.Corrections
import SceneLang.Proofs.Counters.Calls
