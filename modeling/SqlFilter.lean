import SqlFilter.Main
import SqlFilter.Repository
import SqlFilter.Select.Call
import SqlFilter.Proofs.Fragment
import SqlFilter.Proofs.LiteralIndependence
import SqlFilter.Proofs.CompiledPlaceholders
import SqlFilter.Proofs.Renumbering
import SqlFilter.Proofs.ParameterHygiene
import SqlFilter.Proofs.DefinitionParameters
import SqlFilter.Proofs.Writing
import SqlFilter.Proofs.OperandSlots
import SqlFilter.Proofs.Combination
import SqlFilter.Proofs.Lexemes
import SqlFilter.Proofs.Readability
import SqlFilter.Proofs.Fingerprint
import SqlFilter.Proofs.Nodes
import SqlFilter.Proofs.Automaton
import SqlFilter.Proofs.PlaceholderAgreement
import SqlFilter.Proofs.SupportedNodes
import SqlFilter.Proofs.Nesting
import SqlFilter.Proofs.Atomicity
import SqlFilter.Proofs.SharedBinder
import SqlFilter.Proofs.WhereClause
import SqlFilter.Proofs.Capture
import SqlFilter.Proofs.CallOrder
import SqlFilter.Proofs.FiniteDecimals
import SqlFilter.Proofs.IsoText
import SqlFilter.Proofs.NullEquality
import SqlFilter.Proofs.ParameterNames
import SqlFilter.Proofs.RoundTrip
import SqlFilter.Proofs.PositionalBinding
import SqlFilter.Proofs.CombinationWalk
import SqlFilter.Proofs.SearchCondition
import SqlFilter.Proofs.Snippets
import SqlFilter.Proofs.NullRendering
import SqlFilter.Proofs.Projection
import SqlFilter.Proofs.TomlParameters
import SqlFilter.Proofs.ParameterTypes
import SqlFilter.Proofs.DefinitionReplay
import SqlFilter.Proofs.Comments
import SqlFilter.Proofs.FreeNames
