import Memoize.Annotation
import Memoize.Arguments
import Memoize.Cache
import Memoize.Cache.Entries
import Memoize.Cache.Event
import Memoize.Cache.Slots
import Memoize.Cache.Stats
import Memoize.Cache.Store
import Memoize.Call.Body
import Memoize.Call.Computation
import Memoize.Call.Memoized
import Memoize.Code
import Memoize.Diagnostic
import Memoize.Expansion
import Memoize.Holder
import Memoize.Memoized
import Memoize.Names
import Memoize.Names.Operation
import Memoize.Parameters
import Memoize.Refusal
import Memoize.Sample.Catalogue
import Memoize.Sample.Routine
import Memoize.Sample.Session
import Memoize.Scope
import Memoize.Syntax.Grammar
import Memoize.Syntax.Grammar.Attribute
import Memoize.Syntax.Grammar.Basic
import Memoize.Syntax.Grammar.Expression
import Memoize.Syntax.Grammar.Function
import Memoize.Syntax.Grammar.Item
import Memoize.Syntax.Grammar.Path
import Memoize.Syntax.Grammar.Pattern
import Memoize.Syntax.Grammar.Statement
import Memoize.Syntax.Grammar.Type
import Memoize.Syntax.Item
import Memoize.Syntax.Path
import Memoize.Syntax.Phrase
import Memoize.Syntax.Stream
import Memoize.Text.Blank
import Memoize.Text.Decimal
import Memoize.Text.Identifier
import Memoize.Text.Quoted
import Memoize.Text.Ranges
import Memoize.Text.Uppercase
import Memoize.Text.Visible
import Memoize.Token
import Memoize.Token.Fragment
import Memoize.Token.Lexer
import Memoize.Token.Literal
import Memoize.TypeRules
import Memoize.Proofs.Call.Reach
import Memoize.Proofs.Call.Soundness
import Memoize.Proofs.Sample.Fibonacci
import Memoize.Proofs.Call.Transparency
import Memoize.Proofs.Call.Balance
import Memoize.Proofs.Call.Once
import Memoize.Proofs.Call.Accounting
import Memoize.Proofs.Names.Fresh
import Memoize.Proofs.Names.Spelling
import Memoize.Proofs.Names.Runs
import Memoize.Proofs.Names.Stability
import Memoize.Proofs.Function.Annotation
import Memoize.Proofs.Function.Parts
import Memoize.Proofs.Scope.Placement
import Memoize.Proofs.Scope.Outcomes
import Memoize.Proofs.Scope.ModuleNames
import Memoize.Proofs.Owner.Words
import Memoize.Proofs.Scope.SiblingBlocks
import Memoize.Proofs.Scope.Refusals
import Memoize.Proofs.Scope.Frame
import Memoize.Proofs.Types.SelfNames
import Memoize.Proofs.Types.Places
import Memoize.Proofs.Types.Offences
import Memoize.Proofs.Types.Resolution
import Memoize.Proofs.Types.HigherRanked
import Memoize.Proofs.Function.HolderTypes
import Memoize.Proofs.Grammar.ItemRules
import Memoize.Proofs.Function.Renaming
import Memoize.Proofs.Scope.Standalone
import Memoize.Proofs.Cache.History
import Memoize.Proofs.Cache.Sharing
import Memoize.Proofs.Grammar.Declarations
import Memoize.Proofs.Scope.AllOrNothing
import Memoize.Proofs.Function.HolderLifetimes
import Memoize.Proofs.Grammar.FieldReference
import Memoize.Proofs.Function.Fits
import Memoize.Proofs.Scope.Failure
import Memoize.Proofs.Call.Journal
import Memoize.Proofs.Call.FirstResult
import Memoize.Proofs.Call.Panics
import Memoize.Proofs.Call.Interference
import Memoize.Proofs.Function.Keys
import Memoize.Proofs.Function.Wrappings
import Memoize.Proofs.Function.Original
import Memoize.Proofs.Function.Acceptance
import Memoize.Proofs.Call.Entry
import Memoize.Proofs.Scope.Again
import Memoize.Proofs.Function.Capture
import Memoize.Proofs.Text.Quoted
import Memoize.Proofs.Text.Literals
import Memoize.Proofs.Function.ReportedName
import Memoize.Proofs.Owner.Prefixes
