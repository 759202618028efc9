import Script.Builtin.BytesMethod
import Script.Builtin.Call
import Script.Builtin.Function
import Script.Builtin.KeyMethod
import Script.Builtin.ListMethod
import Script.Builtin.Method
import Script.Builtin.TextMethod
import Script.CommandLine
import Script.CommandLine.Word
import Script.ErrorKind
import Script.Eval.Object
import Script.Eval.Step
import Script.Eval.World
import Script.Expr
import Script.Expr.Parser
import Script.Failure
import Script.Files
import Script.Heap
import Script.Heap.Display
import Script.Heap.Equality
import Script.Interpreter
import Script.Main
import Script.Number.Binary64
import Script.Number.Bitwise
import Script.Number.Complex
import Script.Number.Decimal
import Script.Number.FloatArithmetic
import Script.Number.FloatText
import Script.Number.Numeric
import Script.Number.Reading
import Script.Number.Shortest
import Script.Operator
import Script.Operator.Apply
import Script.Operator.Arithmetic
import Script.Outcome
import Script.Path
import Script.Prompt
import Script.Proofs.Builtin.Application
import Script.Proofs.Builtin.Blind
import Script.Proofs.Builtin.Encoding
import Script.Proofs.Builtin.Escapes
import Script.Proofs.Builtin.Evolves
import Script.Proofs.Builtin.InPlace
import Script.Proofs.Builtin.Limits
import Script.Proofs.Builtin.Normalising
import Script.Proofs.Builtin.Procedure
import Script.Proofs.Builtin.Ranges
import Script.Proofs.Builtin.Run
import Script.Proofs.Builtin.Sorting
import Script.Proofs.Builtin.Sound
import Script.Proofs.Builtin.TextSearch
import Script.Proofs.Eval.Account
import Script.Proofs.Eval.CallLimit
import Script.Proofs.Eval.Callee
import Script.Proofs.Eval.Calls
import Script.Proofs.Eval.ClassFlow
import Script.Proofs.Eval.ClassInvariant
import Script.Proofs.Eval.Comparison
import Script.Proofs.Eval.Composition
import Script.Proofs.Eval.Conduct
import Script.Proofs.Eval.Console
import Script.Proofs.Eval.Constants
import Script.Proofs.Eval.Course
import Script.Proofs.Eval.Depth
import Script.Proofs.Eval.Dictionaries
import Script.Proofs.Eval.Endings
import Script.Proofs.Eval.FrozenNames
import Script.Proofs.Eval.Histories
import Script.Proofs.Eval.Inclusion
import Script.Proofs.Eval.InheritedFields
import Script.Proofs.Eval.Input
import Script.Proofs.Eval.IntegerText
import Script.Proofs.Eval.Jumps
import Script.Proofs.Eval.KeyInvariant
import Script.Proofs.Eval.Linking
import Script.Proofs.Eval.Membership
import Script.Proofs.Eval.Notes
import Script.Proofs.Eval.Parallel
import Script.Proofs.Eval.Reachable
import Script.Proofs.Eval.Reading
import Script.Proofs.Eval.Rules
import Script.Proofs.Eval.ScopeFrame
import Script.Proofs.Eval.Scoping
import Script.Proofs.Eval.Sequence
import Script.Proofs.Eval.SetAlgebra
import Script.Proofs.Eval.Spelled
import Script.Proofs.Eval.Streams
import Script.Proofs.Eval.Timeline
import Script.Proofs.Eval.Translation
import Script.Proofs.Eval.TypeErasure
import Script.Proofs.Expr.Parts
import Script.Proofs.Expr.Render
import Script.Proofs.Expr.Rewrite
import Script.Proofs.Expr.WellFormed
import Script.Proofs.Heap.Chains
import Script.Proofs.Heap.Classes
import Script.Proofs.Heap.Cycles
import Script.Proofs.Heap.Entries
import Script.Proofs.Heap.Equality
import Script.Proofs.Heap.Equivalence
import Script.Proofs.Heap.Faults
import Script.Proofs.Heap.Layout
import Script.Proofs.Heap.NestedAlike
import Script.Proofs.Heap.Nesting
import Script.Proofs.Heap.Ordering
import Script.Proofs.Heap.Reordered
import Script.Proofs.Heap.Room
import Script.Proofs.Heap.Shown
import Script.Proofs.Heap.Sound
import Script.Proofs.Number.Bits
import Script.Proofs.Number.Digits
import Script.Proofs.Number.Exact
import Script.Proofs.Number.Reading
import Script.Proofs.Operator.Integers
import Script.Proofs.Operator.Ordering
import Script.Proofs.Operator.Sound
import Script.Proofs.Parser.Confined
import Script.Proofs.Parser.Continuation
import Script.Proofs.Parser.Finds
import Script.Proofs.Parser.Layout
import Script.Proofs.Parser.Levels
import Script.Proofs.Parser.Memo
import Script.Proofs.Parser.Room
import Script.Proofs.Parser.RoundTrip
import Script.Proofs.Parser.Rules
import Script.Proofs.Parser.Sequence
import Script.Proofs.Parser.Simulation
import Script.Proofs.Parser.Unfinished
import Script.Proofs.Parser.WellFormed
import Script.Proofs.Parser.Yields
import Script.Proofs.Prompt.Session
import Script.Proofs.Text.Expansion
import Script.Proofs.Text.Search
import Script.Proofs.Text.Utf8
import Script.Proofs.Text.Words
import Script.Proofs.Token.Cover
import Script.Proofs.Token.Front
import Script.Proofs.Token.Integers
import Script.Proofs.Token.Lexemes
import Script.Proofs.Token.Located
import Script.Proofs.Token.Respaced
import Script.Proofs.Token.Sequence
import Script.Proofs.Token.Spelling
import Script.Proofs.Token.Texts
import Script.Proofs.Value.KeyClass
import Script.Proofs.Value.Range
import Script.Proofs.Value.SameKey
import Script.Scope
import Script.Session
import Script.Store
import Script.Table
import Script.Text.Blank
import Script.Text.CaseClass
import Script.Text.CaseMap
import Script.Text.Interval
import Script.Text.Letter
import Script.Text.Numeral
import Script.Text.Printable
import Script.Text.Quoted
import Script.Text.Search
import Script.Text.Utf8
import Script.Token
import Script.Token.Lexer
import Script.Value
import Script.Value.Key
import Script.Value.Range
