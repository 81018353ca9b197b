import Monkey.Text.Blank
import Monkey.Text.Decimal
import Monkey.Text.Listing
import Monkey.Text.Digest
import Monkey.Token
import Monkey.Token.Lexer
import Monkey.Token.Reader
import Monkey.Syntax
import Monkey.Syntax.Printer
import Monkey.Syntax.Precedence
import Monkey.Syntax.Diagnostic
import Monkey.Parser
import Monkey.Syntax.Draft
import Monkey.Syntax.Draft.Depth
import Monkey.Dictionary
import Monkey.Builtin
import Monkey.Builtin.Call
import Monkey.RuntimeError
import Monkey.Object
import Monkey.Object.Type
import Monkey.Object.Key
import Monkey.Object.Equality
import Monkey.Object.Printer
import Monkey.Object.Operator
import Monkey.State
import Monkey.Action
import Monkey.Evaluation
import Monkey.Evaluation.Depth
import Monkey.Session
import Monkey.CommandLine
import Monkey.Main
import Monkey.Proofs.Grammar
import Monkey.Proofs.Parser.Limit
import Monkey.Proofs.Parser.Reads
import Monkey.Proofs.Parser.Trace
import Monkey.Proofs.Parser.Account
import Monkey.Proofs.Parser.Tracking
import Monkey.Proofs.Parser.Recovery
import Monkey.Proofs.Grammar.Completeness
import Monkey.Proofs.Grammar.Soundness
import Monkey.Proofs.Grammar.Outline
import Monkey.Proofs.Grammar.Leniency
import Monkey.Proofs.Object.Congruence
import Monkey.Proofs.Object.Alike
import Monkey.Proofs.Evaluation.Logic
import Monkey.Proofs.Evaluation.Signals
import Monkey.Proofs.Evaluation.Isolation
import Monkey.Proofs.Evaluation.Position
import Monkey.Proofs.Evaluation.Arithmetic
import Monkey.Proofs.Evaluation.TailReturn
import Monkey.Proofs.Evaluation.Correspondence
import Monkey.Proofs.Evaluation.Repetition
import Monkey.Proofs.Evaluation.Ownership
import Monkey.Proofs.State.Chain
import Monkey.Proofs.Token.Lexeme
import Monkey.Proofs.Syntax.Canonical
import Monkey.Proofs.Token.Layout
import Monkey.Proofs.Parser.Leaves
import Monkey.Proofs.Token.Spacing
import Monkey.Proofs.Token.Reading
import Monkey.Proofs.Grammar.Concatenation
import Monkey.Proofs.Object.Equality
import Monkey.Proofs.Object.Literal
import Monkey.Proofs.Object.Digest
import Monkey.Proofs.Evaluation.HashLiteral
import Monkey.Proofs.Session.Splitting
import Monkey.Proofs.Session.Fibonacci
import Monkey.Proofs.State.Operation
import Monkey.Proofs.State.Resolution
import Monkey.Proofs.Evaluation.Delivery
import Monkey.Proofs.Evaluation.Unread
import Monkey.Proofs.CommandLine.Transcript
import Monkey.Proofs.CommandLine.Script
import Monkey.Proofs.Session.HigherOrder
