import Slate.Analysis
import Slate.Command
import Slate.Decimal.Basic
import Slate.Decimal.Reader
import Slate.Dialogue
import Slate.Env
import Slate.Eval
import Slate.Eval.Error
import Slate.Format
import Slate.Json
import Slate.Json.Printer
import Slate.Json.Reader
import Slate.Main
import Slate.Parser.Body
import Slate.Parser.Declaration
import Slate.Parser.Delimiter
import Slate.Parser.Expr
import Slate.Parser.Failure
import Slate.Parser.Stmt
import Slate.Session
import Slate.Shell
import Slate.Span
import Slate.Style
import Slate.Style.Reader
import Slate.Text.Blank
import Slate.Text.Letter
import Slate.Text.Numeral
import Slate.Text.Ranges
import Slate.Text.Split
import Slate.Text.Unsigned
import Slate.Token
import Slate.Token.Lexer
import Slate.Tree
import Slate.Tree.Dump
import Slate.Ty
import Slate.Value
import Slate.Version
import Slate.Proofs.Parser.Nesting
import Slate.Proofs.Parser.Weakest
import Slate.Proofs.Grammar.Expr
import Slate.Proofs.Grammar.ExprParser
import Slate.Proofs.Grammar.Stmt
import Slate.Proofs.Grammar.StmtParser
import Slate.Proofs.Parser.Stmt
import Slate.Proofs.Decimal.Text
import Slate.Proofs.Format.Writable
import Slate.Proofs.Tree.Erase
import Slate.Proofs.Format.Text
import Slate.Proofs.Format.Parser
import Slate.Proofs.Decimal.Value
import Slate.Proofs.Dialogue.Alike
import Slate.Proofs.Eval.Faithful
import Slate.Proofs.Dialogue.Ends
import Slate.Proofs.Eval.WellFormed
import Slate.Proofs.Dialogue.Extends
import Slate.Proofs.Eval.Upgrade
import Slate.Proofs.Dialogue.MapError
import Slate.Proofs.Eval.Relocate
import Slate.Proofs.Analysis.Relocate
import Slate.Proofs.Format.Behaviour
import Slate.Proofs.Format.Same
import Slate.Proofs.Grammar.Layout
import Slate.Proofs.Format.Layout
import Slate.Proofs.Tree.Names
import Slate.Proofs.Eval.Frame
import Slate.Proofs.Eval.Agree
import Slate.Proofs.Dialogue.Silent
import Slate.Proofs.Eval.Silent
import Slate.Proofs.Eval.Commute
import Slate.Proofs.Parser.ExprRelocate
import Slate.Proofs.Parser.StmtRelocate
import Slate.Proofs.Token.Join
import Slate.Proofs.Eval.Join
import Slate.Proofs.Dialogue.Map
import Slate.Proofs.Env.Rename
import Slate.Proofs.Tree.Rename
import Slate.Proofs.Dialogue.Answers
import Slate.Proofs.Eval.Answers
import Slate.Proofs.Eval.Rename
import Slate.Proofs.Dialogue.Deaf
import Slate.Proofs.Eval.Deaf
import Slate.Proofs.Grammar.Variables
import Slate.Proofs.Analysis.Names
import Slate.Proofs.Token.Spelling
import Slate.Proofs.Token.Text
import Slate.Proofs.Parser.Places
import Slate.Proofs.Grammar.Spans
import Slate.Proofs.Eval.Places
import Slate.Proofs.Shell.Console
import Slate.Proofs.Format.Trim
import Slate.Proofs.Text.Split
import Slate.Proofs.Version.Text
import Slate.Proofs.Format.Lexeme
import Slate.Proofs.Value.Input
import Slate.Proofs.Format.Lines
import Slate.Proofs.Value.Canonical
import Slate.Proofs.Decimal.Exact
import Slate.Proofs.Eval.Negation
import Slate.Proofs.Token.Calls
import Slate.Proofs.Analysis.Rules
import Slate.Proofs.Eval.Declarations
import Slate.Proofs.Token.Order
import Slate.Proofs.Tree.Terminals
import Slate.Proofs.Grammar.Terminals
import Slate.Proofs.Text.Number
import Slate.Proofs.Json.String
import Slate.Proofs.Json.Text
import Slate.Proofs.Json.Unique
import Slate.Proofs.Json.Blanks
import Slate.Proofs.Tree.Dump
import Slate.Proofs.Env.History
import Slate.Proofs.Version.Order
import Slate.Proofs.Parser.Dispatch
import Slate.Proofs.Parser.Scan
