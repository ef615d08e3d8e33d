import Scriptlet.Main
import Scriptlet.Cursor.Session
import Scriptlet.Reader.Session
import Scriptlet.Proofs.Lexing.Cover
import Scriptlet.Proofs.Lexing.Spacing
import Scriptlet.Proofs.Lexing.Numerals
import Scriptlet.Proofs.Lexing.Literals
import Scriptlet.Proofs.Lexing.SymbolRows
import Scriptlet.Proofs.Phrase.Acceptance
import Scriptlet.Proofs.Nesting.Limit
import Scriptlet.Proofs.Nesting.Height
import Scriptlet.Proofs.Derivation.Else
import Scriptlet.Proofs.Derivation.Placement
import Scriptlet.Proofs.Session.Drivers
import Scriptlet.Proofs.Session.Lookahead
import Scriptlet.Proofs.Session.Frame
import Scriptlet.Proofs.Layout.Parentheses
import Scriptlet.Proofs.Composition.Concatenation
import Scriptlet.Proofs.Composition.Laziness
import Scriptlet.Proofs.Tables.Climbing
import Scriptlet.Proofs.Tables.Termination
import Scriptlet.Proofs.Diagnostic.Caret
import Scriptlet.Proofs.Json.Text
import Scriptlet.Proofs.Json.Trees
import Scriptlet.Proofs.Diagnostic.Lines
import Scriptlet.Proofs.Diagnostic.Quotation
import Scriptlet.Proofs.Session.EndOfInput
