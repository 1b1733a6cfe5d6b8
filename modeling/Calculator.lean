import Calculator.Analysis.Answer
import Calculator.Analysis.Service
import Calculator.Analysis.Status
import Calculator.App.Keys
import Calculator.App.Messenger
import Calculator.App.State
import Calculator.Console.Command
import Calculator.Console.Dialogue
import Calculator.Console.Draft
import Calculator.Expression.Highlight
import Calculator.Expression.Lexeme
import Calculator.Expression.Outcome
import Calculator.Expression.Reading
import Calculator.Expression.Token
import Calculator.Expression.Tokenize
import Calculator.Expression.Tree
import Calculator.Expression.Value
import Calculator.Expression.Vocabulary
import Calculator.Json.Numeral
import Calculator.Json.Quoted
import Calculator.Json.Record
import Calculator.Json.Tree
import Calculator.Keyboard
import Calculator.Main
import Calculator.Number.Binary64
import Calculator.Number.Decimal
import Calculator.Number.Ratio
import Calculator.Number.Rounded
import Calculator.Number.Shortest
import Calculator.Plot.Axes
import Calculator.Plot.Sample
import Calculator.Proofs.Analysis.Exchange
import Calculator.Proofs.Analysis.Fence
import Calculator.Proofs.App.Desk
import Calculator.Proofs.App.Effect
import Calculator.Proofs.App.InFlight
import Calculator.Proofs.App.Modes
import Calculator.Proofs.App.Recall
import Calculator.Proofs.App.Scrolling
import Calculator.Proofs.App.Undisturbed
import Calculator.Proofs.Console.Answers
import Calculator.Proofs.Console.Editing
import Calculator.Proofs.Expression.Alphabet
import Calculator.Proofs.Expression.Cutting
import Calculator.Proofs.Expression.Failure
import Calculator.Proofs.Expression.Implemented
import Calculator.Proofs.Expression.Normal
import Calculator.Proofs.Expression.Operators
import Calculator.Proofs.Expression.Parts
import Calculator.Proofs.Expression.Spelling
import Calculator.Proofs.Expression.Strictness
import Calculator.Proofs.Expression.TypedBack
import Calculator.Proofs.FrontEnd.Typing
import Calculator.Proofs.Grammar.Atoms
import Calculator.Proofs.Grammar.Completeness
import Calculator.Proofs.Grammar.Derivation
import Calculator.Proofs.Grammar.Descent
import Calculator.Proofs.Grammar.Halting
import Calculator.Proofs.Grammar.Height
import Calculator.Proofs.Grammar.Soundness
import Calculator.Proofs.Grammar.Substitution
import Calculator.Proofs.Json.Quoted
import Calculator.Proofs.Json.Record
import Calculator.Proofs.Json.Tree
import Calculator.Proofs.Number.Accuracy
import Calculator.Proofs.Number.Arithmetic
import Calculator.Proofs.Number.Displayed
import Calculator.Proofs.Number.Error
import Calculator.Proofs.Number.Exponential
import Calculator.Proofs.Number.Magnitude
import Calculator.Proofs.Number.Nearest
import Calculator.Proofs.Number.Negation
import Calculator.Proofs.Number.Order
import Calculator.Proofs.Number.Ordered
import Calculator.Proofs.Number.Overflow
import Calculator.Proofs.Number.Positional
import Calculator.Proofs.Number.ReadBack
import Calculator.Proofs.Number.Reading
import Calculator.Proofs.Number.Rounding
import Calculator.Proofs.Number.Unit
import Calculator.Proofs.Number.Whole
import Calculator.Proofs.Plot.Agreement
import Calculator.Proofs.Plot.Coverage
import Calculator.Proofs.Plot.Enclosure
import Calculator.Proofs.Plot.Labels
import Calculator.Proofs.Plot.Length
import Calculator.Proofs.Screen.Inputs
import Calculator.Proofs.Session.Alike
import Calculator.Proofs.Session.Coherence
import Calculator.Proofs.Session.Erasing
import Calculator.Proofs.Session.Moment
import Calculator.Proofs.Session.Reload
import Calculator.Proofs.Session.Run
import Calculator.Proofs.Session.Successes
import Calculator.Proofs.Settings.Configured
import Calculator.Proofs.Text.Boundary
import Calculator.Proofs.Text.Columns
import Calculator.Proofs.Text.Offset
import Calculator.Proofs.Text.Wrapping
import Calculator.Screen.Border
import Calculator.Screen.Canvas
import Calculator.Screen.Flow
import Calculator.Screen.Help
import Calculator.Screen.Layout
import Calculator.Screen.Panes
import Calculator.Screen.Paragraph
import Calculator.Session.Document
import Calculator.Session.State
import Calculator.Session.Timestamp
import Calculator.Settings
import Calculator.Text.Affix
import Calculator.Text.Blank
import Calculator.Text.Cluster
import Calculator.Text.Property.EastAsianWidth
import Calculator.Text.Property.Emoji
import Calculator.Text.Property.Extending
import Calculator.Text.Property.Segmentation
import Calculator.Text.Ranges
import Calculator.Text.Width
import Calculator.Text.Wrap
