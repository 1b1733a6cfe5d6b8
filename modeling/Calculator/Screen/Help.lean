import Calculator.Screen.Panes

/-!
# `Screen.Help` — the page of help
-/

namespace Calculator.Screen

/-- The text of the page. -/
def helpText : List String :=
  ["SciCalc - Scientific Calculator and Grapher",
    "",
    "Basic Operations:",
    "  + : Addition        (e.g., 5 + 3 = 8)",
    "  - : Subtraction     (e.g., 10 - 4 = 6)",
    "  × : Multiplication  (type *, e.g., 6 × 7 = 42)",
    "  ÷ : Division        (type /, e.g., 15 ÷ 3 = 5)",
    "  ^ : Exponentiation  (e.g., 2 ^ 10 = 1024)",
    "  Implicit products   (e.g., 2π, 3(4), 2x)",
    "",
    "Functions (radians):",
    "  sin(x) cos(x) tan(x) asin(x) acos(x) atan(x)",
    "  sinh(x) cosh(x) tanh(x)",
    "  log(x)   : Base-10 logarithm",
    "  ln(x)    : Natural logarithm",
    "  exp(x)   : Exponential function",
    "  sqrt(x)  : Square root",
    "  abs(x) floor(x) ceil(x) round(x)",
    "",
    "Constants:",
    "  π or pi : 3.14159... (Ctrl+P inserts π)",
    "  e       : Euler's number (2.71828...)",
    "",
    "Graphing:",
    "  Any expression containing x is plotted (default domain [-10, 10])",
    "  Points where the function is undefined are skipped",
    "  e.g., x^2, sin(x), sqrt(x), 1/x",
    "",
    "Analysis:",
    "  F2     : Explain the current expression",
    "  F3     : Toggle the word problem box, Enter sends it",
    "  Needs GEMINI_API_KEY; shows an offline message otherwise",
    "",
    "Keys:",
    "  Enter / = : Evaluate",
    "  Backspace : Delete last symbol",
    "  Esc       : Clear expression and graph",
    "  Ctrl+U    : Clear current input",
    "  ↑ ↓       : Recall history entries (newest first)",
    "  F1        : Show this help screen",
    "  Ctrl+Q    : Quit"]

/-- The number of rows that a page can be scrolled by, and at which counting starts again. -/
def scrollLimit : Nat := Nat.pow 2 16

/-- The rows that are passed over when the page is scrolled. -/
def scrolledRows (scroll : Nat) : Nat := scroll % scrollLimit

/-- The page, scrolled. -/
def helpPane (scroll : Nat) (area : Area) (picture : Picture) : Picture :=
  picture.draw fun canvas =>
    (canvas.frame area .double .center " SciCalc Help ".toList).paragraph area.inner (.flow true) .left
      (scrolledRows scroll) (helpText.map Line.ofText)

end Calculator.Screen
