/-!
Text in the styles of a terminal. A style is switched on before a text and off behind it, both by
control sequences within the text.
-/

namespace Conveyor.Text

/-- What a stretch of text is, which decides how it looks. -/
inductive Style where
  | heading
  | fault
  /-- What is typed as it stands. -/
  | literal
  | valid
  | invalid
  deriving DecidableEq, Repr

namespace Style

/-- The codes of a style's looks: bold, underlined, or one of the colors red, green and yellow. -/
def codes : Style → List Nat
  | heading => [1, 4]
  | fault => [1, 31]
  | literal => [1]
  | valid => [32]
  | invalid => [33]

/-- The control sequence that switches to the looks of a code. -/
def switch (code : Nat) : String := "\x1b[" ++ toString code ++ "m"

/-- The code that ends all styles. -/
def noneCode : Nat := 0

def paint (style : Style) (s : String) : String :=
  String.join (style.codes.map switch) ++ s ++ switch noneCode

end Style

end Conveyor.Text
