import TermScene.Color.Palette

/-!
# Painted text

Text is painted by escape codes around it: one code sets the colour of the characters or of what is
behind them, another takes it back. The colour is taken back before every newline and set again after
it, so that no line ends with a colour on.
-/

namespace TermScene

/-- What a colour is given to: the characters, or what is behind them. -/
inductive Layer where
  | foreground
  | background
  deriving DecidableEq, Repr

namespace Layer

/-- The number of the escape code that sets the colour of a layer. -/
def setCode : Layer → String
  | .foreground => "38"
  | .background => "48"

/-- The escape code that takes the colour of a layer back. -/
def closeCode : Layer → String
  | .foreground => "\x1b[39m"
  | .background => "\x1b[49m"

/-- The escape code that sets the colour of a layer. -/
def openCode (layer : Layer) (color : Rgb) : String :=
  "\x1b[" ++ layer.setCode ++ ";2;" ++ toString color.red ++ ";" ++ toString color.green ++ ";"
    ++ toString color.blue ++ "m"

end Layer

/-- Text between two codes, closed and opened again around every newline. Empty text stays empty. -/
def enclose (openCode closeCode text : String) : String :=
  if text = "" then ""
  else
    openCode
      ++ String.ofList
        (text.toList.flatMap fun char =>
          if char = '\n' then closeCode.toList ++ '\n' :: openCode.toList else [char])
      ++ closeCode

def paint (layer : Layer) (color : String) (enabled : Bool) (text : String) : String :=
  if enabled then enclose (layer.openCode (Color.rgb color)) layer.closeCode text else text

@[simp]
theorem paint_empty (layer : Layer) (color : String) (enabled : Bool) :
    paint layer color enabled "" = "" := by
  cases enabled <;> rfl

end TermScene
