/-!
# Lettering

Large text is drawn by a lettering: a function from the name of a font and a text to lines of
characters. A font may turn out to be unusable, which is no reason to stop; drawing can also break
down.

The built-in lettering knows a few plain fonts, which write the name of the font before the text and
underline it.
-/

namespace TermScene

/-- What drawing a text in a font gives. -/
inductive Lettered where
  | drawn (text : String)
  | unusable (reason : String)
  | broken (reason : String)
  deriving DecidableEq, Repr

/-- A way to draw large text: by the name of a font and the text. -/
abbrev Lettering := (font text : String) → Lettered

namespace Lettering

def plainFonts : List String := ["doom", "standard", "slant", "small"]

/-- The text behind the name of its font, underlined. -/
def underlined (font text : String) : String :=
  if text = "" then ""
  else
    "[" ++ font ++ "] " ++ text ++ "\n" ++ String.ofList (List.replicate text.length '_') ++ "\n"

/-- The built-in lettering. A font that is not known is unusable for no other reason than its name. -/
def builtin : Lettering := fun font text =>
  if plainFonts.contains font then .drawn (underlined font text)
  else if font = "broken" then .unusable "broken font data"
  else if font = "unreadable" then .unusable "unreadable font file"
  else if font = "undecodable" then .unusable "undecodable font"
  else if font = "crash" then .broken "figlet crashed"
  else .unusable font

end Lettering

end TermScene
