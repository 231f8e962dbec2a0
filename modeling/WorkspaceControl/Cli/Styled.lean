/-!
# Lines with colours

A line is a row of spans, some of them in a style. Written in colour, a span stands between the
escape code of its style and a reset; a reset inside its text is followed by the code again, so that
the style lasts to the end of the span. Written plain, only the texts remain. A span may be padded to
a width, counted in characters, with blanks that belong to the span.
-/

namespace WorkspaceControl.Cli

/-- How a span is shown. -/
inductive Style where
  | green
  | yellow
  | cyan
  | bold
  | dimmed
  deriving DecidableEq, Repr

/-- The number of a style in its escape code. -/
def Style.number : Style → String
  | green => "32"
  | yellow => "33"
  | cyan => "36"
  | bold => "1"
  | dimmed => "2"

/-- The escape code that starts a style. -/
def Style.code (s : Style) : String := "\x1b[" ++ s.number ++ "m"

/-- The escape code that ends every style. -/
def resetCode : String := "\x1b[0m"

/-- A part of a line. -/
structure Span where
  style : Option Style
  text : String
  width : Nat
  deriving DecidableEq, Repr

namespace Span

def plain (text : String) : Span := ⟨none, text, 0⟩

def styled (style : Style) (text : String) : Span := ⟨some style, text, 0⟩

/-- A text in a style, with blanks behind it up to a width. -/
def padded (style : Style) (width : Nat) (text : String) : Span := ⟨some style, text, width⟩

/-- A text with blanks behind it up to a width. -/
def pad (width : Nat) (text : String) : String :=
  text ++ String.ofList (List.replicate (width - text.length) ' ')

/-- A span as it is written. -/
def render (color : Bool) (s : Span) : String :=
  match s.style, color with
  | some style, true =>
    let lasting := s.text.replace resetCode (resetCode ++ style.code)
    style.code ++ pad s.width lasting ++ resetCode
  | _, _ => pad s.width s.text

end Span

abbrev Line := List Span

/-- A line as it is written, with the end of the line. -/
def renderLine (color : Bool) (line : Line) : String :=
  String.join (line.map (Span.render color)) ++ "\n"

/-- Lines as they are written. -/
def renderLines (color : Bool) (lines : List Line) : String :=
  String.join (lines.map (renderLine color))

end WorkspaceControl.Cli
