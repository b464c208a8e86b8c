import Rehost.Text.Basic

/-! Text for a terminal: colours are switched on in front of a text and off behind it. -/
namespace Rehost.Terminal

def colourCodes : List (Text × Text) :=
  [("red", "31"), ("green", "32"), ("yellow", "33"), ("blue", "34"), ("magenta", "35"), ("cyan", "36")]

/-- The code of a colour; a name that is none switches everything off. -/
def colourCode (name : Text) : Text := (colourCodes.lookup name).getD "0"

def colour (text name : Text) (bold : Bool := false) : Text :=
  "\x1b[" ++ (if bold then "1;" else "") ++ colourCode name ++ "m" ++ text ++ "\x1b[0m"

end Rehost.Terminal
