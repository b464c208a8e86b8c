import Rehost.Text.Basic

/-! Line ends. A carriage return, alone or before a line feed, ends a line like a line feed does. -/
namespace Rehost.Text

/-- The line ends of the rest of a text as line feeds; a line feed right behind a carriage return is one end with it. -/
def unifyFrom (behindReturn : Bool) : Text → Text
  | [] => []
  | c :: t =>
    if c = '\r' then '\n' :: unifyFrom true t
    else if c = '\n' && behindReturn then unifyFrom false t
    else c :: unifyFrom false t

def unifyNewlines (t : Text) : Text := unifyFrom false t

end Rehost.Text
