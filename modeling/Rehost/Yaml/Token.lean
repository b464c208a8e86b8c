import Rehost.Yaml.Fault
import Rehost.Text.Basic

/-! The tokens of a YAML text. Where structure is shown by indentation, tokens say where it begins and ends. A fault in
the text stands behind the tokens before it, so it counts only where they make up no fault of their own. -/
namespace Rehost.Yaml

inductive Token where
  /-- The major number of the version that a text asks for. -/
  | version (major : Nat)
  | tagHandle (handle expansion : Text)
  /-- A directive that means nothing here. -/
  | otherDirective
  | documentStart
  | documentEnd
  | blockSequence
  | blockMapping
  | blockEnd
  | flowSequence
  | flowSequenceEnd
  | flowMapping
  | flowMappingEnd
  | entry
  | comma
  | key
  | value
  | alias (name : Text)
  | anchor (name : Text)
  | tag (handle : Option Text) (suffix : Text)
  /-- A scalar is plain if it stands without quotes or block marks. -/
  | scalar (text : Text) (plain : Bool)
deriving DecidableEq, Repr, Inhabited

/-- Tokens still to be read, and the fault behind the last of them, if the text does not end there. -/
structure Tokens where
  list : List Token
  fault : Option Fault := none
deriving Repr, Inhabited

namespace Tokens

def peek (ts : Tokens) : Except Fault (Option Token) :=
  match ts.list, ts.fault with
  | t :: _, _ => .ok (some t)
  | [], some f => .error f
  | [], none => .ok none

def skip (ts : Tokens) : Tokens := { ts with list := ts.list.drop 1 }

end Tokens
end Rehost.Yaml
