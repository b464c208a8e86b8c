import Rehost.CommandLine.Misuse
import Rehost.Text.Digit

/-! How the words of a command line read on their own. A word that begins with a mark is an option, unless it is a
negative number, holds a blank or stands behind a separator; the name of an option may be shortened as long as it is
still the only one. -/
namespace Rehost.CommandLine

inductive Word where
  | operand (text : Text)
  /-- Two marks alone: all words behind them are operands. -/
  | separator
  /-- An option, whether it was written with one mark, and the value written into the same word. -/
  | switch (s : Switch) (short : Bool) (attached : Option Text)
  | unknown (text : Text)
deriving DecidableEq, Repr

namespace Word

def separatorText : Text := "--"

/-- A mark, and digits with one point among or in front of them at most. A line feed at the end does not count. -/
def isNegativeNumber : Text → Bool
  | '-' :: t =>
    let t := Text.dropLineEnd t
    match t.dropWhile Text.isDecimal with
    | [] => !t.isEmpty
    | '.' :: fraction => !fraction.isEmpty && fraction.all Text.isDecimal
    | _ => false
  | _ => false

def splitValue (t : Text) : Option (Text × Text) :=
  (Text.before? "=" t).map fun name => (name, t.drop (name.length + 1))

/-- Whether a name has one mark in front, not two. -/
def isShort (name : Text) : Bool := (name.drop 1).head? ≠ some '-'

def spelled? (name : Text) (attached : Option Text) : Option Word :=
  (Switch.named? name).map (switch · (isShort name) attached)

/-- The names that a word with two marks may stand for, with the value attached to it. -/
def shortened (t : Text) : List (Text × Switch) × Option Text :=
  let (beginning, attached) := match splitValue t with
    | some (name, value) => (name, some value)
    | none => (t, none)
  (Switch.names.filter fun n => beginning.isPrefixOf n.1, attached)

def unnamed (t : Text) : Word :=
  if isNegativeNumber t || t.contains ' ' then operand t else unknown t

def readMarked (t : Text) : Except Misuse Word :=
  match spelled? t none with
  | some w => .ok w
  | none =>
    match (splitValue t).bind fun (name, value) => spelled? name (some value) with
    | some w => .ok w
    | none =>
      if isShort t then .ok ((spelled? (t.take 2) (some (t.drop 2))).getD (unnamed t))
      else
        match shortened t with
        | ([], _) => .ok (unnamed t)
        | ([(_, s)], attached) => .ok (switch s false attached)
        | (names, _) => .error (.ambiguous t (names.map Prod.fst))

def read (t : Text) : Except Misuse Word :=
  match t with
  | '-' :: _ :: _ => readMarked t
  | _ => .ok (operand t)

def readAll : List Text → Except Misuse (List Word)
  | [] => .ok []
  | t :: ts =>
    if t = separatorText then .ok (separator :: ts.map operand)
    else do
      let w ← read t
      return w :: (← readAll ts)

end Word
end Rehost.CommandLine
