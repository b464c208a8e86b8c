import Rehost.Decimal.Shortest
import Rehost.Table
import Rehost.Text.Quoted

/-! JSON documents and their text. All text is ASCII: other characters are written by their 16-bit units, so a document
on one line holds no line break whatever its strings hold. -/
namespace Rehost

inductive Json where
  | null
  | bool (b : Bool)
  | int (n : Int)
  | number (x : Binary64)
  | text (s : Text)
  | array (items : List Json)
  | object (fields : List (Text × Json))
deriving Repr, Inhabited

namespace Json

def nat (n : Nat) : Json := int n

def ofCounts (t : Table Nat) : Json := object (t.map fun e => (e.1, nat e.2))

def ofIntegers (t : Table Int) : Json := object (t.map fun e => (e.1, int e.2))

def ofStrings (xs : List Text) : Json := array (xs.map text)

def unit (n : Nat) : Text := '\\' :: 'u' :: Text.hex 4 n

def escapeChar (c : CodePoint) : Text :=
  let n := c.number
  if c = '"' || c = '\\' then ['\\', c]
  else if c = '\n' then ['\\', 'n']
  else if c = '\r' then ['\\', 'r']
  else if c = '\t' then ['\\', 't']
  else if n = 12 then ['\\', 'f']
  else if n = 8 then ['\\', 'b']
  else if 0x20 ≤ n && n < 0x7f then [c]
  else if n < 0x10000 then unit n
  else unit (0xd800 + (n - 0x10000) / 0x400) ++ unit (0xdc00 + (n - 0x10000) % 0x400)

def string (s : Text) : Text := "\"" ++ s.flatMap escapeChar ++ "\""

def specialNames : Decimal.SpecialNames := ⟨"NaN", "Infinity"⟩

def int10 (n : Int) : Text := (if n < 0 then "-" else "") ++ Decimal.digitsOf n.natAbs

def isShort (most : Nat) (n : Int) : Bool := (Decimal.digitsOf n.natAbs).length ≤ most

/-- What stands around and between the parts of a container, by its depth. -/
structure Layout where
  edge : Nat → Text
  between : Nat → Text

def oneLine : Layout := ⟨fun _ => [], fun _ => ", "⟩

/-- Every part on a line of its own, two blanks deeper than its container. -/
def indented : Layout :=
  ⟨fun depth => "\n" ++ Text.spaces (2 * depth), fun depth => ",\n" ++ Text.spaces (2 * depth)⟩

mutual
def write (l : Layout) (depth : Nat) : Json → Text
  | null => "null"
  | bool b => if b then "true" else "false"
  | int n => int10 n
  | number x => Decimal.render specialNames x
  | text s => string s
  | array [] => "[]"
  | array (x :: xs) =>
    "[" ++ l.edge (depth + 1) ++ write l (depth + 1) x ++ writeItems l (depth + 1) xs ++ l.edge depth ++ "]"
  | object [] => ['\x7b', '\x7d']
  | object ((k, v) :: fs) =>
    "\x7b" ++ l.edge (depth + 1) ++ string k ++ ": " ++ write l (depth + 1) v ++
      writeFields l (depth + 1) fs ++ l.edge depth ++ "\x7d"
def writeItems (l : Layout) (depth : Nat) : List Json → Text
  | [] => []
  | x :: xs => l.between depth ++ write l depth x ++ writeItems l depth xs
def writeFields (l : Layout) (depth : Nat) : List (Text × Json) → Text
  | [] => []
  | (k, v) :: fs => l.between depth ++ string k ++ ": " ++ write l depth v ++ writeFields l depth fs
end

def line (j : Json) : Text := j.write oneLine 0

def document (j : Json) : Text := j.write indented 0 ++ "\n"

mutual
/-- Fields by name at every depth. -/
def sorted : Json → Json
  | array xs => array (sortedItems xs)
  | object fs => object (Table.sorted (sortedFields fs))
  | j => j
def sortedItems : List Json → List Json
  | [] => []
  | x :: xs => sorted x :: sortedItems xs
def sortedFields : List (Text × Json) → List (Text × Json)
  | [] => []
  | (k, v) :: fs => (k, sorted v) :: sortedFields fs
end

end Json
end Rehost
