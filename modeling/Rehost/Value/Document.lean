import Rehost.Sort.Run
import Rehost.Value.Display
import Rehost.Value.Order

/-! Values written as JSON documents without a summary. Only what JSON has a form for can be written; keys that are
numbers, truth values or nothing are written as texts, each entry for itself. -/
namespace Rehost.Value

inductive NoDocument where
  /-- A value or a key of a kind that JSON does not have. -/
  | kind
  /-- Keys to be sorted that have no common order. -/
  | order
  | depth
  | digits (most : Nat)
deriving DecidableEq, Repr

def NoDocument.failure : NoDocument → Failure
  | kind => .foreign "TypeError" "a kind that JSON does not have"
  | order => .foreign "TypeError" "keys of unlike kinds"
  | depth => .tooDeep
  | digits most => .tooManyDigits most

def writtenInt (most : Nat) (n : Int) : Except NoDocument Int :=
  if Json.isShort most n then .ok n else .error (.digits most)

def keyText (most : Nat) : Value → Except NoDocument Text
  | text s => .ok s
  | null => .ok "null"
  | bool b => .ok (if b then "true" else "false")
  | int n => (writtenInt most n).map Json.int10
  | number x => .ok (Decimal.render Json.specialNames x)
  | _ => .error .kind

abbrev Keyed := Value × Except NoDocument (Text × Json)

/-- Entries are written in order, so it is the first one in that order that may keep the others from being written. -/
def inOrder (sort : Bool) (entries : List Keyed) : Except NoDocument Json := do
  if sort && !haveOrder (entries.map Prod.fst) then throw .order
  let entries := if sort then Sort.sort (fun a b => a.1.sortKey.precedes b.1.sortKey) entries else entries
  return .object (← entries.mapM Prod.snd)

mutual
def documentWithin (most : Nat) (sort : Bool) (room : Nat) : Value → Except NoDocument Json
  | null => .ok .null
  | bool b => .ok (.bool b)
  | int n => (writtenInt most n).map .int
  | number x => .ok (.number x)
  | text s => .ok (.text s)
  | list xs | tuple xs => inside .depth room fun room => (documents most sort room xs).map .array
  | table es => inside .depth room fun room => inOrder sort (keyedDocuments most sort room es)
  | _ => .error .kind
def documents (most : Nat) (sort : Bool) (room : Nat) : List Value → Except NoDocument (List Json)
  | [] => .ok []
  | x :: xs => do return (← documentWithin most sort room x) :: (← documents most sort room xs)
def keyedDocuments (most : Nat) (sort : Bool) (room : Nat) : List (Value × Value) → List Keyed
  | [] => []
  | (k, v) :: es =>
    (k, do return (← keyText most k, ← documentWithin most sort room v)) :: keyedDocuments most sort room es
end

def document (l : Limits) (sort : Bool) (v : Value) : Except NoDocument Json :=
  v.documentWithin l.digits sort l.writtenDepth

end Rehost.Value
