import Rehost.Failure
import Rehost.Value.Basic

/-! How values are shown in a line of text: texts inside another value are quoted, a text alone is not. A host follows a
value only so far down and writes only so many digits of a whole number. -/
namespace Rehost

namespace Report

def shownPath : Option Text → Text
  | none => "None"
  | some p => Text.quoted p

def shownCounts (t : Table Int) : Text :=
  "\x7b" ++ Text.join ", " (t.map fun e => Text.quoted e.1 ++ ": " ++ Json.int10 e.2) ++
    "\x7d"

def shownStrings (xs : List Text) : Text :=
  "[" ++ Text.join ", " (xs.map fun s => Text.quoted s) ++ "]"

def shown (r : Report) : Text :=
  let parts : List (Text × Text) :=
    [("source_hash", Text.quoted r.sourceHash), ("input_path", shownPath r.inputPath),
      ("output_path", shownPath r.outputPath), ("input_length", Json.int10 r.inputLength),
      ("output_length", Json.int10 r.outputLength), ("fingerprint_matches", shownCounts r.landmarks),
      ("stripped", shownCounts r.stripped), ("warnings", shownStrings r.warnings), ("errors", shownStrings r.errors)]
  "NodeifyReport(" ++ Text.join ", " (parts.map fun p => p.1 ++ "=" ++ p.2) ++ ")"

end Report

namespace Value

def specialNames : Decimal.SpecialNames := ⟨"nan", "inf"⟩

/-- How far a host goes with a value. -/
structure Limits where
  /-- How many containers, each inside the one before, it takes apart. -/
  depth : Nat
  /-- How many of them it follows as it writes a value out. -/
  writtenDepth : Nat
  /-- The most digits of a whole number that it writes. -/
  digits : Nat
deriving DecidableEq, Repr, Inhabited

/-- Those of a stack of a thousand calls, of which taking a container apart uses two and writing it uses one. -/
def Limits.usual : Limits := ⟨500, 1000, 4300⟩

def inside (full : ε) (room : Nat) (f : Nat → Except ε α) : Except ε α :=
  match room with
  | 0 => .error full
  | room + 1 => f room

def wholeNumber (most : Nat) (n : Int) : Except Failure Text :=
  if Json.isShort most n then .ok (Json.int10 n) else .error (.tooManyDigits most)

mutual
/-- A value as a part of another is shown. -/
def shown (most : Nat) (room : Nat) : Value → Except Failure Text
  | null => .ok "None"
  | bool b => .ok (if b then "True" else "False")
  | int n => wholeNumber most n
  | number x => .ok (Decimal.render specialNames x)
  | text s => .ok (Text.quoted s)
  | bytes bs => .ok (Text.quotedBytes bs)
  | path p => .ok ("PosixPath(" ++ Text.quoted p.toText ++ ")")
  | list xs => inside .tooDeep room fun room => do return "[" ++ Text.join ", " (← shownItems most room xs) ++ "]"
  | tuple xs => inside .tooDeep room fun room => do
    return "(" ++ Text.join ", " (← shownItems most room xs) ++ (if xs.length = 1 then "," else "") ++ ")"
  | set xs => inside .tooDeep room fun room => do
    let parts ← shownItems most room xs
    return if parts.isEmpty then "set()" else "\x7b" ++ Text.join ", " parts ++ "\x7d"
  | table es => inside .tooDeep room fun room => do return "\x7b" ++ Text.join ", " (← shownEntries most room es) ++ "\x7d"
  | report r => .ok r.shown
  | reportKind => .ok "<class 'nodeify.report.NodeifyReport'>"
  | thing _ _ _ shown => .ok shown
def shownItems (most : Nat) (room : Nat) : List Value → Except Failure (List Text)
  | [] => .ok []
  | x :: xs => do return (← shown most room x) :: (← shownItems most room xs)
def shownEntries (most : Nat) (room : Nat) : List (Value × Value) → Except Failure (List Text)
  | [] => .ok []
  | (k, v) :: es => do
    return ((← shown most room k) ++ ": " ++ (← shown most room v)) :: (← shownEntries most room es)
end

def display (l : Limits) : Value → Except Failure Text
  | text s => .ok s
  | path p => .ok p.toText
  | thing _ _ spelled _ => .ok spelled
  | v => v.shown l.digits l.writtenDepth

def kindName : Value → Text
  | null => "NoneType"
  | bool _ => "bool"
  | int _ => "int"
  | number _ => "float"
  | text _ => "str"
  | bytes _ => "bytes"
  | path _ => "PosixPath"
  | list _ => "list"
  | tuple _ => "tuple"
  | set _ => "set"
  | table _ => "dict"
  | report _ => "NodeifyReport"
  | reportKind => "type"
  | thing _ kind _ _ => kind

mutual
/-- The kind of the first value that keeps this one from being a key: what can change is none. -/
def changeable? : Value → Option Text
  | list _ => some "list"
  | set _ => some "set"
  | table _ => some "dict"
  | report _ => some "NodeifyReport"
  | tuple xs => firstChangeable? xs
  | _ => none
def firstChangeable? : List Value → Option Text
  | [] => none
  | x :: xs => changeable? x <|> firstChangeable? xs
end

end Value
end Rehost
