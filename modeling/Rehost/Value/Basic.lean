import Rehost.Path
import Rehost.Report

/-! Values of any kind that a pass may note down about itself. Tables are keyed by values; the same key twice keeps its
first place and takes the later value. -/
namespace Rehost

inductive Value where
  | null
  | bool (b : Bool)
  | int (n : Int)
  | number (x : Binary64)
  | text (s : Text)
  | bytes (bytes : List UInt8)
  | path (p : Path)
  | list (items : List Value)
  | tuple (items : List Value)
  | set (items : List Value)
  | table (entries : List (Value × Value))
  | report (r : Report)
  /-- The kind `report` itself, not a report. -/
  | reportKind
  /-- A thing of any other kind that can be a key. It goes by a number that it shares with just those that are the
  same key, and is spelled in one way on its own and shown in another inside a value. -/
  | thing (identity : Nat) (kind spelled shown : Text)
deriving Repr, Inhabited

namespace Value

mutual
/-- Whether two keys are one: truth values and numbers are compared as numbers. -/
def sameKey : Value → Value → Bool
  | null, null => true
  | bool a, bool b => a == b
  | bool a, int n | int n, bool a => (if a then 1 else 0) = n
  | bool a, number x | number x, bool a => x.isInt (if a then 1 else 0)
  | int n, int k => n == k
  | int n, number x | number x, int n => x.isInt n
  | number x, number y => x.sameValue y
  | text s, text t => s == t
  | bytes a, bytes b => a == b
  | path p, path q => p == q
  | tuple xs, tuple ys => sameKeys xs ys
  | reportKind, reportKind => true
  | thing i .., thing j .. => i == j
  | _, _ => false
def sameKeys : List Value → List Value → Bool
  | [], [] => true
  | x :: xs, y :: ys => sameKey x y && sameKeys xs ys
  | _, _ => false
end

def putEntry (key value : Value) : List (Value × Value) → List (Value × Value)
  | [] => [(key, value)]
  | (k, v) :: es => if sameKey k key then (k, value) :: es else (k, v) :: putEntry key value es

def tableOf (entries : List (Value × Value)) : Value := table (entries.foldl (fun t e => putEntry e.1 e.2 t) [])

def field? (name : Text) : List (Value × Value) → Option Value
  | [] => none
  | (text k, v) :: es => if k = name then some v else field? name es
  | _ :: es => field? name es

/-- Whether a value counts as given: nothing, zero, false and whatever is empty do not. -/
def isGiven : Value → Bool
  | null => false
  | bool b => b
  | int n => n != 0
  | number x => !x.isZero
  | text s => !s.isEmpty
  | bytes bs => !bs.isEmpty
  | list xs | tuple xs | set xs => !xs.isEmpty
  | table es => !es.isEmpty
  | path _ | report _ | reportKind | thing .. => true

mutual
def ofJson : Json → Value
  | .null => null
  | .bool b => bool b
  | .int n => int n
  | .number x => number x
  | .text s => text s
  | .array xs => list (ofItems xs)
  | .object fs => table (ofFields fs)
def ofItems : List Json → List Value
  | [] => []
  | x :: xs => ofJson x :: ofItems xs
def ofFields : List (Text × Json) → List (Value × Value)
  | [] => []
  | (k, v) :: fs => (text k, ofJson v) :: ofFields fs
end

end Value
end Rehost
