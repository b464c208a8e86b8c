import Rehost.Context
import Rehost.Decimal.Fixed

/-! Registries of steps. A name is registered once: registering it again replaces its step and its order. Steps run by
order, those of one order by name. -/
namespace Rehost

structure Registry (m : Type → Type) where
  entries : Table (Int × Step m Unit) := []

namespace Registry

def precedes (a b : Text × Int × α) : Bool := decide (a.2.1 < b.2.1) || (a.2.1 = b.2.1 && decide (a.1 ≤ b.1))

def register (r : Registry m) (name : Text) (step : Step m Unit) (order : Int) : Registry m :=
  ⟨r.entries.put name (order, step)⟩

def selected (r : Registry m) : List (Text × Step m Unit) :=
  (r.entries.mergeSort precedes).map fun e => (e.1, e.2.2)

def names (r : Registry m) : List Text := r.selected.map Prod.fst

/-- What the log says about a step beyond its time, as far as its notes hold it. -/
def remarks (notes : Option Value) : List Text :=
  match notes with
  | some (.table entries) =>
    (match Value.field? "output_length" entries with
      | some (.int n) => ["length=" ++ Json.int10 n]
      | some (.bool b) => ["length=" ++ (if b then "True" else "False")]
      | _ => []) ++
    (match Value.field? "matches" entries with
      | some (.table found) => ["rules=" ++ toString found.length]
      | _ => []) ++
    (match Value.field? "warnings" entries with
      | some (.list (w :: ws)) => ["warnings=" ++ toString (w :: ws).length]
      | _ => [])
  | _ => []

def seconds (x : Binary64) : Text := Decimal.renderFixed Value.specialNames 3 x ++ "s"

def completed (name : Text) (duration : Binary64) (notes : Option Value) : Text :=
  let suffix := match remarks notes with
    | [] => ""
    | parts => " (" ++ Text.join ", " parts ++ ")"
  "pass " ++ name ++ " completed in " ++ seconds duration ++ suffix

def speaker : Text := "nodeify.pipeline"

/-- The library's own failures go on as they are, and so does what is to end the program; any other failure is wrapped
with the name of its step. -/
def blame (name : Text) (finished : List (Text × Binary64)) (f : Failure) : Failure :=
  if f.isOwn || f.isInterrupt then f else .passFailed name f finished

variable {m : Type → Type} [Monad m] [Host m]

def runFrom (finished : List (Text × Binary64)) :
    List (Text × Step m Unit) → Step m (List (Text × Binary64))
  | [] => pure finished
  | (name, step) :: rest => do
    let (result, duration) ← liftM (Host.timed step.run : StateT Context m _)
    match result with
    | .error f => throw (blame name finished f)
    | .ok () =>
      Host.note speaker .info (completed name duration ((← Context.current).notes.get? name))
      runFrom (finished ++ [(name, duration)]) rest

/-- Runs the steps in order, each on the context that the one before it leaves, and tells how long each took. -/
def run (r : Registry m) : Step m (List (Text × Binary64)) := runFrom [] r.selected

/-- A table of names and times; only the names decide how wide its first column is. -/
def timeTable (results : List (Text × Binary64)) : Text :=
  match results with
  | [] => ""
  | results =>
    let width := (results.map fun e => e.1.length).foldl max 0
    let pad := fun s : Text => s ++ Text.spaces (width - s.length)
    Text.join "\n" ((pad "Pass" ++ "  Duration") :: results.map fun e => pad e.1 ++ "  " ++ seconds e.2)

def secondsOf : Value → Except Failure Binary64
  | .number x => .ok x
  | .bool b => fromInt (if b then 1 else 0)
  | .int n => fromInt n
  | .text _ => .error (.foreign "ValueError" "Unknown format code 'f' for object of type 'str'")
  | v => .error (.foreign "TypeError" ("unsupported format string passed to " ++ v.kindName ++ ".__format__"))
where
  fromInt (n : Int) : Except Failure Binary64 :=
    match Binary64.ofInt? n with
    | some x => .ok x
    | none => .error (.foreign "OverflowError" "int too large to convert to float")

def timeTableOf (results : List (Text × Value)) : Except Failure Text := do
  return timeTable (← results.mapM fun e => do return (e.1, ← secondsOf e.2))

end Registry
end Rehost
