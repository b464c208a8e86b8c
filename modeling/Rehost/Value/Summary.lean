import Rehost.Value.Display

/-! Summaries: any value as a JSON document. Sequences become arrays, tables and reports become objects, keys are
written as they are displayed, and what JSON has no form for becomes the text that shows it. -/
namespace Rehost.Value

mutual
def summaryWithin (l : Limits) (room : Nat) : Value → Except Failure Json
  | null => .ok .null
  | bool b => .ok (.bool b)
  | int n => .ok (.int n)
  | number x => .ok (.number x)
  | text s => .ok (.text s)
  | list xs | tuple xs | set xs => inside .tooDeep room fun room => (summaries l room xs).map .array
  | table es => inside .tooDeep room fun room => (fieldSummaries l room es).map (.object <| Table.ofList ·)
  | report r => inside .tooDeep room fun room => inside .tooDeep room fun _ => .ok (.object r.fields)
  | v => (v.shown l.digits l.writtenDepth).map .text
def summaries (l : Limits) (room : Nat) : List Value → Except Failure (List Json)
  | [] => .ok []
  | x :: xs => do return (← summaryWithin l room x) :: (← summaries l room xs)
/-- The fields in the order of the entries; of two that are displayed alike the later value stays. -/
def fieldSummaries (l : Limits) (room : Nat) : List (Value × Value) → Except Failure (List (Text × Json))
  | [] => .ok []
  | (k, v) :: es => do return (← k.display l, ← summaryWithin l room v) :: (← fieldSummaries l room es)
end

def summary (l : Limits) (v : Value) : Except Failure Json := v.summaryWithin l l.depth

def tableSummary (l : Limits) : Value → Except Failure Json
  | table es => (table es).summary l
  | v => .error (.notATable v.kindName "items")

end Rehost.Value
