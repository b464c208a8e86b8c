import Rehost.Pass
import Rehost.Registry

/-! The passes in their order: as a registry whose steps record what they do, and in memory, where only the text and the
hash matter. -/
namespace Rehost.Pipeline

def version : Text := "1.0.0"

/-- Orders leave room for steps in between. -/
def orders : List (Pass × Int) :=
  [(.buildHash, 10), (.browser, 20), (.rules, 30), (.capabilities, 40), (.envelope, 50)]

variable {m : Type → Type} [Monad m] [Host m]

def registry : Registry m := orders.foldl (fun r e => r.register e.1.name e.1.step e.2) {}

def applyAll : List Pass → Context → Except Failure Context
  | [], c => .ok c
  | p :: ps, c => do applyAll ps (← p.apply c).2

def contextOf (source origin : Text) : Context :=
  Context.prepared { rawInput := source, options := .table [(.text "origin", .text origin)] }

def rehost (source : Text) (origin : Text := Rule.defaultOrigin) : Except Failure (Text × Text) := do
  let c ← applyAll Pass.all (contextOf source origin)
  return (c.output, c.hash)

end Rehost.Pipeline
