import Rehost.Run.Host
import Rehost.Settings.Basic

/-! Settings from a file. -/
namespace Rehost.Settings

variable {m : Type → Type} [Monad m] [Host m]

def speaker : Text := "nodeify.config"

/-- A text that is no document by its form is a fault of the settings; any other failure of reading it is not. -/
def faultOf (file : Text) : Unreadable → Failure
  | .malformed detail => .settings (.malformed file detail)
  | .failed kind message => .foreign kind message

def load (p : Path) : Attempt m Settings := do
  let t ← Host.readText p
  let d ← liftExcept ((← liftM (Host.readDocument t : m _)).mapError (faultOf p.toText))
  if d = .nothing then Host.note speaker .debug ("config " ++ p.toText ++ " is empty; using defaults")
  liftExcept (ofDocument p.toText d)
where
  liftExcept {α : Type} (x : Except Failure α) : Attempt m α := ExceptT.mk (pure x)

end Rehost.Settings
