import Rehost.Decimal.Binary
import Rehost.Disk
import Rehost.Script.Landmark
import Rehost.Settings.Error
import Rehost.Text.Utf8

/-! Why a run fails. The library's own failures pass through a run of passes as they are, and so does what is to end the
whole program; every other one is wrapped there with the name of the pass that met it. -/
namespace Rehost

inductive Failure where
  | absent (a : Absence)
  | settings (e : SettingsError)
  /-- A failure of the library's own kind that says only what it says. -/
  | refused (message : Text)
  | passFailed (pass : Text) (cause : Failure) (finished : List (Text × Binary64))
  | disk (e : DiskError)
  | undecodable (f : Utf8.Fault)
  | unencodable (g : Utf8.Gap)
  /-- Settings whose keys are not all texts. -/
  | mixedKeys
  /-- A value that is no table, by the kind it is of, and what was asked of it. -/
  | notATable (kind asked : Text)
  /-- A value goes further down than the host follows. -/
  | tooDeep
  /-- A whole number with more digits than the host writes out. -/
  | tooManyDigits (most : Nat)
  /-- A failure that comes from elsewhere. -/
  | foreign (kind message : Text)
  /-- What is to end the whole program, and so is no failure of any one step. -/
  | interrupt (kind message : Text)
deriving Repr, Inhabited

namespace Failure

def message : Failure → Text
  | absent a => a.message
  | settings e => e.message
  | refused text => text
  | passFailed pass cause _ => "pass '" ++ pass ++ "' failed: " ++ cause.message
  | disk e => e.message
  | undecodable f => f.message
  | unencodable g => g.message
  | mixedKeys => "keys of unlike kinds"
  | notATable kind asked =>
    let owner : Text := if kind = "type" then "type object 'NodeifyReport'" else "'" ++ kind ++ "' object"
    owner ++ " has no attribute '" ++ asked ++ "'"
  | tooDeep => "maximum recursion depth exceeded"
  | tooManyDigits most =>
    "Exceeds the limit (" ++ toString most ++ " digits) for integer string conversion; " ++
      "use sys.set_int_max_str_digits() to increase the limit"
  | foreign _ text | interrupt _ text => text

def isOwn : Failure → Bool
  | absent _ | settings _ | refused _ | passFailed .. => true
  | _ => false

def isInterrupt : Failure → Bool
  | interrupt .. => true
  | _ => false

/-- Whether the command line reports the failure; any other one ends the program. -/
def isReported : Failure → Bool
  | disk e => e.fault.isOfSystem
  | undecodable _ => true
  | f => f.isOwn

end Failure

/-- An action that may fail; what it did before stays done. -/
abbrev Attempt (m : Type → Type) (α : Type) := ExceptT Failure m α

end Rehost
