import Rehost.Terminal

/-! The run log. A record names the part of the program that speaks; a journal says where records go. -/
namespace Rehost

inductive Level where
  | debug
  | info
  | warning
  | error
  | critical
deriving DecidableEq, Repr

namespace Level

def name : Level → Text
  | debug => "DEBUG"
  | info => "INFO"
  | warning => "WARNING"
  | error => "ERROR"
  | critical => "CRITICAL"

def colour : Level → Text
  | debug => "blue"
  | info => "green"
  | warning => "yellow"
  | error => "red"
  | critical => "magenta"

def rank : Level → Nat
  | debug => 10
  | info => 20
  | warning => 30
  | error => 40
  | critical => 50

end Level

structure Record where
  speaker : Text
  level : Level
  message : Text
deriving DecidableEq, Repr

namespace Record

def fileLine (stamp : Text) (r : Record) : Text :=
  stamp ++ " - " ++ r.speaker ++ " - " ++ r.level.name ++ " - " ++ r.message ++ "\n"

def terminalLine (r : Record) : Text :=
  Terminal.colour (r.level.name ++ ": " ++ r.message) r.level.colour ++ "\n"

end Record

/-- A log file by the number under which the host opened it. -/
abbrev LogId := Nat

structure Journal where
  file : Option LogId := none
  /-- Records go to the terminal too, and those for debugging are kept. -/
  verbose : Bool := false
deriving DecidableEq, Repr

def Journal.accepts (j : Journal) (r : Record) : Bool := j.verbose || r.level ≠ .debug

end Rehost
