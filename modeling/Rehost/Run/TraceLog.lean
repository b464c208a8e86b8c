import Rehost.Run.Host

/-! The trace log: a logger that writes each message as a line to a file. Its receivers are its own, which are marked,
and those that others have added. Opening the log puts a fresh file in place of any own receiver; the others are left
alone. -/
namespace Rehost

inductive Target where
  | file (id : LogId)
  | other (name : Text)
deriving DecidableEq, Repr

structure Receiver where
  target : Target
  /-- Whether it is one of the log's own. -/
  marked : Bool
deriving DecidableEq, Repr

structure TraceLog where
  receivers : List Receiver := []
  /-- Messages of this level are taken, and graver ones. -/
  level : Level := .warning
  /-- Whether messages also reach the run log. -/
  propagates : Bool := true
deriving DecidableEq, Repr

namespace TraceLog

variable {m : Type → Type} [Monad m] [Host m]

def change (f : TraceLog → TraceLog) : Attempt (StateT TraceLog m) Unit := liftM (modify f : StateT TraceLog m Unit)

def current : Attempt (StateT TraceLog m) TraceLog := liftM (get : StateT TraceLog m TraceLog)

def add (r : Receiver) (t : TraceLog) : TraceLog := { t with receivers := t.receivers ++ [r] }

def remove (r : Receiver) (t : TraceLog) : TraceLog := { t with receivers := t.receivers.erase r }

/-- Adding a listener twice has no effect. -/
def listen (name : Text) (t : TraceLog) : TraceLog :=
  let r : Receiver := ⟨.other name, false⟩
  if r ∈ t.receivers then t else t.add r

def closeTarget : Target → Attempt (StateT TraceLog m) Unit
  | .file id => Host.attempt (Host.closeLog id)
  | .other _ => pure ()

/-- Takes the log's own receivers off one by one, and closes each as soon as it is off. -/
def closeEach : List Receiver → Attempt (StateT TraceLog m) Unit
  | [] => pure ()
  | r :: rs => do
    if r.marked then
      change (remove r)
      closeTarget r.target
    closeEach rs

def close : Attempt (StateT TraceLog m) Unit := do closeEach (← current).receivers

/-- The old file is left once the new one's directory is there, even if the new one then cannot be opened. -/
def «open» (p : Path) : Attempt (StateT TraceLog m) LogId := do
  Host.attempt (Host.makeDirectories p.parent)
  close
  change fun t => { t with level := .debug }
  change fun t => { t with propagates := false }
  let id ← Host.openLogAt p
  change (add ⟨.file id, true⟩)
  return id

def accepts (t : TraceLog) (level : Level) : Bool := t.level.rank ≤ level.rank

/-- What others do with a message is theirs. -/
def tell (message : Text) : List Receiver → m Unit
  | [] => pure ()
  | r :: rs => do
    if let .file id := r.target then Host.logLine id (message ++ "\n")
    tell message rs

def log (level : Level) (message : Text) : StateT TraceLog m Unit := do
  let t ← get
  if t.accepts level then tell message t.receivers

def enter : Option Path → Attempt (StateT TraceLog m) (Option LogId)
  | none => pure none
  | some p => some <$> TraceLog.open p

/-- Ends a block with what it came to: a log that was opened for it is closed. If that fails, the block fails with it.
-/
def leave (p : Option Path) (result : Except Failure α) : Attempt (StateT TraceLog m) α := do
  if p.isSome then close
  ExceptT.mk (pure result)

def around (p : Option Path) (action : Option LogId → Attempt (StateT TraceLog m) α) :
    Attempt (StateT TraceLog m) α := do
  let id ← enter p
  let result ← liftM (action id).run
  leave p result

def during (p : Option Path) (action : Option LogId → Attempt m α) : Attempt (StateT TraceLog m) α :=
  around p fun id => ExceptT.mk (StateT.lift (action id).run)

end TraceLog
end Rehost
