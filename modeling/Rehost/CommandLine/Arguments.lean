import Rehost.CommandLine.Word

/-! What a command line asks for. All words are read before any of them takes effect, so a misread word comes before
every other fault; after that the words take effect from left to right, and the wish for help ends the matter. -/
namespace Rehost.CommandLine

inductive Supplied where
  | absent
  | text (s : Text)
  /-- A separator attached as the value; it is dropped, and the option is left with an empty list. -/
  | voided
deriving DecidableEq, Repr

def Supplied.nonempty? : Supplied → Option Text
  | text s => if s.isEmpty then none else some s
  | _ => none

structure Arguments where
  input : Supplied := .absent
  output : Supplied := .absent
  config : Supplied := .absent
  origin : Supplied := .absent
  artifacts : Supplied := .absent
  reportPath : Supplied := .absent
  dryRun : Bool := false
  profile : Bool := false
  verbose : Bool := false
  logFile : Supplied := .text "nodeify.log"
  debugLog : Supplied := .absent
deriving DecidableEq, Repr

inductive Stop where
  | help
  | misuse (e : Misuse)
deriving DecidableEq, Repr

namespace Arguments

def supplied (value : Text) : Supplied :=
  if value = Word.separatorText then .voided else .text value

/-- An option takes effect; flags are given no value. -/
def apply (a : Arguments) (value : Text) : Switch → Except Stop Arguments
  | .help => .error .help
  | .output => .ok { a with output := supplied value }
  | .config => .ok { a with config := supplied value }
  | .origin => .ok { a with origin := supplied value }
  | .artifacts => .ok { a with artifacts := supplied value }
  | .reportPath => .ok { a with reportPath := supplied value }
  | .dryRun => .ok { a with dryRun := true }
  | .profile => .ok { a with profile := true }
  | .verbose => .ok { a with verbose := true }
  | .logFile => .ok { a with logFile := supplied value }
  | .debugLog => .ok { a with debugLog := supplied value }

def applyFlags (a : Arguments) : List Switch → Except Stop Arguments
  | [] => .ok a
  | s :: rest => do applyFlags (← a.apply [] s) rest

/-- The options that one word holds: flags, an option behind them, and the value attached to that. Behind a flag of one
letter the letters of others may follow. -/
def unpack (s : Switch) (short : Bool) : Option Text → Except Misuse (List Switch × Switch × Option Text)
  | none => .ok ([], s, none)
  | some attached => go s attached
where
  go (s : Switch) : Text → Except Misuse (List Switch × Switch × Option Text)
    | [] => if s.takesValue then .ok ([], s, some []) else .error (.needlessValue s [])
    | c :: rest =>
      if s.takesValue then .ok ([], s, some (c :: rest))
      else
        match if short then Switch.named? ['-', c] else none with
        | none => .error (.needlessValue s (c :: rest))
        | some next =>
          match rest with
          | [] => .ok ([s], next, none)
          | d :: rest => (go next (d :: rest)).map fun (flags, last, value) => (s :: flags, last, value)

structure Progress where
  arguments : Arguments := {}
  /-- There is one operand at most. -/
  inputTaken : Bool := false
  surplus : List Text := []

namespace Progress

def leave (p : Progress) (words : List Text) : Progress := { p with surplus := p.surplus ++ words }

def take (p : Progress) (t : Text) : Progress :=
  { p with arguments := { p.arguments with input := .text t }, inputTaken := true }

def finish (p : Progress) : Except Stop Arguments :=
  match p.surplus with
  | [] => .ok p.arguments
  | words => .error (.misuse (.unrecognised words))

/-- The words take effect. A separator belongs to the operand beside it. -/
def follow (p : Progress) : List Word → Except Stop Progress
  | [] => .ok p
  | .operand t :: ws =>
    if p.inputTaken then follow (p.leave [t]) ws
    else
      match ws with
      | .separator :: ws => follow (p.take t) ws
      | ws => follow (p.take t) ws
  | .separator :: ws => follow (if p.inputTaken then p.leave [Word.separatorText] else p) ws
  | .unknown t :: ws => follow (p.leave [t]) ws
  | .switch s short attached :: ws =>
    match unpack s short attached with
    | .error e => .error (.misuse e)
    | .ok (flags, last, attached) =>
      if last.takesValue then
        match attached, ws with
        | some value, ws => act p flags last value fun p => follow p ws
        | none, .operand value :: ws => act p flags last value fun p => follow p ws
        | none, _ => .error (.misuse (.noValue last))
      else act p flags last [] fun p => follow p ws
where
  act (p : Progress) (flags : List Switch) (last : Switch) (value : Text)
      (next : Progress → Except Stop Progress) : Except Stop Progress := do
    let a ← (← p.arguments.applyFlags flags).apply value last
    next { p with arguments := a }

end Progress

def parse (words : List Text) : Except Stop Arguments :=
  match Word.readAll words with
  | .error e => .error (.misuse e)
  | .ok ws => do (← Progress.follow {} ws).finish

end Arguments
end Rehost.CommandLine
