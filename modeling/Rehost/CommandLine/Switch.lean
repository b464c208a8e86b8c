import Rehost.Text.Basic

/-! The options of the command line and the names that each one goes by. -/
namespace Rehost.CommandLine

inductive Switch where
  | help
  | output
  | config
  | origin
  | artifacts
  | reportPath
  | dryRun
  | profile
  | verbose
  | logFile
  | debugLog
deriving DecidableEq, Repr

namespace Switch

/-- Every name, in the order in which options are listed. -/
def names : List (Text × Switch) :=
  [("-h", help), ("--help", help), ("-o", output), ("--out", output), ("--output", output), ("--config", config),
    ("--origin", origin), ("--write-artifacts", artifacts), ("--report", reportPath), ("--dry-run", dryRun),
    ("--profile", profile), ("--verbose", verbose), ("--log-file", logFile), ("--debug-log", debugLog)]

def named? (name : Text) : Option Switch := names.lookup name

theorem nodup_names : (names.map Prod.fst).Nodup := by decide

def title (s : Switch) : Text := Text.join "/" ((names.filter (·.2 = s)).map Prod.fst)

def takesValue : Switch → Bool
  | help | dryRun | profile | verbose => false
  | _ => true

end Switch
end Rehost.CommandLine
