import Rehost.Json

/-! The report of a run: what was read and written, how often each landmark was met, what went wrong. A run fills it in
with lengths and counts; one that is made by hand may hold any whole numbers. -/
namespace Rehost

structure Report where
  sourceHash : Text := "unknown"
  inputPath : Option Text := none
  outputPath : Option Text := none
  inputLength : Int := 0
  outputLength : Int := 0
  landmarks : Table Int := []
  stripped : Table Int := []
  warnings : List Text := []
  errors : List Text := []
deriving DecidableEq, Repr, Inhabited

namespace Report

def integers (counts : Table Nat) : Table Int := counts.map fun e => (e.1, (e.2 : Int))

def succeeded (r : Report) : Bool := r.errors.isEmpty

/-- A missing path and an empty one are left out alike. -/
def fileLine (label : Text) (path : Option Text) (length : Int) : List Text :=
  match path with
  | none => []
  | some p => if p.isEmpty then [] else [label ++ ": " ++ p ++ " (" ++ toString length ++ " chars)"]

def countLine (e : Text × Int) : Text := "  " ++ e.1 ++ ": " ++ toString e.2

/-- A heading stands only over entries. -/
def underHeading (heading : Text) : List Text → List Text
  | [] => []
  | entries => heading :: entries

def landmarkLines (found : Table Int) : List Text :=
  "Fingerprint matches:" :: (if found.isEmpty then ["  none"] else (Table.sorted found).map countLine)

/-- The report for readers. Counts are listed by name, so their order of discovery does not show. -/
def lines (r : Report) : List Text :=
  ("Source hash: " ++ r.sourceHash) :: fileLine "Input" r.inputPath r.inputLength ++
    fileLine "Output" r.outputPath r.outputLength ++ landmarkLines r.landmarks ++
    underHeading "Stripped browser references:" ((Table.sorted r.stripped).map countLine) ++
    underHeading "Warnings:" (r.warnings.map ("  - " ++ ·)) ++
    underHeading "Errors:" (r.errors.map ("  - " ++ ·))

def text (r : Report) : Text := Text.join "\n" r.lines

def optionalText : Option Text → Json
  | none => .null
  | some s => .text s

def fields (r : Report) : Table Json :=
  [("source_hash", .text r.sourceHash), ("input_path", optionalText r.inputPath),
    ("output_path", optionalText r.outputPath), ("input_length", .int r.inputLength),
    ("output_length", .int r.outputLength), ("fingerprint_matches", .ofIntegers r.landmarks),
    ("stripped", .ofIntegers r.stripped), ("warnings", .ofStrings r.warnings), ("errors", .ofStrings r.errors)]

def toJson (r : Report) : Json := .object (r.fields.concat ("succeeded", .bool r.succeeded))

end Report
end Rehost
