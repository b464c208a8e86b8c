import Rehost.Table
import Rehost.Text.Basic

/-! References to the page around a script. A server has no page, so qualifiers and accessors of it are dropped and
element look-ups become `null`. -/
namespace Rehost.Browser

def replacements : List (Text × Text) :=
  [("window.", ""), ("parent.", ""), ("document.", ""), (".innerHTML", ""),
    ("getElementById(\"roomlink\")", "null"), ("getElementById(\"recaptcha\")", "null")]

/-- How often each reference occurs in a text as it is given. -/
def counts (t : Text) : Table Nat := replacements.map fun r => (r.1, Text.count r.1 t)

def stripWith (rs : List (Text × Text)) (t : Text) : Text :=
  rs.foldl (fun t r => Text.replace r.1 r.2 t) t

def strip (t : Text) : Text := stripWith replacements t

@[simp] theorem keys_counts (t : Text) : (counts t).keys = replacements.map Prod.fst := by
  simp [counts, Table.keys]

end Rehost.Browser
