import Rehost.Script.Landmark

/-! The build hash: eight hexadecimal digits that stand as a word of their own in the comment that opens a script. -/
namespace Rehost.BuildHash

def unknown : Text := "unknown"

/-- How far an opening comment is read that never ends, its opener included. -/
def window : Nat := 512

/-- A script begins behind its byte order marks and the blanks that follow them. -/
def body (source : Text) : Text := (source.dropWhile (·.is '\ufeff')).dropWhile Text.isBlank

def leadingComment (source : Text) : Text :=
  match Text.past? "/*" (body source) with
  | none => []
  | some rest =>
    match Text.before? "*/" rest with
    | some inside => "/*" ++ inside
    | none => (body source).take window

def find? (source : Text) : Option Text :=
  (Landmark.buildHash.search? (leadingComment source)).map Match.text

def extract (source : Text) : Text := (find? source).getD unknown

end Rehost.BuildHash
