import Rehost.Script.Landmark
import Rehost.Table

/-! Rules: a landmark and the text that takes the place of its first match. The rules run one after another,
each on the text that the one before it leaves; the init guard is none of them, so that it can still be found later. -/
namespace Rehost

structure Slots where
  resolve : Text
  proxy : Text
  debug : Text

def slots : Slots := ⟨"promiseResolve", "proxyAgent", "debug"⟩

structure Rule where
  landmark : Landmark
  /-- What replaces a match, given the origin that the transport announces. -/
  build : Match → (origin : Text) → Text

namespace Rule

def stage : Text := "rewrite"

def defaultOrigin : Text := "https://html5.haxball.com"

def name (r : Rule) : Text := r.landmark.name

/-- The text with the first match replaced, and how many matches the text had before. -/
def apply (r : Rule) (origin source : Text) : Except Absence (Text × Nat) := do
  let m ← r.landmark.require source stage
  return (m.splice (r.build m origin), r.landmark.count source)

/-- The room is handed to the promise of the module instead of to the page. -/
def deferInit : Rule where
  landmark := .roomInit
  build m _ := slots.resolve ++ "(" ++ m.named "value" ++ ");"

def socketOptions (origin : Text) : Text :=
  "\x7bheaders:\x7borigin: \"" ++ origin ++ "\"\x7d, agent: " ++ slots.proxy ++ "\x7d"

def openSocket : Rule where
  landmark := .socket
  build m origin :=
    "new WebSocket(" ++ m.named "args" ++ ", " ++ socketOptions origin ++ ")" ++ m.named "tail"

def reportSocketError : Rule where
  landmark := .socketError
  build m _ :=
    m.named "obj" ++ "." ++ m.named "prop" ++ ".onerror=function(err)\x7b" ++ m.named "method_obj" ++
      "." ++ m.named "method" ++ "(" ++ m.named "truthy" ++ ");" ++ slots.debug ++
      " && console.error(err)\x7d;"

def challengeNotice : Text := "Invalid Token Provided!"

/-- No challenge can be shown, so the case says so instead. -/
def refuseChallenge : Rule where
  landmark := .challenge
  build _ _ := "case \"recaptcha\":console.log(new Error(\"" ++ challengeNotice ++ "\"))"

def all : List Rule := [deferInit, openSocket, reportSocketError, refuseChallenge]

def named? (name : Text) : Option Rule := all.find? (·.name = name)

def applyFrom (origin : Text) (counts : Table Nat) : List Rule → Text → Except Absence (Text × Table Nat)
  | [], source => .ok (source, counts)
  | r :: rs, source => do
    let (source, n) ← r.apply origin source
    applyFrom origin (counts.put r.name n) rs source

def applyAll (origin : Text) (rules : List Rule) (source : Text) : Except Absence (Text × Table Nat) :=
  applyFrom origin [] rules source

end Rule

def onlyFirstChanged (landmark : Text) (count : Nat) : Text :=
  landmark ++ " matched " ++ toString count ++ " times; only the first occurrence was rewritten"

end Rehost
