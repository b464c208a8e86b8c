import Rehost.Pattern.Basic

/-! Landmarks: the places of a host script that a rule has to find. Each is a pattern over the script's text, loose
about white space and about the short names that a minifier hands out. -/
namespace Rehost

/-- Why a landmark was wanted: to replace it, to attach something to it, or neither. -/
inductive Absence.Role where
  | site
  | collaborator
  | unspecified
deriving DecidableEq, Repr

structure Absence where
  role : Absence.Role
  landmark : Text
  stage : Text
  detail : Option Text
deriving DecidableEq, Repr

/-- An empty detail is left out like a missing one. -/
def Absence.message (a : Absence) : Text :=
  let found := a.stage ++ ": failed to find " ++ a.landmark ++ " pattern"
  match a.detail with
  | none => found
  | some d => if d.isEmpty then found else found ++ " (" ++ d ++ ")"

structure Landmark where
  name : Text
  description : Text
  pattern : Pattern

namespace Landmark
open Pattern

def search? (l : Landmark) (t : Text) : Option Match := l.pattern.search? t

def count (l : Landmark) (t : Text) : Nat := l.pattern.count t

def require (l : Landmark) (t : Text) (stage : Text) (role : Absence.Role := .site) : Except Absence Match :=
  match l.search? t with
  | some m => .ok m
  | none => .error ⟨role, l.name, stage, some l.description⟩

def lit (s : Text) : Pattern := exactly s

def letters : Pattern := most1 CodePoint.isAlpha

def member : Pattern := inOrder [letters, lit ".", letters]

def buildHash : Landmark where
  name := "hashComment"
  description := "8 hex digit build hash in the leading comment"
  pattern := inOrder [wordEdge,
    group none (times 8 (one fun c => ('a' ≤ c && c ≤ 'f') || ('0' ≤ c && c ≤ '9'))), wordEdge]

def initGuard : Landmark where
  name := "initGuard"
  description := "initialization guard"
  pattern := inOrder [lit "if", blanks, lit "(", blanks, member, blanks, lit ")", blanks, lit "throw", blanks1, member,
    blanks, lit "(", blanks, lit "\"Can't init twice\"", blanks, lit ")", blanks, lit ";", blanks, member, blanks,
    lit "=", blanks, lit "!0", blanks, lit ";"]

/-- The value runs to the first semicolon of its line. -/
def roomInit : Landmark where
  name := "hbInitAssignment"
  description := "HBInit assignment"
  pattern := inOrder [lit "HBInit", blanks, lit "=", blanks,
    group "value" (seq (one (!·.is '\n')) (fewest (!·.is '\n'))), lit ";"]

def socket : Landmark where
  name := "webSocketConstruction"
  description := "WebSocket construction"
  pattern := inOrder [lit "new", blanks1, lit "WebSocket", blanks, lit "(", group "args" (most1 (!·.is ')')), lit ")",
    group "tail" (seq blanks (optional (lit ";")))]

def socketError : Landmark where
  name := "socketErrorHandler"
  description := "WebSocket error handler"
  pattern := inOrder [group "obj" letters, lit ".", group "prop" letters, lit ".onerror", blanks, lit "=", blanks,
    lit "function", blanks, lit "(", blanks, lit ")", blanks, lit "\x7b", blanks, group "method_obj" letters, lit ".",
    group "method" letters, blanks, lit "(", blanks, group "truthy" (either (lit "!0") (lit "true")), blanks,
    lit ")", blanks, lit "\x7d", blanks, optional (lit ";")]

def challenge : Landmark where
  name := "captchaCase"
  description := "recaptcha case"
  pattern := inOrder [lit "case", blanks1, lit "\"recaptcha\"", blanks, lit ":", blanks, letters, blanks, lit "(",
    blanks, most1 (!·.is ')'), blanks, lit ")"]

def lookup : Landmark where
  name := "configLookupCall"
  description := "room config lookup function"
  pattern := inOrder [group "name" (most1 fun c => Text.isWord c || c = '$'), blanks, lit "(", blanks,
    lit "\"noPlayer\"", blanks, lit ","]

def all : List Landmark := [buildHash, initGuard, roomInit, socket, socketError, challenge, lookup]

def named? (name : Text) : Option Landmark := all.find? (·.name = name)

end Landmark
end Rehost
