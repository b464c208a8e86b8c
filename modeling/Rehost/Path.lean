import Rehost.Text.Basic

/-! File paths in one written form: repeated slashes, parts that are a single dot, and a slash at the end are dropped.
Two dots stay, because what they lead to depends on the files. -/
namespace Rehost

structure Path where
  /-- How many slashes stand in front: none, one, or the two that are a root of their own. -/
  slashes : Nat
  parts : List Text
deriving DecidableEq, Repr

namespace Path

def partsOf (t : Text) : List Text :=
  (t.splitAt '/').filter fun p => !p.isEmpty && p ≠ "."

def ofText (t : Text) : Path :=
  let slashes := (t.takeWhile (·.is '/')).length
  ⟨if slashes = 2 then 2 else min slashes 1, partsOf t⟩

def isAbsolute (p : Path) : Bool := p.slashes ≠ 0

/-- The empty path is the directory that relative paths start from. -/
def toText (p : Path) : Text :=
  if p.slashes = 0 && p.parts.isEmpty then "."
  else List.replicate p.slashes ('/' : CodePoint) ++ Text.join "/" p.parts

/-- An absolute path takes the place of what it is appended to. -/
def append (p q : Path) : Path := if q.isAbsolute then q else ⟨p.slashes, p.parts ++ q.parts⟩

def child (p : Path) (name : Text) : Path := p.append (ofText name)

def parent (p : Path) : Path := ⟨p.slashes, p.parts.dropLast⟩

/-- Two dots after a name cancel it; at a root they mean nothing. -/
def cancelDots (slashes : Nat) : (done : List Text) → List Text → List Text
  | done, [] => done.reverse
  | done, p :: ps =>
    if p = ".." then
      match done with
      | [] => if slashes = 0 then cancelDots slashes [".."] ps else cancelDots slashes [] ps
      | d :: ds => if d = ".." then cancelDots slashes (".." :: d :: ds) ps else cancelDots slashes ds ps
    else cancelDots slashes (p :: done) ps

def absolute (workingDirectory p : Path) : Path :=
  let whole := workingDirectory.append p
  ⟨whole.slashes, cancelDots whole.slashes [] whole.parts⟩

@[simp] theorem parent_parent_root : (⟨1, []⟩ : Path).parent = ⟨1, []⟩ := rfl

end Path
end Rehost
