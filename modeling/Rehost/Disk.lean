import Rehost.Path
import Rehost.Text.Utf8

/-! A disk: directories and files by their place, which is the list of names that leads there from the root. A name is a
row of bytes, so two texts may be one name. Paths are followed name by name, so two dots lead to the parent of what is
really there. -/
namespace Rehost

abbrev Bytes := List UInt8

structure Reason where
  text : Text
  oneLine : ('\n' : CodePoint) ∉ text := by decide
deriving DecidableEq, Repr

inductive DiskFault where
  | notFound
  | alreadyThere
  | notDirectory
  | isDirectory
  /-- The name holds a character that no file name can hold. -/
  | badName
  /-- The name holds lone halves that stand for no byte. -/
  | unencodable (g : Utf8.Gap)
  /-- More directories are missing than are made for one path. -/
  | tooDeep
  /-- A file that was opened did not take its bytes. -/
  | unwritten (number : Nat) (reason : Reason)
  | other (number : Nat) (reason : Reason)
deriving DecidableEq, Repr

/-- Whether the system says so, rather than never being asked. -/
def DiskFault.isOfSystem : DiskFault → Bool
  | badName | unencodable _ | tooDeep => false
  | _ => true

structure DiskError where
  fault : DiskFault
  path : Path
deriving DecidableEq, Repr

namespace DiskError

def numbered (number : Nat) (reason : Text) : Text := "[Errno " ++ toString number ++ "] " ++ reason

def located (number : Nat) (reason : Text) (p : Path) : Text := numbered number reason ++ ": " ++ Text.quoted p.toText

def message (e : DiskError) : Text :=
  match e.fault with
  | .notFound => located 2 "No such file or directory" e.path
  | .alreadyThere => located 17 "File exists" e.path
  | .notDirectory => located 20 "Not a directory" e.path
  | .isDirectory => located 21 "Is a directory" e.path
  | .badName => "embedded null byte"
  | .unencodable g => g.message
  | .tooDeep => "maximum recursion depth exceeded"
  | .unwritten number reason => numbered number reason.text
  | .other number reason => located number reason.text e.path

end DiskError

/-- The names that lead from the root to a file or directory. -/
abbrev Place := List Bytes

inductive Entry where
  | file (bytes : Bytes)
  | directory
deriving DecidableEq, Repr

structure Disk where
  entries : List (Place × Entry)
  /-- The place that relative paths start from. -/
  home : Place
deriving DecidableEq, Repr

namespace Disk

def entryIn (place : Place) : List (Place × Entry) → Option Entry
  | [] => none
  | (p, e) :: es => if p = place then some e else entryIn place es

/-- The root is always a directory. -/
def entryAt (d : Disk) (place : Place) : Option Entry :=
  if place = [] then some .directory else entryIn place d.entries

def setIn (place : Place) (e : Entry) : List (Place × Entry) → List (Place × Entry)
  | [] => [(place, e)]
  | (p, old) :: es => if p = place then (p, e) :: es else (p, old) :: setIn place e es

def set (d : Disk) (place : Place) (e : Entry) : Disk := { d with entries := setIn place e d.entries }

def tooLong : DiskFault := .other 36 { text := "File name too long" }

def nameLimit : Nat := 255

def pathLimit : Nat := 4095

def nameFault? (p : Path) : Option DiskFault :=
  let t := p.toText
  match Utf8.nameGap? t with
  | some g => some (.unencodable g)
  | none =>
    if t.contains '\x00' then some .badName
    else if pathLimit < (Utf8.nameBytes t).length then some tooLong
    else none

def step (place : Place) (name : Text) : Except DiskFault Place :=
  if name = ".." then .ok place.dropLast
  else if nameLimit < (Utf8.nameBytes name).length then .error tooLong
  else .ok (place ++ [Utf8.nameBytes name])

def enter (d : Disk) : Place → List Text → Except DiskFault Place
  | place, [] => .ok place
  | place, name :: names => do
    let next ← step place name
    match d.entryAt next with
    | none => throw .notFound
    | some (.file _) => throw .notDirectory
    | some .directory => enter d next names

/-- The place that a path names, whether or not something is there. -/
def locate (d : Disk) (p : Path) : Except DiskFault Place :=
  let base := if p.isAbsolute then [] else d.home
  match nameFault? p with
  | some f => .error f
  | none =>
    match p.parts.getLast? with
    | none => .ok base
    | some name => do step (← d.enter base p.parts.dropLast) name

def read (d : Disk) (p : Path) : Except DiskFault Bytes := do
  match d.entryAt (← d.locate p) with
  | none => throw .notFound
  | some .directory => throw .isDirectory
  | some (.file bytes) => return bytes

/-- The place of a file that can be written: a new one, or one whose bytes are replaced. -/
def writable (d : Disk) (p : Path) : Except DiskFault Place := do
  let place ← d.locate p
  match d.entryAt place with
  | some .directory => throw .isDirectory
  | _ => return place

def write (d : Disk) (p : Path) (bytes : Bytes) : Except DiskFault Disk :=
  (d.writable p).map (d.set · (.file bytes))

/-- Makes a directory at a place, and tells the place. A directory that is there already is no fault. -/
def makeOrKeep (d : Disk) (place : Place) : Except DiskFault (Disk × Place) :=
  match d.entryAt place with
  | none => .ok (d.set place .directory, place)
  | some .directory => .ok (d, place)
  | some (.file _) => .error .alreadyThere

/-- Makes a directory after its parents, at most `room` of them; the names come last one first. What was made stays when
a later step fails. -/
def makeFrom (d : Disk) (slashes room : Nat) (reversed : List Text) : Disk × Except DiskError Place :=
  let p : Path := ⟨slashes, reversed.reverse⟩
  let told (d : Disk) : Except DiskFault (Disk × Place) → Disk × Except DiskError Place
    | .ok (d, place) => (d, .ok place)
    | .error f => (d, .error ⟨f, p⟩)
  match reversed, d.locate p with
  | name :: names, .error .notFound =>
    if room = 0 then (d, .error ⟨.tooDeep, p⟩)
    else
      match makeFrom d slashes (room - 1) names with
      | (d, .error e) => (d, .error e)
      | (d, .ok parent) => told d (step parent name >>= d.makeOrKeep)
  | _, located => told d (located >>= d.makeOrKeep)

def makeDirectories (d : Disk) (room : Nat) (p : Path) : Disk × Except DiskError Unit :=
  (d.makeFrom p.slashes room p.parts.reverse).map id fun made => made.map fun _ => ()

/-- Writes into a file at an offset; a gap before the offset is filled with zeros. Writing nothing changes nothing. -/
def writeAt (offset : Nat) (new old : Bytes) : Bytes :=
  if new.isEmpty then old
  else old.take offset ++ List.replicate (offset - old.length) 0 ++ new ++ old.drop (offset + new.length)

@[simp] theorem entryAt_set_self (d : Disk) (place : Place) (e : Entry) (h : place ≠ []) :
    (d.set place e).entryAt place = some e := by
  have go (es : List (Place × Entry)) : entryIn place (setIn place e es) = some e := by
    induction es with
    | nil => simp [setIn, entryIn]
    | cons x es ih => obtain ⟨p, o⟩ := x; by_cases hp : p = place <;> simp [setIn, entryIn, hp, ih]
  simp [entryAt, set, h, go]

theorem entryAt_set_of_ne (d : Disk) {place other : Place} (e : Entry) (h : other ≠ place) :
    (d.set place e).entryAt other = d.entryAt other := by
  have go (es : List (Place × Entry)) : entryIn other (setIn place e es) = entryIn other es := by
    induction es with
    | nil => simp [setIn, entryIn, h.symm]
    | cons x es ih =>
      obtain ⟨p, o⟩ := x
      by_cases hp : p = place
      · subst hp; simp [setIn, entryIn, h.symm]
      · by_cases ho : p = other
        · subst ho; simp [setIn, entryIn, h]
        · simp [setIn, entryIn, hp, ho, ih]
  simp [entryAt, set, go]

theorem writeAt_length (new old : Bytes) : writeAt old.length new old = old ++ new := by
  cases new <;> simp [writeAt]

end Disk
end Rehost
