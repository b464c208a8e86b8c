import Rehost.Settings.Document
import Rehost.Yaml.Graph
import Rehost.Yaml.Scalar

/-! From nodes to the one thing that settings need of a document: whether it is a mapping, and for its keys and values
which are texts, which are nothing, and of what kind the others are. All nodes are looked at, those of the root first
and then level by level, so a fault anywhere is found. -/
namespace Rehost.Yaml
open Settings (Datum Document Unreadable)

def isKey : Datum → Bool
  | .other kind => !(["list", "dict", "set"] : List Text).contains kind
  | _ => true

structure Survey where
  nodes : Array Node
  known : List (Nat × Datum) := []
  waiting : List Nat := []
  /-- How deep defaults and merges may lead from one mapping to the next. -/
  links : Nat

namespace Survey

def fail (detail : Text) : Except Fault α := .error (.malformed detail)

def standard : List (Text × Kind) :=
  [("null", .null), ("bool", .truth), ("int", .integer), ("float", .float), ("timestamp", .time),
    ("binary", .binary), ("str", .text), ("merge", .merge), ("value", .default), ("yaml", .reserved)]

def collections : List (Text × Text) :=
  [("seq", "list"), ("map", "dict"), ("set", "set"), ("omap", "list"), ("pairs", "list")]

def standardName? (tag : Text) : Option Text := Text.past? (Graph.standardTag "") tag

/-- What a node is by its tag or, without one, by its form: the name of a standard tag. -/
def name? (n : Node) : Option Text :=
  match n.tag with
  | some tag => standardName? tag
  | none =>
    match n.content with
    | .sequence _ => some ("seq" : Text)
    | .mapping _ => some ("map" : Text)
    | .scalar t =>
      let kind := if n.plain then Scalar.kindOf t else .text
      (standard.find? (·.2 = kind)).map Prod.fst

def node (s : Survey) (id : Nat) : Node := s.nodes.getD id default

def is (s : Survey) (id : Nat) (name : Text) : Bool := name? (s.node id) = some name

def isMapping (s : Survey) (id : Nat) : Bool :=
  match (s.node id).content with
  | .mapping _ => true
  | _ => false

/-- The text of a scalar. A mapping with a default stands for that; one that is its own default leads nowhere. -/
def scalarText (s : Survey) : (room : Nat) → Nat → Except Fault Text
  | 0, _ => .error .tooDeep
  | room + 1, id =>
    match (s.node id).content with
    | .scalar t => .ok t
    | .mapping entries =>
      match entries.find? fun e => s.is e.1 "value" with
      | some e => scalarText s room e.2
      | none => fail "expected a scalar"
    | .sequence _ => fail "expected a scalar"

def datumOf (kind : Kind) (t : Text) : Datum :=
  match kind with
  | .null => .null
  | .text => .text t
  | .truth => .other "bool"
  | .integer => .other "int"
  | .float => .other "float"
  | .binary => .other "bytes"
  | .merge | .default | .reserved => .other "str"
  | .time =>
    match Time.read? t with
    | some { timeOfDay := some _, .. } => .other "datetime"
    | _ => .other "date"

def look (id : Nat) (s : Survey) : Except Fault (Datum × Survey) :=
  match s.known.lookup id with
  | some d => .ok (d, s)
  | none =>
    match name? (s.node id) with
    | none => fail "an unknown tag"
    | some name =>
      match collections.lookup name with
      | some kind =>
        .ok (.other kind, { s with known := (id, .other kind) :: s.known, waiting := s.waiting ++ [id] })
      | none =>
        match standard.lookup name with
        | none => fail "an unknown tag"
        | some kind => do
          let t ← if Scalar.isMark kind then pure [] else s.scalarText s.links id
          -- a default gives a time no form
          if kind = .time && s.isMapping id then throw .timeOfMapping
          match Scalar.fault? kind t with
          | some f => throw f
          | none => return (datumOf kind t, { s with known := (id, datumOf kind t) :: s.known })

def entries (s : Survey) (id : Nat) : List (Nat × Nat) :=
  match (s.node id).content with
  | .mapping entries => entries
  | _ => []

def setEntries (id : Nat) (entries : List (Nat × Nat)) (s : Survey) : Survey :=
  { s with nodes := s.nodes.setIfInBounds id { s.node id with content := .mapping entries } }

def retag (id : Nat) (name : Text) (s : Survey) : Survey :=
  { s with nodes := s.nodes.setIfInBounds id { s.node id with tag := some (Graph.standardTag name) } }

mutual
/-- Merges the mappings that a mapping names into it, from the entry at `index` on. Merged entries come first, so those
of the mapping itself win; a default mark that is a key is a text. Merges lead at most `room` mappings on. -/
def merge (room : Nat) : (fuel : Nat) → (id index : Nat) → (merged : List (Nat × Nat)) → Survey → Except Fault Survey
  | 0, _, _, _, _ => fail "merges without end"
  | fuel + 1, id, index, merged, s =>
    match (s.entries id)[index]? with
    | none => .ok (if merged.isEmpty then s else s.setEntries id (merged ++ s.entries id))
    | some (key, value) =>
      if s.is key "merge" then do
        let s := s.setEntries id ((s.entries id).eraseIdx index)
        match (s.node value).content, room with
        | .mapping _, 0 => throw .tooDeep
        | .mapping _, inner + 1 =>
          let s ← merge inner fuel value 0 [] s
          merge room fuel id index (merged ++ s.entries value) s
        | .sequence items, _ =>
          let (parts, s) ← mergeAll room fuel items s
          merge room fuel id index (merged ++ parts.reverse.flatten) s
        | .scalar _, _ => fail "expected a mapping to merge"
      else if s.is key "value" then merge room fuel id (index + 1) merged (s.retag key "str")
      else merge room fuel id (index + 1) merged s
termination_by structural fuel => fuel

def mergeAll (room : Nat) : (fuel : Nat) → List Nat → Survey → Except Fault (List (List (Nat × Nat)) × Survey)
  | 0, _, _ => fail "merges without end"
  | _ + 1, [], s => .ok ([], s)
  | fuel + 1, id :: ids, s =>
    match s.isMapping id, room with
    | true, 0 => throw .tooDeep
    | true, inner + 1 => do
      let s ← merge inner fuel id 0 [] s
      let part := s.entries id
      let (parts, s) ← mergeAll room fuel ids s
      return (part :: parts, s)
    | false, _ => fail "expected a mapping to merge"
termination_by structural fuel => fuel
end

def lookAll : List Nat → Survey → Except Fault Survey
  | [], s => .ok s
  | id :: ids, s => do lookAll ids (← s.look id).2

def lookEntries (keysOnly : Bool) : List (Nat × Nat) → Survey → Except Fault (List (Datum × Datum) × Survey)
  | [], s => .ok ([], s)
  | (key, value) :: es, s => do
    let (k, s) ← s.look key
    if keysOnly && !isKey k then fail "a collection as a key"
    else
      let (v, s) ← s.look value
      let (rest, s) ← lookEntries keysOnly es s
      return ((k, v) :: rest, s)

/-- Looks at the items of a sequence of pairs, each of which is a mapping of one entry. An item is looked at before the
form of the next one is, so a fault in an early item comes first. -/
def lookPairs : List Nat → Survey → Except Fault Survey
  | [], s => .ok s
  | id :: ids, s =>
    match (s.node id).content with
    | .mapping [e] => do lookPairs ids (← s.lookEntries false [e]).2
    | _ => fail "expected a mapping of one entry"

/-- More steps than merges that fit anywhere can take: merged entries double with every mapping that merges two. -/
def mergeFuel : Nat := 0x10000000000

def lookInto (id : Nat) (s : Survey) : Except Fault (List (Datum × Datum) × Survey) :=
  let name := name? (s.node id)
  match (s.node id).content with
  | .sequence items =>
    if name = some ("seq" : Text) then do return ([], ← s.lookAll items)
    else if name = some ("omap" : Text) || name = some ("pairs" : Text) then do return ([], ← s.lookPairs items)
    else fail "expected a mapping"
  | .mapping _ =>
    if name = some ("map" : Text) || name = some ("set" : Text) then do
      let s ← merge s.links mergeFuel id 0 [] s
      s.lookEntries true (s.entries id)
    else fail "expected a sequence"
  | .scalar _ => fail "expected a collection"

def lookIntoAll : (fuel : Nat) → Survey → Except Fault Survey
  | 0, s => .ok s
  | fuel + 1, s =>
    match s.waiting with
    | [] => .ok s
    | id :: ids => do lookIntoAll fuel (← { s with waiting := ids }.lookInto id).2

end Survey

def ofGraph (root : Option Nat) (g : Graph) (links : Nat) : Except Fault Document :=
  match root with
  | none => .ok .nothing
  | some id => do
    let (d, s) ← Survey.look id { nodes := g.nodes, links }
    if d = .null then return .nothing
    else if d = .other "dict" then
      let (entries, s) ← { s with waiting := s.waiting.drop 1 }.lookInto id
      let _ ← s.lookIntoAll (g.nodes.size + 1)
      return .mapping entries
    else
      let _ ← s.lookIntoAll (g.nodes.size + 1)
      return .other

def Fault.unreadable : Fault → Unreadable
  | malformed detail => .malformed detail
  | f => .failed f.kind f.message

def read (room : Room) (t : Text) : Except Unreadable Document :=
  let document : Except Fault Document := do
    let (root, g) ← Graph.ofTokens room.collections (tokens t)
    ofGraph root g room.links
  document.mapError Fault.unreadable

end Rehost.Yaml
