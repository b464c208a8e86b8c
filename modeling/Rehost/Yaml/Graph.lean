import Rehost.Yaml.Lexer

/-! From tokens to nodes. An alias is the very node that its anchor names, so nodes are numbered and refer to each other
by number; a node may even hold itself. -/
namespace Rehost.Yaml

/-- Every tag is kept in its full form. -/
inductive Content where
  | scalar (text : Text)
  | sequence (items : List Nat)
  | mapping (entries : List (Nat × Nat))
deriving DecidableEq, Repr, Inhabited

structure Node where
  /-- No tag if none was given that says anything. -/
  tag : Option Text
  content : Content
  /-- Whether a scalar without a tag says by its form what it is. -/
  plain : Bool := false
deriving DecidableEq, Repr, Inhabited

structure Graph where
  nodes : Array Node := #[]
  anchors : List (Text × Nat) := []
  /-- What tag handles stand for. -/
  handles : List (Text × Text) := []
deriving Inhabited

namespace Graph

def standardTag (name : Text) : Text := "tag:yaml.org,2002:" ++ name

def standardHandles : List (Text × Text) := [("!!", standardTag ""), ("!", "!")]

def fail (detail : Text) : Except Fault α := .error (.malformed detail)

def add (n : Node) (g : Graph) : Nat × Graph := (g.nodes.size, { g with nodes := g.nodes.push n })

def set (id : Nat) (n : Node) (g : Graph) : Graph := { g with nodes := g.nodes.setIfInBounds id n }

def node (g : Graph) (id : Nat) : Node := g.nodes.getD id default

def empty (g : Graph) : Nat × Graph := g.add ⟨none, .scalar [], true⟩

def bind (anchor : Option Text) (id : Nat) (g : Graph) : Graph :=
  match anchor with
  | some name => { g with anchors := (name, id) :: g.anchors }
  | none => g

def fullTag (g : Graph) : Option (Option Text × Text) → Except Fault (Option Text)
  | none => .ok none
  | some (none, suffix) => .ok (some suffix)
  | some (some handle, suffix) =>
    match g.handles.lookup handle with
    | some expansion => .ok (some (expansion ++ suffix))
    | none => fail "an unknown tag handle"

structure State where
  tokens : Tokens
  graph : Graph

abbrev Read := Nat × State

namespace State

def peek (s : State) : Except Fault (Option Token) := s.tokens.peek

def skip (s : State) : State := { s with tokens := s.tokens.skip }

def isAt (s : State) (accepts : Token → Bool) : Except Fault Bool := return (← s.peek).any accepts

def isAtOrEnd (s : State) (accepts : Token → Bool) : Except Fault Bool := return (← s.peek).all accepts

def add (n : Node) (anchor : Option Text) (s : State) : Read :=
  let (id, graph) := s.graph.add n
  (id, { s with graph := graph.bind anchor id })

def fill (id : Nat) (content : Content) (s : State) : State :=
  { s with graph := s.graph.set id { s.graph.node id with content } }

def empty (s : State) : Read :=
  let (id, graph) := s.graph.empty
  (id, { s with graph })

def properties (s : State) : Except Fault (Option Text × Option (Option Text × Text) × State) := do
  match ← s.peek with
  | some (.anchor name) =>
    match ← s.skip.peek with
    | some (.tag handle suffix) => return (some name, some (handle, suffix), s.skip.skip)
    | _ => return (some name, none, s.skip)
  | some (.tag handle suffix) =>
    match ← s.skip.peek with
    | some (.anchor name) => return (some name, some (handle, suffix), s.skip.skip)
    | _ => return (none, some (handle, suffix), s.skip)
  | _ => return (none, none, s)

end State

/-- Where nodes may stand: inside brackets, in a block, or as a value in a block, where a sequence needs no indentation.
-/
inductive Setting where
  | flow
  | block
  | blockValue
deriving DecidableEq

inductive Form where
  | scalar (text : Text) (plain : Bool)
  /-- A block sequence; one that is not indented has no token of its own. -/
  | entries (indented : Bool)
  | pairs
  | flowItems
  | flowEntries
deriving DecidableEq

def form? (setting : Setting) : Option Token → Option Form
  | some .entry => if setting = .blockValue then some (.entries false) else none
  | some (.scalar text plain) => some (.scalar text plain)
  | some .flowSequence => some .flowItems
  | some .flowMapping => some .flowEntries
  | some .blockSequence => if setting = .flow then none else some (.entries true)
  | some .blockMapping => if setting = .flow then none else some .pairs
  | _ => none

mutual
def readNode (setting : Setting) (room : Nat) : (fuel : Nat) → State → Except Fault Read
  | 0, _ => fail "nodes without end"
  | fuel + 1, s => do
    match ← s.peek with
    | some (.alias name) =>
      match s.graph.anchors.lookup name with
      | some id => return (id, s.skip)
      | none => fail "an unknown alias"
    | _ =>
      let (anchor, given, s) ← s.properties
      let tag ← s.graph.fullTag given
      let form := form? setting (← s.peek)
      if form = none && anchor.isNone && tag.isNone then fail "expected a node"
      else if anchor.any fun a => (s.graph.anchors.lookup a).isSome then fail "an anchor given twice"
      else
        -- a tag of a single mark says only that no form is to be looked at
        let bare := tag = some "!"
        let told := if bare then none else tag
        match form, room with
        | none, _ => return s.add ⟨told, .scalar [], tag.isNone || bare⟩ anchor
        | some (.scalar text plain), _ => return s.skip.add ⟨told, .scalar text, (plain && tag.isNone) || bare⟩ anchor
        | some _, 0 => throw .tooDeep
        | some (.entries indented), room + 1 =>
          let (id, s) := (if indented then s.skip else s).add ⟨told, .sequence [], false⟩ anchor
          let (items, s) ← readEntries indented room fuel s
          return (id, s.fill id (.sequence items))
        | some .pairs, room + 1 =>
          let (id, s) := s.skip.add ⟨told, .mapping [], false⟩ anchor
          let (entries, s) ← readPairs room fuel s
          return (id, s.fill id (.mapping entries))
        | some .flowItems, room + 1 =>
          let (id, s) := s.skip.add ⟨told, .sequence [], false⟩ anchor
          let (items, s) ← readFlowItems true room fuel s
          return (id, s.fill id (.sequence items))
        | some .flowEntries, room + 1 =>
          let (id, s) := s.skip.add ⟨told, .mapping [], false⟩ anchor
          let (entries, s) ← readFlowEntries true room fuel s
          return (id, s.fill id (.mapping entries))
termination_by structural fuel => fuel

def readOrEmpty (setting : Setting) (ends : Token → Bool) (room : Nat) : (fuel : Nat) → State → Except Fault Read
  | 0, _ => fail "nodes without end"
  | fuel + 1, s => do if ← s.isAtOrEnd ends then return s.empty else readNode setting room fuel s
termination_by structural fuel => fuel

def readValue (setting : Setting) (ends : Token → Bool) (room : Nat) : (fuel : Nat) → State → Except Fault Read
  | 0, _ => fail "nodes without end"
  | fuel + 1, s => do
    if ← s.isAt (· = .value) then readOrEmpty setting ends room fuel s.skip else return s.empty
termination_by structural fuel => fuel

/-- The entries of a block sequence; one that is not indented ends without a token of its own. -/
def readEntries (indented : Bool) (room : Nat) : (fuel : Nat) → State → Except Fault (List Nat × State)
  | 0, _ => fail "nodes without end"
  | fuel + 1, s => do
    if ← s.isAt (· = .entry) then
      let ends : Token → Bool := fun t =>
        t = .entry || t = .blockEnd || (!indented && (t = .key || t = .value))
      let (id, s) ← readOrEmpty .block ends room fuel s.skip
      let (ids, s) ← readEntries indented room fuel s
      return (id :: ids, s)
    else if !indented then return ([], s)
    else if ← s.isAt (· = .blockEnd) then return ([], s.skip)
    else fail "expected the end of a block"
termination_by structural fuel => fuel

def readPairs (room : Nat) : (fuel : Nat) → State → Except Fault (List (Nat × Nat) × State)
  | 0, _ => fail "nodes without end"
  | fuel + 1, s => do
    let ends : Token → Bool := fun t => t = .key || t = .value || t = .blockEnd
    if ← s.isAt (· = .blockEnd) then return ([], s.skip)
    else if ← s.isAt (· = .key) then
      let (key, s) ← readOrEmpty .blockValue ends room fuel s.skip
      let (value, s) ← readValue .blockValue ends room fuel s
      let (pairs, s) ← readPairs room fuel s
      return ((key, value) :: pairs, s)
    else fail "expected the end of a block"
termination_by structural fuel => fuel

def readFlowPair (ends : Token → Bool) (room : Nat) : (fuel : Nat) → State → Except Fault ((Nat × Nat) × State)
  | 0, _ => fail "nodes without end"
  | fuel + 1, s => do
    let (key, s) ← readOrEmpty .flow (fun t => t = .value || ends t) room fuel s.skip
    let (value, s) ← readValue .flow ends room fuel s
    return ((key, value), s)
termination_by structural fuel => fuel

/-- The items of a bracketed sequence; a pair among them is a mapping of its own. -/
def readFlowItems (first : Bool) (room : Nat) : (fuel : Nat) → State → Except Fault (List Nat × State)
  | 0, _ => fail "nodes without end"
  | fuel + 1, s => do
    if ← s.isAt (· = .flowSequenceEnd) then return ([], s.skip)
    else if !first && !(← s.isAt (· = .comma)) then fail "expected ',' or ']'"
    else
      let s := if first then s else s.skip
      let ends : Token → Bool := fun t => t = .comma || t = .flowSequenceEnd
      if ← s.isAt (· = .flowSequenceEnd) then return ([], s.skip)
      else if ← s.isAt (· = .key) then
        match room with
        | 0 => throw .tooDeep
        | inner + 1 =>
          let (id, s) := s.add ⟨none, .mapping [], false⟩ none
          let (pair, s) ← readFlowPair ends inner fuel s
          let (ids, s) ← readFlowItems false room fuel (s.fill id (.mapping [pair]))
          return (id :: ids, s)
      else
        let (id, s) ← readNode .flow room fuel s
        let (ids, s) ← readFlowItems false room fuel s
        return (id :: ids, s)
termination_by structural fuel => fuel

/-- The entries of a bracketed mapping; a key without a colon has an empty value. -/
def readFlowEntries (first : Bool) (room : Nat) : (fuel : Nat) → State → Except Fault (List (Nat × Nat) × State)
  | 0, _ => fail "nodes without end"
  | fuel + 1, s => do
    if ← s.isAt (· = .flowMappingEnd) then return ([], s.skip)
    else if !first && !(← s.isAt (· = .comma)) then fail "expected ',' or a closing brace"
    else
      let s := if first then s else s.skip
      let ends : Token → Bool := fun t => t = .comma || t = .flowMappingEnd
      if ← s.isAt (· = .flowMappingEnd) then return ([], s.skip)
      else if ← s.isAt (· = .key) then
        let (pair, s) ← readFlowPair ends room fuel s
        let (entries, s) ← readFlowEntries false room fuel s
        return (pair :: entries, s)
      else
        let (key, s) ← readNode .flow room fuel s
        let (value, s) := s.empty
        let (entries, s) ← readFlowEntries false room fuel s
        return ((key, value) :: entries, s)
termination_by structural fuel => fuel
end

/-- The directives in front of a document, of which a version is given once and no handle twice. -/
def directives : (versioned : Bool) → (handles : List (Text × Text)) → List Token →
    Except Fault (List (Text × Text) × List Token)
  | versioned, handles, .version major :: ts =>
    if versioned then fail "two versions"
    else if major ≠ 1 then fail "an unknown version"
    else directives true handles ts
  | versioned, handles, .tagHandle handle expansion :: ts =>
    if (handles.lookup handle).isSome then fail "a tag handle given twice"
    else directives versioned ((handle, expansion) :: handles) ts
  | versioned, handles, .otherDirective :: ts => directives versioned handles ts
  | _, handles, ts => .ok (handles, ts)

def isDirective : Token → Bool
  | .version _ | .tagHandle .. | .otherDirective => true
  | _ => false

def startsDocument (t : Token) : Bool := isDirective t || t = .documentStart

def State.start (s : State) : Except Fault State := do
  let (handles, list) ← directives false [] s.tokens.list
  let s : State := ⟨{ s.tokens with list }, { s.graph with handles := handles ++ standardHandles }⟩
  if ← s.isAt (· = .documentStart) then return s.skip else fail "expected the start of a document"

def readRoot (room fuel : Nat) (s : State) : Except Fault Read := do
  if ← s.isAt startsDocument then
    readOrEmpty .block (fun t => startsDocument t || t = .documentEnd) room fuel (← s.start)
  else readNode .block room fuel s

def ofTokens (room : Nat) (tokens : Tokens) : Except Fault (Option Nat × Graph) := do
  let s : State := ⟨tokens, { handles := standardHandles }⟩
  if (← s.peek).isNone then return (none, {})
  else
    let (root, s) ← readRoot room (6 * tokens.list.length + 12) s
    let s := { s with tokens := { s.tokens with list := s.tokens.list.dropWhile fun t => t = Token.documentEnd } }
    if (← s.peek).isNone then return (some root, s.graph)
    else
      let _ ← s.start
      fail "more than one document"

end Graph
end Rehost.Yaml
