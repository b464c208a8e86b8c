import Rehost.Text.Blank
import Rehost.Text.Word

/-! Patterns and how a text is searched for one. A repetition ranges over single characters only, so every search is a
recursion over the pattern and the text. What follows a part is handed to it as a continuation: a part whose first way
to match leads nowhere offers its next way, and the first way that succeeds as a whole wins. A search tries every place
in turn, as `searchFrom?_cons` and `matchesFrom_cons` say, but leaves out those of which it knows that they fail. -/
namespace Rehost

/-- A place in a text: what stands before it, nearest character first, and what stands after it. -/
structure Spot where
  before : Text
  after : Text
deriving DecidableEq, Repr

namespace Spot

def start (t : Text) : Spot := ⟨[], t⟩

def index (s : Spot) : Nat := s.before.length

def whole (s : Spot) : Text := s.before.reverse ++ s.after

def upTo (s e : Spot) : Text := s.after.take (e.index - s.index)

def past? (s : Spot) (t : Text) : Option Spot :=
  (t.past? s.after).map fun r => ⟨t.reverse ++ s.before, r⟩

def atEdge (s : Spot) : Bool :=
  s.before.head?.any Text.isWord != s.after.head?.any Text.isWord

@[simp] theorem whole_start (t : Text) : (start t).whole = t := rfl

end Spot

inductive Pattern where
  | nothing
  | exactly (t : Text)
  | one (accepts : CodePoint → Bool)
  | seq (first second : Pattern)
  | either (preferred other : Pattern)
  /-- As many accepted characters as the rest allows, perhaps none. -/
  | most (accepts : CodePoint → Bool)
  /-- As many accepted characters as the rest allows, at least one. -/
  | most1 (accepts : CodePoint → Bool)
  /-- As few accepted characters as the rest allows, perhaps none. -/
  | fewest (accepts : CodePoint → Bool)
  | wordEdge
  | group (name : Option Text) (body : Pattern)

structure Capture where
  name : Option Text
  start : Spot
  stop : Spot
deriving DecidableEq, Repr

def Capture.text (c : Capture) : Text := c.start.upTo c.stop

/-- Tries the longest run of accepted characters first. -/
def Spot.overMost (accepts : CodePoint → Bool) (next : Spot → Option α) : (before after : Text) → Option α
  | b, [] => next ⟨b, []⟩
  | b, c :: r =>
    if accepts c then overMost accepts next (c :: b) r <|> next ⟨b, c :: r⟩
    else next ⟨b, c :: r⟩

def Spot.overFewest (accepts : CodePoint → Bool) (next : Spot → Option α) : (before after : Text) → Option α
  | b, [] => next ⟨b, []⟩
  | b, c :: r => next ⟨b, c :: r⟩ <|> if accepts c then overFewest accepts next (c :: b) r else none

namespace Pattern

/-- A way to match, with where it ends. The captures are listed in the order in which their groups close. -/
def run (next : Spot → Option (Spot × List Capture)) : Pattern → Spot → Option (Spot × List Capture)
  | nothing, s => next s
  | exactly t, s => (s.past? t).bind next
  | one accepts, s =>
    match s.after with
    | [] => none
    | c :: r => if accepts c then next ⟨c :: s.before, r⟩ else none
  | seq p q, s => run (run next q) p s
  | either p q, s => run next p s <|> run next q s
  | most accepts, s => Spot.overMost accepts next s.before s.after
  | most1 accepts, s =>
    match s.after with
    | [] => none
    | c :: r => if accepts c then Spot.overMost accepts next (c :: s.before) r else none
  | fewest accepts, s => Spot.overFewest accepts next s.before s.after
  | wordEdge, s => if s.atEdge then next s else none
  | group name p, s => run (fun e => (next e).map fun found => (found.1, ⟨name, s, e⟩ :: found.2)) p s

/-! Shorthands. -/

def optional (p : Pattern) : Pattern := either p nothing

def times : Nat → Pattern → Pattern
  | 0, _ => nothing
  | n + 1, p => seq p (times n p)

def inOrder : List Pattern → Pattern
  | [] => nothing
  | [p] => p
  | p :: ps => seq p (inOrder ps)

def blanks : Pattern := most Text.isBlank

def blanks1 : Pattern := most1 Text.isBlank

end Pattern

/-- A match splits its text in three: what stands before it, the match, what stands after. -/
structure Match where
  start : Spot
  stop : Spot
  captures : List Capture
deriving DecidableEq, Repr

namespace Match

def text (m : Match) : Text := m.start.upTo m.stop

def named? (m : Match) (name : Text) : Option Text :=
  (m.captures.find? (·.name = some name)).map Capture.text

def named (m : Match) (name : Text) : Text := (m.named? name).getD []

def splice (m : Match) (new : Text) : Text := m.start.before.reverse ++ new ++ m.stop.after

end Match

namespace Pattern

def matchAt? (p : Pattern) (s : Spot) : Option Match :=
  (p.run (fun e => some (e, [])) s).map fun found => ⟨s, found.1, found.2⟩

def opening? : Pattern → Option (CodePoint → Bool)
  | most1 accepts => some accepts
  | seq p _ => p.opening?
  | group _ p => p.opening?
  | _ => none

/-- How many places behind one that failed, before `c`, fail as well: those in the same run, as what could follow the
shorter run was tried behind the longer one. -/
def hopeless (p : Pattern) (c : CodePoint) (r : Text) : Nat :=
  match p.opening? with
  | some accepts => if accepts c then (r.takeWhile accepts).length else 0
  | none => 0

/-- Searches from a place on, but for the next `skip` places. -/
def searchFrom? (p : Pattern) : (skip : Nat) → (before after : Text) → Option Match
  | 0, b, [] => p.matchAt? ⟨b, []⟩
  | _ + 1, _, [] => none
  | 0, b, c :: r => p.matchAt? ⟨b, c :: r⟩ <|> searchFrom? p (p.hopeless c r) (c :: b) r
  | skip + 1, b, c :: r => searchFrom? p skip (c :: b) r

def search? (p : Pattern) (t : Text) : Option Match := p.searchFrom? 0 [] t

/-- The matches from a place on, but for the next `skip` places, as those that belong to the match before. -/
def matchesFrom (p : Pattern) : (skip : Nat) → (before after : Text) → List Match
  | 0, b, [] => (p.matchAt? ⟨b, []⟩).toList
  | _ + 1, _, [] => []
  | 0, b, c :: r =>
    match p.matchAt? ⟨b, c :: r⟩ with
    | some m => m :: matchesFrom p (m.text.length - 1) (c :: b) r
    | none => matchesFrom p (p.hopeless c r) (c :: b) r
  | skip + 1, b, c :: r => matchesFrom p skip (c :: b) r

def findAll (p : Pattern) (t : Text) : List Match := p.matchesFrom 0 [] t

def count (p : Pattern) (t : Text) : Nat := (p.findAll t).length

theorem overMost_eq_none_congr {next next' : Spot → Option α} (h : ∀ s, next s = none ↔ next' s = none)
    (accepts : CodePoint → Bool) (b a : Text) :
    Spot.overMost accepts next b a = none ↔ Spot.overMost accepts next' b a = none := by
  induction a generalizing b with
  | nil => exact h _
  | cons c r ih => by_cases hc : accepts c <;> simp [Spot.overMost, hc, h, ih]

theorem overFewest_eq_none_congr {next next' : Spot → Option α} (h : ∀ s, next s = none ↔ next' s = none)
    (accepts : CodePoint → Bool) (b a : Text) :
    Spot.overFewest accepts next b a = none ↔ Spot.overFewest accepts next' b a = none := by
  induction a generalizing b with
  | nil => exact h _
  | cons c r ih => by_cases hc : accepts c <;> simp [Spot.overFewest, hc, h, ih]

/-- Whether a pattern matches depends on what follows it only as far as that leads on. -/
theorem run_eq_none_congr {next next' : Spot → Option (Spot × List Capture)}
    (h : ∀ s, next s = none ↔ next' s = none) (p : Pattern) (s : Spot) :
    run next p s = none ↔ run next' p s = none := by
  induction p generalizing next next' s with
  | nothing => exact h s
  | exactly t => cases ht : s.past? t <;> simp [run, ht, h]
  | one accepts =>
    cases ha : s.after with
    | nil => simp [run, ha]
    | cons c r => by_cases hc : accepts c <;> simp [run, ha, hc, h]
  | seq p q ihp ihq => exact ihp (fun s => ihq h s) s
  | either p q ihp ihq => simp [run, ihp h s, ihq h s]
  | most accepts => exact overMost_eq_none_congr h accepts s.before s.after
  | most1 accepts =>
    cases ha : s.after with
    | nil => simp [run, ha]
    | cons c r => by_cases hc : accepts c <;> simp [run, ha, hc, overMost_eq_none_congr h]
  | fewest accepts => exact overFewest_eq_none_congr h accepts s.before s.after
  | wordEdge => by_cases hs : s.atEdge <;> simp [run, hs, h]
  | group name p ih => exact ih (fun e => by simp [h]) s

theorem run_eq_none_of_opening {p : Pattern} {accepts : CodePoint → Bool} (ho : p.opening? = some accepts)
    {next : Spot → Option (Spot × List Capture)} {b r : Text} {c d : CodePoint} (hc : accepts c) (hd : accepts d)
    (h : run next p ⟨b, c :: d :: r⟩ = none) : run next p ⟨c :: b, d :: r⟩ = none := by
  induction p generalizing next with
  | most1 f =>
    cases ho
    simp [run, hc, hd, Spot.overMost] at h ⊢
    exact h.1
  | seq p q ihp _ => exact ihp ho h
  | group name p ih =>
    refine (run_eq_none_congr (fun e => ?_) p _).1 (ih ho h)
    simp
  | _ => simp [opening?] at ho

theorem matchAt?_eq_none_of_opening {p : Pattern} {accepts : CodePoint → Bool} (ho : p.opening? = some accepts)
    {b r : Text} {c d : CodePoint} (hc : accepts c) (hd : accepts d)
    (h : p.matchAt? ⟨b, c :: d :: r⟩ = none) : p.matchAt? ⟨c :: b, d :: r⟩ = none := by
  simp only [matchAt?, Option.map_eq_none_iff] at h ⊢
  exact run_eq_none_of_opening ho hc hd h

theorem hopeless_cons {p : Pattern} {b r : Text} {c d : CodePoint} (h : p.matchAt? ⟨b, c :: d :: r⟩ = none) :
    p.hopeless c (d :: r) = 0 ∨
      p.hopeless c (d :: r) = p.hopeless d r + 1 ∧ p.matchAt? ⟨c :: b, d :: r⟩ = none := by
  cases ho : p.opening? with
  | none => simp [hopeless, ho]
  | some accepts =>
    by_cases hc : accepts c <;> by_cases hd : accepts d <;> simp [hopeless, ho, hc, hd]
    exact matchAt?_eq_none_of_opening ho hc hd h

theorem hopeless_nil (p : Pattern) (c : CodePoint) : p.hopeless c [] = 0 := by
  cases ho : p.opening? <;> simp [hopeless, ho]

theorem searchFrom?_cons (p : Pattern) (b r : Text) (c : CodePoint) :
    p.searchFrom? 0 b (c :: r) = (p.matchAt? ⟨b, c :: r⟩ <|> p.searchFrom? 0 (c :: b) r) := by
  cases h : p.matchAt? ⟨b, c :: r⟩ with
  | some m => simp [searchFrom?, h]
  | none =>
    cases r with
    | nil => simp [searchFrom?, h, hopeless_nil]
    | cons d r =>
      rcases hopeless_cons h with hk | ⟨hk, hd⟩
      · simp [searchFrom?, h, hk]
      · simp [searchFrom?, h, hk, hd]

theorem matchesFrom_cons (p : Pattern) (b r : Text) (c : CodePoint) :
    p.matchesFrom 0 b (c :: r) =
      match p.matchAt? ⟨b, c :: r⟩ with
      | some m => m :: p.matchesFrom (m.text.length - 1) (c :: b) r
      | none => p.matchesFrom 0 (c :: b) r := by
  cases h : p.matchAt? ⟨b, c :: r⟩ with
  | some m => simp [matchesFrom, h]
  | none =>
    cases r with
    | nil => simp [matchesFrom, h, hopeless_nil]
    | cons d r =>
      rcases hopeless_cons h with hk | ⟨hk, hd⟩
      · simp [matchesFrom, h, hk]
      · simp [matchesFrom, h, hk, hd]

theorem head?_matchesFrom (p : Pattern) (skip : Nat) (b a : Text) :
    (p.matchesFrom skip b a).head? = p.searchFrom? skip b a := by
  induction a generalizing skip b with
  | nil =>
    cases skip with
    | zero => cases h : p.matchAt? ⟨b, []⟩ <;> simp [matchesFrom, searchFrom?, h]
    | succ skip => rfl
  | cons c r ih =>
    cases skip with
    | zero => cases h : p.matchAt? ⟨b, c :: r⟩ <;> simp [matchesFrom, searchFrom?, h, ih]
    | succ skip => exact ih skip (c :: b)

theorem head?_findAll (p : Pattern) (t : Text) : (p.findAll t).head? = p.search? t :=
  head?_matchesFrom p 0 [] t

end Pattern
end Rehost
