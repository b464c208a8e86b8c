import Rehost.Proofs.Script.Replacement
import Rehost.Settings.Basic
import Rehost.Text.Digit

/-! String literals of a script, and the one that tells the socket its origin. The rule writes an origin between the
quotes as it is. A literal is never shorter than the string that it stands for, and just as long only where it holds no
escape, so the origin is read back exactly where none of its characters ends, breaks or escapes. -/
namespace Rehost

namespace StringLiteral
open Text (hexValue? hexNumber?)

/-- The 16-bit units of a code point, which is what the strings of a script are made of. -/
def unitsOf (c : CodePoint) : List Nat :=
  if c.number < 0x10000 then [c.number]
  else [0xd800 + (c.number - 0x10000) / 0x400, 0xdc00 + (c.number - 0x10000) % 0x400]

def units (t : Text) : List Nat := t.flatMap unitsOf

/-- What an escape stands for, and how many characters behind its backslash belong to it. -/
structure Escape where
  value : List Nat
  length : Nat
deriving DecidableEq, Repr

def controls : List (CodePoint × Nat) := [('b', 8), ('t', 9), ('n', 10), ('v', 11), ('f', 12), ('r', 13)]

def hexDigits? (count : Nat) (t : Text) : Option Nat :=
  if (t.take count).length = count then hexNumber? (t.take count) else none

def braced? (t : Text) : Option Escape :=
  let digits := t.takeWhile fun c => (hexValue? c).isSome
  match hexNumber? digits, t.drop digits.length with
  | some n, c :: _ =>
    if !digits.isEmpty && n < 0x110000 && c = '\x7d' then some ⟨unitsOf (.ofNat n), digits.length + 3⟩ else none
  | _, _ => none

def isOctal (c : CodePoint) : Bool := ('0' : CodePoint) ≤ c && c ≤ ('7' : CodePoint)

/-- Octal digits behind a first one, as many as keep the number below 256. -/
def octal (first : CodePoint) (t : Text) : Escape :=
  let digits := first :: (t.take (if first ≤ '3' then 2 else 1)).takeWhile isOctal
  ⟨[digits.foldl (fun n c => 8 * n + (c.number - 48)) 0], digits.length⟩

/-- The escape behind a backslash. A line end is dropped with its backslash; what has no meaning of its own as an escape
stands for itself. -/
def escape? : Text → Option Escape
  | [] => none
  | c :: t =>
    if c = 'x' then (hexDigits? 2 t).map fun n => ⟨[n], 3⟩
    else if c = 'u' then
      if t.head? = some ('\x7b' : CodePoint) then braced? (t.drop 1) else (hexDigits? 4 t).map fun n => ⟨[n], 5⟩
    else if isOctal c then some (octal c t)
    else if c = '\r' then some ⟨[], if t.head? = some ('\n' : CodePoint) then 2 else 1⟩
    else if c = '\n' || c.number = 0x2028 || c.number = 0x2029 then some ⟨[], 1⟩
    else
      match controls.find? (·.1 = c) with
      | some control => some ⟨[control.2], 1⟩
      | none => some ⟨unitsOf c, 1⟩

abbrev quote : CodePoint := '"'

/-- Reads up to the first quote that is not escaped, where `skip` characters belong to an escape already read. A line
feed or a carriage return breaks a literal, the separators U+2028 and U+2029 do not. -/
def readFrom : (skip : Nat) → Text → Option (List Nat × Text)
  | _, [] => none
  | skip + 1, _ :: t => readFrom skip t
  | 0, c :: t =>
    if c = quote then some ([], t)
    else if c = '\n' || c = '\r' then none
    else if c = '\\' then (escape? t).bind fun e => (readFrom e.length t).map fun r => (e.value ++ r.1, r.2)
    else (readFrom 0 t).map fun r => (unitsOf c ++ r.1, r.2)

def read? : Text → Option (List Nat × Text)
  | [] => none
  | c :: t => if c = quote then readFrom 0 t else none

def isPlain (c : CodePoint) : Bool := c ≠ quote && c ≠ '\\' && c ≠ '\n' && c ≠ '\r'

@[simp] theorem units_nil : units [] = [] := rfl

@[simp] theorem units_cons (c : CodePoint) (t : Text) : units (c :: t) = unitsOf c ++ units t := rfl

theorem units_append (s t : Text) : units (s ++ t) = units s ++ units t := List.flatMap_append

theorem length_unitsOf (c : CodePoint) : 1 ≤ (unitsOf c).length ∧ (unitsOf c).length ≤ 2 := by
  unfold unitsOf
  split <;> simp

theorem length_le_units (t : Text) : t.length ≤ (units t).length := by
  induction t with
  | nil => simp
  | cons c t ih =>
    have hc := (length_unitsOf c).1
    simp only [units_cons, List.length_append, List.length_cons]
    omega

/-- An escape stands in the text that it was read from, and is longer with its backslash than what it stands for. -/
structure Escape.Shrinks (e : Escape) (t : Text) : Prop where
  length_le : e.length ≤ t.length
  value_le : e.value.length ≤ (units (t.take e.length)).length

theorem Escape.shrinks_of_length {e : Escape} {t : Text} (hle : e.length ≤ t.length)
    (hvalue : e.value.length ≤ e.length) : e.Shrinks t where
  length_le := hle
  value_le := by
    have hunits := length_le_units (t.take e.length)
    rw [List.length_take, min_eq_left hle] at hunits
    exact hvalue.trans hunits

theorem shrinks_hexDigits {count n : Nat} {t : Text} (h : hexDigits? count t = some n) (c : CodePoint) :
    Escape.Shrinks ⟨[n], count + 1⟩ (c :: t) := by
  unfold hexDigits? at h
  split at h
  · next hlength =>
    rw [List.length_take] at hlength
    refine Escape.shrinks_of_length ?_ (by simp)
    simp only [List.length_cons]
    omega
  · contradiction

theorem shrinks_braced {t : Text} {e : Escape} (h : braced? t = some e) (c b : CodePoint) : e.Shrinks (c :: b :: t) := by
  unfold braced? at h
  simp only at h
  split at h
  · next n d rest hnumber hdrop =>
    split at h
    · obtain rfl := Option.some.inj h
      have hlength := congrArg List.length hdrop
      have hunits := (length_unitsOf (.ofNat n)).2
      simp only [List.length_drop, List.length_cons] at hlength
      refine Escape.shrinks_of_length ?_ ?_
      · simp only [List.length_cons]
        omega
      · simp only
        omega
    · contradiction
  · contradiction

theorem shrinks_octal (c : CodePoint) (t : Text) : (octal c t).Shrinks (c :: t) := by
  unfold octal
  have hdigits := (List.takeWhile_prefix (l := t.take (if c ≤ '3' then 2 else 1)) isOctal).length_le
  rw [List.length_take] at hdigits
  refine Escape.shrinks_of_length ?_ (by simp)
  simp only [List.length_cons]
  omega

theorem shrinks_escape {t : Text} {e : Escape} (h : escape? t = some e) : e.Shrinks t := by
  cases t with
  | nil => contradiction
  | cons c t =>
    rw [escape?] at h
    split at h
    · obtain ⟨n, hn, rfl⟩ := Option.map_eq_some_iff.1 h
      exact shrinks_hexDigits hn c
    split at h
    · split at h
      · cases t with
        | nil => contradiction
        | cons b t => exact shrinks_braced h c b
      · obtain ⟨n, hn, rfl⟩ := Option.map_eq_some_iff.1 h
        exact shrinks_hexDigits hn c
    split at h
    · obtain rfl := Option.some.inj h
      exact shrinks_octal c t
    split at h
    · obtain rfl := Option.some.inj h
      refine Escape.shrinks_of_length ?_ (by simp)
      cases t with
      | nil => simp
      | cons b t => simp only [List.length_cons]; split <;> omega
    split at h
    · obtain rfl := Option.some.inj h
      exact Escape.shrinks_of_length (by simp) (by simp)
    split at h
    · obtain rfl := Option.some.inj h
      exact Escape.shrinks_of_length (by simp) (by simp)
    · obtain rfl := Option.some.inj h
      exact ⟨by simp, by simp⟩

/-- What is read from a literal stands in front of a quote and is no longer than what it was read from; if it is just as
long, the literal holds nothing but characters as they are. -/
theorem readFrom_shrinks {skip : Nat} {t rest : Text} {value : List Nat} (h : readFrom skip t = some (value, rest)) :
    ∃ body : Text, t = body ++ quote :: rest ∧ skip ≤ body.length ∧
      value.length ≤ (units (body.drop skip)).length ∧
      (value.length = (units (body.drop skip)).length → ∀ c ∈ body.drop skip, isPlain c = true) := by
  induction t generalizing skip value with
  | nil => simp [readFrom] at h
  | cons c t ih =>
    cases skip with
    | succ skip =>
      obtain ⟨body, rfl, hskip, hle, hplain⟩ := ih h
      exact ⟨c :: body, rfl, by simpa using hskip, hle, hplain⟩
    | zero =>
      rw [readFrom] at h
      split at h
      · next hquote =>
        obtain ⟨rfl, rfl⟩ := Prod.mk.inj (Option.some.inj h)
        exact ⟨[], by simp [hquote], by simp, by simp, by simp⟩
      next hquote =>
      split at h
      · contradiction
      next hbreak =>
      split at h
      · obtain ⟨e, he, h⟩ := Option.bind_eq_some_iff.1 h
        obtain ⟨⟨value', _⟩, hread, heq⟩ := Option.map_eq_some_iff.1 h
        obtain ⟨rfl, rfl⟩ := Prod.mk.inj heq
        obtain ⟨body, rfl, hskip, hle, -⟩ := ih hread
        have hshorter := (shrinks_escape he).value_le
        rw [List.take_append_of_le_length hskip] at hshorter
        have hsplit : (units body).length = (units (body.take e.length)).length + (units (body.drop e.length)).length := by
          rw [← List.length_append, ← units_append, List.take_append_drop]
        have hc := (length_unitsOf c).1
        -- The backslash itself is the unit by which an escape is longer than what it stands for.
        refine ⟨c :: body, rfl, by simp, ?_, fun heq => absurd heq ?_⟩
        · simp only [List.drop_zero, units_cons, List.length_append]
          omega
        · simp only [List.drop_zero, units_cons, List.length_append]
          omega
      next hescape =>
      obtain ⟨⟨value', _⟩, hread, heq⟩ := Option.map_eq_some_iff.1 h
      obtain ⟨rfl, rfl⟩ := Prod.mk.inj heq
      obtain ⟨body, rfl, -, hle, hplain⟩ := ih hread
      rw [List.drop_zero] at hle hplain
      have hc : isPlain c = true := by
        simp only [Bool.or_eq_true, decide_eq_true_eq, not_or] at hbreak
        simp [isPlain, hquote, hescape, hbreak]
      refine ⟨c :: body, rfl, by simp, ?_, fun heq => ?_⟩
      · simpa using hle
      · simp only [List.drop_zero, units_cons, List.length_append, Nat.add_left_cancel_iff] at heq
        exact List.forall_mem_cons.2 ⟨hc, hplain heq⟩

theorem readFrom_plain {t : Text} (h : ∀ c ∈ t, isPlain c = true) (rest : Text) :
    readFrom 0 (t ++ quote :: rest) = some (units t, rest) := by
  induction t with
  | nil => simp [readFrom]
  | cons c t ih =>
    obtain ⟨hc, ht⟩ := List.forall_mem_cons.1 h
    simp only [isPlain, Bool.and_eq_true, decide_eq_true_eq] at hc
    obtain ⟨⟨⟨hquote, hescape⟩, hfeed⟩, hreturn⟩ := hc
    rw [List.cons_append, readFrom, ih ht]
    simp [hquote, hescape, hfeed, hreturn]

theorem read_quoted_iff (t rest : Text) :
    read? (quote :: (t ++ quote :: rest)) = some (units t, rest) ↔ ∀ c ∈ t, isPlain c = true := by
  have hread : read? (quote :: (t ++ quote :: rest)) = readFrom 0 (t ++ quote :: rest) := by simp [read?]
  rw [hread]
  refine ⟨fun h => ?_, fun h => readFrom_plain h rest⟩
  obtain ⟨body, heq, -, -, hplain⟩ := readFrom_shrinks h
  obtain rfl : t = body := List.append_cancel_right heq
  rw [List.drop_zero] at hplain
  exact hplain rfl

end StringLiteral

namespace Rule

def afterOrigin : Text := "\x7d, agent: proxyAgent\x7d)"

/-- Behind `before` the result tells the origin: a literal whose string is the origin, and then the rest of the call. -/
def Announces (before origin behind result : Text) : Prop :=
  ∃ literal, result = before ++ literal ∧
    StringLiteral.read? literal = some (StringLiteral.units origin, afterOrigin ++ behind)

def beforeOrigin (m : Match) : Text :=
  m.start.before.reverse ++ "new WebSocket(" ++ m.named "args" ++ ", \x7bheaders:\x7borigin: "

theorem apply_openSocket {t : Text} {m : Match} (h : Landmark.socket.search? t = some m) (origin : Text) :
    openSocket.apply origin t =
      .ok (beforeOrigin m ++ StringLiteral.quote :: (origin ++ StringLiteral.quote ::
          (afterOrigin ++ (m.named "tail" ++ m.stop.after))), Landmark.socket.count t) := by
  rw [apply_of_search? h]
  simp [openSocket, socketOptions, slots, Match.splice, beforeOrigin, afterOrigin, Text.ofString]

/-- Opening the socket tells it the origin as that very string exactly where the origin holds no quote, no backslash and
no line break. -/
theorem openSocket_announces_iff {t : Text} {m : Match} (h : Landmark.socket.search? t = some m) (origin : Text) :
    ∃ result, openSocket.apply origin t = .ok (result, Landmark.socket.count t) ∧
      (Announces (beforeOrigin m) origin (m.named "tail" ++ m.stop.after) result ↔
        ∀ c ∈ origin, StringLiteral.isPlain c = true) := by
  refine ⟨_, apply_openSocket h origin, ?_⟩
  rw [← StringLiteral.read_quoted_iff origin (afterOrigin ++ (m.named "tail" ++ m.stop.after))]
  constructor
  · rintro ⟨literal, heq, hread⟩
    rwa [List.append_cancel_left heq]
  · exact fun hread => ⟨_, rfl, hread⟩

def socketScript : Text := "new WebSocket(u);"

theorem openSocket_announces_defaultOrigin : ∃ m, Landmark.socket.search? socketScript = some m ∧
    ∃ result, openSocket.apply defaultOrigin socketScript = .ok (result, 1) ∧
      Announces (beforeOrigin m) defaultOrigin (m.named "tail" ++ m.stop.after) result := by
  obtain ⟨m, hm⟩ : ∃ m, Landmark.socket.search? socketScript = some m := ⟨_, rfl⟩
  obtain ⟨result, happly, hannounces⟩ := openSocket_announces_iff hm defaultOrigin
  exact ⟨m, hm, result, happly, hannounces.2 (by decide)⟩

/-- An origin with a quote in it is a setting like any other, but the literal ends at that quote. -/
theorem not_always_announced : ¬ ∀ (origin t : Text) (m : Match), Settings.originOf (.text origin) = .ok origin →
    Landmark.socket.search? t = some m → ∃ result n, openSocket.apply origin t = .ok (result, n) ∧
      Announces (beforeOrigin m) origin (m.named "tail" ++ m.stop.after) result := by
  intro h
  obtain ⟨m, hm⟩ : ∃ m, Landmark.socket.search? socketScript = some m := ⟨_, rfl⟩
  obtain ⟨result, n, happly, literal, hresult, hread⟩ := h "a\"b" socketScript m rfl hm
  rw [apply_openSocket hm] at happly
  obtain ⟨rfl, -⟩ := Prod.mk.inj (Except.ok.inj happly)
  rw [← List.append_cancel_left hresult, StringLiteral.read_quoted_iff] at hread
  exact absurd hread (by decide)

end Rule
end Rehost
