import Rehost.Text.CodePoint

/-! Texts are lists of code points, so that every operation on them is a recursion over the list. Replacing and counting
skip over an occurrence once it is found, hence occurrences never overlap. -/
namespace Rehost

abbrev Text := List CodePoint

namespace Text

@[coe] def ofString (s : String) : Text := s.toList.map CodePoint.ofChar

instance : Coe String Text := ⟨ofString⟩

/-- A text for a stream that takes characters only: a half shows as the replacement character. -/
def toString (t : Text) : String := String.ofList (t.map fun c => if c.isHalf then '\ufffd' else Char.ofNat c.number)

def past? : (p : Text) → Text → Option Text
  | [], t => some t
  | _ :: _, [] => none
  | a :: p, b :: t => if a = b then past? p t else none

def before? (needle : Text) : Text → Option Text
  | [] => if needle.isEmpty then some [] else none
  | c :: t => if needle.isPrefixOf (c :: t) then some [] else (before? needle t).map (c :: ·)

/-- Replaces in the rest of a text of which `skip` characters belong to an occurrence already replaced. -/
def replaceFrom (needle new : Text) : (skip : Nat) → Text → Text
  | _, [] => []
  | skip + 1, _ :: t => replaceFrom needle new skip t
  | 0, c :: t =>
    if needle.isPrefixOf (c :: t) then new ++ replaceFrom needle new (needle.length - 1) t
    else c :: replaceFrom needle new 0 t

/-- Every occurrence of `needle`, from the left and without overlaps, becomes `new`. -/
def replace (needle new t : Text) : Text := replaceFrom needle new 0 t

def countFrom (needle : Text) : (skip : Nat) → Text → Nat
  | _, [] => 0
  | skip + 1, _ :: t => countFrom needle skip t
  | 0, c :: t =>
    if needle.isPrefixOf (c :: t) then countFrom needle (needle.length - 1) t + 1
    else countFrom needle 0 t

def count (needle t : Text) : Nat := countFrom needle 0 t

/-- Cuts at every `mark`; there is always one piece more than there are marks. -/
def splitAt (mark : CodePoint) : Text → List Text
  | [] => [[]]
  | c :: t =>
    match splitAt mark t with
    | [] => []
    | piece :: rest => if c = mark then [] :: piece :: rest else (c :: piece) :: rest

def join (mark : Text) : List Text → Text
  | [] => []
  | [piece] => piece
  | piece :: rest => piece ++ mark ++ join mark rest

def spaces (count : Nat) : Text := List.replicate count ' '

def dropLineEnd (t : Text) : Text := if t.getLast? = some ('\n' : CodePoint) then t.dropLast else t

theorem past?_eq_some_iff {p t r : Text} : past? p t = some r ↔ t = p ++ r := by
  induction p generalizing t with
  | nil => simp [past?]
  | cons a p ih =>
    cases t with
    | nil => simp [past?]
    | cons b t => by_cases h : a = b <;> simp [past?, h, ih, eq_comm]

@[simp] theorem replace_nil (needle new : Text) : replace needle new [] = [] := rfl

@[simp] theorem count_nil (needle : Text) : count needle [] = 0 := rfl

theorem splitAt_ne_nil (mark : CodePoint) (t : Text) : splitAt mark t ≠ [] := by
  induction t with
  | nil => simp [splitAt]
  | cons c t ih =>
    simp only [splitAt]
    split
    · contradiction
    · split <;> simp

theorem join_splitAt (mark : CodePoint) (t : Text) : join [mark] (splitAt mark t) = t := by
  induction t with
  | nil => rfl
  | cons c t ih =>
    cases h : splitAt mark t with
    | nil => exact absurd h (splitAt_ne_nil mark t)
    | cons piece rest =>
      rw [h] at ih
      by_cases hc : c = mark
      · simp [splitAt, h, hc, join, ih]
      · cases rest <;> simp_all [splitAt, join]

end Text
end Rehost
