import Rehost.Text.Basic

/-! Entries in the order in which their keys were first written. Writing a key again replaces its value and keeps its
place. -/
namespace Rehost

abbrev Table (α : Type) := List (Text × α)

namespace Table

def get? (key : Text) : Table α → Option α
  | [] => none
  | (k, v) :: t => if k = key then some v else get? key t

def put (key : Text) (value : α) : Table α → Table α
  | [] => [(key, value)]
  | (k, v) :: t => if k = key then (k, value) :: t else (k, v) :: put key value t

def keys (t : Table α) : List Text := t.map Prod.fst

/-- Writes the entries one after another, so of two with one key the later value stays. -/
def ofList (entries : List (Text × α)) : Table α := entries.foldl (fun t e => t.put e.1 e.2) []

/-- By key, code point by code point; entries with one key keep their order. -/
def sorted (t : Table α) : Table α := t.mergeSort fun a b => decide (a.1 ≤ b.1)

@[simp] theorem get?_nil (key : Text) : get? key ([] : Table α) = none := rfl

@[simp] theorem get?_put (key k : Text) (value : α) (t : Table α) :
    get? k (put key value t) = if key = k then some value else get? k t := by
  induction t with
  | nil => simp [put, get?]
  | cons e t ih =>
    obtain ⟨k', v⟩ := e
    by_cases h : k' = key
    · subst h; by_cases hk : k' = k <;> simp [put, get?, hk]
    · by_cases hk : key = k
      · subst hk; simp [put, get?, h, ih]
      · simp [put, get?, h, ih, hk]

theorem keys_put (key : Text) (value : α) (t : Table α) :
    keys (put key value t) = if key ∈ keys t then keys t else keys t ++ [key] := by
  induction t with
  | nil => simp [put, keys]
  | cons e t ih =>
    obtain ⟨k, v⟩ := e
    by_cases h : k = key
    · simp [put, keys, h]
    · have h' : key ≠ k := fun e => h e.symm
      simp only [keys] at ih
      by_cases hm : key ∈ t.map Prod.fst <;> simp_all [put, keys]

end Table
end Rehost
