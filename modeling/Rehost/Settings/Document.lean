import Rehost.Text.Basic

/-! What settings need of a document: whether it is a mapping, and for its keys and values which are texts, which are
nothing, and of what kind the others are. Which document a text is a host says. -/
namespace Rehost.Settings

inductive Datum where
  | null
  | text (s : Text)
  /-- Anything else, by the name of its kind. -/
  | other (kind : Text)
deriving DecidableEq, Repr, Inhabited

inductive Document where
  | nothing
  | mapping (entries : List (Datum × Datum))
  | other
deriving DecidableEq, Repr

/-- Why a text is no document: by its form, or because reading it failed in some other way. -/
inductive Unreadable where
  | malformed (detail : Text)
  | failed (kind message : Text)
deriving DecidableEq, Repr

end Rehost.Settings
