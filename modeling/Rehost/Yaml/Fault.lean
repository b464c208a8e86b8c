import Rehost.Text.Basic

/-! What can be wrong with a YAML text. A scalar that looks like a number or a time and is none is told apart from a
text that is no document at all, because only the latter is a fault of form; so is what lies too deep to be reached. -/
namespace Rehost.Yaml

inductive Fault where
  | malformed (detail : Text)
  /-- A number without any digit position. -/
  | emptyNumber
  | badNumber
  /-- A character escape with a number that no character has. -/
  | badCharacter (number : Nat)
  | badTruth
  /-- A text tagged as a time that is not written like one. -/
  | notATime
  /-- A time written like one that no calendar or clock has. -/
  | badTime
  /-- A time for which a mapping stands by its default. -/
  | timeOfMapping
  /-- A number with more parts to the base sixty than a fraction can have. -/
  | tooLarge
  /-- Collections, merges or defaults that lie too deep in each other. -/
  | tooDeep
deriving DecidableEq, Repr

def Fault.message : Fault → Text
  | malformed detail => detail
  | emptyNumber => "a number without digits"
  | badNumber => "not a number"
  | badCharacter _ => "no such character"
  | badTruth => "not a truth value"
  | notATime => "not a time"
  | badTime => "no such time"
  | timeOfMapping => "a mapping where the text of a time should be"
  | tooLarge => "a number that is too large"
  | tooDeep => "too deep"

def Fault.kind : Fault → Text
  | emptyNumber => "IndexError"
  | badTruth => "KeyError"
  | notATime => "AttributeError"
  | timeOfMapping => "TypeError"
  | tooLarge => "OverflowError"
  | tooDeep => "RecursionError"
  | badCharacter number => if number > 0x7fffffff then "OverflowError" else "ValueError"
  | malformed _ | badNumber | badTime => "ValueError"

/-- How many digits a number may have to a base that is no power of two. -/
def mostDigits : Nat := 4300

structure Room where
  /-- How deep collections may stand in each other. -/
  collections : Nat
  /-- How many mappings defaults and merges may lead on. -/
  links : Nat

end Rehost.Yaml
