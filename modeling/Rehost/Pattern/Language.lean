import Rehost.Pattern.Basic

/-! The words that a pattern denotes, whatever stands around them. The order in which a search tries its ways does not
show here, so this is the measure of a search: it finds nothing exactly where no word is. -/
namespace Rehost.Pattern

def Denotes : Pattern → Text → Prop
  | nothing, w => w = []
  | exactly t, w => w = t
  | one accepts, w => ∃ c, accepts c = true ∧ w = [c]
  | seq p q, w => ∃ u v, w = u ++ v ∧ Denotes p u ∧ Denotes q v
  | either p q, w => Denotes p w ∨ Denotes q w
  | most accepts, w => ∀ c ∈ w, accepts c = true
  | most1 accepts, w => w ≠ [] ∧ ∀ c ∈ w, accepts c = true
  | fewest accepts, w => ∀ c ∈ w, accepts c = true
  | wordEdge, w => w = []
  | group _ p, w => Denotes p w

/-- A pattern without word edges matches by its words alone. -/
def isEdgeFree : Pattern → Bool
  | seq p q => p.isEdgeFree && q.isEdgeFree
  | either p q => p.isEdgeFree && q.isEdgeFree
  | wordEdge => false
  | group _ p => p.isEdgeFree
  | _ => true

end Rehost.Pattern
