import Compound.Key

/-!
Property slots. A data slot stores a value; an accessor slot has no storage of its own
and answers through a getter and a setter. Three flags say what may still be done.
-/
namespace Compound

inductive Slot where
  | data (value : Value) (writable enumerable configurable : Bool)
  | accessor (get set : Option ObjectId) (enumerable configurable : Bool)
  deriving DecidableEq, Repr

namespace Slot

/-- The slot that an assignment creates. -/
def plain (v : Value) : Slot := data v true true true

def isEnumerable : Slot → Bool
  | data _ _ e _ => e
  | accessor _ _ e _ => e

def isConfigurable : Slot → Bool
  | data _ _ _ c => c
  | accessor _ _ _ c => c

def isWritable : Slot → Bool
  | data _ w _ _ => w
  | accessor .. => false

def isAccessor : Slot → Bool
  | data .. => false
  | accessor .. => true

/-- The slot as it is after freezing: nothing about it may change any more. -/
def frozen : Slot → Slot
  | data v _ e _ => data v false e false
  | accessor g s e _ => accessor g s e false

/-- The objects that a slot keeps alive, the getter before the setter. -/
def references : Slot → List ObjectId
  | data v _ _ _ => v.references
  | accessor g s _ _ => g.toList ++ s.toList

@[simp] theorem isConfigurable_frozen (s : Slot) : s.frozen.isConfigurable = false := by
  cases s <;> rfl

@[simp] theorem isWritable_frozen (s : Slot) : s.frozen.isWritable = false := by
  cases s <;> rfl

@[simp] theorem references_frozen (s : Slot) : s.frozen.references = s.references := by
  cases s <;> rfl

end Slot

end Compound
