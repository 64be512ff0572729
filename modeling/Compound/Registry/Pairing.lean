import Compound.Failure
import Compound.Object

/-!
The one-to-one pairing of boxes with the objects whose identity they preserve, kept in
both directions. A pair outlives its box until it is reclaimed, so whether a box is
alive has to be asked of the heap.
-/
namespace Compound

structure Pairing where
  /-- The value of each box. -/
  values : Table ObjectId ObjectId
  /-- The box of each value. -/
  boxes : Table ObjectId ObjectId
  deriving DecidableEq

namespace Pairing

def empty : Pairing := ⟨.empty, .empty⟩

def size (p : Pairing) : Nat := p.values.size

/-- The value in a box. -/
def value? (p : Pairing) (box : ObjectId) : Option ObjectId := p.values.get? box

def hasBox (p : Pairing) (box : ObjectId) : Bool := p.values.contains box

/-- The box of a value, if it is alive. -/
def livingBox? (p : Pairing) (alive : ObjectId → Bool) (value : ObjectId) : Option ObjectId :=
  (p.boxes.get? value).filter fun box => p.hasBox box && alive box

def insert (p : Pairing) (box value : ObjectId) : Pairing :=
  ⟨p.values.put box value, p.boxes.put value box⟩

/-- Take the pair of a box out. The value stays in the other direction if that leads to
another box. -/
def remove (p : Pairing) (box : ObjectId) : Option ObjectId × Pairing :=
  match p.values.get? box with
  | none => (none, p)
  | some value =>
    (some value,
      ⟨p.values.erase box,
        if p.boxes.get? value = some box then p.boxes.erase value else p.boxes⟩)

/-- Take the pairs of some boxes out, and tell the values they had. -/
def removeAll (p : Pairing) : List ObjectId → List ObjectId × Pairing
  | [] => ([], p)
  | box :: rest =>
    let (value, p) := p.remove box
    let (values, p) := removeAll p rest
    (value.toList ++ values, p)

/-- The answer to a pair that may be joined. -/
inductive Verdict where
  /-- It is here already. -/
  | known
  /-- It may join these pairs. The pair of a dead box of the value was in the way; its
  value is let go. -/
  | fresh (pairs : Pairing) (released : Option ObjectId)

/-- Whether a pair may be joined. The box is judged before the value. -/
def judge (p : Pairing) (alive : ObjectId → Bool) (box value : ObjectId) :
    Except Unpairable Verdict :=
  match p.values.get? box with
  | some held => if held = value then .ok .known else .error .boxTaken
  | none =>
    match p.boxes.get? value with
    | none => .ok (.fresh p none)
    | some previous =>
      if p.hasBox previous && alive previous then .error .valueTaken
      else
        let (released, p) := p.remove previous
        .ok (.fresh p released)

end Pairing

end Compound
