import Compound.Host.Basic

/-!
Own properties without calls: looking slots up, writing and defining them, and the levels
of integrity. A slot that is written over lets go what it held, after the new slot
stands.
-/
namespace Compound.Host

def slot? (w : Host) (id : ObjectId) (k : Key) : Option Slot :=
  (w.object? id).bind (·.slots.get? k)

def isExtensible (w : Host) (id : ObjectId) : Bool := (w.object? id).any (·.extensible)

theorem slot?_of_found {w : Host} {id : ObjectId} {o : Object} (found : w.object? id = some o)
    (k : Key) : w.slot? id k = o.slots.get? k := by
  rw [slot?, found, Option.bind_some]

theorem isExtensible_of_found {w : Host} {id : ObjectId} {o : Object}
    (found : w.object? id = some o) : w.isExtensible id = o.extensible := by
  rw [isExtensible, found, Option.any_some]

/-- Put a slot into an object, whatever stood there. -/
def writeSlot (w : Host) (id : ObjectId) (k : Key) (s : Slot) : Host :=
  let old := (w.slot? id k).elim [] Slot.references
  ((w.retain s.references).modify id fun o => { o with slots := o.slots.put k s }).release old

/-- Why an object refuses to define a key: its slot may not be redefined, or there is none
and the object may not grow. -/
def refusal? (w : Host) (id : ObjectId) (k : Key) : Option Refusal :=
  match w.slot? id k with
  | some s => if s.isConfigurable then none else some .notConfigurable
  | none => if w.isExtensible id then none else some .notExtensible

/-- Define or redefine an own property. -/
def defineSlot (w : Host) (id : ObjectId) (k : Key) (s : Slot) : Outcome Unit × Host :=
  match w.refusal? id k with
  | some refusal => (.error (.definitionRefused k refusal), w)
  | none => (.ok (), w.writeSlot id k s)

/-- A new object with plain properties. A key given again overwrites the earlier value. -/
def createFrom (w : Host) (entries : List (Key × Value)) : ObjectId × Host :=
  let (id, w) := w.create none
  (id, entries.foldl (fun w e => w.writeSlot id e.1 (.plain e.2)) w)

/-- Forbid new properties. -/
def preventGrowth (w : Host) (id : ObjectId) : Host :=
  w.modify id fun o => { o with extensible := false }

def freeze (w : Host) (id : ObjectId) : Host := w.modify id Object.freeze

def isFrozen (w : Host) (id : ObjectId) : Bool := (w.object? id).any Object.isFrozen

/-- All own keys in listing order. -/
def ownKeys (w : Host) (id : ObjectId) : List Key := (w.object? id).elim [] Object.ownKeys

/-- The enumerable names in listing order. -/
def enumerableNames (w : Host) (id : ObjectId) : List Key :=
  (w.object? id).elim [] Object.enumerableNames

end Compound.Host
