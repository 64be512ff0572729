import Compound.Host.Property
import Compound.Host.Registries

/-!
Boxing. A box stands for a value that has an identity; a box has one value and a value
one living box. The registry keeps the value of a box alive, but not the box.
-/
namespace Compound.Host

/-- The pairs of a registry; none if it is gone. -/
def pairing (w : Host) (r : RegistryId) : Pairing := (w.registry? r).elim .empty (·.pairing)

/-- Join a pair: the pairs it may join, and the value of the pair that was in the way. -/
def join (w : Host) (r : RegistryId) (box value : ObjectId) (pairs : Pairing)
    (released : Option ObjectId) : Host :=
  let w := w.retain [value]
  let w := w.modifyRegistry r fun reg => { reg with pairing := pairs.insert box value }
  (w.release released.toList).watch r box

/-- Join a pair if it may be joined, and tell whether it was new. -/
def joinIfFresh (w : Host) (r : RegistryId) (box value : ObjectId) : Outcome Bool × Host :=
  match (w.pairing r).judge w.isAlive box value with
  | .error e => (.error (.unpairable e), w)
  | .ok .known => (.ok false, w)
  | .ok (.fresh pairs released) => (.ok true, w.join r box value pairs released)

/-- Make an object the box of a value. -/
def pair (w : Host) (r : RegistryId) (box : ObjectId) (v : Value) : Outcome Unit × Host :=
  let w := w.autoReclaim r
  match v.identity with
  | none => (.error (.unpairable .noIdentity), w)
  | some value =>
    if value = box then (.error (.unpairable .itself), w)
    else
      match w.joinIfFresh r box value with
      | (.error e, w) => (.error e, w)
      | (.ok false, w) => (.ok (), w)
      | (.ok true, w) => (.ok (), w.tell (.registered box))

/-- The living box of a value, without a reference for the caller. -/
def boxOf? (w : Host) (r : RegistryId) (v : Value) : Option ObjectId :=
  v.identity.bind ((w.pairing r).livingBox? w.isAlive)

/-- The box of a value. A value without a living box gets a new frozen object. -/
def boxFor (w : Host) (r : RegistryId) (v : Value) : Outcome ObjectId × Host :=
  let w := w.autoReclaim r
  match v.identity with
  | none => (.error (.unpairable .noIdentity), w)
  | some value =>
    match w.boxOf? r v with
    | some box => (.ok box, w.retain [box])
    | none =>
      let (box, w) := w.create none
      let w := w.freeze box
      match w.joinIfFresh r box value with
      | (.error e, w) => (.error e, w.release [box])
      | (.ok _, w) => (.ok box, w.tell (.created box))

/-- Undo the pair of a box. The reference to the value goes to the caller. -/
def unpair (w : Host) (r : RegistryId) (box : ObjectId) : Outcome Value × Host :=
  match (w.pairing r).remove box with
  | (none, _) => (.error .notBox, w)
  | (some value, pairs) =>
    let w := w.modifyRegistry r fun reg => { reg with pairing := pairs }
    (.ok (.object value), w.tell (.released box))

/-- The value in a box. -/
def unbox (w : Host) (r : RegistryId) (v : Value) : Outcome Value × Host :=
  match v.identity.bind (w.pairing r).value? with
  | none => (.error .notBox, w)
  | some value => (.ok (.object value), w.retain [value])

/-- The living box of a value. -/
def livingBox (w : Host) (r : RegistryId) (v : Value) : Option ObjectId × Host :=
  let box := w.boxOf? r v
  (box, w.retain box.toList)

end Compound.Host
