import Compound.Host.Registries

/-!
Tagging objects as Records and Tuples. The first tag of an object stays: the same tag
again is accepted without effect, any other is refused.
-/
namespace Compound.Host

/-- Tag an object in a registry. -/
def tag (w : Host) (r : RegistryId) (id : ObjectId) (t : Tag) : Outcome Unit × Host :=
  let w := w.autoReclaim r
  match (w.registry? r).bind (·.tags.get? id) with
  | some existing =>
    if existing = t then (.ok (), w) else (.error (.taggedOtherwise existing t), w)
  | none =>
    let w := w.modifyRegistry r fun reg => { reg with tags := reg.tags.put id t }
    (.ok (), (w.watch r id).tell (.tagged id t))

def tagRecord (w : Host) (r : RegistryId) (id : ObjectId) : Outcome Unit × Host :=
  w.tag r id .record

def tagTuple (w : Host) (r : RegistryId) (id : ObjectId) (length : Nat) :
    Outcome Unit × Host :=
  w.tag r id (.tuple length)

end Compound.Host
