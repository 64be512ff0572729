import Mathlib.Logic.Relation
import Compound.Host.Boxing
import Compound.Host.Call
import Compound.Host.Install
import Compound.Host.Tagging
import Compound.Proofs.Attendance
import Compound.Proofs.References

/-!
A client of a host: whoever holds references from outside and acts on the host. What a
client can do is broken down into deeds, each with what it asks for and with what it does
to the references that the client holds. Whatever is built from deeds in any order keeps
a client sound: the reference counts are exact, and every registry attends to its entries.
-/
namespace Compound

/-- What an object asks of a slot that is to be written under a key: a new key needs an
object that may grow, and a slot that may not be redefined takes only values, if those. -/
def Object.Permits (o : Object) (k : Key) (s : Slot) : Prop :=
  match o.slots.get? k with
  | none => o.extensible = true
  | some old =>
    old.isConfigurable = true ∨
      ∃ u v enumerable configurable,
        old = .data u true enumerable configurable ∧ s = .data v true enumerable configurable

/-- A host with the references to its objects that are held from outside. -/
structure Client where
  held : Multiset ObjectId
  host : Host

/-- The single things that can be done to a host. -/
inductive Deed where
  | retain (ids : List ObjectId)
  | release (ids : List ObjectId)
  | create (function : Option Function)
  | write (id : ObjectId) (k : Key) (s : Slot)
  | freeze (id : ObjectId)
  | prevent (id : ObjectId)
  | finalize (id : ObjectId) (label : String) (hold : Option ObjectId)
  | store (cell : String) (v : Value)
  /-- Log, tell or count something. -/
  | remark
  | openRegistry (config : Config)
  | closeRegistry (r : RegistryId)
  | tag (r : RegistryId) (id : ObjectId) (t : Tag)
  | join (r : RegistryId) (box value : ObjectId)
  | unpair (r : RegistryId) (box : ObjectId)
  | drain (r : RegistryId)

/-- The deed is done to objects; registries at most hear of deaths. -/
def Deed.isPlain : Deed → Bool
  | retain _ | release _ | create _ | write .. | freeze _ | prevent _ | finalize .. | store ..
  | remark => true
  | openRegistry _ | closeRegistry _ | tag .. | join .. | unpair .. | drain _ => false

/-- One rule for each deed. -/
inductive Move : Deed → Client → Client → Prop
  | retain {held : Multiset ObjectId} {w : Host} {ids : List ObjectId}
      (alive : ∀ id ∈ ids, w.isAlive id = true) :
      Move (.retain ids) ⟨held, w⟩ ⟨held + (ids : Multiset ObjectId), w.retain ids⟩
  | release {held : Multiset ObjectId} {w : Host} {ids : List ObjectId} :
      Move (.release ids) ⟨held + (ids : Multiset ObjectId), w⟩ ⟨held, w.release ids⟩
  | create {held : Multiset ObjectId} {w : Host} {function : Option Function}
      (alive : ∀ id ∈ (Object.new function).bodyReferences, w.isAlive id = true) :
      Move (.create function) ⟨held, w⟩ ⟨(w.create function).1 ::ₘ held, (w.create function).2⟩
  | write {held : Multiset ObjectId} {w : Host} {id : ObjectId} {k : Key} {s : Slot} {o : Object}
      (found : w.object? id = some o) (permitted : o.Permits k s)
      (alive : ∀ id ∈ s.references, w.isAlive id = true) :
      Move (.write id k s) ⟨held, w⟩ ⟨held, w.writeSlot id k s⟩
  | freeze {held : Multiset ObjectId} {w : Host} {id : ObjectId} :
      Move (.freeze id) ⟨held, w⟩ ⟨held, w.freeze id⟩
  | prevent {held : Multiset ObjectId} {w : Host} {id : ObjectId} :
      Move (.prevent id) ⟨held, w⟩ ⟨held, w.preventGrowth id⟩
  | finalize {held : Multiset ObjectId} {w : Host} {id : ObjectId} {label : String}
      {hold : Option ObjectId} (living : w.isAlive id = true)
      (alive : ∀ id ∈ hold, w.isAlive id = true) :
      Move (.finalize id label hold) ⟨held, w⟩ ⟨held, w.addFinalizer id (.note label hold)⟩
  | store {held : Multiset ObjectId} {w : Host} {cell : String} {v : Value}
      (alive : ∀ id ∈ v.references, w.isAlive id = true) :
      Move (.store cell v) ⟨held, w⟩ ⟨held, w.store cell v⟩
  | remark {held : Multiset ObjectId} {w : Host} (counters : List Nat) (events : List String)
      (notices : List Notice) :
      Move .remark ⟨held, w⟩
        ⟨held, { w with counters := counters, events := events, notices := notices }⟩
  | openRegistry {held : Multiset ObjectId} {w : Host} {config : Config} :
      Move (.openRegistry config) ⟨held, w⟩
        ⟨held, { w with
          registries := w.registries.put w.nextRegistry (.new config)
          nextRegistry := w.nextRegistry + 1 }⟩
  | closeRegistry {held : Multiset ObjectId} {w : Host} {r : RegistryId} :
      Move (.closeRegistry r) ⟨held, w⟩ ⟨held, w.closeRegistry r⟩
  | tag {held : Multiset ObjectId} {w : Host} {r : RegistryId} {id : ObjectId} {t : Tag}
      {reg : Registry} (found : w.registry? r = some reg) (free : reg.tags.get? id = none)
      (alive : w.isAlive id = true) :
      Move (.tag r id t) ⟨held, w⟩
        ⟨held, (w.modifyRegistry r fun reg => { reg with tags := reg.tags.put id t }).watch r id⟩
  | join {held : Multiset ObjectId} {w : Host} {r : RegistryId} {box value : ObjectId}
      {reg : Registry} {pairs : Pairing} {released : Option ObjectId}
      (found : w.registry? r = some reg)
      (fresh : reg.pairing.judge w.isAlive box value = .ok (.fresh pairs released))
      (ne : value ≠ box) (kept : box ∈ held) (alive : w.isAlive value = true) :
      Move (.join r box value) ⟨held, w⟩ ⟨held, w.join r box value pairs released⟩
  | unpair {held : Multiset ObjectId} {w : Host} {r : RegistryId} {box value : ObjectId}
      {reg : Registry} (found : w.registry? r = some reg)
      (paired : reg.pairing.values.get? box = some value) :
      Move (.unpair r box) ⟨held, w⟩ ⟨value ::ₘ held, (w.unpair r box).2⟩
  | drain {held : Multiset ObjectId} {w : Host} {r : RegistryId} :
      Move (.drain r) ⟨held, w⟩ ⟨held, (w.reclaim r).2⟩

/-- The references that are held neither by a living object nor by the client: those of
cells, and those of registries to the values of their boxes. -/
def Host.rooted (w : Host) : Multiset ObjectId :=
  w.cells.gather Value.references + w.registries.gather fun reg => reg.pairing.values.values

/-- Whatever refers to an object is accounted for, and registries attend to their entries. -/
structure Client.Sound (c : Client) : Prop where
  accounted : c.host.heap.Accounted (c.held + c.host.rooted)
  numbered : ∀ r reg, c.host.registry? r = some reg → r < c.host.nextRegistry
  attended : c.host.Attended Host.nobody

end Compound
