import Compound.Object

/-!
The heap: the living objects in the order of their creation, and the identity of the next
one. An identity is never used again, also after its object is gone.
-/
namespace Compound

structure Heap where
  next : ObjectId
  live : Table ObjectId Object
  deriving DecidableEq

namespace Heap

/-- The heap before the first object. -/
def empty : Heap := ⟨1, .empty⟩

instance : Inhabited Heap := ⟨empty⟩

def get? (h : Heap) (id : ObjectId) : Option Object := h.live.get? id

def isAlive (h : Heap) (id : ObjectId) : Bool := h.live.contains id

/-- Add an object under the next identity. -/
def create (h : Heap) (o : Object) : ObjectId × Heap :=
  (h.next, ⟨h.next + 1, h.live.put h.next o⟩)

/-- Change a living object. -/
def modify (h : Heap) (id : ObjectId) (f : Object → Object) : Heap :=
  { h with live := h.live.modify id f }

/-- Take a strong reference to each of some objects. -/
def retain (h : Heap) (ids : List ObjectId) : Heap :=
  ids.foldl (fun h id => h.modify id fun o => { o with refs := o.refs + 1 }) h

def erase (h : Heap) (id : ObjectId) : Heap := { h with live := h.live.erase id }

@[simp] theorem get?_create_same (h : Heap) (o : Object) :
    (h.create o).2.get? h.next = some o :=
  Table.get?_put_same h.live h.next o

theorem get?_create_other (h : Heap) {id : ObjectId} (o : Object) (ne : id ≠ h.next) :
    (h.create o).2.get? id = h.get? id :=
  Table.get?_put_other h.live o ne

@[simp] theorem get?_modify_same (h : Heap) (id : ObjectId) (f : Object → Object) :
    (h.modify id f).get? id = (h.get? id).map f :=
  Table.get?_modify_same h.live id f

theorem get?_modify_other (h : Heap) {id other : ObjectId} (f : Object → Object)
    (ne : other ≠ id) : (h.modify id f).get? other = h.get? other :=
  Table.get?_modify_other h.live f ne

@[simp] theorem get?_erase_same (h : Heap) (id : ObjectId) : (h.erase id).get? id = none :=
  Table.get?_erase_same h.live id

theorem get?_erase_other (h : Heap) {id other : ObjectId} (ne : other ≠ id) :
    (h.erase id).get? other = h.get? other :=
  Table.get?_erase_other h.live ne

end Heap

end Compound
