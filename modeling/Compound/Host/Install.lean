import Compound.Host.Property

/-!
Installing properties in bulk. Specifications are kept under their keys, a repeated key
replacing the earlier one in its place, and are installed in listing order up to the first
that the target refuses.
-/
namespace Compound

/-- One property to install: an accessor if it has a getter or a setter, else a value. -/
structure Spec where
  value : Option Value
  get : Option ObjectId
  set : Option ObjectId
  deriving DecidableEq, Repr

namespace Spec

def isAccessor (s : Spec) : Bool := s.get.isSome || s.set.isSome

/-- The slot to install: configurable, not enumerable, and writable if it holds a value. -/
def slot (s : Spec) : Slot :=
  if s.isAccessor then .accessor s.get s.set false true
  else .data (s.value.getD .undefined) true false true

end Spec

/-- Specifications under their keys. -/
abbrev Specs := Table Key Spec

/-- The keys of specifications in listing order. -/
def Specs.orderedKeys (specs : Specs) : List Key := Key.ordered specs.keys

/-- Specifications with their keys, in listing order. -/
def Specs.ordered (specs : Specs) : List (Key × Spec) :=
  (Specs.orderedKeys specs).filterMap fun k => (specs.get? k).map (k, ·)

namespace Host

/-- Define slots one after the other, up to the first that is refused. -/
def defineAll (id : ObjectId) : List (Key × Spec) → Host → Outcome Unit × Host
  | [], w => (.ok (), w)
  | (k, s) :: rest, w =>
    match w.defineSlot id k s.slot with
    | (.error e, w) => (.error e, w)
    | (.ok _, w) => defineAll id rest w

/-- Install specifications on an object. -/
def install (w : Host) (id : ObjectId) (specs : Specs) : Outcome Unit × Host :=
  defineAll id specs.ordered w

end Host

end Compound
