import Compound.Session.Basic

/-!
Drafts of function bodies, as a script writes them. A draft becomes a body when its
function is made: its names are looked up from left to right, and each counting part
gets a counter of its own.
-/
namespace Compound

inductive Draft where
  | receiver
  | argumentCount
  | equalsReceiver
  | count
  | freeze
  | create
  | give (v : ValueTerm)
  | fail (message : String)
  | argument (i : Nat)
  | read (k : KeyTerm)
  | assign (k : KeyTerm) (i : Nat)
  | define (k : KeyTerm) (v : ValueTerm)
  | call (handle : String)
  | double (k : KeyTerm)
  | note (event : String)
  | load (cell : String)
  | store (cell : String)
  | followedBy (first second : Draft)
  deriving DecidableEq, Repr

namespace Draft

/-- Parts in order. The result of no parts is undefined. -/
def sequence : List Draft → Draft
  | [] => give .undefined
  | first :: rest => rest.foldl followedBy first

/-- The body of a draft, and the next free counter. -/
def resolve (s : Session) : Draft → Nat → Lookup (Body × Nat)
  | receiver, n => .ok (.receiver, n)
  | argumentCount, n => .ok (.argumentCount, n)
  | equalsReceiver, n => .ok (.equalsReceiver, n)
  | count, n => .ok (.count n, n + 1)
  | freeze, n => .ok (.freeze, n)
  | create, n => .ok (.create, n)
  | give v, n => do
    let v ← s.value v
    return (.give v, n)
  | fail message, n => .ok (.fail message, n)
  | argument i, n => .ok (.argument i, n)
  | read k, n => do
    let k ← s.key k
    return (.read k, n)
  | assign k i, n => do
    let k ← s.key k
    return (.assign k i, n)
  | define k v, n => do
    let k ← s.key k
    let v ← s.value v
    return (.define k v, n)
  | call h, n => do
    let id ← s.handle h
    return (.call id, n)
  | double k, n => do
    let k ← s.key k
    return (.double k, n)
  | note event, n => .ok (.note event, n)
  | load cell, n => .ok (.load cell, n)
  | store cell, n => .ok (.store cell, n)
  | followedBy a b, n => do
    let (a, n) ← resolve s a n
    let (b, n) ← resolve s b n
    return (.followedBy a b, n)

end Draft

namespace Session

/-- The body of a draft in a session that has its counters. -/
def body (s : Session) (d : Draft) : Lookup (Body × Session) := do
  let first := s.host.counters.length
  let (b, next) ← d.resolve s first
  let counters := s.host.counters ++ List.replicate (next - first) 0
  return (b, { s with host := { s.host with counters := counters } })

end Session

end Compound
