import Compound.Host.Basic

/-!
Validating the members of Records and Tuples. Classification asks first whether a value
is callable, then for its tag, then whether it is a box. The check is shallow: what was
embedded before was validated then.
-/
namespace Compound.Host

/-- What a value is for a registry. -/
def classOf (w : Host) (r : RegistryId) (v : Value) : Class :=
  match v.identity with
  | none => .primitive
  | some id =>
    if w.isCallable id then .function
    else
      match (w.registry? r).bind (·.tagOf v) with
      | some .record => .record
      | some (.tuple length) => .tuple length
      | none => if (w.registry? r).any (·.isBox v) then .box else .object

/-- Why a value of a class may not be embedded. -/
def rejection? (kind : Kind) : Class → Option Failure
  | .primitive | .record | .tuple _ | .box => none
  | .function => some .functionMember
  | .object => some (.objectMember kind)

/-- Hand a value back if it may be embedded. -/
def validate (w : Host) (r : RegistryId) (v : Value) : Outcome Value × Host :=
  let cls := w.classOf r v
  let w := w.tell (.validating (w.describe v) cls)
  match rejection? (w.kindOf v) cls with
  | some failure => (.error failure, w)
  | none => (.ok v, w.retain v.references)

end Compound.Host
