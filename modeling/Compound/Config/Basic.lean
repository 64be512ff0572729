/-!
Configuration of a registry: which weak-reference primitives the host provides, and
whether registrations reclaim first. By default everything is present and on.
-/
namespace Compound

/-- A primitive that registries depend on. -/
inductive Capability where
  /-- Tables keyed by identity that do not keep their keys alive. -/
  | weakMap
  /-- References that do not keep an object alive. -/
  | weakRef
  /-- Cleanup at the death of an object. -/
  | finalizationRegistry
  deriving DecidableEq, Repr

namespace Capability

/-- All primitives, in the order of reports. -/
def all : List Capability := [weakMap, weakRef, finalizationRegistry]

/-- The name of a primitive in reports. -/
def name : Capability → String
  | weakMap => "WeakMap"
  | weakRef => "WeakRef"
  | finalizationRegistry => "FinalizationRegistry"

/-- The name of a primitive in a configuration. -/
def field : Capability → String
  | weakMap => "weak_map"
  | weakRef => "weak_ref"
  | finalizationRegistry => "finalization_registry"

theorem mem_all (c : Capability) : c ∈ all := by
  cases c <;> decide

end Capability

/-- What a host provides. -/
structure Capabilities where
  weakMap : Bool
  weakRef : Bool
  finalizationRegistry : Bool
  deriving DecidableEq, Repr

namespace Capabilities

/-- A host with every primitive. -/
def full : Capabilities := ⟨true, true, true⟩

/-- A host with none of the primitives. -/
def none : Capabilities := ⟨false, false, false⟩

instance : Inhabited Capabilities := ⟨full⟩

def has (caps : Capabilities) : Capability → Bool
  | .weakMap => caps.weakMap
  | .weakRef => caps.weakRef
  | .finalizationRegistry => caps.finalizationRegistry

/-- Say of one primitive whether it is there. -/
def set (caps : Capabilities) (c : Capability) (present : Bool) : Capabilities :=
  match c with
  | .weakMap => { caps with weakMap := present }
  | .weakRef => { caps with weakRef := present }
  | .finalizationRegistry => { caps with finalizationRegistry := present }

def without (caps : Capabilities) (c : Capability) : Capabilities := caps.set c false

/-- The primitives that are absent, in the order of reports. -/
def missing (caps : Capabilities) : List Capability := Capability.all.filter fun c => !caps.has c

@[simp] theorem has_set_same (caps : Capabilities) (c : Capability) (b : Bool) :
    (caps.set c b).has c = b := by
  cases c <;> rfl

theorem has_set_other (caps : Capabilities) {c d : Capability} (b : Bool) (h : d ≠ c) :
    (caps.set c b).has d = caps.has d := by
  cases c <;> cases d <;> simp_all [set, has]

end Capabilities

structure Config where
  capabilities : Capabilities
  /-- Reclaim the entries of dropped objects before every registration. -/
  autoReclaim : Bool
  deriving DecidableEq, Repr

namespace Config

/-- Every primitive present, reclaiming on. -/
def standard : Config := ⟨.full, true⟩

instance : Inhabited Config := ⟨standard⟩

def ofCapabilities (caps : Capabilities) : Config := { standard with capabilities := caps }

def withAutoReclaim (c : Config) (on : Bool) : Config := { c with autoReclaim := on }

end Config

end Compound
