import Compound.Host.Boxing
import Compound.Host.Call
import Compound.Host.Install
import Compound.Host.Tagging
import Compound.Host.Embedding

/-!
A session drives a host by names: handles hold objects, weak names only know their
identity, symbols are declared, and registries are kept in the order in which they were
opened. Terms are values as a script writes them, with names in place of objects and
symbols, and a name that is not there is a fault of the script.
-/
namespace Compound

structure Session where
  host : Host
  /-- Each handle has a reference to its object. -/
  handles : Table String ObjectId
  weak : Table String ObjectId
  /-- Declarations, oldest first. A name may be declared again. -/
  symbols : List (String × Symbol)
  registries : List (String × RegistryId)

/-- Why a step has no reply. -/
inductive Fault where
  | noHandle (name : String)
  | noSymbol (name : String)
  | noRegistry (name : String)
  | failure (f : Failure)
  deriving DecidableEq, Repr

/-- What looking names up gives. -/
abbrev Lookup (α : Type) := Except Fault α

/-- A value as a script writes it. -/
inductive ValueTerm where
  | undefined
  | null
  | bool (b : Bool)
  | number (n : Number)
  | bigint (i : Int)
  | string (s : String)
  | symbol (name : String)
  | handle (name : String)
  deriving DecidableEq, Repr

/-- A key as a script writes it. -/
inductive KeyTerm where
  | name (s : String)
  | index (n : Nat)
  | symbol (name : String)
  deriving DecidableEq, Repr

namespace Session

/-- A session on an empty host. -/
def empty : Session := ⟨.empty, .empty, .empty, [("@@iterator", .iterator)], []⟩

instance : Inhabited Session := ⟨empty⟩

def handle (s : Session) (name : String) : Lookup ObjectId :=
  match s.handles.get? name with
  | some id => .ok id
  | none => .error (.noHandle name)

def weakName (s : Session) (name : String) : Lookup ObjectId :=
  match s.weak.get? name with
  | some id => .ok id
  | none => .error (.noHandle name)

/-- The symbol that was declared last under a name. -/
def symbol (s : Session) (name : String) : Lookup Symbol :=
  match s.symbols.reverse.find? fun d => d.1 == name with
  | some d => .ok d.2
  | none => .error (.noSymbol name)

def registry (s : Session) (name : String) : Lookup RegistryId :=
  match s.registries.find? fun d => d.1 == name with
  | some d => .ok d.2
  | none => .error (.noRegistry name)

def handles? (s : Session) : Option String → Lookup (Option ObjectId)
  | none => .ok none
  | some name => (s.handle name).map some

def value (s : Session) : ValueTerm → Lookup Value
  | .undefined => .ok .undefined
  | .null => .ok .null
  | .bool b => .ok (.bool b)
  | .number n => .ok (.number n)
  | .bigint i => .ok (.bigint i)
  | .string t => .ok (.string t)
  | .symbol name => (s.symbol name).map .symbol
  | .handle name => (s.handle name).map .object

def key (s : Session) : KeyTerm → Lookup Key
  | .name t => .ok (.name t)
  | .index n => .ok (.ofNat n)
  | .symbol name => (s.symbol name).map .symbol

def values (s : Session) (terms : List ValueTerm) : Lookup (List Value) := terms.mapM s.value

/-- The name under which a symbol was declared first. -/
def symbolName (s : Session) (x : Symbol) : String :=
  ((s.symbols.find? fun d => d.2 == x).map Prod.fst).getD ""

/-- Declare a new symbol. Serial numbers are never used again. -/
def declare (s : Session) (name : String) (description : Option String) : Symbol × Session :=
  let x : Symbol := ⟨s.symbols.length, description⟩
  (x, { s with symbols := s.symbols ++ [(name, x)] })

/-- Let a handle hold an object. The object it held before is let go. -/
def setHandle (s : Session) (name : String) (id : ObjectId) : Session :=
  let old := (s.handles.get? name).toList
  { s with
    handles := s.handles.put name id
    host := (s.host.retain [id]).release old }

/-- Remove a handle, and let its object go. -/
def dropHandle (s : Session) (name : String) (id : ObjectId) : Session :=
  { s with handles := s.handles.erase name, host := s.host.release [id] }

end Session

end Compound
