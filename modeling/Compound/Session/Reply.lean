import Compound.Config.Writer
import Compound.Session.Basic

/-!
Replies. A view is a value as a reply shows it: objects by their number, told apart by
whether they can be called, and symbols by name. Views are taken while the value is
still held, so what they say is true of a living object.
-/
namespace Compound

inductive View where
  | undefined
  | null
  | bool (b : Bool)
  | number (text : String)
  | bigint (i : Int)
  | string (s : String)
  | symbol (name : String)
  | object (id : ObjectId)
  | function (id : ObjectId)
  deriving DecidableEq, Repr

inductive KeyView where
  | name (s : String)
  | symbol (name : String)
  deriving DecidableEq, Repr

inductive SlotView where
  | data (value : View) (writable enumerable configurable : Bool)
  | accessor (get set : Option View) (enumerable configurable : Bool)
  deriving DecidableEq, Repr

/-- All that can be asked of a value by itself. -/
structure Profile where
  text : String
  kind : Kind
  isUndefined : Bool
  isPrimitive : Bool
  isObject : Bool
  isFunction : Bool
  isIterable : Bool
  string : Option String
  number : Option String
  identity : Option ObjectId
  equalsItself : Bool
  deriving DecidableEq, Repr

structure FunctionProfile where
  name : Option String
  isIterable : Bool
  deriving DecidableEq, Repr

/-- The own properties of an object. -/
structure Dump where
  isExtensible : Bool
  isFrozen : Bool
  count : Nat
  names : List KeyView
  slots : List (KeyView × SlotView)
  deriving DecidableEq, Repr

/-- All that can be asked of a key by itself. -/
structure KeyReport where
  index : Option Nat
  isSymbol : Bool
  string : Option String
  display : String
  text : String
  deriving DecidableEq, Repr

def Key.report (k : Key) : KeyReport :=
  ⟨k.arrayIndex, k.isSymbol, k.asString, k.display, k.describe⟩

/-- All that a registry says about a value. -/
structure Findings where
  tag : Option Tag
  isRecord : Bool
  isTuple : Bool
  length : Option Nat
  isEither : Bool
  isBox : Bool
  cls : Class
  isSafe : Bool
  deriving DecidableEq, Repr

structure SpecView where
  key : KeyView
  isAccessor : Bool
  value : Option View
  deriving DecidableEq, Repr

inductive Reply where
  | nothing
  | value (v : View)
  | truth (b : Bool)
  | count (n : Nat)
  | text (s : String)
  | keys (ks : List KeyView)
  | symbol (text : String) (description : Option String)
  | native (text name : String) (value : View)
  | weak (alive : Bool) (id : ObjectId) (text : String)
  | profile (p : Profile)
  | function (p : FunctionProfile)
  | slot (s : Option SlotView)
  | dump (d : Dump)
  | key (k : KeyReport)
  | specs (entries : List SpecView)
  | config (c : Config)
  | findings (f : Findings)
  deriving DecidableEq, Repr

namespace Session

def view (s : Session) : Value → View
  | .undefined => .undefined
  | .null => .null
  | .bool b => .bool b
  | .number n => .number n.text
  | .bigint i => .bigint i
  | .string t => .string t
  | .symbol x => .symbol (s.symbolName x)
  | .object id => if s.host.isCallable id then .function id else .object id

def keyView (s : Session) : Key → KeyView
  | .name t => .name t
  | .symbol x => .symbol (s.symbolName x)

def slotView (s : Session) : Slot → SlotView
  | .data v w e c => .data (s.view v) w e c
  | .accessor g t e c =>
    .accessor (g.map fun id => s.view (.object id)) (t.map fun id => s.view (.object id)) e c

def specView (s : Session) (entry : Key × Spec) : SpecView :=
  ⟨s.keyView entry.1, entry.2.isAccessor, entry.2.value.map s.view⟩

/-- Profile a value. Its iterator is read, which may run a getter. -/
def profile (s : Session) (v : Value) : Profile × Session :=
  let callable := v.identity.any s.host.isCallable
  let text := s.host.describe v
  let kind := s.host.kindOf v
  let (iterable, host) := s.host.isIterableObject v
  ({ text := text
     kind := kind
     isUndefined := v.isUndefined
     isPrimitive := v.isPrimitive
     isObject := !v.isPrimitive && !callable
     isFunction := callable
     isIterable := iterable
     string := v.asString
     number := v.asNumber.map Number.text
     identity := v.identity
     equalsItself := v.equal v }, { s with host := host })

def dump (s : Session) (id : ObjectId) : Dump where
  isExtensible := s.host.isExtensible id
  isFrozen := s.host.isFrozen id
  count := (s.host.object? id).elim 0 fun o => o.slots.size
  names := (s.host.enumerableNames id).map s.keyView
  slots := (s.host.ownKeys id).filterMap fun k =>
    (s.host.slot? id k).map fun slot => (s.keyView k, s.slotView slot)

/-- What a registry finds out about a value. -/
def findings (s : Session) (r : RegistryId) (v : Value) : Findings :=
  let reg := s.host.registry? r
  let cls := s.host.classOf r v
  { tag := reg.bind (·.tagOf v)
    isRecord := reg.any (·.isRecord v)
    isTuple := reg.any (·.isTuple v)
    length := reg.bind (·.tupleLength v)
    isEither := reg.any (·.isTagged v)
    isBox := reg.any (·.isBox v)
    cls := cls
    isSafe := cls.isEmbeddable }

end Session

end Compound
