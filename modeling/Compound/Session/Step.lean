import Compound.Session.Draft
import Compound.Session.Reply

/-!
The steps of a script on objects and on registries. A step first looks up all its names,
in the order in which it lists them, and does nothing if one is missing. A result is
held until the step is over: `hand` shows it, lets the handle that asked for it take a
reference, and lets the step's own reference go.
-/
namespace Compound

/-- A reply or the reason why there is none. -/
abbrev Result := Except Fault Reply

/-- A property as a script writes it. -/
inductive SlotTerm where
  | data (value : ValueTerm) (writable enumerable configurable : Bool)
  | accessor (get set : Option String) (enumerable configurable : Bool)
  deriving DecidableEq, Repr

/-- A specification as a script writes it. -/
structure SpecTerm where
  key : KeyTerm
  get : Option String
  set : Option String
  value : Option ValueTerm
  deriving DecidableEq, Repr

/-- A configuration as a script writes it. -/
inductive ConfigTerm where
  | text (s : String)
  | reclaiming (on : Bool)
  | standard
  deriving DecidableEq, Repr

def ConfigTerm.config : ConfigTerm → Lookup Config
  | text s => (Config.read s).mapError fun e => .failure (.config e)
  | reclaiming on => .ok (Config.standard.withAutoReclaim on)
  | standard => .ok .standard

inductive Step where
  | declare (name : String) (description : Option String)
  | create (keep : Option String)
  | createFrom (entries : List (KeyTerm × ValueTerm)) (keep : Option String)
  | function (body : Draft) (name : String) (getter : Bool) (keep : Option String)
  | native (body : Draft) (name : String) (this : ValueTerm) (args : List ValueTerm)
  | drop (h : String)
  | alias (h : String) (name : String)
  | weaken (h : String) (name : String)
  | alive (weak : String)
  | recover (weak : String) (keep : Option String)
  | onDrop (label : String) (hold : Option String) (h : String)
  | info (v : ValueTerm)
  | functionInfo (h : String)
  | call (this : ValueTerm) (h : String) (args : List ValueTerm) (keep : Option String)
  | get (h : String) (k : KeyTerm) (keep : Option String)
  | set (h : String) (k : KeyTerm) (v : ValueTerm)
  | define (slot : SlotTerm) (h : String) (k : KeyTerm)
  | ownSlot (h : String) (k : KeyTerm)
  | ownKeys (h : String)
  | names (h : String)
  | freeze (h : String)
  | prevent (h : String)
  | dump (h : String)
  | equal (a b : ValueTerm)
  | same (a b : String)
  | distinct (hs : List String)
  | key (k : KeyTerm)
  | install (specs : List SpecTerm) (h : String)
  | specs (specs : List SpecTerm)
  | openRegistry (reg : String) (config : ConfigTerm)
  | closeRegistry (reg : String)
  | tagRecord (reg : String) (h : String)
  | tagTuple (reg : String) (h : String) (length : Nat)
  | query (reg : String) (v : ValueTerm)
  | validate (reg : String) (v : ValueTerm) (keep : Option String)
  | pair (reg : String) (h : String) (v : ValueTerm)
  | box (reg : String) (v : ValueTerm) (keep : Option String)
  | release (reg : String) (h : String) (keep : Option String)
  | unbox (reg : String) (v : ValueTerm) (keep : Option String)
  | livingBox (reg : String) (v : ValueTerm) (keep : Option String)
  | reclaim (reg : String)
  | boxTable (reg : String)

namespace Session

/-- Go on with what was looked up. -/
def after {α : Type} (s : Session) (found : Lookup α) (go : α → Result × Session) :
    Result × Session :=
  match found with
  | .error fault => (.error fault, s)
  | .ok a => go a

/-- Go on with the result of an operation on the host. -/
def acting {α : Type} (s : Session) (done : Outcome α × Host)
    (go : α → Session → Result × Session) : Result × Session :=
  match done with
  | (.error failure, host) => (.error (.failure failure), { s with host := host })
  | (.ok a, host) => go a { s with host := host }

/-- Reply with a value that the step owns. An object is also given to the handle that
asks for it. -/
def hand (s : Session) (keep : Option String) (v : Value) : Result × Session :=
  let shown := s.view v
  let s :=
    match keep, v.identity with
    | some name, some id => s.setHandle name id
    | _, _ => s
  (.ok (.value shown), { s with host := s.host.release v.references })

/-- Reply that something was done. -/
def done (s : Session) : Result × Session := (.ok .nothing, s)

def entry (s : Session) (e : KeyTerm × ValueTerm) : Lookup (Key × Value) := do
  let k ← s.key e.1
  let v ← s.value e.2
  return (k, v)

def slotOf (s : Session) : SlotTerm → Lookup Slot
  | .data v w e c => do
    let v ← s.value v
    return .data v w e c
  | .accessor g t e c => do
    let g ← s.handles? g
    let t ← s.handles? t
    return .accessor g t e c

def specOf (s : Session) (t : SpecTerm) : Lookup (Key × Spec) := do
  let k ← s.key t.key
  let g ← s.handles? t.get
  let u ← s.handles? t.set
  match t.value with
  | none => return (k, ⟨none, g, u⟩)
  | some v =>
    let v ← s.value v
    return (k, ⟨some v, g, u⟩)

def specsOf (s : Session) (ts : List SpecTerm) : Lookup Specs :=
  (ts.mapM s.specOf).map Table.ofList

/-- Look up a handle, and a key of its object. -/
def place (s : Session) (h : String) (k : KeyTerm) : Lookup (ObjectId × Key) := do
  let id ← s.handle h
  let k ← s.key k
  return (id, k)

/-- Look up a registry and a value for it. -/
def subject (s : Session) (reg : String) (v : ValueTerm) : Lookup (RegistryId × Value) := do
  let r ← s.registry reg
  let v ← s.value v
  return (r, v)

/-- Look up a registry and an object for it. -/
def target (s : Session) (reg h : String) : Lookup (RegistryId × ObjectId) := do
  let r ← s.registry reg
  let id ← s.handle h
  return (r, id)

/-- Open a registry under a name. An earlier one of that name is closed afterwards, and the
new one is the latest. -/
def addRegistry (s : Session) (name : String) (config : Config) : Result × Session :=
  s.acting (s.host.openRegistry config) fun r s =>
    let old := s.registries.filter fun d => d.1 == name
    let kept := s.registries.filter fun d => d.1 != name
    let host := old.foldl (fun host d => host.closeRegistry d.2) s.host
    (.ok (.config config), { s with host := host, registries := kept ++ [(name, r)] })

/-- Run a body once as a function without an object. What it captures is held meanwhile. -/
def runNative (s : Session) (body : Body) (name : String) (this : Value) (args : List Value) :
    Result × Session :=
  let host := s.host.retain body.references
  match Host.run (Host.invoke Host.maxDepth) this args body host with
  | (.error failure, host) =>
    (.error (.failure failure), { s with host := host.release body.references })
  | (.ok v, host) =>
    let s := { s with host := host }
    (.ok (.native ("<native fn " ++ name ++ ">") name (s.view v)),
      { s with host := s.host.release (v.references ++ body.references) })

/-- Take a step on objects. -/
def step (s : Session) : Step → Result × Session
  | .declare name description =>
    let (x, s) := s.declare name description
    (.ok (.symbol x.describe x.description), s)
  | .create keep =>
    let (id, host) := s.host.create none
    { s with host := host }.hand keep (.object id)
  | .createFrom entries keep =>
    s.after (entries.mapM s.entry) fun entries =>
      let (id, host) := s.host.createFrom entries
      { s with host := host }.hand keep (.object id)
  | .function draft name getter keep =>
    s.after (s.body draft) fun (body, s) =>
      let (id, host) := s.host.create (some ⟨name, getter, body⟩)
      { s with host := host }.hand keep (.object id)
  | .native draft name this args =>
    s.after (do
      let (body, s) ← s.body draft
      let this ← s.value this
      let args ← s.values args
      return (body, s, this, args)) fun (body, s, this, args) => s.runNative body name this args
  | .drop h => s.after (s.handle h) fun id => (s.dropHandle h id).done
  | .alias h name =>
    s.after (s.handle h) fun id =>
      { s with host := s.host.retain [id] }.hand (some name) (.object id)
  | .weaken h name =>
    s.after (s.handle h) fun id => { s with weak := s.weak.put name id }.done
  | .alive name =>
    s.after (s.weakName name) fun id =>
      (.ok (.weak (s.host.isAlive id) id ("WeakObject(" ++ idText id ++ ")")), s)
  | .recover name keep =>
    s.after (s.weakName name) fun id =>
      if s.host.isAlive id then { s with host := s.host.retain [id] }.hand keep (.object id)
      else s.done
  | .onDrop label hold h =>
    s.after (do
      let held ← s.handles? hold
      let id ← s.handle h
      return (held, id)) fun (held, id) =>
        { s with host := s.host.addFinalizer id (.note label held) }.done
  | .info v =>
    s.after (s.value v) fun v =>
      let (p, s) := s.profile v
      (.ok (.profile p), s)
  | .functionInfo h =>
    s.after (s.handle h) fun id =>
      let (iterable, host) := s.host.isIterable id
      (.ok (.function ⟨(s.host.function? id).map Function.name, iterable⟩),
        { s with host := host })
  | .call this h args keep =>
    s.after (do
      let this ← s.value this
      let id ← s.handle h
      let args ← s.values args
      return (this, id, args)) fun (this, id, args) =>
        s.acting (s.host.call id this args) fun v s => s.hand keep v
  | .get h k keep =>
    s.after (s.place h k) fun (id, k) => s.acting (s.host.read id k) fun v s => s.hand keep v
  | .set h k v =>
    s.after (do
      let p ← s.place h k
      let v ← s.value v
      return (p, v)) fun (p, v) =>
        s.acting (s.host.assign p.1 p.2 v) fun accepted s => (.ok (.truth accepted), s)
  | .define slot h k =>
    s.after (do
      let slot ← s.slotOf slot
      let p ← s.place h k
      return (slot, p)) fun (slot, p) =>
        s.acting (s.host.defineSlot p.1 p.2 slot) fun _ s => s.done
  | .ownSlot h k =>
    s.after (s.place h k) fun (id, k) =>
      (.ok (.slot ((s.host.slot? id k).map s.slotView)), s)
  | .ownKeys h =>
    s.after (s.handle h) fun id => (.ok (.keys ((s.host.ownKeys id).map s.keyView)), s)
  | .names h =>
    s.after (s.handle h) fun id =>
      (.ok (.keys ((s.host.enumerableNames id).map s.keyView)), s)
  | .freeze h => s.after (s.handle h) fun id => { s with host := s.host.freeze id }.done
  | .prevent h =>
    s.after (s.handle h) fun id => { s with host := s.host.preventGrowth id }.done
  | .dump h => s.after (s.handle h) fun id => (.ok (.dump (s.dump id)), s)
  | .equal a b =>
    s.after (do
      let a ← s.value a
      let b ← s.value b
      return (a, b)) fun (a, b) => (.ok (.truth (a.equal b)), s)
  | .same a b =>
    s.after (do
      let a ← s.handle a
      let b ← s.handle b
      return (a, b)) fun (a, b) => (.ok (.truth (a == b)), s)
  | .distinct hs =>
    s.after (hs.mapM s.handle) fun ids => (.ok (.count ids.eraseDups.length), s)
  | .key k => s.after (s.key k) fun k => (.ok (.key k.report), s)
  | .install specs h =>
    s.after (do
      let specs ← s.specsOf specs
      let id ← s.handle h
      return (specs, id)) fun (specs, id) =>
        s.acting (s.host.install id specs) fun _ s => s.done
  | .specs specs =>
    s.after (s.specsOf specs) fun specs => (.ok (.specs (specs.ordered.map s.specView)), s)
  | .openRegistry reg config =>
    s.after config.config fun config => s.addRegistry reg config
  | .closeRegistry reg =>
    s.after (s.registry reg) fun r =>
      { s with
        host := s.host.closeRegistry r
        registries := s.registries.filter fun d => d.1 != reg }.done
  | .tagRecord reg h =>
    s.after (s.target reg h) fun (r, id) =>
      s.acting (s.host.tagRecord r id) fun _ s => s.done
  | .tagTuple reg h length =>
    s.after (s.target reg h) fun (r, id) =>
      s.acting (s.host.tagTuple r id length) fun _ s => s.done
  | .query reg v =>
    s.after (s.subject reg v) fun (r, v) => (.ok (.findings (s.findings r v)), s)
  | .validate reg v keep =>
    s.after (s.subject reg v) fun (r, v) =>
      s.acting (s.host.validate r v) fun v s => s.hand keep v
  | .pair reg h v =>
    s.after (do
      let t ← s.target reg h
      let v ← s.value v
      return (t, v)) fun (t, v) => s.acting (s.host.pair t.1 t.2 v) fun _ s => s.done
  | .box reg v keep =>
    s.after (s.subject reg v) fun (r, v) =>
      s.acting (s.host.boxFor r v) fun box s => s.hand keep (.object box)
  | .release reg h keep =>
    s.after (s.target reg h) fun (r, id) =>
      s.acting (s.host.unpair r id) fun v s => s.hand keep v
  | .unbox reg v keep =>
    s.after (s.subject reg v) fun (r, v) =>
      s.acting (s.host.unbox r v) fun v s => s.hand keep v
  | .livingBox reg v keep =>
    s.after (s.subject reg v) fun (r, v) =>
      match s.host.livingBox r v with
      | (none, host) => { s with host := host }.done
      | (some box, host) => { s with host := host }.hand keep (.object box)
  | .reclaim reg =>
    s.after (s.registry reg) fun r =>
      let (removed, host) := s.host.reclaim r
      (.ok (.count removed), { s with host := host })
  | .boxTable reg =>
    s.after (s.registry reg) fun r =>
      (.ok (.text ("BoxTable(" ++ Decimal.text (s.host.pairing r).size ++ " entries)")), s)

end Session

end Compound
