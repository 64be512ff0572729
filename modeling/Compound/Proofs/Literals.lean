import Mathlib.Data.Finset.Card
import Compound.Proofs.Assignments
import Compound.Proofs.Lags

/-!
An object that is made from entries is a new object to which the entries are assigned one after the
other. No assignment is declined, for every slot on the way may be written and the object may grow,
and none calls anything. A key that comes again keeps its place and takes the new value, and what
the old value held is let go at once: if the caller has given up its own references by then, an
object that only an overwritten entry held is gone.
-/
namespace Compound

/-- What becomes of the caller's own reference to a value that it enters into an object. -/
inductive Handover where
  /-- The caller keeps it. -/
  | lent
  /-- The caller gives it up as soon as the value is entered. -/
  | given

/-- The references that the caller gives up with a value. -/
def Handover.spent : Handover → Value → List ObjectId
  | lent, _ => []
  | given, v => v.references

/-- The references that the caller gives up with entries, in their order. -/
def Handover.spentAll (h : Handover) (entries : List (Key × Value)) : List ObjectId :=
  entries.flatMap fun e => h.spent e.2

/-- The value that the last entry of a key gives it. -/
def lastValue? (entries : List (Key × Value)) (k : Key) : Option Value :=
  (entries.reverse.find? fun e => e.1 = k).map Prod.snd

/-- As many pairs stand in a table as there are different keys. -/
theorem Table.size_putAll {κ ν : Type} [DecidableEq κ] (pairs : List (κ × ν)) :
    ((.empty : Table κ ν).putAll pairs).size = (pairs.map Prod.fst).toFinset.card := by
  have nodup := ((.empty : Table κ ν).putAll pairs).keys_nodup
  have members : ((.empty : Table κ ν).putAll pairs).keys.toFinset =
      (pairs.map Prod.fst).toFinset := by
    ext k
    rw [keys_putAll, List.mem_toFinset, List.mem_eraseDups, List.mem_toFinset]
    rfl
  rw [← size_keys, ← members, List.toFinset_card_of_nodup nodup]

namespace Object

/-- Every value that an object has may be written over, and the object may grow. -/
structure Plain (o : Object) : Prop where
  growing : o.extensible = true
  slots : ∀ k slot, o.slots.get? k = some slot → ∃ v, slot = .plain v

namespace Plain

variable {o : Object} {k : Key} {v : Value}

theorem accepts (plain : o.Plain) (k : Key) (v : Value) : ∃ old, o.Accepts k v (.plain v) old := by
  cases found : o.slots.get? k with
  | none => exact ⟨_, .added found plain.growing⟩
  | some slot =>
    obtain ⟨u, rfl⟩ := plain.slots k slot found
    exact ⟨_, .overwritten found⟩

theorem opened (plain : o.Plain) : o.Open := by
  refine ⟨plain.growing, fun j slot found => ?_⟩
  obtain ⟨u, rfl⟩ := plain.slots j slot found
  rfl

theorem put (plain : o.Plain) (n : Nat) :
    Object.Plain { o with refs := n, slots := o.slots.put k (.plain v) } := by
  refine ⟨plain.growing, fun j slot found => ?_⟩
  by_cases same : j = k
  · subst same
    rw [Table.get?_put_same, Option.some.injEq] at found
    exact ⟨v, found.symm⟩
  · rw [Table.get?_put_other _ _ same] at found
    exact plain.slots j slot found

end Plain

/-- The object that entries describe: each key stands where it came first, with the value that it
had last, and all flags are set. -/
structure IsLiteral (o : Object) (entries : List (Key × Value)) : Prop where
  keys : o.slots.keys = (entries.map Prod.fst).eraseDups
  slots : ∀ k, o.slots.get? k = (lastValue? entries k).map .plain
  size : o.slots.size = (entries.map Prod.fst).toFinset.card
  extensible : o.extensible = true
  function : o.function = none
  finalizers : o.finalizers = []

/-- The slots of entries. -/
def plains (entries : List (Key × Value)) : List (Key × Slot) :=
  entries.map fun e => (e.1, .plain e.2)

theorem isLiteral_putAll (n : Nat) (entries : List (Key × Value)) :
    IsLiteral { new none with refs := n, slots := Table.empty.putAll (plains entries) }
      entries := by
  have keys : (plains entries).map Prod.fst = entries.map Prod.fst := by
    rw [plains, List.map_map]
    rfl
  refine ⟨?_, fun k => ?_, ?_, rfl, rfl, rfl⟩
  · rw [← keys]
    exact Table.keys_putAll .empty (plains entries)
  · show (Table.empty.putAll (plains entries)).get? k = _
    rw [Table.get?_putAll, plains, ← List.map_reverse, List.find?_map, lastValue?]
    simp only [Table.get?_empty, Option.or_none, Option.map_map, Function.comp_def]
  · rw [← keys]
    exact Table.size_putAll (plains entries)

/-- What an object of entries keeps alive is what is left of the entries. -/
theorem IsLiteral.holds_iff {o : Object} {entries : List (Key × Value)}
    (literal : o.IsLiteral entries) {j : ObjectId} :
    o.Holds j ↔ ∃ k, lastValue? entries k = some (.object j) := by
  constructor
  · rintro (stored | stored | stored | ⟨callable, -⟩ | added)
    · rename_i k _ _ _
      rw [literal.slots, Option.map_eq_some_iff] at stored
      obtain ⟨v, last, same⟩ := stored
      cases same
      exact ⟨k, last⟩
    · rw [literal.slots, Option.map_eq_some_iff] at stored
      obtain ⟨v, -, other⟩ := stored
      cases other
    · rw [literal.slots, Option.map_eq_some_iff] at stored
      obtain ⟨v, -, other⟩ := stored
      cases other
    · rw [literal.function] at callable
      cases callable
    · rw [literal.finalizers] at added
      cases added
  · rintro ⟨k, last⟩
    exact .value (k := k) ((literal.slots k).trans (by rw [last]; rfl))

end Object

namespace Host

/-- Enter a value under a key, whatever stood there. -/
def writeEntry (h : Handover) (id : ObjectId) (w : Host) (e : Key × Value) : Host :=
  (w.writeSlot id e.1 (.plain e.2)).release (h.spent e.2)

/-- Enter values one after the other. -/
def writeEntries (h : Handover) (id : ObjectId) (entries : List (Key × Value)) (w : Host) : Host :=
  entries.foldl (writeEntry h id) w

/-- Assign values one after the other. The answers come with the host. -/
def assignEntries (h : Handover) (id : ObjectId) :
    List (Key × Value) → Host → List (Outcome Bool) × Host
  | [], w => ([], w)
  | e :: rest, w =>
    let (answer, w) := w.assign id e.1 e.2
    let (answers, w) := assignEntries h id rest (w.release (h.spent e.2))
    (answer :: answers, w)

/-- To make an object from entries is to enter them into a new one, and to keep the references. -/
theorem createFrom_eq (w : Host) (entries : List (Key × Value)) :
    w.createFrom entries =
      ((w.create none).1, writeEntries .lent (w.create none).1 entries (w.create none).2) := by
  have entered : writeEntry .lent (w.create none).1 =
      fun w' e => w'.writeSlot (w.create none).1 e.1 (.plain e.2) := by
    funext w' e
    exact Host.release_nil _
  rw [writeEntries, entered]
  rfl

@[simp] theorem rooted_writeEntry (h : Handover) (id : ObjectId) (w : Host) (e : Key × Value) :
    (w.writeEntry h id e).rooted = w.rooted := by
  rw [writeEntry, rooted_release, writeSlot, rooted_release]
  rfl

@[simp] theorem rooted_writeEntries (h : Handover) (id : ObjectId) (entries : List (Key × Value))
    (w : Host) : (w.writeEntries h id entries).rooted = w.rooted := by
  induction entries generalizing w with
  | nil => rfl
  | cons e rest ih => exact (ih _).trans (rooted_writeEntry h id w e)

/-- No other object is changed. -/
theorem Leaves.writeEntries {h : Handover} {id j : ObjectId} (ne : j ≠ id)
    (entries : List (Key × Value)) (w : Host) : w.Leaves (w.writeEntries h id entries) j := by
  induction entries generalizing w with
  | nil => exact .same rfl
  | cons e rest ih =>
    exact ((Leaves.writeSlot w e.1 (.plain e.2) ne).trans (.release _ _ j)).trans (ih _)

section Entries

variable {h : Handover} {held : Multiset ObjectId} {w : Host} {id : ObjectId} {o : Object}

/-- To assign to an object whose slots are all plain is to write into it. -/
theorem assign_plain (found : w.object? id = some o) (plain : o.Plain) (k : Key) (v : Value) :
    w.assign id k v = (.ok true, w.writeSlot id k (.plain v)) := by
  obtain ⟨old, accepts⟩ := plain.accepts k v
  exact assignWith_accepted found accepts

/-- A client that holds an object, and what it is to give up, enters a value into the object. -/
theorem moves_writeEntry {e : Key × Value} {rest : List ObjectId}
    (s : Client.Sound ⟨id ::ₘ (held + (h.spent e.2 ++ rest : List ObjectId)), w⟩)
    (found : w.object? id = some o) (plain : o.Plain)
    (owned : ∀ j ∈ e.2.references, j ∈ h.spent e.2 ∨ j ∈ held) :
    Moves Deed.plain ⟨id ::ₘ (held + (h.spent e.2 ++ rest : List ObjectId)), w⟩
      ⟨id ::ₘ (held + (rest : Multiset ObjectId)), w.writeEntry h id e⟩ := by
  have alive : ∀ j ∈ e.2.references, w.isAlive j = true := by
    intro j inside
    refine Client.Keeps.alive (.held ?_) s
    rcases owned j inside with spent | kept
    · simp [spent]
    · simp [kept]
  have written (mine : Multiset ObjectId) :
      Moves Deed.plain ⟨mine, w⟩ ⟨mine, w.writeSlot id e.1 (.plain e.2)⟩ :=
    .one (.write found (plain.opened.permits e.1 (.plain e.2)) alive) rfl
  refine (written _).trans (.release rfl ?_)
  rw [← Multiset.coe_add, Multiset.cons_add, add_assoc,
    add_comm (rest : Multiset ObjectId)]

/-- What is entered stands in the object, and nothing else of it has changed. -/
theorem object?_writeEntry {e : Key × Value} (found : w.object? id = some o)
    (alive : (w.writeEntry h id e).isAlive id = true) :
    ∃ n, (w.writeEntry h id e).object? id =
      some { o with refs := n, slots := o.slots.put e.1 (.plain e.2) } := by
  obtain ⟨o', found'⟩ := (Heap.isAlive_iff _ id).1 alive
  obtain ⟨u, n, written, rfl⟩ := Leaves.release _ _ id o' found'
  obtain ⟨v, m, found_v, rfl⟩ := object?_writeSlot_same written
  cases Option.some.inj (found.symm.trans found_v)
  exact ⟨n, found'⟩

/-- Entries are assigned to an object whose slots are all plain by writing them into it. -/
theorem writeEntries_spec {entries : List (Key × Value)}
    (s : Client.Sound ⟨id ::ₘ (held + (h.spentAll entries : Multiset ObjectId)), w⟩)
    (found : w.object? id = some o) (plain : o.Plain)
    (owned : ∀ e ∈ entries, ∀ j ∈ e.2.references, j ∈ h.spent e.2 ∨ j ∈ held) :
    Moves Deed.plain ⟨id ::ₘ (held + (h.spentAll entries : Multiset ObjectId)), w⟩
      ⟨id ::ₘ held, w.writeEntries h id entries⟩ ∧
    w.assignEntries h id entries =
      (List.replicate entries.length (.ok true), w.writeEntries h id entries) ∧
    ∃ n, (w.writeEntries h id entries).object? id =
      some { o with refs := n, slots := o.slots.putAll (Object.plains entries) } := by
  -- The invariant is that all slots of the object are plain, so that the next assignment is
  -- accepted; and that the client still holds what it is to give up, so that it is alive.
  induction entries generalizing w o with
  | nil =>
    refine ⟨?_, rfl, o.refs, found⟩
    have nothing : id ::ₘ (held + (h.spentAll [] : Multiset ObjectId)) = id ::ₘ held := by
      simp [Handover.spentAll]
    rw [nothing]
    exact .refl _
  | cons e rest ih =>
    have parts : h.spentAll (e :: rest) = h.spent e.2 ++ h.spentAll rest := List.flatMap_cons
    rw [parts] at s ⊢
    have entered := moves_writeEntry s found plain (owned e List.mem_cons_self)
    have sound := entered.sound s
    have alive : (w.writeEntry h id e).isAlive id = true :=
      Client.Keeps.alive (.held (Multiset.mem_cons_self _ _)) sound
    obtain ⟨n, found'⟩ := object?_writeEntry found alive
    obtain ⟨moves, assigned, m, filled⟩ := ih sound found' (plain.put n)
      fun e' inside => owned e' (List.mem_cons_of_mem e inside)
    refine ⟨entered.trans moves, ?_, m, filled⟩
    have answered : w.assign id e.1 e.2 = (.ok true, w.writeSlot id e.1 (.plain e.2)) :=
      assign_plain found plain e.1 e.2
    have later : assignEntries h id rest ((w.writeSlot id e.1 (.plain e.2)).release (h.spent e.2)) =
        (List.replicate rest.length (.ok true), w.writeEntries h id (e :: rest)) := assigned
    simp only [assignEntries, answered, later, List.length_cons, List.replicate_succ]

/-- A new object is none of those that a client enters into it. -/
theorem ne_new {entries : List (Key × Value)} {k : Key} {j : ObjectId}
    (s : Client.Sound ⟨held + (h.spentAll entries : Multiset ObjectId), w⟩)
    (owned : ∀ e ∈ entries, ∀ j ∈ e.2.references, j ∈ h.spent e.2 ∨ j ∈ held)
    (inside : (k, .object j) ∈ entries) : j ≠ (w.create none).1 := by
  have holds : j ∈ held + (h.spentAll entries : Multiset ObjectId) := by
    rcases owned _ inside j (Value.mem_references.2 rfl) with spent | kept
    · exact Multiset.mem_add.2 (.inr (List.mem_flatMap.2 ⟨_, inside, spent⟩))
    · exact Multiset.mem_add.2 (.inl kept)
  obtain ⟨u, living⟩ := (Heap.isAlive_iff _ j).1 (Client.Keeps.alive (.held holds) s)
  exact Nat.ne_of_lt (s.accounted.bounded j u living)

/-- Once an object has been made from entries, an object that nobody else holds is alive if the
other one does. -/
theorem isAlive_entered {w' : Host} {entries : List (Key × Value)} {j : ObjectId}
    (s : Client.Sound ⟨(w.create none).1 ::ₘ held, w'⟩) (rooted : w'.rooted = w.rooted)
    (others : ∀ i ≠ (w.create none).1, (w.create none).2.Leaves w' i)
    (found : w'.object? (w.create none).1 = some o) (literal : o.IsLiteral entries)
    (ne : j ≠ (w.create none).1) (unheld : j ∉ held) (unrooted : j ∉ w.rooted)
    (unlinked : ∀ i o, w.object? i = some o → ¬o.Holds j) :
    w'.isAlive j = true ↔ ∃ k, lastValue? entries k = some (.object j) := by
  rw [s.alive_iff_mem, rooted, Multiset.mem_add, Multiset.mem_add, Heap.mem_holdings,
    ← literal.holds_iff]
  constructor
  · rintro ((mine | rooted) | ⟨i, u, living, holds⟩)
    · exact absurd (Multiset.mem_cons.1 mine) (not_or.2 ⟨ne, unheld⟩)
    · exact absurd rooted unrooted
    · by_cases new : i = (w.create none).1
      · subst new
        cases Option.some.inj (found.symm.trans living)
        exact holds
      · obtain ⟨v, n, before, rfl⟩ := others i new u living
        have old : w.object? i = some v :=
          (Heap.get?_create_other w.heap (.new none) new).symm.trans before
        exact absurd ((Object.holds_refs v n j).1 holds) (unlinked i v old)
  · exact fun holds => .inr ⟨_, o, found, holds⟩

end Entries

end Host

namespace Session

variable {s : Session} {held : Multiset ObjectId} {w : Host} {h : Handover}
  {entries : List (Key × Value)}

/-- Wherever a run that starts at a session that a script reaches has come to, to make an object
from entries is to assign them to a new object one after the other, whether the caller keeps its
references or gives each up with its value: every assignment is accepted, and the host is the same
in all. The keys of the object stand where they came first, with the values that they had last.
Whatever the caller lets go then, of what nobody else holds that lives on which is the last value of
some key: what was only overwritten is dead. -/
theorem createFrom_assigns (reach : s.Reachable)
    (moves : Moves (fun _ => True) s.client
      ⟨held + (h.spentAll entries : Multiset ObjectId), w⟩)
    (owned : ∀ e ∈ entries, ∀ j ∈ e.2.references, j ∈ h.spent e.2 ∨ j ∈ held) :
    let id := (w.create none).1
    let built := (w.create none).2.writeEntries h id entries
    (h = .lent → w.createFrom entries = (id, built)) ∧
    (w.create none).2.assignEntries h id entries =
      (List.replicate entries.length (.ok true), built) ∧
    (∃ o, built.object? id = some o ∧ o.IsLiteral entries) ∧
    ∀ kept ids, held = kept + ((ids : List ObjectId) : Multiset ObjectId) →
      ∀ k j, (k, .object j) ∈ entries → j ∉ kept → j ∉ w.rooted →
        (∀ i o, w.object? i = some o → ¬o.Holds j) →
          ((built.release ids).isAlive j = true ↔
            ∃ k, lastValue? entries k = some (.object j)) := by
  intro id built
  have sound : Client.Sound ⟨held + (h.spentAll entries : Multiset ObjectId), w⟩ :=
    moves.sound reach.sound.client
  have created : Moves Deed.plain ⟨held + (h.spentAll entries : Multiset ObjectId), w⟩
      ⟨id ::ₘ (held + (h.spentAll entries : Multiset ObjectId)), (w.create none).2⟩ :=
    Host.moves_create fun j inside => absurd inside List.not_mem_nil
  have new : (w.create none).2.object? id = some (Object.new none) := Heap.get?_create_same _ _
  have plain : (Object.new none).Plain := ⟨rfl, fun k slot found => by cases found⟩
  obtain ⟨entered, assigned, n, filled⟩ :=
    Host.writeEntries_spec (created.sound sound) new plain owned
  refine ⟨?_, assigned, ⟨_, filled, Object.isLiteral_putAll n entries⟩, ?_⟩
  · rintro rfl
    exact w.createFrom_eq entries
  · intro kept ids parts k j inside unkept unrooted unlinked
    have parted : Client.Sound ⟨id ::ₘ kept, built.release ids⟩ := by
      refine Client.Sound.release ?_
      rw [Multiset.cons_add, ← parts]
      exact entered.sound (created.sound sound)
    obtain ⟨o, found⟩ := (Heap.isAlive_iff _ id).1
      (Client.Keeps.alive (.held (Multiset.mem_cons_self id kept)) parted)
    obtain ⟨u, m, before, rfl⟩ := Host.Leaves.release built ids id o found
    cases Option.some.inj (filled.symm.trans before)
    have rooted : (built.release ids).rooted = w.rooted :=
      (Host.rooted_release _ ids).trans (Host.rooted_writeEntries h id entries _)
    exact Host.isAlive_entered parted rooted
      (fun i ne => (Host.Leaves.writeEntries ne entries _).trans (.release _ ids i)) found
      (Object.isLiteral_putAll m entries) (Host.ne_new sound owned inside) unkept unrooted unlinked

/-- A name and a symbol come twice, and the caller gives its objects up: the one that is overwritten
dies on the way, the other one lives on in the place of the name. -/
theorem createFrom_assigns_overwritten :
    let s := (start none).run [.create (some "a"), .create (some "b")]
    let entries : List (Key × Value) := [(.name "x", .object 1), (.symbol .iterator, .bool true),
      (.name "x", .object 2), (.symbol .iterator, .null)]
    let built := (s.host.create none).2.writeEntries .given 3 entries
    (s.host.create none).2.assignEntries .given 3 entries =
      ([.ok true, .ok true, .ok true, .ok true], built) ∧
    (∃ o, built.object? 3 = some o ∧ o.slots.keys = [.name "x", .symbol .iterator] ∧
      o.slots.get? (.name "x") = some (.plain (.object 2))) ∧
    s.host.isAlive 1 = true ∧ built.isAlive 1 = false ∧ built.isAlive 2 = true := by
  intro s entries built
  have reach : s.Reachable := ⟨_, _, rfl⟩
  have mine : s.client.held = 0 + (Handover.spentAll .given entries : Multiset ObjectId) := by
    decide +kernel
  have moves : Moves (fun _ => True) s.client
      ⟨0 + (Handover.spentAll .given entries : Multiset ObjectId), s.host⟩ := mine ▸ .refl s.client
  have new : (s.host.create none).1 = 3 := by decide +kernel
  obtain ⟨-, assigned, ⟨o, found, literal⟩, lives⟩ :=
    createFrom_assigns reach moves fun e inside j owned => .inl owned
  rw [new] at assigned found lives
  have left (j : ObjectId) (inside : (.name "x", .object j) ∈ entries)
      (unrooted : j ∉ s.host.rooted) (free : j ∉ s.host.heap.holdings) :
      built.isAlive j = true ↔ ∃ k, lastValue? entries k = some (.object j) := by
    have lives_on := lives 0 [] rfl (.name "x") j inside (Multiset.notMem_zero j) unrooted
      fun i o living holds => free ((Heap.mem_holdings _ j).2 ⟨i, o, living, holds⟩)
    rwa [Host.release_nil] at lives_on
  refine ⟨assigned, ⟨o, found, literal.keys.trans (by decide), literal.slots _⟩, by decide +kernel,
    ?_, (left 2 (by decide) (by decide +kernel) (by decide +kernel)).2 ⟨.name "x", by decide⟩⟩
  rw [← Bool.not_eq_true, left 1 (by decide) (by decide +kernel) (by decide +kernel)]
  rintro ⟨k, last⟩
  have others : ∀ e ∈ entries, lastValue? entries e.1 ≠ some (.object 1) := by decide
  obtain ⟨e, is_last, -⟩ := Option.map_eq_some_iff.1 last
  have key : e.1 = k := by simpa using List.find?_some is_last
  exact others e (List.mem_reverse.1 (List.mem_of_find?_eq_some is_last)) (key ▸ last)

end Session

end Compound
