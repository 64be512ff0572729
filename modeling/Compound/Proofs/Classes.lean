import Compound.Proofs.Members

/-!
The class of a value for a registry, and what may be embedded. One class is told from the other by
questions that are asked one after the other: whether the value is an object, whether it is
callable, what its tag is and whether it is a box. An object may be callable, tagged and a box at
once; the first question that is answered decides.
-/
namespace Compound

theorem Class.isEmbeddable_eq_false {cls : Class} :
    cls.isEmbeddable = false ↔ cls = .function ∨ cls = .object := by
  cases cls <;> simp [isEmbeddable]

namespace Host

variable {w : Host} {r : RegistryId} {reg : Registry} {v : Value} {cls : Class}

/-- What a value is, by what the host and a registry answer about it. -/
inductive Classed (w : Host) (reg : Registry) : Value → Class → Prop
  | primitive {v : Value} (primitive : v.identity = none) : Classed w reg v .primitive
  | function {id : ObjectId} (callable : w.isCallable id = true) :
      Classed w reg (.object id) .function
  | record {id : ObjectId} (plain : w.isCallable id = false)
      (tagged : reg.tagOf (.object id) = some .record) : Classed w reg (.object id) .record
  | tuple {id : ObjectId} {n : Nat} (plain : w.isCallable id = false)
      (tagged : reg.tagOf (.object id) = some (.tuple n)) : Classed w reg (.object id) (.tuple n)
  | box {id : ObjectId} (plain : w.isCallable id = false)
      (untagged : reg.tagOf (.object id) = none) (boxed : reg.isBox (.object id) = true) :
      Classed w reg (.object id) .box
  | object {id : ObjectId} (plain : w.isCallable id = false)
      (untagged : reg.tagOf (.object id) = none) (unboxed : reg.isBox (.object id) = false) :
      Classed w reg (.object id) .object

/-- Every value has a class. -/
theorem classed_classOf (found : w.registry? r = some reg) (v : Value) :
    Classed w reg v (w.classOf r v) := by
  cases primitive : v.identity with
  | none =>
    rw [classOf, primitive]
    exact .primitive primitive
  | some id =>
    cases Value.identity_eq_some primitive
    simp only [classOf, primitive, found, Option.bind_some, Option.any_some]
    cases callable : w.isCallable id with
    | true => exact .function callable
    | false =>
      cases tagged : reg.tagOf (.object id) with
      | some t =>
        cases t with
        | record => exact .record callable tagged
        | tuple n => exact .tuple callable tagged
      | none =>
        cases boxed : reg.isBox (.object id) with
        | true => exact .box callable tagged boxed
        | false => exact .object callable tagged boxed

/-- No value has two classes. -/
theorem Classed.unique {cls' : Class} (first : Classed w reg v cls)
    (second : Classed w reg v cls') : cls = cls' := by
  cases first <;> cases second <;> simp_all

theorem Classed.kindOf_eq (classed : Classed w reg v .object) : w.kindOf v = .object := by
  cases classed with
  | object plain => simp [kindOf, plain]

theorem classOf_eq_iff (found : w.registry? r = some reg) :
    w.classOf r v = cls ↔ Classed w reg v cls := by
  refine ⟨?_, (classed_classOf found v).unique⟩
  rintro rfl
  exact classed_classOf found v

theorem classOf_eq_primitive (found : w.registry? r = some reg) :
    w.classOf r v = .primitive ↔ v.identity = none := by
  rw [classOf_eq_iff found]
  refine ⟨fun classed => ?_, .primitive⟩
  cases classed with
  | primitive primitive => exact primitive

theorem classOf_eq_function (found : w.registry? r = some reg) :
    w.classOf r v = .function ↔ v.identity.any w.isCallable = true := by
  rw [classOf_eq_iff found]
  refine ⟨fun classed => ?_, fun callable => ?_⟩
  · cases classed with
    | function callable => exact callable
  · obtain ⟨id, is, callable⟩ := (Option.any_eq_true _ _).1 callable
    cases Value.identity_eq_some is
    exact .function callable

/-- What is registered of an object that is not callable decides its class. -/
theorem classOf_plain (found : w.registry? r = some reg) {id : ObjectId}
    (plain : w.isCallable id = false) :
    let v : Value := .object id
    (w.classOf r v = .record ↔ reg.isRecord v = true) ∧
      (∀ n, w.classOf r v = .tuple n ↔ reg.tupleLength v = some n) ∧
      (w.classOf r v = .box ↔ reg.isTagged v = false ∧ reg.isBox v = true) ∧
      (w.classOf r v = .object ↔ reg.isTagged v = false ∧ reg.isBox v = false) := by
  simp only [Registry.isRecord_iff, Registry.tupleLength_eq_some, Registry.isTagged_eq_false,
    classOf_eq_iff found]
  refine ⟨⟨fun classed => ?_, .record plain⟩, fun n => ⟨fun classed => ?_, .tuple plain⟩,
    ⟨fun classed => ?_, fun entries => .box plain entries.1 entries.2⟩,
    ⟨fun classed => ?_, fun entries => .object plain entries.1 entries.2⟩⟩
  · cases classed with
    | record _ tagged => exact tagged
  · cases classed with
    | tuple _ tagged => exact tagged
  · cases classed with
    | box _ untagged boxed => exact ⟨untagged, boxed⟩
  · cases classed with
    | object _ untagged unboxed => exact ⟨untagged, unboxed⟩

/-- The two ways to be refused are the two classes that may not be embedded. -/
theorem validate_eq_error {failure : Failure} :
    (w.validate r v).1 = .error failure ↔
      (w.classOf r v = .function ∧ failure = .functionMember) ∨
        (w.classOf r v = .object ∧ failure = .objectMember (w.kindOf v)) := by
  rw [outcome_validate]
  cases w.classOf r v <;> simp [rejection?, eq_comm]

theorem validate_eq_functionMember :
    (w.validate r v).1 = .error .functionMember ↔ w.classOf r v = .function := by
  simp [validate_eq_error]

/-- What is refused as an object is called an object. -/
theorem validate_eq_objectMember (found : w.registry? r = some reg) :
    (w.validate r v).1 = .error (.objectMember .object) ↔ w.classOf r v = .object := by
  simp only [validate_eq_error, reduceCtorEq, and_false, false_or, Failure.objectMember.injEq]
  refine ⟨And.left, fun object => ⟨object, ?_⟩⟩
  exact ((classOf_eq_iff found).1 object).kindOf_eq.symm

/-- In every host the class that a registry gives to a value is primitive exactly if the value has
no identity, and function exactly if it is callable, whatever is registered of it. An object that
is not callable is a Record or a Tuple of a length exactly if it is tagged so, a box exactly if it
has no tag and is registered as a box, and else just an object. A value is handed back exactly if
its class may be embedded. It is refused as a function exactly if it is callable, and as an object
in all other cases. -/
theorem class_decides (found : w.registry? r = some reg) (v : Value) :
    let cls := w.classOf r v
    let callable := v.identity.any w.isCallable
    let verdict := (w.validate r v).1
    (cls = .primitive ↔ v.identity = none) ∧ (cls = .function ↔ callable = true) ∧
      (∀ id, v = .object id → callable = false →
        (cls = .record ↔ reg.isRecord v = true) ∧
        (∀ n, cls = .tuple n ↔ reg.tupleLength v = some n) ∧
        (cls = .box ↔ reg.isTagged v = false ∧ reg.isBox v = true) ∧
        (cls = .object ↔ reg.isTagged v = false ∧ reg.isBox v = false)) ∧
      (verdict = .ok v ↔ cls.isEmbeddable = true) ∧
      (verdict = .error .functionMember ↔ callable = true) ∧
      (verdict = .error (.objectMember .object) ↔
        cls.isEmbeddable = false ∧ callable = false) := by
  intro cls callable verdict
  have function : cls = .function ↔ callable = true := classOf_eq_function found
  have object : cls = .object ↔ cls.isEmbeddable = false ∧ callable = false := by
    rw [Class.isEmbeddable_eq_false, ← Bool.not_eq_true, ← function]
    constructor
    · intro object
      simp [object]
    · rintro ⟨unfit, plain⟩
      exact unfit.resolve_left plain
  refine ⟨classOf_eq_primitive found, function, ?_, validate_eq_ok w r v,
    validate_eq_functionMember.trans function, (validate_eq_objectMember found).trans object⟩
  rintro id rfl plain
  exact classOf_plain found plain

/-- A function that is tagged and a box at once is a function. A tagged box is a Record, an untagged
one a box, whatever it holds, and what is in a box is just an object. -/
theorem class_decides_overlapping :
    let w := (Session.run (.start (some false)) [.function .receiver "f" false (some "f"),
      .create (some "v"), .pair "r" "f" (.handle "v"), .tagTuple "r" "f" 3, .create (some "b"),
      .create (some "u"), .pair "r" "b" (.handle "u"), .tagRecord "r" "b", .create (some "c"),
      .pair "r" "c" (.handle "f")]).host
    ∃ reg, w.registry? 0 = some reg ∧ reg.tupleLength (.object 1) = some 3 ∧
      reg.isBox (.object 1) = true ∧ w.classOf 0 (.object 1) = .function ∧
      (w.validate 0 (.object 1)).1 = .error .functionMember ∧
      reg.isBox (.object 3) = true ∧ w.classOf 0 (.object 3) = .record ∧
      w.classOf 0 (.object 5) = .box ∧ (w.validate 0 (.object 5)).1 = .ok (.object 5) ∧
      (w.validate 0 (.object 4)).1 = .error (.objectMember .object) := by
  intro w
  obtain ⟨reg, found, entries⟩ := (Option.any_eq_true _ _).1
    (by decide +kernel : (w.registry? 0).any (fun reg => decide (
      reg.tupleLength (.object 1) = some 3 ∧ reg.isBox (.object 1) = true ∧
      reg.isBox (.object 3) = true ∧ reg.isRecord (.object 3) = true ∧
      reg.isTagged (.object 5) = false ∧ reg.isBox (.object 5) = true ∧
      reg.isTagged (.object 4) = false ∧ reg.isBox (.object 4) = false)) = true)
  obtain ⟨tupleF, boxF, boxB, recordB, untaggedC, boxC, untaggedU, unboxedU⟩ :=
    of_decide_eq_true entries
  have callable : w.isCallable 1 = true := by decide +kernel
  have plain : w.isCallable 3 = false ∧ w.isCallable 4 = false ∧ w.isCallable 5 = false := by
    decide +kernel
  obtain ⟨-, function, -, -, forbidden, -⟩ := class_decides found (.object 1)
  obtain ⟨-, -, tagged, -, -, -⟩ := class_decides found (.object 3)
  obtain ⟨-, -, untagged, accepted, -, -⟩ := class_decides found (.object 5)
  obtain ⟨-, -, other, -, -, refused⟩ := class_decides found (.object 4)
  have box := (untagged 5 rfl plain.2.2).2.2.1.2 ⟨untaggedC, boxC⟩
  have object := (other 4 rfl plain.2.1).2.2.2.2 ⟨untaggedU, unboxedU⟩
  refine ⟨reg, found, tupleF, boxF, function.2 callable, forbidden.2 callable, boxB,
    (tagged 3 rfl plain.1).1.2 recordB, box, accepted.2 ?_, refused.2 ⟨?_, plain.2.1⟩⟩
  · rw [box]
    rfl
  · rw [object]
    rfl

end Host

end Compound
