import Compound.Failure
import Compound.Proofs.Configurations

/-!
A key of a configuration is judged as soon as it has been read. Whatever a text goes on with behind
a key that names no field, or one that was given before, the error is that of the key.
-/
namespace Compound.Config

/-- Items with commas between them, up to a place where another item may begin. -/
inductive Begun {α : Type} (item : α → List Char → Prop) : Bool → List α → List Char → Prop
  | here {first : Bool} {lead : List Char} (before : Lead first lead) : Begun item first [] lead
  | item {first : Bool} {a : α} {as : List α} {lead text more : List Char}
      (before : Lead first lead) (is : item a text) (rest : Begun item false as more) :
      Begun item first (a :: as) (lead ++ (text ++ more))

namespace Shape

variable {φ σ : Type} {shape : Shape φ σ} {ν : φ → Type}
variable {value : (f : φ) → ν f → List Char → Prop} {set : (f : φ) → ν f → σ → σ}

theorem fieldOf?_eq_none {x : String} :
    shape.fieldOf? x = none ↔ x ∉ shape.fields.map shape.label := by
  simp [fieldOf?]

variable [DecidableEq φ]

/-- An object that has begun is read up to the place of its next key. There the fields that were
not given are open. -/
theorem Fits.readMembers_begun (fits : shape.Fits value set) {first : Bool}
    {given : List (Sigma ν)} {text : List Char}
    (begun : Begun (Member shape.label value) first given text) {unread : List φ}
    (distinct : unread.Nodup) (once : (given.map Sigma.fst).Nodup)
    (still : ∀ f ∈ given.map Sigma.fst, f ∈ unread) (s : σ) :
    ∃ first' lead s', Lead first' lead ∧ ∀ rest,
      shape.readMembers first unread s (text ++ rest) =
        shape.readMembers first' (unread.diff (given.map Sigma.fst)) s' (lead ++ rest) := by
  -- Each member leaves the reader at the rest of the text with one field less, so the induction is
  -- on the members; what they have set does not matter for a key.
  induction begun generalizing unread s with
  | @here first lead before => exact ⟨first, lead, s, before, fun rest => rfl⟩
  | @item first p given lead text more before is begun ih =>
    obtain ⟨-, once'⟩ := List.nodup_cons.1 once
    obtain ⟨first', lead', s', before', reads⟩ :=
      ih (distinct.erase p.1) once' (still_open once still) (set p.1 p.2 s)
    refine ⟨first', lead', s', before', fun rest => ?_⟩
    have parts : lead ++ (text ++ more) ++ rest = lead ++ (text ++ (more ++ rest)) := by simp
    rw [parts, fits.readMembers_member before is (still _ List.mem_cons_self), reads,
      List.map_cons, List.diff_cons]

section Keys

variable {b text raw : List Char} {given : List (Sigma ν)} {x : String}

/-- At a key an object is refused if the key names no field, or one that was given before. -/
theorem Fits.readRecord_key (fits : shape.Fits value set) (blank : Blanks b)
    (once : (given.map Sigma.fst).Nodup)
    (begun : Begun (Member shape.label value) true given text) (key : Spells raw x.toList) (s : σ) :
    (x ∉ shape.fields.map shape.label → ∀ rest,
      shape.readRecord s (b ++ '\x7b' :: (text ++ '"' :: (raw ++ '"' :: rest))) =
        .error (.unknownField x (shape.fields.map shape.label))) ∧
    (x ∈ given.map (fun p => shape.label p.1) → ∀ rest,
      shape.readRecord s (b ++ '\x7b' :: (text ++ '"' :: (raw ++ '"' :: rest))) =
        .error (.duplicateField x)) := by
  obtain ⟨first, lead, s', before, reads⟩ :=
    fits.readMembers_begun begun fits.distinct once (fun f _ => fits.complete f) s
  refine ⟨fun unknown rest => ?_, fun again rest => ?_⟩
  · rw [readRecord_brace blank, reads, readMembers_key before key, fieldOf?_eq_none.2 unknown]
  · obtain ⟨p, inside, rfl⟩ := List.mem_map.1 again
    have read : p.1 ∉ shape.fields.diff (given.map Sigma.fst) := fun still =>
      (fits.distinct.mem_sdiff_iff.1 still).2 (List.mem_map_of_mem inside)
    rw [readRecord_brace blank, reads, readMembers_key before key, fits.fieldOf?_eq_some.2 rfl]
    exact if_neg read

/-- At the key of a field that is not given yet an object goes on with the value of the field. -/
theorem Fits.readRecord_value (fits : shape.Fits value set) (blank : Blanks b)
    (once : (given.map Sigma.fst).Nodup)
    (begun : Begun (Member shape.label value) true given text) {f : φ}
    (fresh : f ∉ given.map Sigma.fst) (name : Spells raw (shape.label f).toList)
    {b₁ b₂ : List Char} (blank₁ : Blanks b₁) (blank₂ : Blanks b₂) (s : σ) :
    ∃ s', ∀ c rest, isBlank c = false → ∀ e, shape.read f s' (c :: rest) = .error e →
      shape.readRecord s
        (b ++ '\x7b' :: (text ++ '"' :: (raw ++ '"' :: (b₁ ++ ':' :: (b₂ ++ c :: rest))))) =
          .error e := by
  obtain ⟨first, lead, s', before, reads⟩ :=
    fits.readMembers_begun begun fits.distinct once (fun f _ => fits.complete f) s
  refine ⟨s', fun c rest filled e refused => ?_⟩
  have still : f ∈ shape.fields.diff (given.map Sigma.fst) :=
    fits.distinct.mem_sdiff_iff.2 ⟨fits.complete f, fresh⟩
  have colon : readColon (b₁ ++ ':' :: (b₂ ++ c :: rest)) = .ok (b₂ ++ c :: rest) :=
    readColon_eq_ok.2 ⟨b₁, blank₁, rfl⟩
  rw [readRecord_brace blank, reads, readMembers_key before name, fits.fieldOf?_eq_some.2 rfl]
  simp only [if_pos still, colon, Except.bind, skip_blanks blank₂ filled, refused]

end Keys

end Shape

section Places

/-- A text up to the place where the value for the capabilities begins. -/
inductive Opens : List Char → Prop
  | member {b text raw b₁ b₂ : List Char} {given : List (Sigma Field.Content)} (blank : Blanks b)
      (once : (given.map Sigma.fst).Nodup) (fresh : Field.capabilities ∉ given.map Sigma.fst)
      (begun : Begun (Member Field.label Field.Written) true given text)
      (name : Spells raw (Field.label .capabilities).toList) (blank₁ : Blanks b₁)
      (blank₂ : Blanks b₂) :
      Opens (b ++ '\x7b' :: (text ++ '"' :: (raw ++ '"' :: (b₁ ++ ':' :: b₂))))
  | element {b b' : List Char} (blank : Blanks b) (blank' : Blanks b') : Opens (b ++ '[' :: b')

/-- The objects of a configuration text: the whole, and the capabilities in it. -/
inductive Level where
  | whole
  | capabilities
  deriving DecidableEq, Repr

/-- The names of the fields of an object. -/
def Level.names : Level → List String
  | whole => ["capabilities", "auto_reclaim"]
  | capabilities => ["weak_map", "weak_ref", "finalization_registry"]

/-- The names of the fields of an object, as an error lists them. -/
def Level.listing : Level → String
  | whole => "`capabilities` or `auto_reclaim`"
  | capabilities => "one of `weak_map`, `weak_ref`, `finalization_registry`"

theorem Level.choice_names (level : Level) : choice level.names = level.listing := by
  cases level <;> rfl

/-- A text up to the place of a key, with the names of the fields that are given in the object of
the key. Everything before the key is right. -/
inductive KeyAt : Level → List String → List Char → Prop
  | whole {b text : List Char} {given : List (Sigma Field.Content)} (blank : Blanks b)
      (once : (given.map Sigma.fst).Nodup)
      (begun : Begun (Member Field.label Field.Written) true given text) :
      KeyAt .whole (given.map fun p => p.1.label) (b ++ '\x7b' :: text)
  | capabilities {outer text : List Char} {given : List (Σ _ : Capability, Bool)}
      (opens : Opens outer) (once : (given.map Sigma.fst).Nodup)
      (begun : Begun (Member Capability.field fun _ => Truth) true given text) :
      KeyAt .capabilities (given.map fun p => p.1.field) (outer ++ '\x7b' :: text)

/-- An error in the value for the capabilities is the error of the whole. -/
theorem Opens.readRecord {outer : List Char} (opens : Opens outer) {c : Char} {rest : List Char}
    (filled : isBlank c = false) (opened : c ≠ ']') {e : ReadError}
    (refused : capabilitiesShape.readRecord .full (c :: rest) = .error e) :
    shape.readRecord .standard (outer ++ c :: rest) = .error e := by
  have read : ∀ config, shape.read .capabilities config (c :: rest) = .error e := by
    intro config
    show (capabilitiesShape.readRecord .full (c :: rest)).map _ = _
    rw [refused]
    rfl
  cases opens with
  | member blank once fresh begun name blank₁ blank₂ =>
    obtain ⟨config, goes_on⟩ :=
      fits_shape.readRecord_value blank once begun fresh name blank₁ blank₂ .standard
    simpa using goes_on c rest filled e (read config)
  | @element b b' blank blank' =>
    have parts : b ++ '[' :: b' ++ c :: rest = b ++ '[' :: (b' ++ c :: rest) := by simp
    rw [parts, Shape.readRecord_bracket blank]
    refine (Shape.readList_item (.first blank') filled opened _ _ _ _).trans ?_
    rw [read]
    rfl

/-- An error of the whole record is the error of the reader. -/
theorem read_eq_error {text : String} {e : ReadError}
    (refused : shape.readRecord .standard text.toList = .error e) : read text = .error e := by
  rw [read, refused]

/-- At a key of an object the reader refuses the text if the key names no field of the object, or
one that was given before in it. -/
theorem KeyAt.read {level : Level} {given : List String} {front raw : List Char} {x : String}
    (place : KeyAt level given front) (key : Spells raw x.toList) {text : String}
    {rest : List Char} (is : text.toList = front ++ '"' :: (raw ++ '"' :: rest)) :
    (x ∉ level.names → read text = .error (.unknownField x level.names)) ∧
      (x ∈ given → read text = .error (.duplicateField x)) := by
  cases place with
  | whole blank once begun =>
    obtain ⟨unknown, again⟩ := fits_shape.readRecord_key blank once begun key .standard
    rw [List.append_assoc, List.cons_append] at is
    exact ⟨fun other => read_eq_error (is ▸ unknown other rest),
      fun inside => read_eq_error (is ▸ again inside rest)⟩
  | capabilities opens once begun =>
    obtain ⟨unknown, again⟩ := fits_capabilitiesShape.readRecord_key .nil once begun key .full
    rw [List.append_assoc, List.cons_append] at is
    exact ⟨fun other => read_eq_error (is ▸ opens.readRecord rfl (by decide) (unknown other rest)),
      fun inside => read_eq_error (is ▸ opens.readRecord rfl (by decide) (again inside rest))⟩

theorem message_unknownField (x : String) (names : List String) :
    (Failure.config (.unknownField x names)).message =
      "invalid runtime configuration: unknown field `" ++ x ++ "`, expected " ++ choice names := by
  have message : (Failure.config (.unknownField x names)).message =
      "invalid runtime configuration: " ++
        ("unknown field " ++ ("`" ++ x ++ "`") ++ ", expected " ++ choice names) := rfl
  have opening : "invalid runtime configuration: unknown field `" =
      "invalid runtime configuration: " ++ ("unknown field " ++ "`") := by decide +kernel
  have middle : "`, expected " = "`" ++ ", expected " := by decide +kernel
  rw [message, opening, middle]
  simp only [String.append_assoc]

theorem message_duplicateField (x : String) : (Failure.config (.duplicateField x)).message =
    "invalid runtime configuration: duplicate field `" ++ x ++ "`" := by
  have message : (Failure.config (.duplicateField x)).message =
      "invalid runtime configuration: " ++ ("duplicate field " ++ ("`" ++ x ++ "`")) := rfl
  have opening : "invalid runtime configuration: duplicate field `" =
      "invalid runtime configuration: " ++ ("duplicate field " ++ "`") := by decide +kernel
  rw [message, opening]
  simp only [String.append_assoc]

/-- A configuration is refused at a key that names no field of its object, with the names that it
could be, and at a key of a field that was given before in the object. The key counts as it reads,
by whatever spelling, and what follows it does not count. -/
theorem key_judged_first {level : Level} {given : List String} {front raw : List Char} {x : String}
    (place : KeyAt level given front) (key : Spells raw x.toList) :
    (x ∉ level.names →
      (∀ text rest, String.toList text = front ++ '"' :: (raw ++ '"' :: rest) →
        read text = .error (.unknownField x level.names)) ∧
      (Failure.config (.unknownField x level.names)).message =
        "invalid runtime configuration: unknown field `" ++ x ++ "`, expected " ++ level.listing) ∧
    (x ∈ given →
      (∀ text rest, String.toList text = front ++ '"' :: (raw ++ '"' :: rest) →
        read text = .error (.duplicateField x)) ∧
      (Failure.config (.duplicateField x)).message =
        "invalid runtime configuration: duplicate field `" ++ x ++ "`") := by
  refine ⟨fun unknown => ⟨fun text rest is => (place.read key is).1 unknown, ?_⟩,
    fun again => ⟨fun text rest is => (place.read key is).2 again, ?_⟩⟩
  · rw [message_unknownField, level.choice_names]
  · exact message_duplicateField x

/-- A capability given again by another spelling with nothing sensible behind it, and a name of the
outer object in the capabilities of an array, where the text ends. -/
theorem key_judged_first_nested :
    read "\x7b \"auto_reclaim\":true,\"capabilities\":\x7b\"weak_ref\":false,\"\\u0077eak_ref\"]" =
        .error (.duplicateField "weak_ref") ∧
      read "[ \x7b\"auto_reclaim\"" = .error (.unknownField "auto_reclaim"
        ["weak_map", "weak_ref", "finalization_registry"]) := by
  have blank : Blanks [' '] := by simp [Blanks]
  have on : Field.Written .autoReclaim true _ := Truth.yes
  have reclaiming : Member Field.label Field.Written ⟨.autoReclaim, true⟩ _ :=
    .mk (Spells.of_plain rfl) .nil .nil on
  have begun : Begun (Member Field.label Field.Written) true [⟨.autoReclaim, true⟩] _ :=
    .item (.first blank) reclaiming (.here (.next .nil .nil))
  have opens : Opens _ :=
    .member .nil (by decide) (by decide) begun (Spells.of_plain rfl) .nil .nil
  have lacking : Member Capability.field (fun _ => Truth) ⟨.weakRef, false⟩ _ :=
    .mk (Spells.of_plain rfl) .nil .nil Truth.no
  have begun' : Begun (Member Capability.field fun _ => Truth) true [⟨.weakRef, false⟩] _ :=
    .item (.first .nil) lacking (.here (.next .nil .nil))
  have code : CodeUnit ['0', '0', '7', '7'] ('w').toNat := codeUnit?_eq_some.1 (by decide)
  have key : Spells _ ("weak_ref").toList := .escape (.unit code) (Spells.of_plain rfl)
  have nothing : Begun (Member Capability.field fun _ => Truth) true [] [] := .here (.first .nil)
  have place : KeyAt .capabilities [] _ :=
    .capabilities (.element .nil blank) (by decide) nothing
  have key' : Spells _ ("auto_reclaim").toList := Spells.of_plain rfl
  obtain ⟨-, again⟩ := key_judged_first (.capabilities opens (by decide) begun') key
  obtain ⟨unknown, -⟩ := key_judged_first place key'
  exact ⟨(again (by decide)).1 _ _ rfl, (unknown (by decide)).1 _ [] rfl⟩

end Places

end Compound.Config
