import Compound.Proofs.Readings

/-!
What the reader of configurations accepts: the texts of the grammar, and each as what is given in
it.
-/
namespace Compound.Config

theorem Truth.starts {b : Bool} {text : List Char} (is : Truth b text) :
    ∃ c more, text = c :: more ∧ isBlank c = false ∧ c ≠ ']' := by
  cases is <;> exact ⟨_, _, rfl, by decide, by decide⟩

/-- Enter what is given for a capability. -/
def enterCapability (c : Capability) (present : Bool) (caps : Capabilities) : Capabilities :=
  caps.set c present

/-- Capabilities are written and read as records of truth values. -/
theorem fits_capabilitiesShape : capabilitiesShape.Fits (fun _ => Truth) enterCapability where
  complete := Capability.mem_all
  distinct := by decide
  named f g := by cases f <;> cases g <;> decide
  reads c caps := reads_readBool.map fun present => caps.set c present
  starts _ _ _ is := is.starts

/-- What is given for capabilities counts, and the others are there. -/
theorem fill_capabilities {given : List (Σ _ : Capability, Bool)}
    (distinct : (given.map Sigma.fst).Nodup) :
    Shape.fill enterCapability given .full = capabilitiesOf given := by
  have has : ∀ c, Capabilities.has (Shape.fill enterCapability given .full) c =
      (given.dlookup c).getD true := by
    intro c
    have entered := Shape.get_fill enterCapability (fun caps => Capabilities.has caps c) id
      (fun present caps => Capabilities.has_set_same caps c present)
      (fun d present caps ne => Capabilities.has_set_other caps present (Ne.symm ne)) distinct .full
    rw [Option.map_id_fun, id] at entered
    refine Eq.trans entered ?_
    cases c <;> rfl
  exact Capabilities.mk.injEq .. ▸ ⟨has .weakMap, has .weakRef, has .finalizationRegistry⟩

/-- Enter what is given for a field of a configuration. -/
def enterField : (f : Field) → f.Content → Config → Config
  | .capabilities, given, config => { config with capabilities := capabilitiesOf given }
  | .autoReclaim, on, config => { config with autoReclaim := on }

theorem Field.Written.starts {f : Field} {content : f.Content} {text : List Char}
    (is : f.Written content text) : ∃ c more, text = c :: more ∧ isBlank c = false ∧ c ≠ ']' := by
  cases f with
  | capabilities => cases is <;> exact ⟨_, _, rfl, by decide, by decide⟩
  | autoReclaim => exact Truth.starts is

/-- Configurations are written and read as records of capabilities and a truth value. -/
theorem fits_shape : shape.Fits Field.Written enterField where
  complete f := by cases f <;> decide
  distinct := by decide
  named f g := by cases f <;> cases g <;> decide
  reads f config := by
    cases f with
    | capabilities =>
      refine ((fits_capabilitiesShape.reads_readRecord .full).map fun caps =>
        ({ config with capabilities := caps } : Config)).congr fun config' text => ?_
      constructor
      · rintro ⟨_, ⟨given, record, rfl⟩, rfl⟩
        refine ⟨given, record, ?_⟩
        rw [fill_capabilities (fits_capabilitiesShape.nodup_of_record record)]
        rfl
      · rintro ⟨given, record, rfl⟩
        refine ⟨_, ⟨given, record, rfl⟩, ?_⟩
        rw [fill_capabilities (fits_capabilitiesShape.nodup_of_record record)]
        rfl
    | autoReclaim => exact reads_readBool.map fun on => { config with autoReclaim := on }
  starts _ _ _ is := is.starts

/-- What is given for the fields of a configuration counts, and the others have their defaults. -/
theorem fill_fields {given : List (Sigma Field.Content)} (distinct : (given.map Sigma.fst).Nodup) :
    Shape.fill enterField given .standard = configOf given := by
  have capabilities := Shape.get_fill enterField Config.capabilities capabilitiesOf
    (fun given config => rfl)
    (fun f content config ne => by cases f <;> first | rfl | contradiction) distinct .standard
  have autoReclaim := Shape.get_fill enterField Config.autoReclaim id
    (fun on config => rfl)
    (fun f content config ne => by cases f <;> first | rfl | contradiction) distinct .standard
  rw [Option.map_id_fun, id] at autoReclaim
  exact Config.mk.injEq .. ▸ ⟨capabilities, autoReclaim⟩

/-- A text is read as a configuration exactly if something is written in it, and then it is read as
what is given there. -/
theorem read_eq_ok {text : String} {config : Config} :
    read text = .ok config ↔ ∃ given, Written given text.toList ∧ config = configOf given := by
  constructor
  · intro accepted
    rw [read] at accepted
    split at accepted
    · cases accepted
    · rename_i config' rest read_record
      split at accepted
      · rename_i skipped
        cases accepted
        obtain ⟨b, body, blank, same, given, record, rfl⟩ :=
          (fits_shape.reads_readRecord _ _ _ _).1 read_record
        refine ⟨given, ⟨b, body, rest, blank, skip_eq_nil.1 skipped, same, record⟩, ?_⟩
        exact fill_fields (fits_shape.nodup_of_record record)
      · cases accepted
  · rintro ⟨given, ⟨b, body, b', blank, blank', same, record⟩, rfl⟩
    have accepted : shape.readRecord .standard text.toList = .ok (configOf given, b') :=
      (fits_shape.reads_readRecord _ _ _ _).2 ⟨b, body, blank, same, given, record,
        (fill_fields (fits_shape.nodup_of_record record)).symm⟩
    rw [read, accepted]
    simp only [skip_eq_nil.2 blank']

section Leaves

/-- The truth values that are given for a field, each for a capability or else for reclaiming. -/
def Field.leaves : (f : Field) → f.Content → List (Option Capability × Bool)
  | .capabilities, given => given.map fun p => (some p.1, p.2)
  | .autoReclaim, on => [(none, on)]

/-- The truth values that are given for a configuration. -/
def leaves (given : List (Sigma Field.Content)) : List (Option Capability × Bool) :=
  given.flatMap fun p => p.1.leaves p.2

theorem mem_leaves_capability {given : List (Sigma Field.Content)} {c : Capability} {b : Bool} :
    (some c, b) ∈ leaves given ↔ ∃ caps, ⟨.capabilities, caps⟩ ∈ given ∧ ⟨c, b⟩ ∈ caps := by
  rw [leaves, List.mem_flatMap]
  constructor
  · rintro ⟨⟨f, content⟩, inside, leaf⟩
    cases f with
    | capabilities =>
      obtain ⟨⟨d, b'⟩, inside', same⟩ := List.mem_map.1 leaf
      cases same
      exact ⟨content, inside, inside'⟩
    | autoReclaim => simp [Field.leaves] at leaf
  · rintro ⟨caps, inside, inside'⟩
    exact ⟨_, inside, List.mem_map.2 ⟨_, inside', rfl⟩⟩

theorem mem_leaves_autoReclaim {given : List (Sigma Field.Content)} {b : Bool} :
    (none, b) ∈ leaves given ↔ ⟨.autoReclaim, b⟩ ∈ given := by
  rw [leaves, List.mem_flatMap]
  constructor
  · rintro ⟨⟨f, content⟩, inside, leaf⟩
    cases f with
    | capabilities => simp [Field.leaves] at leaf
    | autoReclaim =>
      cases List.mem_singleton.1 leaf
      exact inside
  · intro inside
    exact ⟨_, inside, List.mem_singleton_self _⟩

theorem has_capabilitiesOf {given : List (Σ _ : Capability, Bool)}
    (distinct : (given.map Sigma.fst).Nodup) (c : Capability) :
    (capabilitiesOf given).has c = false ↔ ⟨c, false⟩ ∈ given := by
  have has : (capabilitiesOf given).has c = (given.dlookup c).getD true := by
    cases c <;> rfl
  rw [has, ← List.mem_dlookup_iff distinct]
  cases given.dlookup c <;> simp

/-- Nothing is given twice, neither for a field nor for a capability. -/
structure Distinct (given : List (Sigma Field.Content)) : Prop where
  fields : (given.map Sigma.fst).Nodup
  capabilities : ∀ caps, ⟨.capabilities, caps⟩ ∈ given → (caps.map Sigma.fst).Nodup

theorem Items.exists_text {α : Type} {item : α → List Char → Prop} {first : Bool} {as : List α}
    {text : List Char} (items : Items item first as text) : ∀ a ∈ as, ∃ t, item a t := by
  induction items with
  | done => exact fun a inside => absurd inside List.not_mem_nil
  | item before is rest ih =>
    intro a inside
    rcases List.mem_cons.1 inside with rfl | inside
    · exact ⟨_, is⟩
    · exact ih a inside

theorem Written.distinct {given : List (Sigma Field.Content)} {text : List Char}
    (written : Written given text) : Distinct given := by
  obtain ⟨b, body, b', -, -, -, record⟩ := written
  have each : ∀ p ∈ given, ∃ t, Field.Written p.1 p.2 t := by
    intro p inside
    cases record with
    | object distinct members =>
      obtain ⟨t, member⟩ := members.exists_text p inside
      cases member with
      | mk name blank blank' is => exact ⟨_, is⟩
    | array in_order elements => exact elements.exists_text p inside
  refine ⟨fits_shape.nodup_of_record record, fun caps inside => ?_⟩
  obtain ⟨t, is⟩ := each _ inside
  exact fits_capabilitiesShape.nodup_of_record is

section Same

variable {given given' : List (Sigma Field.Content)}

theorem has_configOf (distinct : Distinct given) (c : Capability) :
    (configOf given).capabilities.has c = false ↔ (some c, false) ∈ leaves given := by
  rw [mem_leaves_capability, configOf]
  constructor
  · intro missing
    cases found : given.dlookup .capabilities with
    | none =>
      rw [found] at missing
      cases c <;> cases missing
    | some caps =>
      rw [found] at missing
      have inside := List.of_mem_dlookup (Option.mem_def.2 found)
      exact ⟨caps, inside, (has_capabilitiesOf (distinct.capabilities caps inside) c).1 missing⟩
  · rintro ⟨caps, inside, missing⟩
    rw [Option.mem_def.1 (List.mem_dlookup distinct.fields inside)]
    exact (has_capabilitiesOf (distinct.capabilities caps inside) c).2 missing

theorem autoReclaim_configOf (distinct : Distinct given) :
    (configOf given).autoReclaim = false ↔ (none, false) ∈ leaves given := by
  rw [mem_leaves_autoReclaim, ← List.mem_dlookup_iff distinct.fields, configOf]
  cases given.dlookup .autoReclaim <;> simp

/-- A configuration is made of the truth values that are given, in whatever order and form. -/
theorem configOf_congr (distinct : Distinct given) (distinct' : Distinct given')
    (same : ∀ leaf, leaf ∈ leaves given ↔ leaf ∈ leaves given') :
    configOf given = configOf given' := by
  have bool_eq : ∀ {a b : Bool}, (a = false ↔ b = false) → a = b := by decide
  have has : ∀ c, (configOf given).capabilities.has c = (configOf given').capabilities.has c :=
    fun c => bool_eq (by rw [has_configOf distinct, has_configOf distinct', same])
  have on : (configOf given).autoReclaim = (configOf given').autoReclaim :=
    bool_eq (by rw [autoReclaim_configOf distinct, autoReclaim_configOf distinct', same])
  have capabilities : (configOf given).capabilities = (configOf given').capabilities :=
    Capabilities.mk.injEq .. ▸ ⟨has .weakMap, has .weakRef, has .finalizationRegistry⟩
  exact Config.mk.injEq .. ▸ ⟨capabilities, on⟩

end Same

end Leaves

section Writer

/-- A character that stands for itself in a string. -/
def isPlain (c : Char) : Bool :=
  c != '"' && c != '\\' && Nat.ble 0x20 c.toNat

theorem Spells.of_plain {s : List Char} (plain : s.all isPlain = true) : Spells s s := by
  induction s with
  | nil => exact .nil
  | cons c rest ih =>
    rw [List.all_cons, Bool.and_eq_true] at plain
    obtain ⟨first, others⟩ := plain
    simp only [isPlain, Bool.and_eq_true, bne_iff_ne, Nat.ble_eq] at first
    exact .plain first.1.1 first.1.2 first.2 (ih others)

/-- Items that begin a list go on with one after a comma. -/
theorem Items.comma {α : Type} {item : α → List Char → Prop} {a : α} {as : List α}
    {text : List Char} (items : Items item true (a :: as) text) :
    Items item false (a :: as) (',' :: text) := by
  cases items with
  | item before is rest =>
    cases before with
    | first blank => exact .item (.next .nil blank) is rest

theorem items_intercalate {α : Type} {item : α → List Char → Prop} {write : α → List Char}
    {as : List α} (written : ∀ a ∈ as, item a (write a)) :
    Items item true as ([','].intercalate (as.map write)) := by
  induction as with
  | nil => exact .done .nil
  | cons a rest ih =>
    have first := written a List.mem_cons_self
    have items := ih fun b inside => written b (List.mem_cons_of_mem a inside)
    cases rest with
    | nil =>
      have alone := Items.item (.first .nil) first (.done .nil : Items item false [] [])
      rw [List.append_nil] at alone
      rw [List.map_singleton, List.intercalate_singleton]
      exact alone
    | cons b rest =>
      rw [List.map_cons, List.map_cons, List.intercalate_cons_cons]
      have several := Items.item (.first .nil) first items.comma
      rw [List.append_assoc]
      exact several

/-- An object that is written lists its members, one for each field. -/
theorem record_writeObject {φ : Type} {ν : φ → Type} (fields : List φ) (label : φ → String)
    {value : (f : φ) → ν f → List Char → Prop} {given : List (Sigma ν)} {write : Sigma ν → String}
    (plain : ∀ f, (label f).toList.all isPlain = true)
    (written : ∀ p ∈ given, value p.1 p.2 (write p).toList)
    (distinct : (given.map Sigma.fst).Nodup) :
    Record fields label value given
      (writeObject (given.map fun p => (label p.1, write p))).toList := by
  have members : ∀ p ∈ given, Member label value p
      ("\"" ++ label p.1 ++ "\":" ++ write p).toList := by
    intro p inside
    have member : Member label value p _ :=
      .mk (Spells.of_plain (plain p.1)) .nil .nil (written p inside)
    simpa using member
  have record : Record fields label value given _ := .object distinct (items_intercalate members)
  simpa [writeObject, String.toList_intercalate, Function.comp_def] using record

/-- All that can be given for a configuration. -/
def everything (config : Config) : List (Sigma Field.Content) :=
  [⟨.capabilities, Capability.all.map fun c => ⟨c, config.capabilities.has c⟩⟩,
    ⟨.autoReclaim, config.autoReclaim⟩]

theorem configOf_everything (config : Config) : configOf (everything config) = config := rfl

theorem truth_writeBool (b : Bool) : Truth b (writeBool b).toList := by
  cases b
  · exact .no
  · exact .yes

/-- Write what is given for a field. -/
def writeContent : (f : Field) → f.Content → String
  | .capabilities, given => writeObject (given.map fun p => (Capability.field p.1, writeBool p.2))
  | .autoReclaim, on => writeBool on

theorem write_eq (config : Config) : write config =
    writeObject ((everything config).map fun p => (Field.label p.1, writeContent p.1 p.2)) := by
  simp only [write, writeCapabilities, everything, writeContent, List.map_cons, List.map_nil,
    List.map_map, Function.comp_def]

/-- A configuration is written with everything that can be given for it. -/
theorem written_write (config : Config) : Written (everything config) (write config).toList := by
  let present : List (Σ _ : Capability, Bool) :=
    Capability.all.map fun c => ⟨c, config.capabilities.has c⟩
  have capabilities :
      Field.Written .capabilities present (writeContent .capabilities present).toList :=
    record_writeObject _ _ (fun c => by cases c <;> rfl) (fun p _ => truth_writeBool p.2)
      (show Capability.all.Nodup by decide)
  have contents : ∀ p ∈ everything config, Field.Written p.1 p.2 (writeContent p.1 p.2).toList := by
    intro p inside
    rcases List.mem_cons.1 inside with rfl | inside
    · exact capabilities
    · cases List.mem_singleton.1 inside
      exact truth_writeBool config.autoReclaim
  have record := record_writeObject Field.all Field.label (fun f => by cases f <;> rfl) contents
    (show Field.all.Nodup by decide)
  rw [← write_eq] at record
  refine ⟨[], (write config).toList, [], .nil, .nil, ?_, record⟩
  rw [List.nil_append, List.append_nil]

/-- The reader of configurations accepts a text exactly if something is written in it, and then it
gives what is written, over the defaults. So the form and the order do not count, only the truth
values that are given. A configuration that was written is read back. -/
theorem read_iff_written :
    (∀ text config, read text = .ok config ↔
      ∃ given, Written given text.toList ∧ config = configOf given) ∧
    (∀ text text' given given', Written given text.toList → Written given' text'.toList →
      (∀ leaf, leaf ∈ leaves given ↔ leaf ∈ leaves given') → read text = read text') ∧
    ∀ config, read (write config) = .ok config := by
  refine ⟨fun text config => read_eq_ok, fun text text' given given' written written' same => ?_,
    fun config => ?_⟩
  · rw [read_eq_ok.2 ⟨given, written, rfl⟩, read_eq_ok.2 ⟨given', written', rfl⟩,
      configOf_congr written.distinct written'.distinct same]
  · exact read_eq_ok.2 ⟨_, written_write config, (configOf_everything config).symm⟩

/-- An object whose key is spelled with an escape, and an array whose first element gives
nothing. -/
theorem read_iff_written_escaped :
    read "\x7b \"\\u0061uto_reclaim\":false\x7d" = .ok ⟨.full, false⟩ ∧
      read "[[],false]\n" = read "\x7b \"\\u0061uto_reclaim\":false\x7d" := by
  have blank : Blanks [' '] := by simp [Blanks]
  have newline : Blanks ['\n'] := by simp [Blanks]
  have code : CodeUnit ['0', '0', '6', '1'] ('a').toNat := codeUnit?_eq_some.1 (by decide)
  have key : Spells _ (Field.label .autoReclaim).toList :=
    .escape (.unit code) (Spells.of_plain rfl)
  have off : Field.Written .autoReclaim false _ := Truth.no
  have object : Record Field.all Field.label Field.Written [⟨.autoReclaim, false⟩] _ :=
    .object (by decide) (.item (.first blank) (.mk key .nil .nil off) (.done .nil))
  have nothing : Field.Written .capabilities [] _ := Record.array (List.nil_prefix) (.done .nil)
  have array : Record Field.all Field.label Field.Written
      [⟨.capabilities, []⟩, ⟨.autoReclaim, false⟩] _ :=
    .array (by decide) (.item (.first .nil) nothing (.item (.next .nil .nil) off (.done .nil)))
  obtain ⟨accepts, same, -⟩ := read_iff_written
  have written : Written [⟨.autoReclaim, false⟩] "\x7b \"\\u0061uto_reclaim\":false\x7d".toList :=
    ⟨[], _, [], .nil, .nil, rfl, object⟩
  have written' : Written [⟨.capabilities, []⟩, ⟨.autoReclaim, false⟩] "[[],false]\n".toList :=
    ⟨[], _, ['\n'], .nil, newline, rfl, array⟩
  exact ⟨(accepts _ _).2 ⟨_, written, rfl⟩, same _ _ _ _ written' written fun leaf => Iff.rfl⟩

end Writer

end Compound.Config
