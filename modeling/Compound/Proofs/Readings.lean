import Compound.Proofs.Spellings

/-!
What the reader of records accepts: lists and objects as the grammar puts them together, for every
record whose values are read as they are written. Each reader takes a part of the grammar from the
front of a text and leaves the rest.
-/
namespace Compound.Config

/-- Behind blanks a reader accepts the texts of a language. It leaves what follows. -/
def Reads {α : Type} (reader : List Char → Except ReadError (α × List Char))
    (language : α → List Char → Prop) : Prop :=
  ∀ cs a rest, reader cs = .ok (a, rest) ↔
    ∃ b text, Blanks b ∧ cs = b ++ (text ++ rest) ∧ language a text

theorem Reads.congr {α : Type} {reader : List Char → Except ReadError (α × List Char)}
    {language language' : α → List Char → Prop} (reads : Reads reader language)
    (same : ∀ a text, language a text ↔ language' a text) : Reads reader language' := by
  intro cs a rest
  simp only [← same]
  exact reads cs a rest

theorem map_eq_ok {α β : Type} {read : Except ReadError α} {f : α → β} {b : β} :
    read.map f = .ok b ↔ ∃ a, read = .ok a ∧ b = f a := by
  cases read <;> simp [Except.map, eq_comm]

/-- To go on with what was read is to name the texts otherwise. -/
theorem Reads.map {α β : Type} {reader : List Char → Except ReadError (α × List Char)}
    {language : α → List Char → Prop} (reads : Reads reader language) (f : α → β) :
    Reads (fun cs => (reader cs).map fun r => (f r.1, r.2))
      (fun b text => ∃ a, language a text ∧ b = f a) := by
  intro cs b rest
  simp only [map_eq_ok]
  constructor
  · rintro ⟨⟨a, rest⟩, read, same⟩
    cases same
    obtain ⟨b, text, blank, same, is⟩ := (reads cs a rest).1 read
    exact ⟨b, text, blank, same, a, is, rfl⟩
  · rintro ⟨b, text, blank, same, a, is, rfl⟩
    exact ⟨(a, rest), (reads cs a rest).2 ⟨b, text, blank, same, is⟩, rfl⟩

theorem readWord_eq_ok {word cs rest : List Char} :
    readWord word cs = .ok rest ↔ cs = word ++ rest := by
  fun_induction readWord word cs with
  | case1 cs => simp
  | case2 => simp
  | case3 w word cs ih => simp [ih]
  | case4 w word c cs other => simp [other]

theorem reads_readBool : Reads readBool Truth := by
  intro cs v rest
  constructor
  · intro read
    obtain ⟨b, blank, same⟩ := exists_blanks cs
    rw [readBool] at read
    split at read
    · cases read
    · rename_i more skipped
      obtain ⟨_, word, same'⟩ := map_eq_ok.1 read
      cases same'
      exact ⟨b, _, blank, same.trans (by rw [skipped, readWord_eq_ok.1 word]; rfl), .yes⟩
    · rename_i more skipped
      obtain ⟨_, word, same'⟩ := map_eq_ok.1 read
      cases same'
      exact ⟨b, _, blank, same.trans (by rw [skipped, readWord_eq_ok.1 word]; rfl), .no⟩
    · cases read
  · rintro ⟨b, text, blank, rfl, _ | _⟩
    · rw [readBool, skip_append blank]
      rfl
    · rw [readBool, skip_append blank]
      rfl

namespace Shape

variable {φ σ : Type} {shape : Shape φ σ} {ν : φ → Type}

/-- Behind the last field a list ends. -/
theorem readListEnd_eq_ok {s s' : σ} {cs rest : List Char} :
    readListEnd s cs = .ok (s', rest) ↔ ∃ b, Blanks b ∧ cs = b ++ ']' :: rest ∧ s' = s := by
  constructor
  · intro read
    obtain ⟨b, blank, same⟩ := exists_blanks cs
    rw [readListEnd] at read
    split at read
    · cases read
    · rename_i skipped
      cases read
      exact ⟨b, blank, skipped ▸ same, rfl⟩
    · split at read <;> cases read
    · cases read
  · rintro ⟨b, blank, rfl, rfl⟩
    have skipped : skip (b ++ ']' :: rest) = ']' :: rest := skip_blanks blank rfl _
    simp only [readListEnd, skipped]

/-- At an item a list goes on with the value of its field. -/
theorem readList_item {first : Bool} {lead : List Char} (before : Lead first lead) {c : Char}
    (filled : isBlank c = false) (opened : c ≠ ']') (f : φ) (fields : List φ) (s : σ)
    (more : List Char) :
    shape.readList first (f :: fields) s (lead ++ c :: more) =
      (shape.read f s (c :: more)).bind fun r => shape.readList false fields r.1 r.2 := by
  cases before with
  | first blank =>
    have skipped : skip (lead ++ c :: more) = c :: more := skip_blanks blank filled _
    rw [readList]
    split
    · rename_i ended
      cases skipped.symm.trans ended
    · rename_i closed
      cases skipped.symm.trans closed
      exact absurd rfl opened
    · rename_i item
      cases skipped.symm.trans item
      cases shape.read f s (c :: more) <;> rfl
  | @next b b' blank blank' =>
    have skipped : skip (b ++ ',' :: b' ++ c :: more) = ',' :: (b' ++ c :: more) := by
      rw [List.append_assoc]
      exact skip_blanks blank rfl _
    have skipped' : skip (b' ++ c :: more) = c :: more := skip_blanks blank' filled _
    rw [readList]
    split
    · rename_i ended
      cases skipped.symm.trans ended
    · rename_i closed
      cases skipped.symm.trans closed
    · rename_i comma
      cases skipped.symm.trans comma
      simp only [Bool.false_eq_true, if_false, if_true]
      split
      · rename_i ended
        cases skipped'.symm.trans ended
      · rename_i closed
        cases skipped'.symm.trans closed
        exact absurd rfl opened
      · rename_i item
        cases skipped'.symm.trans item
        cases shape.read f s (c :: more) <;> rfl

/-- A list goes on with a field, or it ends. -/
theorem readList_cons {first : Bool} {f : φ} {fields : List φ} {s s' : σ} {cs rest : List Char} :
    shape.readList first (f :: fields) s cs = .ok (s', rest) ↔
      (∃ b, Blanks b ∧ cs = b ++ ']' :: rest ∧ s' = s) ∨
      ∃ lead c more s₁ rest₁, Lead first lead ∧ cs = lead ++ c :: more ∧ isBlank c = false ∧
        c ≠ ']' ∧ shape.read f s (c :: more) = .ok (s₁, rest₁) ∧
          shape.readList false fields s₁ rest₁ = .ok (s', rest) := by
  constructor
  · intro read
    obtain ⟨b, blank, same⟩ := exists_blanks cs
    rw [readList] at read
    split at read
    · cases read
    · rename_i skipped
      cases read
      exact .inl ⟨b, blank, skipped ▸ same, rfl⟩
    · rename_i c more opened skipped
      have filled := filled_of_skip skipped
      split_ifs at read with is_first is_comma
      · subst is_first
        split at read
        · cases read
        · rename_i s₁ rest₁ read_item
          exact .inr ⟨b, c, more, s₁, rest₁, .first blank, skipped ▸ same, filled, opened,
            read_item, read⟩
      · subst is_comma
        split at read
        · cases read
        · cases read
        · rename_i c' more' opened' skipped'
          obtain ⟨b', blank', same'⟩ := exists_blanks more
          split at read
          · cases read
          · rename_i s₁ rest₁ read_item
            rw [Bool.not_eq_true] at is_first
            subst is_first
            refine .inr ⟨b ++ ',' :: b', c', more', s₁, rest₁, .next blank blank', ?_,
              filled_of_skip skipped', opened', read_item, read⟩
            rw [skipped] at same
            rw [same, same', skipped']
            simp
  · rintro (⟨b, blank, rfl, rfl⟩ |
      ⟨lead, c, more, s₁, rest₁, before, rfl, filled, opened, read, read'⟩)
    · have skipped : skip (b ++ ']' :: rest) = ']' :: rest := skip_blanks blank rfl _
      simp only [readList, skipped]
    · rw [readList_item before filled opened, read]
      exact read'

/-- A record with the given values filled in. -/
def fill (set : (f : φ) → ν f → σ → σ) (given : List (Sigma ν)) (s : σ) : σ :=
  given.foldl (fun s p => set p.1 p.2 s) s

/-- The fields of a shape are all there are, each with a name of its own, and the values of a field
are read as they are written. No value starts like the end of a list. -/
structure Fits (shape : Shape φ σ) (value : (f : φ) → ν f → List Char → Prop)
    (set : (f : φ) → ν f → σ → σ) : Prop where
  complete : ∀ f, f ∈ shape.fields
  distinct : shape.fields.Nodup
  named : ∀ f g, shape.label f = shape.label g → f = g
  reads : ∀ f s, Reads (shape.read f s) fun s' text => ∃ v, value f v text ∧ s' = set f v s
  starts : ∀ f v text, value f v text →
    ∃ c more, text = c :: more ∧ isBlank c = false ∧ c ≠ ']'

variable {value : (f : φ) → ν f → List Char → Prop} {set : (f : φ) → ν f → σ → σ}

/-- A list is read as the values of the fields from the next one on. -/
theorem Fits.readList_eq_ok (fits : shape.Fits value set) {first : Bool} {fields : List φ}
    {s s' : σ} {cs rest : List Char} :
    shape.readList first fields s cs = .ok (s', rest) ↔
      ∃ given text, cs = text ++ ']' :: rest ∧ given.map Sigma.fst <+: fields ∧
        Items (fun p => value p.1 p.2) first given text ∧ s' = fill set given s := by
  constructor
  · intro read
    induction fields generalizing first s cs with
    | nil =>
      obtain ⟨b, blank, same, rfl⟩ := readListEnd_eq_ok.1 read
      exact ⟨[], b, same, List.nil_prefix, .done blank, rfl⟩
    | cons f fields ih =>
      rcases readList_cons.1 read with ⟨b, blank, same, rfl⟩ |
        ⟨lead, c, more, s₁, rest₁, before, same, filled, opened, read_item, read_rest⟩
      · exact ⟨[], b, same, List.nil_prefix, .done blank, rfl⟩
      · obtain ⟨b, text, blank, same', v, is, rfl⟩ := (fits.reads f s _ _ _).1 read_item
        obtain ⟨given, text', rfl, in_order, items, rfl⟩ := ih read_rest
        refine ⟨⟨f, v⟩ :: given, lead ++ b ++ (text ++ text'), ?_,
          List.cons_prefix_cons.2 ⟨rfl, in_order⟩, .item (before.append blank) is items, rfl⟩
        rw [same, same']
        simp
  · rintro ⟨given, text, rfl, in_order, items, rfl⟩
    induction given generalizing first fields s text with
    | nil =>
      cases items with
      | done blank =>
        cases fields with
        | nil => exact readListEnd_eq_ok.2 ⟨text, blank, rfl, rfl⟩
        | cons f fields => exact readList_cons.2 (.inl ⟨text, blank, rfl, rfl⟩)
    | cons p given ih =>
      obtain ⟨f, v⟩ := p
      cases fields with
      | nil => exact absurd (List.prefix_nil.1 in_order) (List.cons_ne_nil _ _)
      | cons f' fields =>
        obtain ⟨rfl, in_order'⟩ := List.cons_prefix_cons.1 in_order
        cases items with
        | @item _ _ _ lead text more before is items =>
          obtain ⟨c, more', rfl, filled, opened⟩ := fits.starts f v text is
          refine readList_cons.2 (.inr ⟨lead, c, more' ++ (more ++ ']' :: rest), set f v s,
            more ++ ']' :: rest, before, by simp, filled, opened, ?_, ih _ in_order' items⟩)
          exact (fits.reads f s _ _ _).2 ⟨[], _, .nil, by simp, v, is, rfl⟩

/-- The end of an object is found behind blanks. -/
theorem nextKey_eq_close {first : Bool} {cs rest : List Char} :
    nextKey first cs = .ok (.close rest) ↔ ∃ b, Blanks b ∧ cs = b ++ '\x7d' :: rest := by
  constructor
  · intro next
    obtain ⟨b, blank, same⟩ := exists_blanks cs
    rw [nextKey] at next
    split at next
    · cases next
    · rename_i skipped
      cases next
      exact ⟨b, blank, skipped ▸ same⟩
    · split_ifs at next
      · cases next
      · split at next <;> cases next
  · rintro ⟨b, blank, rfl⟩
    have skipped : skip (b ++ '\x7d' :: rest) = '\x7d' :: rest := skip_blanks blank rfl _
    simp only [nextKey, skipped]

/-- The next key of an object is found behind what stands before an item. -/
theorem nextKey_eq_key {first : Bool} {cs rest : List Char} :
    nextKey first cs = .ok (.key rest) ↔ ∃ lead, Lead first lead ∧ cs = lead ++ '"' :: rest := by
  constructor
  · intro next
    obtain ⟨b, blank, same⟩ := exists_blanks cs
    rw [nextKey] at next
    split at next
    · cases next
    · cases next
    · rename_i c more opened skipped
      split_ifs at next with is_first is_quote is_comma
      · subst is_first is_quote
        cases next
        exact ⟨b, .first blank, skipped ▸ same⟩
      · subst is_comma
        obtain ⟨b', blank', same'⟩ := exists_blanks more
        rw [Bool.not_eq_true] at is_first
        subst is_first
        split at next
        · cases next
        · rename_i skipped'
          cases next
          refine ⟨b ++ ',' :: b', .next blank blank', ?_⟩
          rw [same, skipped, same', skipped']
          simp
        · cases next
        · cases next
  · rintro ⟨lead, before, rfl⟩
    cases before with
    | first blank =>
      have skipped : skip (lead ++ '"' :: rest) = '"' :: rest := skip_blanks blank rfl _
      rw [nextKey, skipped]
      rfl
    | @next b b' blank blank' =>
      have skipped : skip (b ++ ',' :: b' ++ '"' :: rest) = ',' :: (b' ++ '"' :: rest) := by
        rw [List.append_assoc]
        exact skip_blanks blank rfl _
      have skipped' : skip (b' ++ '"' :: rest) = '"' :: rest := skip_blanks blank' rfl _
      rw [nextKey, skipped]
      simp [skipped']

theorem readColon_eq_ok {cs rest : List Char} :
    readColon cs = .ok rest ↔ ∃ b, Blanks b ∧ cs = b ++ ':' :: rest := by
  constructor
  · intro read
    obtain ⟨b, blank, same⟩ := exists_blanks cs
    rw [readColon] at read
    split at read
    · cases read
    · rename_i skipped
      cases read
      exact ⟨b, blank, skipped ▸ same⟩
    · cases read
  · rintro ⟨b, blank, rfl⟩
    have skipped : skip (b ++ ':' :: rest) = ':' :: rest := skip_blanks blank rfl _
    simp only [readColon, skipped]

theorem Fits.fieldOf?_eq_some (fits : shape.Fits value set) {key : String} {f : φ} :
    shape.fieldOf? key = some f ↔ shape.label f = key := by
  constructor
  · intro found
    simpa using List.find?_some found
  · rintro rfl
    cases found : shape.fieldOf? (shape.label f) with
    | none =>
      have other := List.find?_eq_none.1 found f (fits.complete f)
      simp at other
    | some g =>
      have same : shape.label g = shape.label f := by simpa using List.find?_some found
      rw [fits.named g f same]

/-- No field is given twice, in neither form. -/
theorem Fits.nodup_of_record (fits : shape.Fits value set) {given : List (Sigma ν)}
    {text : List Char} (record : Record shape.fields shape.label value given text) :
    (given.map Sigma.fst).Nodup := by
  cases record with
  | object distinct _ => exact distinct
  | array in_order _ => exact fits.distinct.sublist in_order.sublist

section Objects

variable [DecidableEq φ]

/-- What is given later in an object is still open after the first member. -/
theorem still_open {f : φ} {fs unread : List φ} (once : (f :: fs).Nodup)
    (still : ∀ g ∈ f :: fs, g ∈ unread) : ∀ g ∈ fs, g ∈ unread.erase f := by
  intro g inside
  have other : g ≠ f := fun same => (List.nodup_cons.1 once).1 (same ▸ inside)
  exact (List.mem_erase_of_ne other).2 (still g (List.mem_cons_of_mem f inside))

/-- At a key an object goes on with what the key names. -/
theorem readMembers_key {first : Bool} {unread : List φ} {s : σ} {lead raw : List Char} {x : String}
    (before : Lead first lead) (spells : Spells raw x.toList) (rest : List Char) :
    shape.readMembers first unread s (lead ++ '"' :: (raw ++ '"' :: rest)) =
      match shape.fieldOf? x with
      | none => .error (.unknownField x (shape.fields.map shape.label))
      | some f =>
        if f ∈ unread then
          (readColon rest).bind fun rest => (shape.read f s (skip rest)).bind fun r =>
            shape.readMembers false (unread.erase f) r.1 r.2
        else .error (.duplicateField (shape.label f)) := by
  have key_opened : nextKey first (lead ++ '"' :: (raw ++ '"' :: rest)) =
      .ok (.key (raw ++ '"' :: rest)) := nextKey_eq_key.2 ⟨lead, before, rfl⟩
  have read_key : readString (raw ++ '"' :: rest) = .ok (x.toList, rest) :=
    readString_eq_ok.2 ⟨raw, rfl, spells⟩
  rw [readMembers, key_opened]
  simp only [read_key, String.ofList_toList]
  cases shape.fieldOf? x with
  | none => rfl
  | some f =>
    by_cases fresh : f ∈ unread
    · simp only [dif_pos fresh, if_pos fresh]
      cases readColon rest with
      | error e => rfl
      | ok rest =>
        simp only [Except.bind]
        cases shape.read f s (skip rest) <;> rfl
    · simp only [dif_neg fresh, if_neg fresh]

/-- An object goes on with a member of a field that was not read yet, or it ends. -/
theorem Fits.readMembers_iff (fits : shape.Fits value set) {first : Bool} {unread : List φ}
    {s s' : σ} {cs rest : List Char} :
    shape.readMembers first unread s cs = .ok (s', rest) ↔
      (∃ b, Blanks b ∧ cs = b ++ '\x7d' :: rest ∧ s' = s) ∨
      ∃ lead raw f b more s₁ rest₁, Lead first lead ∧
        cs = lead ++ '"' :: (raw ++ '"' :: (b ++ ':' :: more)) ∧
        Spells raw (shape.label f).toList ∧ f ∈ unread ∧ Blanks b ∧
        shape.read f s (skip more) = .ok (s₁, rest₁) ∧
        shape.readMembers false (unread.erase f) s₁ rest₁ = .ok (s', rest) := by
  constructor
  · intro read
    rw [readMembers] at read
    split at read
    · cases read
    · rename_i closed
      cases read
      obtain ⟨b, blank, same⟩ := nextKey_eq_close.1 closed
      exact .inl ⟨b, blank, same, rfl⟩
    · rename_i opened key_opened
      obtain ⟨lead, before, rfl⟩ := nextKey_eq_key.1 key_opened
      split at read
      · cases read
      · rename_i key more read_key
        obtain ⟨raw, rfl, spells⟩ := readString_eq_ok.1 read_key
        split at read
        · cases read
        · rename_i f known
          have name : (shape.label f).toList = key := by
            rw [fits.fieldOf?_eq_some.1 known, String.toList_ofList]
          split_ifs at read with fresh
          split at read
          · cases read
          · rename_i more' colon
            obtain ⟨b, blank, rfl⟩ := readColon_eq_ok.1 colon
            split at read
            · cases read
            · rename_i s₁ rest₁ read_value
              exact .inr ⟨lead, raw, f, b, more', s₁, rest₁, before, rfl, name ▸ spells, fresh,
                blank, read_value, read⟩
  · rintro (⟨b, blank, same, rfl⟩ |
      ⟨lead, raw, f, b, more, s₁, rest₁, before, same, spells, fresh, blank, read, read'⟩)
    · rw [readMembers, nextKey_eq_close.2 ⟨b, blank, same⟩]
    · have known : shape.fieldOf? (shape.label f) = some f := fits.fieldOf?_eq_some.2 rfl
      have colon : readColon (b ++ ':' :: more) = .ok more := readColon_eq_ok.2 ⟨b, blank, rfl⟩
      rw [same, readMembers_key before spells]
      simp only [known, if_pos fresh, colon, Except.bind, read, read']

/-- An object goes on behind a member for a field that was not read yet. -/
theorem Fits.readMembers_member (fits : shape.Fits value set) {first : Bool} {unread : List φ}
    {s : σ} {lead text : List Char} {p : Sigma ν} (before : Lead first lead)
    (is : Member shape.label value p text) (fresh : p.1 ∈ unread) (rest : List Char) :
    shape.readMembers first unread s (lead ++ (text ++ rest)) =
      shape.readMembers false (unread.erase p.1) (set p.1 p.2 s) rest := by
  cases is with
  | @mk f v raw b b' text name blank blank' is =>
    obtain ⟨c, more, starts, filled, -⟩ := fits.starts f v text is
    have parts : lead ++ ('"' :: (raw ++ '"' :: (b ++ ':' :: (b' ++ text))) ++ rest) =
        lead ++ '"' :: (raw ++ '"' :: (b ++ ':' :: (b' ++ (text ++ rest)))) := by simp
    have known : shape.fieldOf? (shape.label f) = some f := fits.fieldOf?_eq_some.2 rfl
    have colon : readColon (b ++ ':' :: (b' ++ (text ++ rest))) = .ok (b' ++ (text ++ rest)) :=
      readColon_eq_ok.2 ⟨b, blank, rfl⟩
    have skipped : skip (b' ++ (text ++ rest)) = text ++ rest := by
      rw [starts, List.cons_append, skip_blanks blank' filled]
    have read : shape.read f s (text ++ rest) = .ok (set f v s, rest) :=
      (fits.reads f s _ _ _).2 ⟨[], text, .nil, rfl, v, is, rfl⟩
    rw [parts, readMembers_key before name]
    simp only [known, if_pos fresh, colon, Except.bind, skipped, read]

/-- An object is read as members for fields that were not read yet, none of them twice. -/
theorem Fits.readMembers_eq_ok (fits : shape.Fits value set) {first : Bool} {unread : List φ}
    (distinct : unread.Nodup) {s s' : σ} {cs rest : List Char} :
    shape.readMembers first unread s cs = .ok (s', rest) ↔
      ∃ given text, cs = text ++ '\x7d' :: rest ∧ (given.map Sigma.fst).Nodup ∧
        (∀ f ∈ given.map Sigma.fst, f ∈ unread) ∧
        Items (Member shape.label value) first given text ∧ s' = fill set given s := by
  constructor
  · intro read
    -- The reader calls itself with one field less, so the induction is on how many are unread.
    induction size : unread.length using Nat.strongRecOn generalizing first unread s cs with
    | ind n ih =>
      rcases fits.readMembers_iff.1 read with ⟨b, blank, same, rfl⟩ |
        ⟨lead, raw, f, b, more, s₁, rest₁, before, same, spells, fresh, blank, read_value,
          read_rest⟩
      · exact ⟨[], b, same, List.nodup_nil, by simp, .done blank, rfl⟩
      · obtain ⟨b₁, text, blank₁, same₁, v, is, rfl⟩ := (fits.reads f s _ _ _).1 read_value
        obtain ⟨b₂, blank₂, same₂⟩ := exists_blanks more
        have shorter : (unread.erase f).length < n := by
          rw [← size, List.length_erase_of_mem fresh]
          exact Nat.sub_lt (List.length_pos_of_mem fresh) Nat.one_pos
        obtain ⟨given, text', rfl, distinct', open_fields, items, rfl⟩ :=
          ih _ shorter (distinct.erase f) read_rest rfl
        refine ⟨⟨f, v⟩ :: given,
          lead ++ (('"' :: (raw ++ '"' :: (b ++ ':' :: (b₂ ++ b₁ ++ text)))) ++ text'), ?_, ?_, ?_,
          .item before (.mk spells blank (blank₂.append blank₁) is) items, rfl⟩
        · rw [same, same₂, same₁]
          simp
        · refine List.nodup_cons.2 ⟨fun again => ?_, distinct'⟩
          exact distinct.not_mem_erase (open_fields f again)
        · intro g inside
          rcases List.mem_cons.1 inside with rfl | inside
          · exact fresh
          · exact List.mem_of_mem_erase (open_fields g inside)
  · rintro ⟨given, text, rfl, distinct', open_fields, items, rfl⟩
    induction given generalizing first unread s text with
    | nil =>
      cases items with
      | done blank => exact fits.readMembers_iff.2 (.inl ⟨text, blank, rfl, rfl⟩)
    | cons p given ih =>
      obtain ⟨-, distinct''⟩ := List.nodup_cons.1 distinct'
      cases items with
      | @item _ _ _ lead text more before is items =>
        have parts : lead ++ (text ++ more) ++ '\x7d' :: rest =
            lead ++ (text ++ (more ++ '\x7d' :: rest)) := by simp
        rw [parts, fits.readMembers_member before is (open_fields p.1 List.mem_cons_self)]
        exact ih (distinct.erase p.1) more distinct'' (still_open distinct' open_fields) items

/-- After a brace the members of an object are read. -/
theorem readRecord_brace {b : List Char} (blank : Blanks b) (s : σ) (rest : List Char) :
    shape.readRecord s (b ++ '\x7b' :: rest) = shape.readMembers true shape.fields s rest := by
  have skipped : skip (b ++ '\x7b' :: rest) = '\x7b' :: rest := skip_blanks blank rfl _
  simp only [readRecord, skipped]

/-- After a bracket the fields are read in their own order. -/
theorem readRecord_bracket {b : List Char} (blank : Blanks b) (s : σ) (rest : List Char) :
    shape.readRecord s (b ++ '[' :: rest) = shape.readList true shape.fields s rest := by
  have skipped : skip (b ++ '[' :: rest) = '[' :: rest := skip_blanks blank rfl _
  simp only [readRecord, skipped]

/-- A record is read in either form, and what is given is filled in. -/
theorem Fits.reads_readRecord (fits : shape.Fits value set) (s : σ) :
    Reads (shape.readRecord s) fun s' text =>
      ∃ given, Record shape.fields shape.label value given text ∧ s' = fill set given s := by
  intro cs s' rest
  constructor
  · intro read
    obtain ⟨b, blank, same⟩ := exists_blanks cs
    rw [readRecord] at read
    split at read
    · cases read
    · rename_i body skipped
      obtain ⟨given, text, rfl, in_order, items, rfl⟩ := fits.readList_eq_ok.1 read
      refine ⟨b, _, blank, ?_, given, .array in_order items, rfl⟩
      rw [same, skipped]
      simp
    · rename_i body skipped
      obtain ⟨given, text, rfl, distinct, -, items, rfl⟩ :=
        (fits.readMembers_eq_ok fits.distinct).1 read
      refine ⟨b, _, blank, ?_, given, .object distinct items, rfl⟩
      rw [same, skipped]
      simp
    · cases read
  · rintro ⟨b, text, blank, rfl, given, record, rfl⟩
    cases record with
    | @object text distinct items =>
      have parts : b ++ ('\x7b' :: (text ++ ['\x7d']) ++ rest) =
          b ++ '\x7b' :: (text ++ '\x7d' :: rest) := by simp
      rw [parts, readRecord_brace blank]
      exact (fits.readMembers_eq_ok fits.distinct).2
        ⟨given, text, rfl, distinct, fun f _ => fits.complete f, items, rfl⟩
    | @array text in_order items =>
      have parts : b ++ ('[' :: (text ++ [']']) ++ rest) =
          b ++ '[' :: (text ++ ']' :: rest) := by simp
      rw [parts, readRecord_bracket blank]
      exact fits.readList_eq_ok.2 ⟨given, text, rfl, in_order, items, rfl⟩

/-- A part of a record that one field decides is what is given for the field, if anything is. -/
theorem get_fill (set : (f : φ) → ν f → σ → σ) {τ : Type} {f : φ} (get : σ → τ) (put : ν f → τ)
    (same : ∀ v s, get (set f v s) = put v) (other : ∀ g v s, g ≠ f → get (set g v s) = get s)
    {given : List (Sigma ν)} (distinct : (given.map Sigma.fst).Nodup) (s : σ) :
    get (fill set given s) = ((given.dlookup f).map put).getD (get s) := by
  induction given generalizing s with
  | nil => rfl
  | cons p rest ih =>
    obtain ⟨g, v⟩ := p
    obtain ⟨fresh, distinct⟩ := List.nodup_cons.1 distinct
    have filled := ih distinct (set g v s)
    rw [fill, List.foldl_cons]
    refine filled.trans ?_
    by_cases is : g = f
    · subst is
      have absent : rest.dlookup g = none := List.dlookup_eq_none.2 fresh
      rw [absent, List.dlookup_cons_eq, same]
      rfl
    · rw [List.dlookup_cons_ne _ _ (Ne.symm is), other g v s is]

end Objects

end Shape

end Compound.Config
