import Mathlib.Data.List.Sigma
import Compound.Config.Writer

/-!
The grammar of configurations, as a relation between what is given and the texts that give it. It
speaks of whole texts and not of a place in one: a text is put together from the texts of its parts,
with blanks between the tokens. What is not given keeps its default.
-/
namespace Compound.Config

/-- White space. -/
def Blanks (cs : List Char) : Prop := ∀ c ∈ cs, c = ' ' ∨ c = '\t' ∨ c = '\n' ∨ c = '\r'

/-- A hexadecimal digit, as a small or as a capital letter. -/
def HexDigit (c : Char) (n : Nat) : Prop :=
  n < 16 ∧ (c = Nat.digitChar n ∨ c = (Nat.digitChar n).toUpper)

/-- Four hexadecimal digits and the number that they stand for. -/
inductive CodeUnit : List Char → Nat → Prop
  | mk {a b c d : Char} {i j k l : Nat} (first : HexDigit a i) (second : HexDigit b j)
      (third : HexDigit c k) (fourth : HexDigit d l) :
      CodeUnit [a, b, c, d] (((i * 16 + j) * 16 + k) * 16 + l)

/-- What follows a backslash, and the character that it stands for. A character beyond sixteen bits
is a pair of surrogates, and no half of such a pair stands alone. -/
inductive Escape : List Char → Char → Prop
  | short {c d : Char} (known : (c, d) ∈ [('"', '"'), ('\\', '\\'), ('/', '/'), ('b', '\x08'),
      ('f', '\x0c'), ('n', '\n'), ('r', '\r'), ('t', '\t')]) : Escape [c] d
  | unit {ds : List Char} {c : Char} (code : CodeUnit ds c.toNat) : Escape ('u' :: ds) c
  | pair {ds es : List Char} {high low : Nat} {c : Char} (code : CodeUnit ds high)
      (code' : CodeUnit es low) (is_high : 0xd800 ≤ high ∧ high ≤ 0xdbff)
      (is_low : 0xdc00 ≤ low ∧ low ≤ 0xdfff)
      (is : c.toNat = (high - 0xd800) * 0x400 + (low - 0xdc00) + 0x10000) :
      Escape ('u' :: (ds ++ '\\' :: 'u' :: es)) c

/-- What stands between quotes, and the string that it stands for. -/
inductive Spells : List Char → List Char → Prop
  | nil : Spells [] []
  | plain {c : Char} {raw s : List Char} (unquoted : c ≠ '"') (unescaped : c ≠ '\\')
      (printable : 0x20 ≤ c.toNat) (rest : Spells raw s) : Spells (c :: raw) (c :: s)
  | escape {esc raw s : List Char} {c : Char} (is : Escape esc c) (rest : Spells raw s) :
      Spells ('\\' :: (esc ++ raw)) (c :: s)

/-- A truth value. -/
inductive Truth : Bool → List Char → Prop
  | yes : Truth true ['t', 'r', 'u', 'e']
  | no : Truth false ['f', 'a', 'l', 's', 'e']

/-- What stands before an item: blanks, and behind an earlier item also a comma. -/
inductive Lead : Bool → List Char → Prop
  | first {b : List Char} (blank : Blanks b) : Lead true b
  | next {b b' : List Char} (blank : Blanks b) (blank' : Blanks b') : Lead false (b ++ ',' :: b')

/-- Items with commas between them. The truth value tells that there is no item before these. -/
inductive Items {α : Type} (item : α → List Char → Prop) : Bool → List α → List Char → Prop
  | done {first : Bool} {b : List Char} (blank : Blanks b) : Items item first [] b
  | item {first : Bool} {a : α} {as : List α} {lead text more : List Char}
      (before : Lead first lead) (is : item a text) (rest : Items item false as more) :
      Items item first (a :: as) (lead ++ (text ++ more))

section Records

variable {φ : Type} {ν : φ → Type}

/-- A member of an object: the name of a field, by whatever spelling, and a value for the field. -/
inductive Member (label : φ → String) (value : (f : φ) → ν f → List Char → Prop) :
    Sigma ν → List Char → Prop
  | mk {f : φ} {v : ν f} {raw b b' text : List Char} (name : Spells raw (label f).toList)
      (blank : Blanks b) (blank' : Blanks b') (is : value f v text) :
      Member label value ⟨f, v⟩ ('"' :: (raw ++ '"' :: (b ++ ':' :: (b' ++ text))))

/-- A record, with the values that are given for some of its fields: an object, whose members come
in any order with no field twice, or an array of values for the first fields. -/
inductive Record (fields : List φ) (label : φ → String) (value : (f : φ) → ν f → List Char → Prop) :
    List (Sigma ν) → List Char → Prop
  | object {given : List (Sigma ν)} {text : List Char} (distinct : (given.map Sigma.fst).Nodup)
      (members : Items (Member label value) true given text) :
      Record fields label value given ('\x7b' :: (text ++ ['\x7d']))
  | array {given : List (Sigma ν)} {text : List Char} (in_order : given.map Sigma.fst <+: fields)
      (elements : Items (fun p => value p.1 p.2) true given text) :
      Record fields label value given ('[' :: (text ++ [']']))

end Records

/-- What may be given for a field of a configuration: truth values for some capabilities, or one. -/
abbrev Field.Content : Field → Type
  | capabilities => List (Σ _ : Capability, Bool)
  | autoReclaim => Bool

/-- The texts of what is given for a field. -/
def Field.Written : (f : Field) → f.Content → List Char → Prop
  | capabilities, given, text => Record Capability.all Capability.field (fun _ => Truth) given text
  | autoReclaim, on, text => Truth on text

/-- The texts of a configuration. -/
def Written (given : List (Sigma Field.Content)) (text : List Char) : Prop :=
  ∃ b body b', Blanks b ∧ Blanks b' ∧ text = b ++ (body ++ b') ∧
    Record Field.all Field.label Field.Written given body

/-- A capability is there unless something else is given for it. -/
def capabilitiesOf (given : List (Σ _ : Capability, Bool)) : Capabilities where
  weakMap := (given.dlookup .weakMap).getD true
  weakRef := (given.dlookup .weakRef).getD true
  finalizationRegistry := (given.dlookup .finalizationRegistry).getD true

/-- What is given for the fields of a configuration, over its defaults. -/
def configOf (given : List (Sigma Field.Content)) : Config where
  capabilities := ((given.dlookup .capabilities).map capabilitiesOf).getD .full
  autoReclaim := (given.dlookup .autoReclaim).getD true

end Compound.Config
