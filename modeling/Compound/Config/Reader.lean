import Compound.Config.Basic
import Compound.Config.Scalar

/-!
Reading a configuration. A record is written either as an object, with its fields in any
order and each at most once, or as a list of its fields in their own order; what is not
given keeps its default. The text is read from left to right, and the first thing that
is wrong is the error, so a key is judged before anything that follows it.
-/
namespace Compound.Config

def isBlank (c : Char) : Bool := c == ' ' || c == '\t' || c == '\n' || c == '\r'

def skip (cs : List Char) : List Char := cs.dropWhile isBlank

/-- How a record is written: the name of its type for errors, its fields in order, the
key of each field, and how the value of a field is read into a record. -/
structure Shape (φ σ : Type) where
  title : String
  fields : List φ
  label : φ → String
  read : φ → σ → List Char → Except ReadError (σ × List Char)

namespace Shape

variable {φ σ : Type}

/-- The field that a key names. -/
def fieldOf? (shape : Shape φ σ) (key : String) : Option φ :=
  shape.fields.find? fun f => shape.label f == key

/-- The end of a list after the last field. -/
def readListEnd (s : σ) (cs : List Char) : Except ReadError (σ × List Char) :=
  match skip cs with
  | [] => .error .endInList
  | ']' :: rest => .ok (s, rest)
  | ',' :: rest =>
    match skip rest with
    | ']' :: _ => .error .trailingComma
    | _ => .error .trailingCharacters
  | _ => .error .trailingCharacters

/-- The fields of a list, after its opening bracket. `first` tells that none was read yet. -/
def readList (shape : Shape φ σ) (first : Bool) :
    List φ → σ → List Char → Except ReadError (σ × List Char)
  | [], s, cs => readListEnd s cs
  | f :: fields, s, cs =>
    match skip cs with
    | [] => .error .endInList
    | ']' :: rest => .ok (s, rest)
    | c :: rest =>
      if first then
        match shape.read f s (c :: rest) with
        | .error e => .error e
        | .ok (s, rest) => readList shape false fields s rest
      else if c = ',' then
        match skip rest with
        | [] => .error .endInValue
        | ']' :: _ => .error .trailingComma
        | c :: rest =>
          match shape.read f s (c :: rest) with
          | .error e => .error e
          | .ok (s, rest) => readList shape false fields s rest
      else .error .listCommaExpected

/-- What stands at the place of the next key of an object. -/
inductive KeyPlace where
  /-- The object ends; the text after its brace. -/
  | close (rest : List Char)
  /-- A key begins; the text after its quote. -/
  | key (rest : List Char)

/-- Go to the place of the next key, over the comma after an earlier member. -/
def nextKey (first : Bool) (cs : List Char) : Except ReadError KeyPlace :=
  match skip cs with
  | [] => .error .endInObject
  | '\x7d' :: rest => .ok (.close rest)
  | c :: rest =>
    if first then
      if c = '"' then .ok (.key rest) else .error .keyNotString
    else if c = ',' then
      match skip rest with
      | [] => .error .endInValue
      | '"' :: rest => .ok (.key rest)
      | '\x7d' :: _ => .error .trailingComma
      | _ => .error .keyNotString
    else .error .objectCommaExpected

/-- The colon after a key. -/
def readColon (cs : List Char) : Except ReadError (List Char) :=
  match skip cs with
  | [] => .error .endInObject
  | ':' :: rest => .ok rest
  | _ => .error .colonExpected

variable [DecidableEq φ]

/-- The members of an object, after its opening brace. The fields that are still open
become fewer with each member, for a key given twice is an error. -/
def readMembers (shape : Shape φ σ) (first : Bool) (unread : List φ) (s : σ) (cs : List Char) :
    Except ReadError (σ × List Char) :=
  match nextKey first cs with
  | .error e => .error e
  | .ok (.close rest) => .ok (s, rest)
  | .ok (.key opened) =>
    match readString opened with
    | .error e => .error e
    | .ok (key, rest) =>
      match shape.fieldOf? (String.ofList key) with
      | none => .error (.unknownField (String.ofList key) (shape.fields.map shape.label))
      | some f =>
        if _h : f ∈ unread then
          match readColon rest with
          | .error e => .error e
          | .ok rest =>
            match shape.read f s (skip rest) with
            | .error e => .error e
            | .ok (s, rest) => readMembers shape false (unread.erase f) s rest
        else .error (.duplicateField (shape.label f))
termination_by unread.length
decreasing_by
  have := List.length_erase_of_mem _h
  have := List.length_pos_of_mem _h
  omega

/-- A record in either form; `s` holds the defaults. -/
def readRecord (shape : Shape φ σ) (s : σ) (cs : List Char) :
    Except ReadError (σ × List Char) :=
  match skip cs with
  | [] => .error .endInValue
  | '[' :: rest => readList shape true shape.fields s rest
  | '\x7b' :: rest => readMembers shape true shape.fields s rest
  | rest => .error (wrongType shape.title rest)

end Shape

/-- A truth value. -/
def readBool (cs : List Char) : Except ReadError (Bool × List Char) :=
  match skip cs with
  | [] => .error .endInValue
  | 't' :: rest => (readWord ['r', 'u', 'e'] rest).map (true, ·)
  | 'f' :: rest => (readWord ['a', 'l', 's', 'e'] rest).map (false, ·)
  | rest => .error (wrongType "a boolean" rest)

/-- Capabilities are a record of truth values. -/
def capabilitiesShape : Shape Capability Capabilities where
  title := "struct HostCapabilities"
  fields := Capability.all
  label := Capability.field
  read c caps cs := (readBool cs).map fun r => (caps.set c r.1, r.2)

/-- The fields of a configuration. -/
inductive Field where
  | capabilities
  | autoReclaim
  deriving DecidableEq, Repr

def Field.all : List Field := [capabilities, autoReclaim]

def Field.label : Field → String
  | capabilities => "capabilities"
  | autoReclaim => "auto_reclaim"

/-- A configuration is a record of capabilities and a truth value. Capabilities that are
given in part are completed from a full host. -/
def shape : Shape Field Config where
  title := "struct RuntimeConfig"
  fields := Field.all
  label := Field.label
  read f config cs :=
    match f with
    | .capabilities =>
      (capabilitiesShape.readRecord .full cs).map fun r =>
        ({ config with capabilities := r.1 }, r.2)
    | .autoReclaim => (readBool cs).map fun r => ({ config with autoReclaim := r.1 }, r.2)

/-- Read a whole text as a configuration. -/
def read (text : String) : Except ReadError Config :=
  match shape.readRecord .standard text.toList with
  | .error e => .error e
  | .ok (config, rest) =>
    match skip rest with
    | [] => .ok config
    | _ => .error .trailingCharacters

end Compound.Config
