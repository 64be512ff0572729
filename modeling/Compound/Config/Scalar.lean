import Compound.Config.ReadError

/-!
The scalars of a configuration text: strings, words and numbers. Each reader takes the
text from its first character on. What a reader of a string leaves over is shorter than
what it was given, and the type of `readEscape` says so.
-/
namespace Compound.Config

def hexDigit? (c : Char) : Option Nat :=
  if '0' ≤ c ∧ c ≤ '9' then some (c.toNat - 48)
  else if 'a' ≤ c ∧ c ≤ 'f' then some (c.toNat - 87)
  else if 'A' ≤ c ∧ c ≤ 'F' then some (c.toNat - 55)
  else none

/-- The code unit that four hexadecimal digits stand for. -/
def codeUnit? (a b c d : Char) : Option Nat := do
  let a ← hexDigit? a
  let b ← hexDigit? b
  let c ← hexDigit? c
  let d ← hexDigit? d
  return ((a * 16 + b) * 16 + c) * 16 + d

/-- The length of a text in bytes. -/
def byteLength (cs : List Char) : Nat := cs.foldl (fun n c => n + c.utf8Size) 0

/-- A rest of the text `cs`, shorter by at least one character. -/
abbrev Rest (cs : List Char) := { rest : List Char // rest.length < cs.length }

/-- Four hexadecimal digits. Fewer than four bytes are an unfinished string. -/
def readUnit (cs : List Char) : Except ReadError (Nat × Rest cs) :=
  match cs with
  | a :: b :: c :: d :: rest =>
    match codeUnit? a b c d with
    | some n => .ok (n, ⟨rest, by simp; omega⟩)
    | none => .error .badEscape
  | _ => if byteLength cs < 4 then .error .endInString else .error .badEscape

/-- The second half of a pair of surrogates, after the first half `high`. -/
def readLowSurrogate (high : Nat) (cs : List Char) : Except ReadError (Char × Rest cs) :=
  match cs with
  | [] => .error .endInString
  | ['\\'] => .error .endInString
  | '\\' :: 'u' :: rest =>
    match readUnit rest with
    | .error e => .error e
    | .ok (low, rest') =>
      if 0xdc00 ≤ low ∧ low ≤ 0xdfff then
        .ok (Char.ofNat ((high - 0xd800) * 0x400 + (low - 0xdc00) + 0x10000),
          ⟨rest'.val, by have := rest'.property; simp; omega⟩)
      else .error .loneSurrogate
  | _ => .error .endOfEscape

/-- A code point written in hexadecimal; one beyond sixteen bits is a pair of surrogates. -/
def readCodePoint (cs : List Char) : Except ReadError (Char × Rest cs) :=
  match readUnit cs with
  | .error e => .error e
  | .ok (n, rest) =>
    if 0xdc00 ≤ n ∧ n ≤ 0xdfff then .error .loneSurrogate
    else if 0xd800 ≤ n ∧ n ≤ 0xdbff then
      match readLowSurrogate n rest.val with
      | .error e => .error e
      | .ok (c, rest') => .ok (c, ⟨rest'.val, Nat.lt_trans rest'.property rest.property⟩)
    else .ok (Char.ofNat n, rest)

/-- The character of an escape, after the backslash. -/
def readEscape (cs : List Char) : Except ReadError (Char × Rest cs) :=
  match cs with
  | [] => .error .endInString
  | c :: rest =>
    let one (d : Char) : Except ReadError (Char × Rest (c :: rest)) :=
      .ok (d, ⟨rest, by simp⟩)
    match c with
    | '"' => one '"'
    | '\\' => one '\\'
    | '/' => one '/'
    | 'b' => one '\x08'
    | 'f' => one '\x0c'
    | 'n' => one '\n'
    | 'r' => one '\r'
    | 't' => one '\t'
    | 'u' =>
      match readCodePoint rest with
      | .error e => .error e
      | .ok (d, rest') => .ok (d, ⟨rest'.val, by have := rest'.property; simp; omega⟩)
    | _ => .error .badEscape

/-- The characters of a string and what follows its closing quote, after the opening one. -/
def readString (cs : List Char) : Except ReadError (List Char × List Char) :=
  match cs with
  | [] => .error .endInString
  | '"' :: rest => .ok ([], rest)
  | '\\' :: rest =>
    match readEscape rest with
    | .error e => .error e
    | .ok (c, rest') =>
      match readString rest'.val with
      | .error e => .error e
      | .ok (s, after) => .ok (c :: s, after)
  | c :: rest =>
    if c.toNat < 0x20 then .error .controlCharacter
    else
      match readString rest with
      | .error e => .error e
      | .ok (s, after) => .ok (c :: s, after)
termination_by cs.length
decreasing_by
  · have := rest'.property
    simp only [List.length_cons]
    omega
  · simp

/-- The rest of a word, letter by letter. -/
def readWord : List Char → List Char → Except ReadError (List Char)
  | [], cs => .ok cs
  | _ :: _, [] => .error .endInValue
  | w :: word, c :: cs => if c = w then readWord word cs else .error .wordExpected

/-- Digits join a significand as long as it stays below 2 ^ 64. The first digit that does
not fit and all after it are left out. -/
def absorb : Nat → List Char → Nat × List Char
  | n, [] => (n, [])
  | n, c :: cs =>
    let next := 10 * n + (c.toNat - 48)
    if next < Nat.pow 2 64 then absorb next cs else (n, c :: cs)

/-- Scale a number by a power of ten in steps within the range of exact tables; a step up
that leaves the finite range fails. -/
def scaleByTen (f : Number) (e : Int) : Option Number :=
  if 0 ≤ e then
    if 308 < e then (if f.isZero then some f else none)
    else
      let g := f.mul (.powerOfTen e.toNat)
      if g.isInfinite then none else some g
  else if -308 ≤ e then some (f.div (.powerOfTen (-e).toNat))
  else if f.isZero then some f
  else scaleByTen (f.div (.powerOfTen 308)) (e + 308)
termination_by (-e).toNat

/-- The floating point value of a significand and a decimal exponent. -/
def floatOf (positive : Bool) (significand : Nat) (e : Int) : Except ReadError Found :=
  match scaleByTen (.ofNat significand) e with
  | none => .error .numberOutOfRange
  | some f => .ok (.float (if positive then f else .pack true f.magnitude))

/-- The greatest exponent that is told apart. -/
def maxExponent : Nat := Nat.pow 2 31 - 1

/-- The exponent part of a number, after its letter. -/
def readExponent (positive : Bool) (significand : Nat) (start : Int) (cs : List Char) :
    Except ReadError Found :=
  let (up, cs) :=
    match cs with
    | '+' :: rest => (true, rest)
    | '-' :: rest => (false, rest)
    | _ => (true, cs)
  let digits := cs.takeWhile Char.isDigit
  if digits.isEmpty then
    if cs.isEmpty then .error .endInValue else .error .badNumber
  else if Decimal.value digits ≤ maxExponent then
    let e : Int := Decimal.value digits
    floatOf positive significand (if up then min (start + e) maxExponent
      else max (start - e) (-(maxExponent : Int) - 1))
  else if significand ≠ 0 ∧ up then .error .numberOutOfRange
  else .ok (.float (.pack (!positive) 0))

/-- What follows the digits of a number: perhaps an exponent. -/
def readTail (positive : Bool) (significand : Nat) (e : Int) (cs : List Char) :
    Except ReadError Found :=
  match cs with
  | 'e' :: rest => readExponent positive significand e rest
  | 'E' :: rest => readExponent positive significand e rest
  | _ => floatOf positive significand e

/-- The digits behind the point. -/
def readFraction (positive : Bool) (significand : Nat) (e : Int) (cs : List Char) :
    Except ReadError Found :=
  let digits := cs.takeWhile Char.isDigit
  if digits.isEmpty then
    if cs.isEmpty then .error .endInValue else .error .badNumber
  else
    let (total, left) := absorb significand digits
    readTail positive total (e - ((digits.length - left.length : Nat) : Int))
      (cs.dropWhile Char.isDigit)

/-- An integer is kept exactly within 64 bits; a negative zero or an integer too far
below zero is a floating point value. -/
def integerOf (positive : Bool) (n : Nat) : Found :=
  if positive then .integer n
  else if n = 0 ∨ Nat.pow 2 63 < n then .float (.pack true (Number.ofNat n).magnitude)
  else .integer (-(n : Int))

/-- A number, after its sign. -/
def readNumber (positive : Bool) (cs : List Char) : Except ReadError Found :=
  let digits := cs.takeWhile Char.isDigit
  let rest := cs.dropWhile Char.isDigit
  match digits with
  | [] => if cs.isEmpty then .error .endInValue else .error .badNumber
  | '0' :: _ :: _ => .error .badNumber
  | _ =>
    let (n, left) := absorb 0 digits
    match rest with
    | '.' :: more => readFraction positive n left.length more
    | 'e' :: more => readExponent positive n left.length more
    | 'E' :: more => readExponent positive n left.length more
    | _ => if left.isEmpty then .ok (integerOf positive n) else floatOf positive n left.length

/-- The value that a text starts with, if no more of it is needed than its kind. A scalar
is read wholly. -/
def lookAt (cs : List Char) : Except ReadError Found :=
  match cs with
  | [] => .error .endInValue
  | 'n' :: rest => (readWord ['u', 'l', 'l'] rest).map fun _ => .null
  | 't' :: rest => (readWord ['r', 'u', 'e'] rest).map fun _ => .bool true
  | 'f' :: rest => (readWord ['a', 'l', 's', 'e'] rest).map fun _ => .bool false
  | '-' :: rest => readNumber false rest
  | '"' :: rest => (readString rest).map fun r => .string (String.ofList r.1)
  | '[' :: _ => .ok .list
  | '\x7b' :: _ => .ok .object
  | c :: rest => if c.isDigit then readNumber true (c :: rest) else .error .valueExpected

/-- The error about a text that starts with a value of the wrong kind. -/
def wrongType (expected : String) (cs : List Char) : ReadError :=
  match lookAt cs with
  | .ok found => .wrongType found expected
  | .error e => e

end Compound.Config
