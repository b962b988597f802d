import Mathlib.Algebra.Field.Rat
import Mathlib.Data.Nat.Basic
import Limitmark.Foundations.Text

/-!
# JSON

The values of JSON, the text they are serialised to, and the reader of such texts.

A reader is of a `Dialect`: which scalars there are, how deep a value may be, and whether an object
may repeat a member. `Json.parse` is the one of the platform. Numbers are exact, and the serialiser
writes whole ones only. An object keeps its members in the order of the text.
-/

namespace Limitmark.Foundations

inductive Json
  | null
  | bool (value : Bool)
  | num (value : ℚ)
  | str (value : JsString)
  | arr (values : List Json)
  | obj (members : List (JsString × Json))

namespace Json

/-- The value of a well-formed text. -/
def text (s : String) : Json := .str (.ofString s)

/-- The value of a whole number. -/
def int (n : ℤ) : Json := .num n

def text? : Json → Option String
  | .str s => s.string?
  | _ => none

/-- The number, if it is whole. -/
def int? : Json → Option ℤ
  | .num q => if q.den = 1 then some q.num else none
  | _ => none

def nat? (v : Json) : Option ℕ := v.int?.bind fun n => if 0 ≤ n then some n.toNat else none

def bool? : Json → Option Bool
  | .bool b => some b
  | _ => none

/-- The first member of an object with a certain key. -/
def member? (key : String) (members : List (JsString × Json)) : Option Json :=
  (members.find? fun m => m.1 = JsString.ofString key).map Prod.snd

@[simp] theorem text?_text (s : String) : (text s).text? = some s := JsString.string?_ofString s

@[simp] theorem int?_int (n : ℤ) : (int n).int? = some n := by simp [int, int?]

theorem eq_text_of_text? {v : Json} {s : String} (h : v.text? = some s) : v = text s := by
  cases v with
  | str value => exact congrArg Json.str (JsString.ofString_of_string? h).symm
  | null | bool _ | num _ | arr _ | obj _ => cases h

theorem eq_int_of_int? {v : Json} {n : ℤ} (h : v.int? = some n) : v = int n := by
  cases v with
  | num q =>
    rw [int?] at h
    split at h
    · next hden =>
      obtain rfl := Option.some.inj h
      exact congrArg Json.num (Rat.den_eq_one_iff q |>.1 hden).symm
    · cases h
  | null | bool _ | str _ | arr _ | obj _ => cases h

theorem text?_eq_some {v : Json} {s : String} : v.text? = some s ↔ v = text s :=
  ⟨eq_text_of_text?, fun h => h ▸ text?_text s⟩

theorem int?_eq_some {v : Json} {n : ℤ} : v.int? = some n ↔ v = int n :=
  ⟨eq_int_of_int?, fun h => h ▸ int?_int n⟩

theorem nat?_eq_some {v : Json} {n : ℕ} : v.nat? = some n ↔ v = int n := by
  rw [nat?, Option.bind_eq_some_iff]
  constructor
  · rintro ⟨k, hk, h⟩
    split at h
    · next hpos =>
      obtain rfl := Option.some.inj h
      rw [Int.toNat_of_nonneg hpos]
      exact eq_int_of_int? hk
    · cases h
  · rintro rfl
    exact ⟨n, int?_int n, if_pos (Int.natCast_nonneg n)⟩

theorem bool?_eq_some {v : Json} {b : Bool} : v.bool? = some b ↔ v = .bool b := by
  cases v <;> simp [bool?]

theorem text_injective : Function.Injective text := fun a b h => by
  have ha := text?_text a
  rw [h, text?_text] at ha
  exact (Option.some.inj ha).symm

/-! ## The serialiser -/

def hexDigit (n : ℕ) : Char := "0123456789abcdef".toList.getD (n % 16) '0'

def escapeUnit (n : ℕ) : List Char :=
  ['\\', 'u', hexDigit (n / 4096), hexDigit (n / 256), hexDigit (n / 16), hexDigit n]

def quotePoint : CodePoint → List Char
  | .lone u => escapeUnit u.toNat
  | .char c =>
    if c = '"' then ['\\', '"']
    else if c = '\\' then ['\\', '\\']
    else if c = '\x08' then ['\\', 'b']
    else if c = '\x09' then ['\\', 't']
    else if c = '\x0a' then ['\\', 'n']
    else if c = '\x0c' then ['\\', 'f']
    else if c = '\x0d' then ['\\', 'r']
    else if c.toNat < 0x20 then escapeUnit c.toNat
    else [c]

/-- A string as it is quoted: a lone surrogate is escaped, so that the text is well-formed. -/
def quote (s : JsString) : List Char := '"' :: (codePoints s).flatMap quotePoint ++ ['"']

def intText (n : ℤ) : List Char :=
  if n < 0 then '-' :: Nat.toDigits 10 n.natAbs else Nat.toDigits 10 n.natAbs

mutual

def write : Json → List Char
  | .null => "null".toList
  | .bool true => "true".toList
  | .bool false => "false".toList
  | .num q => if q.den = 1 then intText q.num else []
  | .str s => quote s
  | .arr values => '[' :: writeValues values ++ [']']
  | .obj members => '\x7b' :: writeMembers members ++ ['\x7d']

def writeValues : List Json → List Char
  | [] => []
  | [v] => write v
  | v :: w :: rest => write v ++ ',' :: writeValues (w :: rest)

def writeMembers : List (JsString × Json) → List Char
  | [] => []
  | [(key, v)] => quote key ++ ':' :: write v
  | (key, v) :: member :: rest => quote key ++ ':' :: write v ++ ',' :: writeMembers (member :: rest)

end

/-- `JSON.stringify`. -/
def stringify (v : Json) : String := String.ofList (write v)

/-! ## Reading tokens -/

def isSpace (c : Char) : Bool := c = ' ' || c = '\x09' || c = '\x0a' || c = '\x0d'

def skip (text : List Char) : List Char := text.dropWhile isSpace

/-- The text after a character it has to start with. -/
def expect (c : Char) : List Char → Option (List Char)
  | [] => none
  | d :: rest => if d = c then some rest else none

def hexValue (c : Char) : Option ℕ :=
  if 48 ≤ c.toNat ∧ c.toNat ≤ 57 then some (c.toNat - 48)
  else if 97 ≤ c.toNat ∧ c.toNat ≤ 102 then some (c.toNat - 87)
  else if 65 ≤ c.toNat ∧ c.toNat ≤ 70 then some (c.toNat - 55)
  else none

def hexUnit (a b c d : Char) : Option UInt16 := do
  let a ← hexValue a
  let b ← hexValue b
  let c ← hexValue c
  let d ← hexValue d
  return (a * 4096 + b * 256 + c * 16 + d).toUInt16

/-- What a short escape stands for. -/
def unescape (c : Char) : Option UInt16 :=
  if c = '"' then some 0x22
  else if c = '\\' then some 0x5C
  else if c = '/' then some 0x2F
  else if c = 'b' then some 0x08
  else if c = 't' then some 0x09
  else if c = 'n' then some 0x0A
  else if c = 'f' then some 0x0C
  else if c = 'r' then some 0x0D
  else none

/-- The rest of a string, up to its closing quote. -/
def readUnits : List Char → Option (JsString × List Char)
  | [] => none
  | c :: rest =>
    if c = '"' then some ([], rest)
    else if c = '\\' then
      match rest with
      | [] => none
      | e :: rest =>
        if e = 'u' then
          match rest with
          | a :: b :: c :: d :: rest =>
            (hexUnit a b c d).bind fun u => (readUnits rest).map fun (us, rest) => (u :: us, rest)
          | _ => none
        else (unescape e).bind fun u => (readUnits rest).map fun (us, rest) => (u :: us, rest)
    else if c.toNat < 0x20 then none
    else (readUnits rest).map fun (us, rest) => (Char.units c ++ us, rest)

def readString (text : List Char) : Option (JsString × List Char) := (expect '"' text).bind readUnits

def isDigit (c : Char) : Bool := 48 ≤ c.toNat && c.toNat ≤ 57

/-- A whole number without leading zeros. -/
def readWhole : List Char → Option (ℕ × List Char)
  | [] => none
  | c :: rest =>
    if c = '0' then some (0, rest)
    else if isDigit c then
      some (Nat.ofDigitChars 10 ((c :: rest).takeWhile isDigit) 0, (c :: rest).dropWhile isDigit)
    else none

def readInt (text : List Char) : Option (ℤ × List Char) :=
  match expect '-' text with
  | some text => (readWhole text).map fun (n, rest) => (-(n : ℤ), rest)
  | none => (readWhole text).map fun (n, rest) => ((n : ℤ), rest)

/-- The digits of a fraction or of an exponent: at least one. -/
def readDigits (text : List Char) : Option (List Char × List Char) :=
  if text.takeWhile isDigit = [] then none
  else some (text.takeWhile isDigit, text.dropWhile isDigit)

/-- The fraction of a number, if it has one. -/
def readFraction (text : List Char) : Option (ℚ × List Char) :=
  match expect '.' text with
  | none => some (0, text)
  | some text => (readDigits text).map fun (digits, rest) =>
      ((Nat.ofDigitChars 10 digits 0 : ℚ) / 10 ^ digits.length, rest)

/-- The power of ten of a number, if it has an exponent. -/
def readExponent (text : List Char) : Option (ℚ × List Char) :=
  match (expect 'e' text).or (expect 'E' text) with
  | none => some (1, text)
  | some text =>
    match expect '-' text with
    | some text => (readDigits text).map fun (digits, rest) =>
        (1 / 10 ^ Nat.ofDigitChars 10 digits 0, rest)
    | none => (readDigits ((expect '+' text).getD text)).map fun (digits, rest) =>
        (10 ^ Nat.ofDigitChars 10 digits 0, rest)

def readNumber (text : List Char) : Option (Json × List Char) := do
  let negative := (expect '-' text).isSome
  let (n, text) ← readWhole ((expect '-' text).getD text)
  let (fraction, text) ← readFraction text
  let (power, text) ← readExponent text
  return (.num ((if negative then -1 else 1) * (n + fraction) * power), text)

def readWord (word : String) (value : Json) (text : List Char) : Option (Json × List Char) :=
  if word.toList.isPrefixOf text then some (value, text.drop word.length) else none

def readLiteral (text : List Char) : Option (Json × List Char) :=
  (readWord "true" (.bool true) text).or
    ((readWord "false" (.bool false) text).or (readWord "null" .null text))

/-! ## Reading values -/

structure Dialect where
  scalar : List Char → Option (Json × List Char)
  maxDepth : Option ℕ
  repeats : Bool

/-- The JSON of the platform. -/
def standard : Dialect where
  scalar := fun text => (readLiteral text).or (readNumber text)
  maxDepth := none
  repeats := true

mutual

/-- The value at the start of a text. Every level of it takes a character. -/
def readValue (dialect : Dialect) : ℕ → ℕ → List Char → Option (Json × List Char)
  | 0, _, _ => none
  | fuel + 1, depth, text =>
    if dialect.maxDepth.any fun limit => limit < depth then none
    else
      match skip text with
      | [] => none
      | c :: rest =>
        if c = '"' then (readUnits rest).map fun (s, rest) => (.str s, rest)
        else if c = '[' then
          match expect ']' (skip rest) with
          | some rest => some (.arr [], rest)
          | none => (readValues dialect fuel (depth + 1) rest).map fun (vs, rest) => (.arr vs, rest)
        else if c = '\x7b' then
          match expect '\x7d' (skip rest) with
          | some rest => some (.obj [], rest)
          | none =>
            (readMembers dialect fuel (depth + 1) [] rest).map fun (members, rest) =>
              (.obj members, rest)
        else dialect.scalar (c :: rest)

/-- The elements of an array, up to its end. -/
def readValues (dialect : Dialect) : ℕ → ℕ → List Char → Option (List Json × List Char)
  | 0, _, _ => none
  | fuel + 1, depth, text =>
    (readValue dialect fuel depth text).bind fun (v, rest) =>
      match expect ',' (skip rest) with
      | some rest =>
        (readValues dialect fuel depth rest).map fun (vs, rest) => (v :: vs, rest)
      | none => (expect ']' (skip rest)).map fun rest => ([v], rest)

/-- The members of an object, up to its end; the keys before them are given. -/
def readMembers (dialect : Dialect) : ℕ → ℕ → List JsString → List Char →
    Option (List (JsString × Json) × List Char)
  | 0, _, _, _ => none
  | fuel + 1, depth, keys, text =>
    (readString (skip text)).bind fun (key, rest) =>
      (expect ':' (skip rest)).bind fun rest =>
        if ¬ dialect.repeats ∧ key ∈ keys then none
        else
          (readValue dialect fuel depth rest).bind fun (v, rest) =>
            match expect ',' (skip rest) with
            | some rest =>
              (readMembers dialect fuel depth (key :: keys) rest).map fun (members, rest) =>
                ((key, v) :: members, rest)
            | none => (expect '\x7d' (skip rest)).map fun rest => ([(key, v)], rest)

end

/-- A text that is one value, with nothing but space around it. -/
def read (dialect : Dialect) (text : String) : Option Json :=
  match readValue dialect (text.length + 1) 0 text.toList with
  | some (v, rest) => if skip rest = [] then some v else none
  | none => none

/-- `JSON.parse`. -/
def parse (text : String) : Option Json := read standard text

end Json

end Limitmark.Foundations
