import Limitmark.Foundations.Json

/-!
# The grammar of JSON

The JSON texts over UTF-16 code units, with the document each of them spells. The relations are of a
text, what stands at its start, and the rest of it (`Value`, `Elements`, `Members`).

A document keeps the digits of its numbers. What a reader may ask of it: that no object repeats a name
(`Doc.Distinct`), how deep it is nested (`Doc.depth`), and of what form its numbers are (`Doc.numbers`).
-/

namespace Limitmark.Foundations.JsonGrammar

/-! ## Units -/

/-- The unit of a character of one unit. -/
def unit (c : Char) : UInt16 := c.toNat.toUInt16

def ascii (s : String) : JsString := s.toList.map unit

def isDigit (u : UInt16) : Bool := unit '0' ≤ u && u ≤ unit '9'

/-- The space of JSON. -/
def isSpace (u : UInt16) : Bool := (ascii " \t\n\r").contains u

def hexValue (u : UInt16) : Option ℕ := if u < 0x80 then Json.hexValue (Char.ofNat u.toNat) else none

/-- The unit of four hexadecimal digits. -/
def hexUnit (a b c d : UInt16) : Option UInt16 := do
  let a ← hexValue a
  let b ← hexValue b
  let c ← hexValue c
  let d ← hexValue d
  return (a * 4096 + b * 256 + c * 16 + d).toUInt16

/-- What a short escape stands for. -/
def unescape (u : UInt16) : Option UInt16 :=
  if u < 0x80 then Json.unescape (Char.ofNat u.toNat) else none

/-! ## Documents -/

inductive Doc
  | null
  | bool (value : Bool)
  | num (digits : JsString)
  | str (value : JsString)
  | arr (elements : List Doc)
  | obj (members : List (JsString × Doc))

namespace Doc

mutual

/-- The numbers of a document, as they are spelled. -/
def numbers : Doc → List JsString
  | null | bool _ | str _ => []
  | num digits => [digits]
  | arr elements => elementNumbers elements
  | obj members => memberNumbers members

def elementNumbers : List Doc → List JsString
  | [] => []
  | d :: ds => numbers d ++ elementNumbers ds

def memberNumbers : List (JsString × Doc) → List JsString
  | [] => []
  | (_, d) :: members => numbers d ++ memberNumbers members

end

mutual

/-- How deep a document is nested. -/
def depth : Doc → ℕ
  | null | bool _ | num _ | str _ => 0
  | arr elements => elementDepth elements
  | obj members => memberDepth members

def elementDepth : List Doc → ℕ
  | [] => 0
  | d :: ds => max (depth d + 1) (elementDepth ds)

def memberDepth : List (JsString × Doc) → ℕ
  | [] => 0
  | (_, d) :: members => max (depth d + 1) (memberDepth members)

end

mutual

/-- No object has two members of one name. -/
def Distinct : Doc → Prop
  | null | bool _ | num _ | str _ => True
  | arr elements => DistinctElements elements
  | obj members => (members.map Prod.fst).Nodup ∧ DistinctMembers members

def DistinctElements : List Doc → Prop
  | [] => True
  | d :: ds => Distinct d ∧ DistinctElements ds

def DistinctMembers : List (JsString × Doc) → Prop
  | [] => True
  | (_, d) :: members => Distinct d ∧ DistinctMembers members

end

end Doc

/-! ## What is made of a document -/

/-- What the parts of a document are made into. -/
structure Algebra (α : Type*) where
  null : α
  bool : Bool → α
  num : JsString → α
  str : JsString → α
  arr : List α → α
  obj : List (JsString × α) → α

section

variable {α : Type*} (alg : Algebra α)

mutual

def Doc.fold : Doc → α
  | .null => alg.null
  | .bool b => alg.bool b
  | .num digits => alg.num digits
  | .str s => alg.str s
  | .arr elements => alg.arr (foldElements elements)
  | .obj members => alg.obj (foldMembers members)

def foldElements : List Doc → List α
  | [] => []
  | d :: ds => Doc.fold d :: foldElements ds

def foldMembers : List (JsString × Doc) → List (JsString × α)
  | [] => []
  | (key, d) :: members => (key, Doc.fold d) :: foldMembers members

end

end

/-- The number of decimal digits. -/
def ofDigits (digits : JsString) : ℕ :=
  digits.foldl (fun n u => 10 * n + (u.toNat - 48)) 0

/-- The power of ten of an exponent. -/
def exponentValue : JsString → ℤ
  | [] => 0
  | _ :: rest =>
    match rest with
    | [] => 0
    | sign :: digits =>
      if sign = unit '-' then -(ofDigits digits : ℤ)
      else if sign = unit '+' then ofDigits digits
      else ofDigits rest

/-- The number a numeral stands for. -/
def toNumber (numeral : JsString) : ℚ :=
  let negative := numeral.head? = some (unit '-')
  let body := if negative then numeral.drop 1 else numeral
  let whole := body.takeWhile isDigit
  let rest := body.dropWhile isDigit
  let fraction := if rest.head? = some (unit '.') then (rest.drop 1).takeWhile isDigit else []
  let exponent :=
    if rest.head? = some (unit '.') then (rest.drop 1).dropWhile isDigit else rest
  (if negative then -1 else 1) * ofDigits (whole ++ fraction) *
    (10 : ℚ) ^ (exponentValue exponent - fraction.length)

def jsonAlgebra : Algebra Json where
  null := .null
  bool := .bool
  num := fun digits => .num (toNumber digits)
  str := .str
  arr := .arr
  obj := .obj

/-- The value of a document. -/
def Doc.value (d : Doc) : Json := d.fold jsonAlgebra

/-- The algebra of the documents themselves. -/
def docAlgebra : Algebra Doc := ⟨.null, .bool, .num, .str, .arr, .obj⟩

mutual

theorem fold_doc : ∀ d : Doc, d.fold docAlgebra = d
  | .null | .bool _ | .num _ | .str _ => by simp [Doc.fold, docAlgebra]
  | .arr elements => by rw [Doc.fold, foldElements_doc elements, docAlgebra]
  | .obj members => by rw [Doc.fold, foldMembers_doc members, docAlgebra]

theorem foldElements_doc : ∀ ds : List Doc, foldElements docAlgebra ds = ds
  | [] => by rw [foldElements]
  | d :: ds => by rw [foldElements, fold_doc d, foldElements_doc ds]

theorem foldMembers_doc : ∀ members : List (JsString × Doc), foldMembers docAlgebra members = members
  | [] => by rw [foldMembers]
  | (key, d) :: members => by rw [foldMembers, fold_doc d, foldMembers_doc members]

end

/-! ## Numerals and strings -/

def Digits (digits : JsString) : Prop := digits ≠ [] ∧ ∀ u ∈ digits, isDigit u = true

/-- A whole number without leading zeros. -/
def Whole (digits : JsString) : Prop :=
  Digits digits ∧ (digits.head? = some (unit '0') → digits.length = 1)

def Sign (sign : JsString) : Prop := sign = [] ∨ sign = [unit '-']

def Fraction (text : JsString) : Prop := text = [] ∨ ∃ digits, Digits digits ∧ text = unit '.' :: digits

def Exponent (text : JsString) : Prop :=
  text = [] ∨ ∃ mark sign digits, (mark = unit 'e' ∨ mark = unit 'E') ∧
    (Sign sign ∨ sign = [unit '+']) ∧ Digits digits ∧ text = mark :: (sign ++ digits)

/-- An integer without leading zeros, perhaps after a minus. -/
def IsInteger (numeral : JsString) : Prop :=
  ∃ sign whole, Sign sign ∧ Whole whole ∧ numeral = sign ++ whole

/-- The numerals of JSON. -/
def IsNumeral (numeral : JsString) : Prop :=
  ∃ integer fraction exponent, IsInteger integer ∧ Fraction fraction ∧ Exponent exponent ∧
    numeral = integer ++ fraction ++ exponent

/-- The body of a string and what it stands for. -/
inductive Chars : JsString → JsString → Prop
  | nil : Chars [] []
  | plain {u : UInt16} {body s : JsString} (hquote : u ≠ unit '"') (hback : u ≠ unit '\\')
      (hcontrol : ¬ u < 0x20) : Chars body s → Chars (u :: body) (u :: s)
  | short {e u : UInt16} {body s : JsString} (h : unescape e = some u) :
      Chars body s → Chars (unit '\\' :: e :: body) (u :: s)
  | hex {a b c d u : UInt16} {body s : JsString} (h : hexUnit a b c d = some u) :
      Chars body s → Chars (unit '\\' :: unit 'u' :: a :: b :: c :: d :: body) (u :: s)

/-! ## Values -/

section

variable (space : UInt16 → Bool)

/-- A text that goes on with `rest` after its space. -/
def Spaces (text rest : JsString) : Prop := ∃ ws, (∀ u ∈ ws, space u = true) ∧ text = ws ++ rest

/-- A literal or a numeral. -/
inductive Scalar : JsString → Doc → JsString → Prop
  | null (rest : JsString) : Scalar (ascii "null" ++ rest) .null rest
  | bool (b : Bool) (rest : JsString) :
      Scalar (ascii (if b then "true" else "false") ++ rest) (.bool b) rest
  | num {numeral : JsString} (h : IsNumeral numeral) (rest : JsString) :
      Scalar (numeral ++ rest) (.num numeral) rest

/-- A quoted string. -/
def Quoted (text s rest : JsString) : Prop :=
  ∃ body, Chars body s ∧ text = unit '"' :: (body ++ unit '"' :: rest)

mutual

/-- A value at the start of a text. -/
inductive Value : JsString → Doc → JsString → Prop
  | scalar {text rest : JsString} {d : Doc} : Scalar text d rest → Value text d rest
  | str {text s rest : JsString} : Quoted text s rest → Value text (.str s) rest
  | noElements {text rest : JsString} :
      Spaces space text (unit ']' :: rest) → Value (unit '[' :: text) (.arr []) rest
  | arr {text rest : JsString} {ds : List Doc} :
      Elements text ds rest → Value (unit '[' :: text) (.arr ds) rest
  | noMembers {text rest : JsString} :
      Spaces space text (unit '\x7d' :: rest) → Value (unit '\x7b' :: text) (.obj []) rest
  | obj {text rest : JsString} {members : List (JsString × Doc)} :
      Members text members rest → Value (unit '\x7b' :: text) (.obj members) rest

/-- The elements of an array and its end. -/
inductive Elements : JsString → List Doc → JsString → Prop
  | last {text start after rest : JsString} {d : Doc} :
      Spaces space text start → Value start d after → Spaces space after (unit ']' :: rest) →
      Elements text [d] rest
  | cons {text start after next rest : JsString} {d : Doc} {ds : List Doc} :
      Spaces space text start → Value start d after → Spaces space after (unit ',' :: next) →
      Elements next ds rest → Elements text (d :: ds) rest

/-- The members of an object and its end. -/
inductive Members : JsString → List (JsString × Doc) → JsString → Prop
  | last {text start colon inner value after rest key : JsString} {d : Doc} :
      Spaces space text start → Quoted start key colon → Spaces space colon (unit ':' :: inner) →
      Spaces space inner value → Value value d after → Spaces space after (unit '\x7d' :: rest) →
      Members text [(key, d)] rest
  | cons {text start colon inner value after next rest key : JsString} {d : Doc}
      {members : List (JsString × Doc)} :
      Spaces space text start → Quoted start key colon → Spaces space colon (unit ':' :: inner) →
      Spaces space inner value → Value value d after → Spaces space after (unit ',' :: next) →
      Members next members rest → Members text ((key, d) :: members) rest

end

variable {space}

theorem Spaces.trans {a b c : JsString} (hab : Spaces space a b) (hbc : Spaces space b c) :
    Spaces space a c := by
  obtain ⟨xs, hxs, rfl⟩ := hab
  obtain ⟨ys, hys, rfl⟩ := hbc
  exact ⟨xs ++ ys, List.forall_mem_append.2 ⟨hxs, hys⟩, (List.append_assoc ..).symm⟩

theorem Elements.of_spaces {text text' rest : JsString} {ds : List Doc}
    (h : Elements space text' ds rest) (hspaces : Spaces space text text') :
    Elements space text ds rest := by
  cases h with
  | last hstart hvalue hend => exact .last (hspaces.trans hstart) hvalue hend
  | cons hstart hvalue hend hrest => exact .cons (hspaces.trans hstart) hvalue hend hrest

theorem Members.of_spaces {text text' rest : JsString} {ms : List (JsString × Doc)}
    (h : Members space text' ms rest) (hspaces : Spaces space text text') :
    Members space text ms rest := by
  cases h with
  | last hstart hkey hcolon hinner hvalue hend =>
    exact .last (hspaces.trans hstart) hkey hcolon hinner hvalue hend
  | cons hstart hkey hcolon hinner hvalue hend hrest =>
    exact .cons (hspaces.trans hstart) hkey hcolon hinner hvalue hend hrest

variable (space)

/-- A text that is one document, with nothing but space around it. -/
def Spells (text : JsString) (d : Doc) : Prop :=
  ∃ start after, Spaces space text start ∧ Value space start d after ∧ Spaces space after []

end

end Limitmark.Foundations.JsonGrammar
