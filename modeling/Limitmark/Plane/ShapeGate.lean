import Limitmark.Foundations.Json
import Limitmark.Plane.Ingress

/-!
# The shape gate

`defense/layers/a7-shape-gate.ts`: the stateless decision of L1 on the shape and the grammar of one
request. Every size is bounded before anything is decoded, and only the body of a `POST` that is
complete reaches the grammar of the form (`parseForm`).

A target and a header are texts as the parser of the platform hands them over, one character a byte.
-/

namespace Limitmark.Plane

open Limitmark.Defense Limitmark.Foundations

namespace ShapeGate

/-! ## Limits and alphabets -/

def maxFormFields : ℕ := 16

def maxFieldNameBytes : ℕ := 32

def maxFieldEncodedBytes : ℕ := 12000

def FORM_CONTENT_TYPE : String := "application/x-www-form-urlencoded"

def ALLOWED_FORM_FIELDS : List String :=
  ["name", "email", "company", "service", "system", "objective", "environment", "authority",
    "protection", "provider", "notes", "submissionToken", "cf-turnstile-response"]

/-- `/^[A-Za-z0-9\-._~*+%=&]*$/` -/
def isBodyChar (c : Char) : Bool := c.isAlphanum || "-._~*+%=&".toList.contains c

/-- `/^[A-Za-z0-9_-]{43}$/` -/
def isToken (value : String) : Bool := value.length = 43 && value.toList.all isBase64url

/-! ## The form -/

/-- `Buffer.from(body).toString("latin1")` -/
def latin1 (body : List UInt8) : List Char := body.map fun b => Char.ofNat b.toNat

/-- The byte of two hexadecimal digits. -/
def hexByte (a b : Char) : Option UInt8 :=
  (Json.hexValue a).bind fun a => (Json.hexValue b).map fun b => (16 * a + b).toUInt8

/-- The bytes of an urlencoded component; a `%` is followed by two hexadecimal digits. -/
def decodeComponent : List Char → Option (List UInt8)
  | [] => some []
  | c :: rest =>
    if c = '%' then
      match rest with
      | a :: b :: rest => (hexByte a b).bind fun byte => (decodeComponent rest).map (byte :: ·)
      | _ => none
    else if c = '+' then (decodeComponent rest).map (0x20 :: ·)
    else (decodeComponent rest).map (c.toNat.toUInt8 :: ·)

def byteOrderMark : List UInt8 := [0xEF, 0xBB, 0xBF]

/-- `new TextDecoder().decode(bytes)`, which drops a byte order mark; what is no UTF-8 has no text. -/
def textDecoder (bytes : List UInt8) : Option String :=
  decodeUtf8 (if byteOrderMark.isPrefixOf bytes then bytes.drop 3 else bytes)

/-- The part of a field before its first `=` and the part after it. -/
def splitField (pair : List Char) : List Char × List Char :=
  (pair.takeWhile (· ≠ '='), (pair.dropWhile (· ≠ '=')).drop 1)

/-- One field, whose name has to be new. -/
def parseField (seen : List String) (pair : List Char) : Except RejectReason String :=
  let (rawName, rawValue) := splitField pair
  if '=' ∉ pair ∨ rawName = [] then .error .formGrammarInvalid
  else if maxFieldNameBytes * 3 < rawName.length then .error .formFieldNotAllowed
  else if maxFieldEncodedBytes < rawValue.length then .error .formFieldTooLong
  else
    match (decodeComponent rawName).bind textDecoder, (decodeComponent rawValue).bind textDecoder with
    | some name, some value =>
      if name ∉ ALLOWED_FORM_FIELDS then .error .formFieldNotAllowed
      else if name ∈ seen then .error .formFieldDuplicate
      else if name = "submissionToken" ∧ ¬ isToken value then .error .formTokenMalformed
      else .ok name
    | _, _ => .error .bodyEncodingInvalid

def parseFields (seen : List String) : List (List Char) → LayerVerdict
  | [] => .pass
  | pair :: pairs =>
    match parseField seen pair with
    | .error reason => .reject reason
    | .ok name => parseFields (name :: seen) pairs

def parseForm (body : List UInt8) : LayerVerdict :=
  let text := latin1 body
  if ¬ text.all isBodyChar then .reject .bodyEncodingInvalid
  else if text = [] then .pass
  else if maxFormFields < text.count '&' + 1 then .reject .formFieldCountExceeded
  else parseFields [] (text.splitOn '&')

/-! ## The request -/

def named (request : LayerRequest) (wanted : String) : List String :=
  (request.headers.filter fun header => header.1.toLower = wanted).map Prod.snd

def isTargetChar (c : Char) : Bool := '!' ≤ c && c ≤ '~'

def targetMalformed (target : List Char) : Bool :=
  target = [] || !target.all isTargetChar || target.head? ≠ some '/' ||
    "//".toList.isPrefixOf target || target.contains '\\' || target.contains '#' ||
    target.contains '%'

end ShapeGate

end Limitmark.Plane
