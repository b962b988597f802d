import Mathlib.Data.List.Sort
import Limitmark.Plane.Ingress

/-!
# The closed header set

The verifier side of `defense/core/semantic-request.ts`: the classification of header names, the
canonical form of a header value, and the scan of a request's raw header list. Every name must be
in the closed set, a bound name occurs once, and its value is canonical. The scan says nothing
about the proof.
-/

namespace Limitmark.Hop

open Limitmark.Defense Limitmark.Plane

abbrev HeaderPair := String × String

def BOUND_HEADER_NAMES : List String := ["content-type", "host", "origin"]

def FORM_CONTENT_TYPE : String := "application/x-www-form-urlencoded"

def MAX_SEMANTIC_VALUE : ℕ := 255

def MAX_SEMANTIC_BODY : ℕ := 32768

def EMPTY_BODY_SHA256 : String := "47DEQpj8HBSa-_TImW-5JCeuQeRkm5NMpJWZG3hSuFU"

def HOP_PB_HEADER : String := "x-ba0-hop-pb"

def HOP_BA_HEADER : String := "x-ba0-hop-ba"

/-- The harness correlation tag: a measurement, never a decision input. -/
def MEASUREMENT_HEADER : String := "x-ba0-nonce"

/-- The application interprets these, but the plane does not forward them. -/
def REFUSED_HEADERS : List String :=
  ["content-encoding", "transfer-encoding", "expect", "upgrade", "te", "trailer", "range",
    "if-range", "proxy-authorization", "authorization"]

inductive HeaderClass
  | bound | derived | transport | measurement | proof | refused | spoofable | ingressIndicator
  | dropped
  deriving DecidableEq, Repr

/-- Total classification of a header name. -/
def classifyHeader (lowerName : String) : HeaderClass :=
  if BOUND_HEADER_NAMES.contains lowerName then .bound
  else if lowerName = "content-length" then .derived
  else if lowerName = "connection" then .transport
  else if lowerName = MEASUREMENT_HEADER then .measurement
  else if lowerName = HOP_PB_HEADER ∨ lowerName = HOP_BA_HEADER then .proof
  else if REFUSED_HEADERS.contains lowerName then .refused
  else if isSpoofableHeader lowerName then .spoofable
  else if "cf-".toList.isPrefixOf lowerName.toList then .ingressIndicator
  else .dropped

def isOws (c : Char) : Bool := c = ' ' || c = '\t'

def trimOws (value : String) : String :=
  String.ofList ((value.toList.dropWhile isOws).reverse.dropWhile isOws).reverse

/-- `[\x20-\x7e]`, and without the blank `[\x21-\x7e]`. -/
def isPrintable (c : Char) : Bool := ' ' ≤ c && c ≤ '~'

def isVisible (c : Char) : Bool := '!' ≤ c && c ≤ '~'

/-- Canonical form of one header value: trimmed, non-empty printable ASCII, bounded. -/
def canonicalValue (raw : String) : Option String :=
  let value := trimOws raw
  if value.length ≤ MAX_SEMANTIC_VALUE ∧ value.toList.head?.any isVisible ∧
      value.toList.getLast?.any isVisible ∧ value.toList.all isPrintable then some value
  else none

/-- What the scan has found so far. The pairs are those bound, in the order they were met. -/
structure HopScan where
  pb : List String := []
  ba : List String := []
  nonces : List String := []
  bound : List HeaderPair := []
  contentLengths : List String := []
  connections : ℕ := 0
  duplicate : Bool := false
  unbound : Bool := false
  framing : Bool := false
  value : Bool := false
  deriving DecidableEq, Repr

namespace HopScan

/-- One header of the raw list. -/
def scanHeader (scan : HopScan) (header : String × String) : HopScan :=
  let name := header.1.toLower
  match classifyHeader name with
  | .bound =>
    if scan.bound.any fun pair => pair.1 = name then { scan with duplicate := true }
    else
      match canonicalValue header.2 with
      | none => { scan with value := true }
      | some value => { scan with bound := scan.bound ++ [(name, value)] }
  | .derived => { scan with contentLengths := scan.contentLengths ++ [trimOws header.2] }
  | .transport =>
    let value := (trimOws header.2).toLower
    { scan with
      connections := scan.connections + 1
      framing := scan.framing ||
        decide (1 < scan.connections + 1 ∨ (value ≠ "close" ∧ value ≠ "keep-alive")) }
  | .measurement => { scan with nonces := scan.nonces ++ [header.2] }
  | .proof =>
    if name = HOP_PB_HEADER then { scan with pb := scan.pb ++ [header.2] }
    else { scan with ba := scan.ba ++ [header.2] }
  | _ => { scan with unbound := true }

/-- The canonical pairs observed on the wire, sorted by name. -/
def pairs (scan : HopScan) : List HeaderPair :=
  scan.bound.insertionSort fun a b => a.1 ≤ b.1

/-- The findings about the whole list. -/
def close (method : String) (scan : HopScan) : HopScan :=
  { scan with
    duplicate := scan.duplicate || decide (1 < scan.nonces.length)
    value := scan.value || (scan.nonces.length = 1 && !scan.nonces.all isNonce)
    framing := scan.framing || decide (1 < scan.contentLengths.length) ||
      (scan.contentLengths.length = 1 &&
        !scan.contentLengths.all fun length => (contentLength? length).isSome) ||
      (method = "GET" && !scan.contentLengths.isEmpty) ||
      (method = "POST" && scan.contentLengths.isEmpty) }

/-- The one violation the scan reports, by fixed precedence. -/
def violation (scan : HopScan) : Option ObReason :=
  if scan.duplicate then some .headerDuplicate
  else if scan.unbound then some .headerUnbound
  else if scan.framing then some .framingInvalid
  else if scan.value then some .headerValueInvalid
  else none

/-- The measurement tag, if the request carries exactly one well-formed one. -/
def tag (scan : HopScan) : Option String :=
  match scan.nonces with
  | [nonce] => if isNonce nonce then some nonce else none
  | _ => none

end HopScan

/-- The scan of a raw header list. -/
def scanHopHeaders (rawHeaders : List (String × String)) (method : String) : HopScan :=
  (rawHeaders.foldl HopScan.scanHeader {}).close method

end Limitmark.Hop
