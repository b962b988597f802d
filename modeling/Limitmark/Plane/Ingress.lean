import Limitmark.Defense.Bytes
import Limitmark.Defense.Vocabulary

/-!
# Ingress

What the front (`defense/plane/front.ts`) reads off a request before any layer sees it: the
correlation nonce of a local peer, the headers left after every header that only a trusted hop may
set has been removed, and how the body will be read. A remote peer cannot choose the nonce.
-/

namespace Limitmark.Plane

open Limitmark.Defense

def NONCE_HEADER : String := "x-ba0-nonce"

/-- Names a trusted hop alone may set: the prefixes. -/
def SPOOFABLE_PREFIXES : List String := ["x-ba0-", "x-forwarded-", "x-limitmark-", "x-vercel-"]

/-- Names a trusted hop alone may set: the exact ones. -/
def SPOOFABLE_NAMES : List String :=
  ["forwarded", "x-real-ip", "x-client-ip", "true-client-ip", "cf-connecting-ip", "cf-ipcountry",
    "x-original-url", "x-rewrite-url", "x-http-method-override"]

def isSpoofableHeader (lowerCaseName : String) : Bool :=
  SPOOFABLE_PREFIXES.any (fun p => p.toList.isPrefixOf lowerCaseName.toList) ||
    SPOOFABLE_NAMES.contains lowerCaseName

/-- `/^[A-Za-z0-9_-]{22}$/`. -/
def isNonce (value : String) : Bool := value.length = 22 && value.toList.all isBase64url

/-- `/^(?:0|[1-9][0-9]{0,8})$/`, with the number it spells. -/
def contentLength? (value : String) : Option ℕ :=
  if value.length ≤ 9 ∧ value.toList.all Char.isDigit ∧
      (value = "0" ∨ value.toList.head?.any fun c => c ≠ '0') then value.toNat?
  else none

def maxBodyBytes : ℕ := 32768

/-- A request as it arrives. The headers are the raw list, as pairs. -/
structure IncomingRequest where
  method : String
  url : String
  rawHeaders : List (String × String)
  remote : Bool
  deriving DecidableEq, Repr

/-- The headers with their names in lower case. -/
def IncomingRequest.lowered (req : IncomingRequest) : List (String × String) :=
  req.rawHeaders.map fun header => (header.1.toLower, header.2)

/-- The correlation header is consumed, for a local peer only. -/
def isNonceHeader (remote : Bool) (name : String) : Bool := name = NONCE_HEADER && !remote

/-- What the front reads off a request. -/
structure Ingress where
  rawNonces : List String
  layerHeaders : List (String × String)
  stripped : ℕ
  deriving DecidableEq, Repr

def ingressOf (req : IncomingRequest) : Ingress where
  rawNonces := (req.lowered.filter fun h => isNonceHeader req.remote h.1).map Prod.snd
  layerHeaders := req.lowered.filter fun h =>
    !isNonceHeader req.remote h.1 && !isSpoofableHeader h.1
  stripped := req.lowered.countP fun h =>
    !isNonceHeader req.remote h.1 && isSpoofableHeader h.1

/-- The nonce the harness chose, if the request carries exactly one usable one. -/
def correlatedNonce (req : IncomingRequest) : Option String :=
  match (ingressOf req).rawNonces with
  | [value] => if !req.remote && isNonce value then some value else none
  | _ => none

/-- The one declared length of the body. -/
def declaredLength (req : IncomingRequest) : Option ℕ :=
  match (ingressOf req).layerHeaders.filter fun h => h.1 = "content-length" with
  | [header] => contentLength? header.2
  | _ => none

/-- How the body is read, decided before anything of it is. -/
inductive BodyPlan
  | settled (status : BodyStatus) (body : Option (List UInt8))
  | read (declared : ℕ)
  deriving DecidableEq, Repr

def bodyPlan (req : IncomingRequest) : BodyPlan :=
  if req.method = "POST" then
    match declaredLength req with
    | none => .settled .none none
    | some declared =>
      if maxBodyBytes < declared then .settled .declaredOversize none
      else if declared = 0 then .settled .complete (some [])
      else .read declared
  else .settled .none none

end Limitmark.Plane
