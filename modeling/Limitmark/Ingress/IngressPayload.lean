import Limitmark.Foundations.Checks
import Limitmark.Foundations.JsonRoundTrip
import Limitmark.Ingress.Protocol

/-!
# The ingress payload

The payload codec and the envelope of `src/lib/ingress-protocol.ts`. A payload is a JSON array of 18
fields, and is checked as it comes: `validatePayload` takes any JSON value.

A valid payload consists of strings and whole numbers (`atoms_of_validatePayload`), so its text is
read back; and a text is accepted only when it is the one its value is serialised to.

The three errors of the base64url decoder are one here.
-/

namespace Limitmark.Ingress

open Limitmark.Foundations Limitmark.Defense Limitmark.Hop

def INGRESS_VERSION : String := "lm-ingress-v1"

def INGRESS_ENVIRONMENT : String := "production"

def INGRESS_IDENTITY_VERSION : String := "prod-ip-hmac-v1"

def INGRESS_NO_NONCE : String := "-"

def INGRESS_MAX_HEADER_BYTES : ℕ := 2048

def INGRESS_MAX_BODY_BYTES : ℤ := 32768

def INGRESS_MUTATION_PATH : String := "/api/public-inquiries"

def INGRESS_MUTATION_CONTENT_TYPE : String := "application/x-www-form-urlencoded"

def INGRESS_BODY_ENCODING : String := "identity"

def EMPTY_SHA256_BASE64URL : String := "47DEQpj8HBSa-_TImW-5JCeuQeRkm5NMpJWZG3hSuFU"

/-- The most characters of a field. -/
structure IngressFieldMaximums where
  keyId : ℕ := 32
  audience : ℕ := 96
  deploymentId : ℕ := 128
  method : ℕ := 8
  host : ℕ := 253
  path : ℕ := 128
  query : ℕ := 256
  contentType : ℕ := 64

def ingressFieldMaximums : IngressFieldMaximums := {}

/-! ## Characters -/

/-- `[A-Za-z0-9_.:-]`. -/
def isNameChar (c : Char) : Bool := isBase64url c || c = '.' || c = ':'

/-- `[\x21-\x7e]`. -/
def isGraphic (c : Char) : Bool := '!' ≤ c && c ≤ '~'

/-- `[a-z0-9]`. -/
def isHostEnd (c : Char) : Bool := 'a' ≤ c && c ≤ 'z' || '0' ≤ c && c ≤ '9'

/-- `^(?:[a-z0-9](?:[a-z0-9.-]*[a-z0-9])?)$`. -/
def isHost (text : List Char) : Bool :=
  (text.all fun c => isHostEnd c || c = '.' || c = '-') && text.head?.any isHostEnd &&
    text.getLast?.any isHostEnd

/-- `^/[\x21-\x7e]*$`. -/
def isPath : List Char → Bool
  | [] => false
  | c :: rest => c = '/' && rest.all isGraphic

/-- `\s`, of a code unit. -/
def isWhiteUnit (u : UInt16) : Bool :=
  let n := u.toNat
  9 ≤ n && n ≤ 13 || n = 0x20 || n = 0xA0 || n = 0x1680 || 0x2000 ≤ n && n ≤ 0x200A || n = 0x2028 ||
    n = 0x2029 || n = 0x202F || n = 0x205F || n = 0x3000 || n = 0xFEFF

/-! ## The payload -/

def boundedAscii (value : Json) (name : String) (maximum : ℕ) (pattern : List Char → Bool) :
    Except String Unit :=
  ensure (value.text?.any fun text =>
    1 ≤ text.length && text.length ≤ maximum && pattern text.toList) name

/-- A field that is the base64url of so many bytes. -/
def checkBase64url (value : Json) (name : String) (length : ℕ) : Except String Unit := do
  ensure value.text?.isSome name
  ensure (value.text?.any fun text => (decodeCanonicalBase64url text length).isSome) "base64url"

def isSafeNumber (value : Json) (maximum : ℤ) : Bool :=
  value.int?.any fun n => isSafeInteger n && 0 ≤ n && n ≤ maximum

/-- A field that is a certain text. -/
def isText (value : Json) (text : String) : Bool := value.text? = some text

/-- No white space and no `#`; any other unit is allowed, a lone surrogate too. -/
def isQuery : Json → Bool
  | .str units => decide (units.length ≤ ingressFieldMaximums.query) &&
      !units.any fun u => isWhiteUnit u || u = 0x23
  | _ => false

def validatePayload : Json → Except String Unit
  | .arr [version, keyId, environment, audience, deploymentId, issuedAtMs, method, scheme, host, path,
      query, contentType, contentEncoding, bodyLength, bodySha256, identityVersion,
      clientPseudonym, nonce] => do
    ensure (isText version INGRESS_VERSION) "version"
    boundedAscii keyId "key-id" ingressFieldMaximums.keyId fun text => text.all isBase64url
    ensure (isText environment INGRESS_ENVIRONMENT) "environment"
    boundedAscii audience "audience" ingressFieldMaximums.audience fun text => text.all isNameChar
    boundedAscii deploymentId "deployment" ingressFieldMaximums.deploymentId fun text =>
      text.all isNameChar
    ensure (isSafeNumber issuedAtMs (2 ^ 53 - 1)) "issued-at"
    boundedAscii method "method" ingressFieldMaximums.method fun text =>
      ["GET".toList, "HEAD".toList, "POST".toList].contains text
    ensure (isText scheme "https") "scheme"
    boundedAscii host "host" ingressFieldMaximums.host isHost
    boundedAscii path "path" ingressFieldMaximums.path isPath
    ensure (isQuery query) "query"
    boundedAscii contentType "content-type" ingressFieldMaximums.contentType fun text =>
      text.all isGraphic
    ensure (isText contentEncoding INGRESS_BODY_ENCODING) "content-encoding"
    ensure (isSafeNumber bodyLength INGRESS_MAX_BODY_BYTES) "body-length"
    checkBase64url bodySha256 "body-digest" 32
    ensure (isText identityVersion INGRESS_IDENTITY_VERSION) "identity-version"
    checkBase64url clientPseudonym "identity" 32
    ensure nonce.text?.isSome "nonce"
    if isText nonce INGRESS_NO_NONCE then .ok () else checkBase64url nonce "nonce" 16
    if isText method "POST" then
      ensure (isText host "limitmark.com" ∧ isText path INGRESS_MUTATION_PATH ∧ isText query "" ∧
        isText contentType INGRESS_MUTATION_CONTENT_TYPE ∧ ¬ isText nonce INGRESS_NO_NONCE)
        "mutation-policy"
    else
      ensure (isText contentType "-" ∧ bodyLength.int? = some 0 ∧
        isText bodySha256 EMPTY_SHA256_BASE64URL ∧ isText nonce INGRESS_NO_NONCE) "safe-read-policy"
  | _ => .error "field-count"

def encodeIngressPayload (payload : Json) : Except String (List UInt8) := do
  validatePayload payload
  return utf8 payload.stringify

def decodeIngressPayload (bytes : List UInt8) : Except String Json :=
  match decodeUtf8 bytes with
  | none => .error "utf8"
  | some text =>
    match Json.parse text with
    | none => .error "json"
    | some parsed => do
      validatePayload parsed
      ensure (parsed.stringify = text) "payload-canonical"
      return parsed

/-! ## The envelope -/

structure IngressEnvelope where
  payloadBytes : List UInt8
  payload : Json
  signature : List UInt8

/-- The header of an envelope. -/
def envelopeHeader (payloadBytes signature : List UInt8) : String :=
  encodeBase64url payloadBytes ++ "." ++ encodeBase64url signature

def isWhite (c : Char) : Bool := c.toNat < 0x10000 && isWhiteUnit c.toNat.toUInt16

/-- `header.trim() === header`. -/
def isTrimmed (text : List Char) : Bool :=
  !text.head?.any isWhite && !text.getLast?.any isWhite

def splitIngressEnvelope (header : String) : Except String IngressEnvelope := do
  ensure (header ≠ "" ∧ header.length ≤ INGRESS_MAX_HEADER_BYTES ∧ isTrimmed header.toList ∧
    ',' ∉ header.toList) "header"
  match header.toList.splitOn '.' with
  | [payloadText, signatureText] =>
    match decodeCanonicalBase64url (String.ofList payloadText) none,
        decodeCanonicalBase64url (String.ofList signatureText) (some 64) with
    | some payloadBytes, some signature => do
      let payload ← decodeIngressPayload payloadBytes
      return { payloadBytes, payload, signature }
    | _, _ => .error "base64url"
  | _ => .error "envelope"

/-! ## The payload is read back -/

theorem isAtom_of_text? {value : Json} (h : value.text?.isSome = true) : value.IsAtom := by
  obtain ⟨text, htext⟩ := Option.isSome_iff_exists.1 h
  exact .inl ⟨_, Json.eq_text_of_text? htext⟩

theorem isAtom_of_isText {value : Json} {text : String} (h : isText value text = true) :
    value.IsAtom := by
  refine isAtom_of_text? ?_
  rw [of_decide_eq_true h]
  rfl

theorem isAtom_of_boundedAscii {value : Json} {name : String} {maximum : ℕ}
    {pattern : List Char → Bool} {u : Unit} (h : boundedAscii value name maximum pattern = .ok u) :
    value.IsAtom := by
  rw [boundedAscii, ensure_eq_ok, Option.any_eq_true] at h
  obtain ⟨text, htext, -⟩ := h
  refine isAtom_of_text? ?_
  rw [htext]
  rfl

theorem isAtom_of_isSafeNumber {value : Json} {maximum : ℤ} (h : isSafeNumber value maximum = true) :
    value.IsAtom := by
  rw [isSafeNumber, Option.any_eq_true] at h
  obtain ⟨n, hn, -⟩ := h
  exact .inr ⟨n, Json.eq_int_of_int? hn⟩

theorem isAtom_of_checkBase64url {value : Json} {name : String} {length : ℕ} {u : Unit}
    (h : checkBase64url value name length = .ok u) : value.IsAtom := by
  rw [checkBase64url, check_bind_eq_ok, ensure_eq_ok] at h
  exact isAtom_of_text? h.1

theorem isAtom_of_isQuery {value : Json} (h : isQuery value = true) : value.IsAtom := by
  unfold isQuery at h
  split at h
  · exact .inl ⟨_, rfl⟩
  · cases h

theorem atoms_of_validatePayload {payload : Json} {u : Unit} (h : validatePayload payload = .ok u) :
    ∃ values, payload = .arr values ∧ ∀ v ∈ values, v.IsAtom := by
  unfold validatePayload at h
  split at h
  · simp only [check_bind_eq_ok, ensure_eq_ok] at h
    obtain ⟨hversion, hkey, henv, haud, hdep, hissued, hmethod, hscheme, hhost, hpath, hquery, htype,
      henc, hlength, hsha, hid, hclient, hnonce, -⟩ := h
    refine ⟨_, rfl, ?_⟩
    simp only [List.forall_mem_cons]
    exact ⟨isAtom_of_isText hversion, isAtom_of_boundedAscii hkey, isAtom_of_isText henv,
      isAtom_of_boundedAscii haud, isAtom_of_boundedAscii hdep, isAtom_of_isSafeNumber hissued,
      isAtom_of_boundedAscii hmethod, isAtom_of_isText hscheme, isAtom_of_boundedAscii hhost,
      isAtom_of_boundedAscii hpath, isAtom_of_isQuery hquery, isAtom_of_boundedAscii htype,
      isAtom_of_isText henc, isAtom_of_isSafeNumber hlength, isAtom_of_checkBase64url hsha,
      isAtom_of_isText hid, isAtom_of_checkBase64url hclient, isAtom_of_text? hnonce,
      fun _ h => by cases h⟩
  · cases h

/-- A payload of strings and whole numbers is read back from its text. -/
theorem parse_stringify_of_atoms {payload : Json}
    (h : ∃ values, payload = .arr values ∧ ∀ v ∈ values, v.IsAtom) :
    Json.parse payload.stringify = some payload := by
  obtain ⟨values, rfl, hatoms⟩ := h
  exact Json.parse_stringify_arr hatoms

theorem encodeIngressPayload_eq_ok {payload : Json} {bytes : List UInt8} :
    encodeIngressPayload payload = .ok bytes ↔
      validatePayload payload = .ok () ∧ utf8 payload.stringify = bytes := by
  rw [encodeIngressPayload, check_bind_eq_ok]
  exact and_congr_right fun _ => ⟨Except.ok.inj, congrArg Except.ok⟩

/-- **Bytes are decoded exactly when they are the encoding of a valid payload**, and to it. -/
theorem decodeIngressPayload_eq_ok {bytes : List UInt8} {payload : Json} :
    decodeIngressPayload bytes = .ok payload ↔ encodeIngressPayload payload = .ok bytes := by
  rw [encodeIngressPayload_eq_ok]
  constructor
  · intro h
    unfold decodeIngressPayload at h
    split at h
    · cases h
    · next text htext =>
      split at h
      · cases h
      · simp only [check_bind_eq_ok, ensure_eq_ok] at h
        obtain ⟨hvalid, hcanonical, h⟩ := h
        obtain rfl := Except.ok.inj h
        exact ⟨hvalid, by rw [hcanonical, decodeUtf8_eq_some.1 htext]⟩
  · rintro ⟨hvalid, rfl⟩
    have hparse := parse_stringify_of_atoms (atoms_of_validatePayload hvalid)
    rw [decodeIngressPayload, decodeUtf8_utf8]
    simp only [hparse, hvalid, ensure, if_true]
    rfl

/-! ## The envelope is read back -/

/-- A header that is split is the one of its parts, and its payload the one of its bytes. -/
theorem of_splitIngressEnvelope {header : String} {envelope : IngressEnvelope}
    (h : splitIngressEnvelope header = .ok envelope) :
    header = envelopeHeader envelope.payloadBytes envelope.signature ∧
      encodeIngressPayload envelope.payload = .ok envelope.payloadBytes ∧
      envelope.signature.length = 64 := by
  rw [splitIngressEnvelope, check_bind_eq_ok] at h
  obtain ⟨-, h⟩ := h
  split at h
  · next payloadText signatureText hparts =>
    split at h
    · next payloadBytes signature hpayload hsignature =>
      obtain ⟨payload, hdecoded, h⟩ := bind_eq_ok.1 h
      obtain rfl := Except.ok.inj h
      obtain ⟨⟨-, hencoded⟩, hlength⟩ := decodeCanonicalB64Of_eq_some.1 hsignature
      refine ⟨?_, decodeIngressPayload_eq_ok.1 hdecoded, hlength⟩
      have hjoin : ['.'].intercalate (header.toList.splitOn '.') = header.toList :=
        List.intercalate_splitOn '.'
      rw [hparts] at hjoin
      rw [← String.toList_inj, ← hjoin, envelopeHeader, encodeBase64url, encodeBase64url,
        (decodeCanonicalB64_eq_some.1 hpayload).2, hencoded]
      simp [List.intercalate]
    · cases h
  · cases h

/-! ## The length of a field -/

theorem isPlain_of_isNameChar {c : Char} (h : isNameChar c = true) : Json.isPlain c = true := by
  have hall : ∀ c ∈ '.' :: ':' :: BASE64URL_ALPHABET, Json.isPlain c = true :=
    forall_mem_of_all (by decide)
  simp only [isNameChar, isBase64url, Bool.or_eq_true, decide_eq_true_eq,
    List.contains_iff_mem] at h
  refine hall c ?_
  rcases h with (h | rfl) | rfl
  · exact List.mem_cons_of_mem _ (List.mem_cons_of_mem _ h)
  · exact List.mem_cons_self
  · exact List.mem_cons_of_mem _ List.mem_cons_self

theorem isPlain_of_isBase64url {c : Char} (h : isBase64url c = true) : Json.isPlain c = true :=
  isPlain_of_isNameChar (by simp [isNameChar, h])

theorem narrow_base64url {text : String} {n : ℕ} {bytes : List UInt8}
    (h : decodeCanonicalBase64url text (some n) = some bytes) :
    Json.Narrow (Json.text text) ((n * 4 + 2) / 3 + 2) := by
  obtain ⟨⟨-, rfl⟩, rfl⟩ := decodeCanonicalB64Of_eq_some.1 h
  have hlist : (base64url bytes).toList = base64urlChars bytes := String.toList_ofList
  refine Json.narrow_text (fun c hc => ?_) ?_
  · rw [hlist] at hc
    exact isPlain_of_isBase64url (List.all_eq_true.1 (all_base64urlChars bytes) c hc)
  · rw [← String.length_toList, hlist, length_base64urlChars]

end Limitmark.Ingress
