import Mathlib.Tactic.Linarith
import Limitmark.Hop.VerifierRun

/-!
# A hop proof is admitted once

Any number of calls of `admitHopRequest` at one verifier, interleaved at their awaits. A proof is
accepted over a span of its lifetime and twice the skew, read off the wall clock; its id is retained
a second longer, read off the monotonic clock. As long as the monotonic time between two
reservations does not exceed the wall time between their freshness readings by that second, no id is
reserved twice, and so none is admitted twice (`single_admission`).

The guard retains ids, not proofs, so an id has to stand for one window: its issuer draws it at random
and nobody else can sign (`IdsUnique`). A key holder who signs under an old id again is admitted again
(`admitted_under_one_id`).
-/

namespace Limitmark.Hop

open Limitmark.Defense Limitmark.Foundations

/-- Proofs with one id were issued, and expire, at one time. -/
def OneWindow (claims claims' : Claims) : Prop :=
  claims.jti = claims'.jti → claims.iat = claims'.iat ∧ claims.exp = claims'.exp

/-- Two times at which proofs with one window were acceptable. -/
theorem abs_sub_le_of_inWindow {claims claims' : Claims} {nowMs nowMs' fenceMs fenceMs' : ℚ}
    (h : InWindow claims nowMs fenceMs) (h' : InWindow claims' nowMs' fenceMs')
    (hiat : claims.iat = claims'.iat) (hexp : claims.exp = claims'.exp) :
    |nowMs - nowMs'| ≤ ((MAX_LIFETIME claims.role + 2 * HOP_SKEW_MS : ℕ) : ℚ) := by
  have hlife : (claims.exp : ℚ) ≤ claims.iat + MAX_LIFETIME claims.role := by
    exact_mod_cast h.lifetime.2
  have hvalid := h.valid
  have halive := h.alive
  have hvalid' := h'.valid
  have halive' := h'.alive
  rw [← hiat] at hvalid'
  rw [← hexp] at halive'
  push_cast
  rw [abs_le]
  constructor <;> linarith

namespace Verifier

variable {P : Platform} {config : AdmissionConfig} {fenceMs : ℚ} {v : Verifier} {t : ℚ}

/-! ## The reservations of one id -/

/-- The invariant of a run at monotonic time `t`: the guard holds the ids of every reservation, and
two reservations of one id are its retention apart. -/
structure Kept (P : Platform) (config : AdmissionConfig) (fenceMs : ℚ) (v : Verifier) (t : ℚ) :
    Prop where
  traced : ∀ call ∈ v.calls, call.Traced P config fenceMs fun _ => True
  held : ∀ i r, v.reservationAt i = some r → ∀ want ∈ wants config.role r.verified,
    v.guard.Holds t want.key (r.reservedAt + want.retainMs)
  past : ∀ i r, v.reservationAt i = some r → r.reservedAt ≤ t
  spaced : ∀ i j r r', i ≠ j → v.reservationAt i = some r → v.reservationAt j = some r' →
    ∀ want ∈ wants config.role r.verified, ∀ want' ∈ wants config.role r'.verified,
      want.key = want'.key →
      r.reservedAt + want.retainMs ≤ r'.reservedAt ∨ r'.reservedAt + want'.retainMs ≤ r.reservedAt

/-- The operation reads the monotonic clock at `t` or later. -/
abbrev Op.Ticks (t : ℚ) (op : Op) : Prop := t ≤ op.mono.getD t

/-- The readings of the monotonic clock never step back. -/
abbrev Ticking (t : ℚ) (ops : List Op) : Prop := Paced Op.Ticks (fun t op => op.mono.getD t) t ops

theorem kept_create (capacity : ℕ) (t : ℚ) : Kept P config fenceMs { guard := { capacity } } t := by
  have hnone (i : ℕ) (r : Reservation) :
      Verifier.reservationAt { guard := { capacity } } i ≠ some r := by
    simp [reservationAt]
  exact ⟨by simp, fun i r h => absurd h (hnone i r), fun i r h => absurd h (hnone i r),
    fun i j r r' _ h => absurd h (hnone i r)⟩

/-- A step keeps the invariant. -/
theorem Kept.step (h : Kept P config fenceMs v t) (op : Op) (ht : op.Ticks t) :
    Kept P config fenceMs (Verifier.step P config fenceMs v op).1 (op.mono.getD t) := by
  obtain ⟨hholds, -, hreserves⟩ := moves_step h.traced op t
  have ht : t ≤ op.mono.getD t := ht
  have htraced := traced_step h.traced op fun _ _ => trivial
  generalize (Verifier.step P config fenceMs v op).1 = v' at hholds hreserves htraced ⊢
  generalize op.mono.getD t = t' at hholds hreserves ht ⊢
  rcases hreserves with hsame | ⟨i₀, r₀, hr⟩
  · refine ⟨htraced, ?_, ?_, ?_⟩
    · intro i r hi want hwant
      rw [hsame] at hi
      exact hholds t _ _ ht (h.held i r hi want hwant)
    · intro i r hi
      rw [hsame] at hi
      exact (h.past i r hi).trans ht
    · intro i j r r' hne hi hj
      rw [hsame] at hi hj
      exact h.spaced i j r r' hne hi hj
  · have hcases (i : ℕ) (r : Reservation) (hi : v'.reservationAt i = some r) :
        (i = i₀ ∧ r = r₀) ∨ (i ≠ i₀ ∧ v.reservationAt i = some r) := by
      by_cases heq : i = i₀
      · subst heq
        rw [hr.made] at hi
        exact Or.inl ⟨rfl, (Option.some.inj hi).symm⟩
      · rw [hr.others i heq] at hi
        exact Or.inr ⟨heq, hi⟩
    -- an id of an old reservation was free again when the new one took it
    have hspaced (i : ℕ) (r : Reservation) (hi : v.reservationAt i = some r) :
        ∀ want ∈ wants config.role r.verified, ∀ want' ∈ wants config.role r₀.verified,
          want.key = want'.key → r.reservedAt + want.retainMs ≤ r₀.reservedAt := by
      intro want hwant want' hwant' hkey
      have hheld := h.held i r hi want hwant
      rw [hkey] at hheld
      rw [hr.time]
      exact hr.free want' hwant' t _ ht hheld
    refine ⟨htraced, ?_, ?_, ?_⟩
    · intro i r hi want hwant
      rcases hcases i r hi with ⟨rfl, rfl⟩ | ⟨-, hi⟩
      · rw [hr.time]
        exact hr.held want hwant
      · exact hholds t _ _ ht (h.held i r hi want hwant)
    · intro i r hi
      rcases hcases i r hi with ⟨rfl, rfl⟩ | ⟨-, hi⟩
      · exact hr.time.le
      · exact (h.past i r hi).trans ht
    · intro i j r r' hne hi hj want hwant want' hwant' hkey
      rcases hcases i r hi with ⟨rfl, rfl⟩ | ⟨-, hi⟩ <;>
        rcases hcases j r' hj with ⟨rfl, rfl⟩ | ⟨-, hj⟩
      · exact absurd rfl hne
      · exact Or.inr (hspaced j r' hj want' hwant' want hwant hkey.symm)
      · exact Or.inl (hspaced i r hi want hwant want' hwant' hkey)
      · exact h.spaced i j r r' hne hi hj want hwant want' hwant' hkey

theorem kept_exec (P : Platform) (config : AdmissionConfig) (fenceMs : ℚ) (capacity : ℕ)
    {ops : List Op} (hticking : Ticking t ops) :
    Kept P config fenceMs
      (exec (Verifier.step P config fenceMs) { guard := { capacity } } ops)
      (ops.foldl (fun t op => op.mono.getD t) t) :=
  Paced.run_induction (Verifier.step P config fenceMs)
    (P := fun _ v t => Kept P config fenceMs v t) (kept_create capacity t)
    (fun _ _ _ op hkept hop => hkept.step op hop) hticking

/-! ## No id is reserved twice -/

/-- The reservations of all calls. -/
def reservations (v : Verifier) : List Reservation := v.calls.filterMap CallState.reservation

theorem mem_reservations {i : ℕ} {r : Reservation} (h : v.reservationAt i = some r) :
    r ∈ v.reservations := by
  obtain ⟨call, hcall, hr⟩ := Option.bind_eq_some_iff.1 h
  exact List.mem_filterMap.2 ⟨call, List.mem_of_getElem? hcall, hr⟩

/-- The monotonic time between two reservations exceeds the wall time between their freshness
readings by less than a second. -/
abbrev Gapped (v : Verifier) : Prop :=
  ∀ r ∈ v.reservations, ∀ r' ∈ v.reservations,
    |r.reservedAt - r'.reservedAt| < |r.nowMs - r'.nowMs| + 1000

/-- Of the proofs that calls reserved with, an id has one window: of their own proofs, and at the app of
the lineage proofs under them. -/
def IdsUnique (role : HopRole) (v : Verifier) : Prop :=
  ∀ r ∈ v.reservations, ∀ r' ∈ v.reservations,
    OneWindow r.verified.claims r'.verified.claims ∧
      (role = .ba → OneWindow r.verified.pb.claims r'.verified.pb.claims)

/-- Two reservations share neither their own id nor, at the app, their parent's. -/
def IdsDiffer (role : HopRole) (a b : Verified) : Prop :=
  a.claims.jti ≠ b.claims.jti ∧ (role = .ba → a.pb.claims.jti ≠ b.pb.claims.jti)

/-- Reservations of one id are further apart than the proof is accepted. -/
theorem not_gapped_of_want {i j : ℕ} {r r' : Reservation} (h : Kept P config fenceMs v t)
    (hne : i ≠ j) (hi : v.reservationAt i = some r) (hj : v.reservationAt j = some r')
    {want want' : ReserveRequest} (hwant : want ∈ wants config.role r.verified)
    (hwant' : want' ∈ wants config.role r'.verified) (hkey : want.key = want'.key)
    (hretain : want.retainMs = want'.retainMs)
    (hspan : |r.nowMs - r'.nowMs| + 1000 ≤ (want.retainMs : ℚ)) :
    |r.nowMs - r'.nowMs| + 1000 ≤ |r.reservedAt - r'.reservedAt| := by
  refine hspan.trans ?_
  rcases h.spaced i j r r' hne hi hj want hwant want' hwant' hkey with hle | hle
  · rw [abs_sub_comm]
    exact (le_sub_iff_add_le'.2 hle).trans (le_abs_self _)
  · rw [← hretain] at hle
    exact (le_sub_iff_add_le'.2 hle).trans (le_abs_self _)

/-- **No id is reserved twice.** -/
theorem idsDiffer_of_kept (hids : IdsUnique config.role v) (h : Kept P config fenceMs v t)
    (hgap : Gapped v) {i j : ℕ} (hne : i ≠ j) {r r' : Reservation} (hi : v.reservationAt i = some r)
    (hj : v.reservationAt j = some r') : IdsDiffer config.role r.verified r'.verified := by
  obtain ⟨hown, hplane⟩ := hids r (mem_reservations hi) r' (mem_reservations hj)
  have hlt := hgap r (mem_reservations hi) r' (mem_reservations hj)
  have hgenuine {k : ℕ} {r : Reservation} (hk : v.reservationAt k = some r) :
      Genuine P config fenceMs r.nowMs r.verified := by
    obtain ⟨call, hcall, hr⟩ := Option.bind_eq_some_iff.1 hk
    exact (h.traced call (List.mem_of_getElem? hcall)).genuine hr
  have hg := hgenuine hi
  have hg' := hgenuine hj
  constructor
  · intro hjti
    obtain ⟨hiat, hexp⟩ := hown hjti
    have hspan := abs_sub_le_of_inWindow hg.ownWindow hg'.ownWindow hiat hexp
    rw [hg.own.role] at hspan
    refine absurd hlt (not_lt.2 (not_gapped_of_want h hne hi hj hg.ownWant_mem hg'.ownWant_mem ?_ rfl
      ?_))
    · simp only [ownWant, hjti]
    · simp only [ownWant]
      push_cast at hspan ⊢
      linarith
  · intro hrole hjti
    obtain ⟨hiat, hexp⟩ := hplane hrole hjti
    have hspan := abs_sub_le_of_inWindow hg.planeWindow hg'.planeWindow hiat hexp
    rw [hg.plane.role] at hspan
    have hmem (verified : Verified) : parentWant verified ∈ wants config.role verified := by
      rw [hrole]
      exact parentWant_mem verified
    refine absurd hlt (not_lt.2 (not_gapped_of_want h hne hi hj (hmem r.verified)
      (hmem r'.verified) ?_ rfl ?_))
    · rw [parentWant, parentWant, hjti]
    · rw [parentWant]
      push_cast at hspan ⊢
      linarith

/-- **Single admission.** Where an id has one window, no two calls are admitted with one id of their
own, or at the app for one parent; and the ids of a call that failed after its reservation are never
reserved by another, so no call is admitted with them. -/
theorem single_admission (capacity : ℕ) {ops : List Op} (hticking : Ticking t ops)
    (hids : IdsUnique config.role
      (exec (Verifier.step P config fenceMs) { guard := { capacity } } ops))
    (hgap : Gapped (exec (Verifier.step P config fenceMs) { guard := { capacity } } ops)) :
    (∀ i j a b, i ≠ j →
      (exec (Verifier.step P config fenceMs) { guard := { capacity } } ops).admittedAt i = some a →
      (exec (Verifier.step P config fenceMs) { guard := { capacity } } ops).admittedAt j = some b →
      a.claims.jti ≠ b.claims.jti ∧ (config.role = .ba → a.pb.claims.jti ≠ b.pb.claims.jti)) ∧
    ∀ i j r refusal, i ≠ j →
      (exec (Verifier.step P config fenceMs) { guard := { capacity } } ops).calls[i]? =
        some (.refused (some r) refusal) →
      (∀ r', (exec (Verifier.step P config fenceMs) { guard := { capacity } } ops).reservationAt j =
        some r' → IdsDiffer config.role r.verified r'.verified) ∧
      ∀ b, (exec (Verifier.step P config fenceMs) { guard := { capacity } } ops).admittedAt j =
          some b → r.verified.claims.jti ≠ b.claims.jti ∧
            (config.role = .ba → r.verified.pb.claims.jti ≠ b.pb.claims.jti) := by
  have hkept := kept_exec P config fenceMs capacity hticking
  generalize exec (Verifier.step P config fenceMs) { guard := { capacity } } ops = v
    at hkept hids hgap ⊢
  refine ⟨fun i j a b hne hi hj => ?_, fun i j r refusal hne hi => ?_⟩
  · obtain ⟨r, hr, hclaims, hpb⟩ := reservationAt_of_admittedAt hkept.traced hi
    obtain ⟨r', hr', hclaims', hpb'⟩ := reservationAt_of_admittedAt hkept.traced hj
    rw [hclaims, hclaims', hpb, hpb']
    exact idsDiffer_of_kept hids hkept hgap hne hr hr'
  · have hr : v.reservationAt i = some r := by rw [reservationAt, hi]; rfl
    refine ⟨fun r' hr' => idsDiffer_of_kept hids hkept hgap hne hr hr', fun b hj => ?_⟩
    obtain ⟨r', hr', hclaims', hpb'⟩ := reservationAt_of_admittedAt hkept.traced hj
    rw [hclaims', hpb']
    exact idsDiffer_of_kept hids hkept hgap hne hr hr'

/-! ### Three proofs, presented to one verifier -/

/-- The id of the boundary, the plane's random id, and the correlation id of the sample. -/
def sampleId : String := "AAAAAAAAAAAAAAAAAAAAAA"

/-- The claims of a GET of the front page, signed ahead of the verifier's clock. -/
def sampleClaims : Claims where
  role := .pb
  kid := "pb-1"
  aud := sampleId
  iat := 1500
  exp := 3000
  jti := sampleId
  hop := 1
  corr := sampleId
  request := ⟨"GET", "/", [("host", "h")], 0, EMPTY_BODY_SHA256⟩

/-- A proof of the same request with an id of its own. -/
def otherClaims : Claims :=
  { sampleClaims with iat := 9000, exp := 10000, jti := "BBBBBBBBBBBBBBBBBBBBBA" }

/-- A proof signed twenty seconds later, under the id of the first. -/
def laterClaims : Claims := { sampleClaims with iat := 21500, exp := 23000 }

/-- The payload of a proof of the front page with these times and this id. -/
def frontPayload (times jti : String) : List UInt8 :=
  asciiBytes "[\"ba0-pb-v2\",\"pb-1\",\"AAAAAAAAAAAAAAAAAAAAAA\"," ++ asciiBytes times ++
    asciiBytes ",\"" ++ asciiBytes jti ++
    asciiBytes "\",1,\"AAAAAAAAAAAAAAAAAAAAAA\",\"GET\",\"/\",[[\"host\",\"h\"]],0," ++
    asciiBytes "\"47DEQpj8HBSa-_TImW-5JCeuQeRkm5NMpJWZG3hSuFU\"]"

def samplePayload : List UInt8 := frontPayload "1500,3000" sampleId

def otherPayload : List UInt8 := frontPayload "9000,10000" "BBBBBBBBBBBBBBBBBBBBBA"

def laterPayload : List UInt8 := frontPayload "21500,23000" sampleId

def frontJson (iat exp : ℚ) (jti : String) : Json :=
  .arr [.str PB_ROLE, .str "pb-1", .str sampleId, .num iat, .num exp, .str jti, .num 1,
    .str sampleId, .str "GET", .str "/", .arr [.arr [.str "host", .str "h"]], .num 0,
    .str EMPTY_BODY_SHA256]

def sampleKey : Key :=
  [48, 42, 48, 5, 6, 3, 43, 101, 112, 3, 33, 0, 234, 74, 108, 99, 226, 156, 82, 10, 190, 245, 80,
    123, 19, 46, 197, 249, 149, 71, 118, 174, 190, 190, 123, 146, 66, 30, 234, 105, 20, 70, 210, 44]

def sampleSignature : List UInt8 :=
  [128, 67, 178, 101, 9, 48, 108, 3, 218, 244, 145, 163, 81, 188, 112, 105, 211, 193, 246, 182, 235,
    96, 75, 2, 90, 228, 159, 40, 71, 117, 157, 31, 108, 123, 138, 135, 203, 30, 57, 101, 124, 10,
    225, 138, 112, 233, 217, 124, 252, 12, 63, 57, 140, 50, 140, 186, 127, 246, 240, 189, 0, 243, 4,
    4]

def otherSignature : List UInt8 :=
  [248, 149, 178, 211, 1, 52, 239, 60, 163, 221, 69, 167, 41, 30, 88, 43, 36, 64, 50, 137, 74, 235,
    228, 35, 203, 90, 252, 167, 38, 161, 127, 36, 58, 249, 151, 47, 89, 187, 183, 187, 100, 79,
    151, 213, 28, 91, 166, 67, 115, 52, 60, 120, 255, 145, 9, 69, 192, 197, 158, 168, 157, 202,
    229, 0]

def laterSignature : List UInt8 :=
  [15, 87, 235, 51, 195, 247, 52, 89, 130, 156, 171, 91, 55, 122, 53, 196, 152, 91, 144, 11, 143, 0,
    115, 186, 87, 83, 248, 219, 40, 166, 14, 173, 135, 140, 217, 178, 238, 218, 237, 206, 242, 223,
    101, 222, 71, 201, 107, 70, 213, 216, 24, 160, 75, 48, 223, 32, 108, 75, 88, 43, 71, 198, 121, 6]

/-- The platform on the three proofs; the digests are those of their tags. -/
def samplePlatform : Platform where
  parseJson payload :=
    if payload = samplePayload then some (frontJson 1500 3000 sampleId)
    else if payload = otherPayload then some (frontJson 9000 10000 "BBBBBBBBBBBBBBBBBBBBBA")
    else if payload = laterPayload then some (frontJson 21500 23000 sampleId)
    else none
  sha256 bytes :=
    if bytes = asciiBytes "pb:BBBBBBBBBBBBBBBBBBBBBA" then
      #v[200, 213, 91, 140, 77, 234, 81, 48, 174, 99, 201, 95, 201, 36, 177, 152, 32, 22, 69, 179, 214,
        223, 207, 15, 211, 229, 154, 23, 43, 98, 163, 152]
    else
      #v[37, 60, 158, 152, 138, 29, 0, 228, 220, 133, 93, 18, 153, 15, 56, 130, 24, 121, 185, 207, 24,
        33, 53, 32, 160, 160, 7, 109, 254, 67, 132, 144]
  edVerify key message signature := key = sampleKey &&
    (message = asciiBytes PB_DOMAIN ++ samplePayload && signature = sampleSignature ||
      message = asciiBytes PB_DOMAIN ++ otherPayload && signature = otherSignature ||
      message = asciiBytes PB_DOMAIN ++ laterPayload && signature = laterSignature)

def sampleHeader : String := base64url samplePayload ++ "." ++ base64url sampleSignature

def otherHeader : String := base64url otherPayload ++ "." ++ base64url otherSignature

def laterHeader : String := base64url laterPayload ++ "." ++ base64url laterSignature

def sampleConfig : AdmissionConfig := .pb sampleKey "pb-1" sampleId

/-- A GET of the front page with a proof. -/
def frontRequest (header : String) : AdmissionRequest where
  method := "GET"
  url := "/"
  rawHeaders := [("Host", "h"), (HOP_PB_HEADER, header)]

theorem length_frontPayload (times jti : String) :
    (frontPayload times jti).length = times.length + jti.length + 149 := by
  have hfixed : "[\"ba0-pb-v2\",\"pb-1\",\"AAAAAAAAAAAAAAAAAAAAAA\",".length = 45 ∧
      ",\"".length = 2 ∧
      "\",1,\"AAAAAAAAAAAAAAAAAAAAAA\",\"GET\",\"/\",[[\"host\",\"h\"]],0,".length = 56 ∧
      "\"47DEQpj8HBSa-_TImW-5JCeuQeRkm5NMpJWZG3hSuFU\"]".length = 46 :=
    ⟨String.length_ofList, String.length_ofList, String.length_ofList, String.length_ofList⟩
  simp only [frontPayload, List.length_append, length_asciiBytes]
  omega

theorem length_samplePayload : samplePayload.length = 180 := by
  rw [samplePayload, length_frontPayload]
  decide

/-- A proof of the front page that decodes, and whose signature verifies under the sample key. -/
structure FrontProof (header : String) (claims : Claims) : Prop where
  decoded : ∃ payload signature,
    decodeProof samplePlatform header .pb = .ok ⟨claims, payload, signature⟩ ∧
      samplePlatform.edVerify sampleKey (asciiBytes PB_DOMAIN ++ payload) signature = true
  kid : claims.kid = "pb-1"
  aud : claims.aud = sampleId
  request : claims.request = sampleClaims.request

/-- A signed payload of the front page is a proof of it. -/
theorem frontProof_of_payload {times jti : String} {signature : List UInt8} {json : Json}
    {claims : Claims} (hlength : times.length + jti.length ≤ 40) (hsignature : signature.length = 64)
    (hparsed : samplePlatform.parseJson (frontPayload times jti) = some json)
    (hclaims : readClaims .pb json = .ok claims)
    (hverify : samplePlatform.edVerify sampleKey
      (asciiBytes PB_DOMAIN ++ frontPayload times jti) signature = true)
    (hkid : claims.kid = "pb-1") (haud : claims.aud = sampleId)
    (hrequest : claims.request = sampleClaims.request) :
    FrontProof (base64url (frontPayload times jti) ++ "." ++ base64url signature) claims := by
  have hpayload := length_frontPayload times jti
  have hmax : HEADER_MAX .pb = 2048 := rfl
  have hne : frontPayload times jti ≠ [] := by
    intro hnil
    rw [hnil, List.length_nil] at hpayload
    omega
  exact ⟨⟨_, _, decodeProof_encoded hne hsignature (by omega) hparsed hclaims, hverify⟩, hkid, haud,
    hrequest⟩

theorem readClaims_front {iat exp : ℕ} {jti : String} (hiat : iat ≤ MAX_SAFE_INTEGER)
    (hexp : exp ≤ MAX_SAFE_INTEGER) (hjti : Plane.isNonce jti = true) :
    readClaims .pb (frontJson iat exp jti) = .ok { sampleClaims with iat, exp, jti } := by
  have hint (n : ℕ) (hn : n ≤ MAX_SAFE_INTEGER) : Json.int? (.num n) = some n := by
    simp [Json.int?, hn]
  have hrequest : parseRequest [.str "GET", .str "/", .arr [.arr [.str "host", .str "h"]], .num 0,
      .str EMPTY_BODY_SHA256] = some sampleClaims.request := by
    decide +kernel
  have hkid : isKid "pb-1" = true ∧ Plane.isNonce sampleId = true := by decide +kernel
  have hone : Json.int? (.num 1) = some 1 := by decide +kernel
  simp [readClaims, frontJson, ROLE_STRING, parseClaims, parseCommon, hint iat hiat, hint exp hexp,
    hone, hrequest, hkid, hjti, sampleClaims]

theorem parse_sample :
    samplePlatform.parseJson samplePayload = some (frontJson 1500 3000 sampleId) := by
  simp only [samplePlatform, if_true]

theorem frontPayload_ne {times times' jti jti' : String}
    (h : times.length + jti.length ≠ times'.length + jti'.length) :
    frontPayload times jti ≠ frontPayload times' jti' := by
  intro heq
  have hlength := congrArg List.length heq
  rw [length_frontPayload, length_frontPayload] at hlength
  omega

theorem parse_other : samplePlatform.parseJson otherPayload =
    some (frontJson 9000 10000 "BBBBBBBBBBBBBBBBBBBBBA") := by
  have hne : otherPayload ≠ samplePayload := frontPayload_ne (by decide)
  simp only [samplePlatform, if_neg hne, if_true]

theorem parse_later :
    samplePlatform.parseJson laterPayload = some (frontJson 21500 23000 sampleId) := by
  have hne : laterPayload ≠ samplePayload := frontPayload_ne (by decide)
  have hne' : laterPayload ≠ otherPayload := frontPayload_ne (by decide)
  simp only [samplePlatform, if_neg hne, if_neg hne', if_true]

theorem frontProof_sample : FrontProof sampleHeader sampleClaims :=
  frontProof_of_payload (by decide) (by decide) parse_sample
    (readClaims_front (by decide) (by decide) (by decide +kernel))
    (by simp [samplePlatform, samplePayload]) rfl rfl rfl

theorem frontProof_other : FrontProof otherHeader otherClaims :=
  frontProof_of_payload (by decide) (by decide) parse_other
    (readClaims_front (by decide) (by decide) (by decide +kernel))
    (by simp [samplePlatform, otherPayload]) rfl rfl rfl

theorem frontProof_later : FrontProof laterHeader laterClaims :=
  frontProof_of_payload (by decide) (by decide) parse_later
    (readClaims_front (by decide) (by decide) (by decide +kernel))
    (by simp [samplePlatform, laterPayload]) rfl rfl rfl

theorem scanHopHeaders_front (header : String) :
    scanHopHeaders (frontRequest header).rawHeaders (frontRequest header).method =
      { pb := [header], bound := [("host", "h")] } := by
  have hhost : "Host".toLower = "host" := by decide +kernel
  have hname : HOP_PB_HEADER.toLower = HOP_PB_HEADER := by decide +kernel
  have hbound : classifyHeader "host" = .bound := by decide
  have hproof : classifyHeader HOP_PB_HEADER = .proof := by decide
  have hvalue : canonicalValue "h" = some "h" := by decide +kernel
  simp [frontRequest, scanHopHeaders, HopScan.scanHeader, hhost, hname, hbound, hproof, hvalue,
    HopScan.close]

/-- What a verifier makes of a proof of the front page. -/
def frontVerified (claims : Claims) (header : String) : Verified :=
  ⟨claims, ⟨claims, header⟩, claims.corr⟩

/-- A proof of the front page is verified over the whole span of its window. -/
theorem FrontProof.verifies {header : String} {claims : Claims} (h : FrontProof header claims)
    {fenceMs nowMs : ℚ} (hwindow : InWindow claims nowMs fenceMs) :
    Verifies samplePlatform sampleConfig fenceMs (fun _ => True) nowMs (frontRequest header)
      (frontVerified claims header) := by
  obtain ⟨payload, signature, hdecode, hverify⟩ := h.decoded
  have hget : (claims.request.method = "POST") = False := by
    rw [h.request]
    decide
  refine ⟨trivial, ⟨none, header, header, ⟨claims, payload, signature⟩⟩, ?_, ?_⟩
  · simp only [precheck, bind_eq_ok, ensure_eq_ok, noReason_eq_ok, mapError_eq_ok, exists_const,
      scanHopHeaders_front]
    refine ⟨header, rfl, fun _ => trivial, header, rfl, rfl, _, hdecode,
      checkProofWindow_eq_none.2 ⟨h.kid, h.aud, hwindow⟩, ?_, ?_, ?_, ?_, rfl⟩
    · rw [h.request]
      rfl
    · rw [h.request]
      rfl
    · rw [h.request]
      rfl
    · rw [hget]
      exact False.elim
  · simp only [authenticate, sampleConfig, bind_eq_ok]
    exact ⟨(), (ensure_eq_ok _ _ _).2 hverify, rfl⟩

/-- What a verifier admits the front page with. -/
def frontAdmitted (claims : Claims) (header : String) : Admitted where
  role := .pb
  nonce := claims.corr
  hop := claims.hop
  pbTag := proofTag samplePlatform "pb" claims.jti
  baTag := none
  claims := claims
  request := claims.request
  body := []
  pb := ⟨claims, header⟩

theorem claims_frontAdmitted (claims : Claims) (header : String) :
    (frontAdmitted claims header).claims = claims := rfl

def sampleAdmitted : Admitted := frontAdmitted sampleClaims sampleHeader

theorem conclude_front {header : String} {claims : Claims} (h : FrontProof header claims) :
    conclude samplePlatform sampleConfig.role (frontRequest header) (frontVerified claims header)
      (.complete []) = .ok (frontAdmitted claims header) := by
  simp [conclude, frontVerified, frontRequest, frontAdmitted, sampleConfig, AdmissionConfig.role,
    h.request, sampleClaims]

theorem inWindow_sample {fenceMs nowMs : ℚ} (hfence : fenceMs ≤ 1500) (hvalid : 500 ≤ nowMs)
    (halive : nowMs ≤ 4000) : InWindow sampleClaims nowMs fenceMs := by
  refine ⟨by decide, ?_, ?_, ?_⟩ <;> simp only [sampleClaims, HOP_SKEW_MS] <;> norm_num <;>
    linarith

/-- A new verifier admits the sample. -/
theorem admittedAt_sample {fenceMs nowMs : ℚ} (h : InWindow sampleClaims nowMs fenceMs) :
    (exec (Verifier.step samplePlatform sampleConfig fenceMs) { guard := { capacity := 4 } }
      (alone (frontRequest sampleHeader) nowMs 0 [])).admittedAt 0 = some sampleAdmitted := by
  have hroom : (wants sampleConfig.role (frontVerified sampleClaims sampleHeader)).length ≤ 4 := by
    decide
  rw [admittedAt, calls_alone (frontProof_sample.verifies h) (by decide)
    (conclude_front frontProof_sample) hroom 0]
  rfl

/-- The ids a proof of the front page reserves. -/
def frontWants (jti : String) : List ReserveRequest := [⟨"pb:" ++ jti, RETAIN_PB_MS⟩]

/-- A proof of the front page whose id is free is admitted. -/
theorem step_front {header : String} {claims : Claims} (h : FrontProof header claims)
    {fenceMs nowMs mono : ℚ} {c : Checked} (hauth : authenticate samplePlatform sampleConfig fenceMs
      nowMs c = .ok (frontVerified claims header))
    {g g' : ReplayGuard} {ticket : ReplayTicket}
    (hok : g.reserve mono (frontWants claims.jti) = (g', .ok ticket)) {calls : List CallState} {i : ℕ}
    (hcall : calls[i]? = some (.verifying (frontRequest header) c nowMs)) :
    (Verifier.step samplePlatform sampleConfig fenceMs ⟨g, calls⟩ (.verify i mono)).1 =
      ⟨(g'.settle .committed ticket).1, calls.set i
        (.admitted ⟨frontVerified claims header, nowMs, mono⟩ (frontAdmitted claims header))⟩ := by
  have hlength : (frontVerified claims header).claims.request.bodyLen = 0 := by
    rw [frontVerified, h.request]
    rfl
  have hwants : wants sampleConfig.role (frontVerified claims header) = frontWants claims.jti := rfl
  have houtcome : outcomeOf samplePlatform sampleConfig.role (frontRequest header)
      ⟨frontVerified claims header, nowMs, mono⟩ (.complete []) = .ok (frontAdmitted claims header) :=
    mapError_eq_ok.2 (conclude_front h)
  simp only [Verifier.step, hcall, verify, hauth, hwants, hok, hlength, Nat.not_lt_zero, ↓reduceIte,
    houtcome, finish]

/-- A proof of the front page whose id is not free is refused. -/
theorem step_front_again {header : String} {claims : Claims} {fenceMs nowMs mono : ℚ} {c : Checked}
    (hauth : authenticate samplePlatform sampleConfig fenceMs nowMs c =
      .ok (frontVerified claims header))
    {g g' : ReplayGuard} (hagain : g.reserve mono (frontWants claims.jti) = (g', .error .replayed))
    {calls : List CallState} {i : ℕ}
    (hcall : calls[i]? = some (.verifying (frontRequest header) c nowMs)) :
    (Verifier.step samplePlatform sampleConfig fenceMs ⟨g, calls⟩ (.verify i mono)).1 =
      ⟨g', calls.set i (.refused none ⟨.replayed, some claims.corr⟩)⟩ := by
  have hwants : wants sampleConfig.role (frontVerified claims header) = frontWants claims.jti := rfl
  have hnonce : (frontVerified claims header).authNonce = claims.corr := rfl
  simp only [Verifier.step, hcall, verify, hauth, hwants, hagain, hnonce]

/-- The guard refuses the sample's id beside its reservation, and takes the other's id and, once its
retention is over, the sample's again. -/
theorem reserve_sample : ∃ g₁ g₂ g₃ g₄ : ReplayGuard,
    ReplayGuard.reserve 0 (frontWants sampleId) { capacity := 4 } =
      (g₁, .ok ⟨["pb:" ++ sampleId], false⟩) ∧
    (g₁.settle .committed ⟨["pb:" ++ sampleId], false⟩).1.reserve 0 (frontWants sampleId) =
      (g₂, .error .replayed) ∧
    g₂.reserve 8100 (frontWants otherClaims.jti) = (g₃, .ok ⟨["pb:" ++ otherClaims.jti], false⟩) ∧
    (g₁.settle .committed ⟨["pb:" ++ sampleId], false⟩).1.reserve 20000 (frontWants laterClaims.jti) =
      (g₄, .ok ⟨["pb:" ++ sampleId], false⟩) :=
  ⟨_, _, _, _, Prod.ext rfl (by decide +kernel), Prod.ext rfl (by decide +kernel),
    Prod.ext rfl (by decide +kernel), Prod.ext rfl (by decide +kernel)⟩

theorem step_begin {header : String} {claims : Claims} (h : FrontProof header claims)
    {fenceMs nowMs : ℚ} (hwindow : InWindow claims nowMs fenceMs) :
    ∃ c, authenticate samplePlatform sampleConfig fenceMs nowMs c =
        .ok (frontVerified claims header) ∧
      ∀ v, (Verifier.step samplePlatform sampleConfig fenceMs v
          (.begin (frontRequest header) nowMs)).1 =
        { v with calls := v.calls ++ [.verifying (frontRequest header) c nowMs] } := by
  obtain ⟨-, c, hc, hauth⟩ := h.verifies hwindow
  refine ⟨c, hauth, fun v => ?_⟩
  rw [Verifier.step, hc]

section Run

variable {header header' : String} {claims claims' : Claims} {fenceMs nowMs nowMs' mono' : ℚ}
  {g g₁ g₂ g₃ : ReplayGuard} {ticket ticket' : ReplayTicket}

/-- A proof presented twice before its first call reserves, and then another one. -/
theorem calls_thrice (h : FrontProof header claims) (h' : FrontProof header' claims')
    (hwindow : InWindow claims nowMs fenceMs) (hwindow' : InWindow claims' nowMs' fenceMs)
    (hfirst : g.reserve 0 (frontWants claims.jti) = (g₁, .ok ticket))
    (hagain : (g₁.settle .committed ticket).1.reserve 0 (frontWants claims.jti) =
      (g₂, .error .replayed))
    (hfree : g₂.reserve mono' (frontWants claims'.jti) = (g₃, .ok ticket')) :
    (exec (Verifier.step samplePlatform sampleConfig fenceMs) ⟨g, []⟩
      [.begin (frontRequest header) nowMs, .begin (frontRequest header) nowMs, .verify 0 0,
        .verify 1 0, .begin (frontRequest header') nowMs', .verify 2 mono']).calls =
      [.admitted ⟨frontVerified claims header, nowMs, 0⟩ (frontAdmitted claims header),
        .refused none ⟨.replayed, some claims.corr⟩,
        .admitted ⟨frontVerified claims' header', nowMs', mono'⟩ (frontAdmitted claims' header')] := by
  obtain ⟨c, hauth, hbegin⟩ := step_begin h hwindow
  obtain ⟨c', hauth', hbegin'⟩ := step_begin h' hwindow'
  simp only [exec_cons, exec_nil, hbegin, hbegin', List.nil_append, List.cons_append,
    List.getElem?_cons_zero, List.getElem?_cons_succ, List.set_cons_zero, List.set_cons_succ,
    step_front h hauth hfirst, step_front_again hauth hagain, step_front h' hauth' hfree]

/-- Two proofs, one after the other. -/
theorem calls_twice (h : FrontProof header claims) (h' : FrontProof header' claims')
    (hwindow : InWindow claims nowMs fenceMs) (hwindow' : InWindow claims' nowMs' fenceMs)
    (hfirst : g.reserve 0 (frontWants claims.jti) = (g₁, .ok ticket))
    (hfree : (g₁.settle .committed ticket).1.reserve mono' (frontWants claims'.jti) =
      (g₃, .ok ticket')) :
    (exec (Verifier.step samplePlatform sampleConfig fenceMs) ⟨g, []⟩
      [.begin (frontRequest header) nowMs, .verify 0 0, .begin (frontRequest header') nowMs',
        .verify 1 mono']).calls =
      [.admitted ⟨frontVerified claims header, nowMs, 0⟩ (frontAdmitted claims header),
        .admitted ⟨frontVerified claims' header', nowMs', mono'⟩ (frontAdmitted claims' header')] := by
  obtain ⟨c, hauth, hbegin⟩ := step_begin h hwindow
  obtain ⟨c', hauth', hbegin'⟩ := step_begin h' hwindow'
  simp only [exec_cons, exec_nil, hbegin, hbegin', List.nil_append, List.cons_append,
    List.getElem?_cons_zero, List.getElem?_cons_succ, List.set_cons_zero, List.set_cons_succ,
    step_front h hauth hfirst, step_front h' hauth' hfree]

end Run

/-- A proof, the same proof again while the first call is open, and another one. -/
def sampleRun : Verifier :=
  exec (Verifier.step samplePlatform sampleConfig 0) { guard := { capacity := 4 } }
    [.begin (frontRequest sampleHeader) 1000, .begin (frontRequest sampleHeader) 1000, .verify 0 0,
      .verify 1 0, .begin (frontRequest otherHeader) 9100, .verify 2 8100]

/-- The verifier admits the two proofs once each and refuses the first one's second call. -/
theorem calls_sampleRun : sampleRun.calls =
    [.admitted ⟨frontVerified sampleClaims sampleHeader, 1000, 0⟩ sampleAdmitted,
      .refused none ⟨.replayed, some sampleId⟩,
      .admitted ⟨frontVerified otherClaims otherHeader, 9100, 8100⟩
        (frontAdmitted otherClaims otherHeader)] := by
  have hwindow : InWindow otherClaims 9100 0 := by
    refine ⟨by decide, ?_, ?_, ?_⟩ <;> simp only [otherClaims, HOP_SKEW_MS] <;> norm_num
  obtain ⟨g₁, g₂, g₃, -, hfirst, hagain, hfree, -⟩ := reserve_sample
  exact calls_thrice frontProof_sample frontProof_other
    (inWindow_sample (by norm_num) (by norm_num) (by norm_num)) hwindow
    hfirst hagain hfree

/-- The first proof is admitted once, its second call is refused, and the other proof, admitted beside
it, has another id. -/
theorem single_admission_sample :
    sampleRun.calls[1]? = some (.refused none ⟨.replayed, some sampleId⟩) ∧
      sampleRun.admittedAt 0 = some sampleAdmitted ∧
      sampleRun.admittedAt 2 = some (frontAdmitted otherClaims otherHeader) ∧
      sampleAdmitted.claims.jti ≠ (frontAdmitted otherClaims otherHeader).claims.jti := by
  have hreservations : sampleRun.reservations =
      [⟨frontVerified sampleClaims sampleHeader, 1000, 0⟩,
        ⟨frontVerified otherClaims otherHeader, 9100, 8100⟩] := by
    rw [reservations, calls_sampleRun]
    rfl
  have hids : IdsUnique sampleConfig.role sampleRun := by
    intro r hr r' hr'
    rw [hreservations] at hr hr'
    refine ⟨?_, fun hrole => absurd hrole (by decide)⟩
    simp only [List.mem_cons, List.not_mem_nil, or_false] at hr hr'
    have hne : sampleId ≠ otherClaims.jti := by decide
    rcases hr with rfl | rfl <;> rcases hr' with rfl | rfl
    · exact fun _ => ⟨rfl, rfl⟩
    · exact fun heq => absurd heq hne
    · exact fun heq => absurd heq.symm hne
    · exact fun _ => ⟨rfl, rfl⟩
  have hgap : Gapped sampleRun := by
    rw [Gapped, hreservations]
    simp only [List.forall_mem_cons, List.not_mem_nil, IsEmpty.forall_iff, implies_true, and_true]
    norm_num [abs_lt]
  have hfirst : sampleRun.admittedAt 0 = some sampleAdmitted := by
    rw [admittedAt, calls_sampleRun]
    rfl
  have hother : sampleRun.admittedAt 2 = some (frontAdmitted otherClaims otherHeader) := by
    rw [admittedAt, calls_sampleRun]
    rfl
  refine ⟨by rw [calls_sampleRun]; rfl, hfirst, hother, ?_⟩
  have hticking (request request' : AdmissionRequest) : Ticking 0 [.begin request 1000,
      .begin request 1000, .verify 0 0, .verify 1 0, .begin request' 9100, .verify 2 8100] := by
    simp [Ticking, Op.Ticks, Op.mono]
  exact ((@single_admission samplePlatform sampleConfig 0 0 4 _ (hticking _ _) hids hgap).1 0 2 _ _
    (by decide) hfirst hother).1

/-- Two proofs under one id, the second once the first one's retention is over. -/
def laterOps : List Op :=
  [.begin (frontRequest sampleHeader) 1000, .verify 0 0, .begin (frontRequest laterHeader) 21000,
    .verify 1 20000]

theorem calls_laterOps :
    (exec (Verifier.step samplePlatform sampleConfig 0) { guard := { capacity := 4 } }
      laterOps).calls =
      [.admitted ⟨frontVerified sampleClaims sampleHeader, 1000, 0⟩ sampleAdmitted,
        .admitted ⟨frontVerified laterClaims laterHeader, 21000, 20000⟩
          (frontAdmitted laterClaims laterHeader)] := by
  have hwindow : InWindow laterClaims 21000 0 := by
    refine ⟨by decide, ?_, ?_, ?_⟩ <;> simp only [laterClaims, HOP_SKEW_MS] <;> norm_num
  obtain ⟨g₁, -, -, g₄, hfirst, -, -, hfree⟩ := reserve_sample
  exact calls_twice frontProof_sample frontProof_later
    (inWindow_sample (by norm_num) (by norm_num) (by norm_num)) hwindow hfirst hfree

/-- A verifier admits two proofs that were signed under one id. -/
theorem admitted_under_one_id :
    ∃ ops a b, Ticking 0 ops ∧
      Gapped (exec (Verifier.step samplePlatform sampleConfig 0) { guard := { capacity := 4 } } ops) ∧
      (exec (Verifier.step samplePlatform sampleConfig 0) { guard := { capacity := 4 } }
        ops).admittedAt 0 = some a ∧
      (exec (Verifier.step samplePlatform sampleConfig 0) { guard := { capacity := 4 } }
        ops).admittedAt 1 = some b ∧
      a.claims.jti = b.claims.jti := by
  have hsame : sampleAdmitted.claims.jti = (frontAdmitted laterClaims laterHeader).claims.jti := by
    rw [sampleAdmitted, claims_frontAdmitted, claims_frontAdmitted, laterClaims]
  refine ⟨laterOps, sampleAdmitted, frontAdmitted laterClaims laterHeader, ?_, ?_,
    by rw [admittedAt, calls_laterOps]; rfl, by rw [admittedAt, calls_laterOps]; rfl, hsame⟩
  · simp [laterOps, Ticking, Op.Ticks, Op.mono]
  · rw [Gapped, reservations, calls_laterOps]
    simp only [CallState.reservation, List.filterMap_cons, List.filterMap_nil, List.forall_mem_cons,
      List.not_mem_nil, IsEmpty.forall_iff, implies_true, and_true]
    norm_num [abs_lt]

end Verifier

end Limitmark.Hop
