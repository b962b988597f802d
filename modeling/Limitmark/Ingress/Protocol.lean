import Mathlib.Algebra.Group.Int.Defs
import Limitmark.Hop.Base64url

/-!
# The ingress protocol

The primitives of `src/lib/ingress-protocol.ts` that the admission authority uses: its base64url,
which is the strict one of the hop proofs, and the freshness of an envelope.

Times are integers. Where the code tests `Number.isSafeInteger`, a number that is not an integer
fails as one out of range does.
-/

namespace Limitmark.Ingress

open Limitmark.Defense Limitmark.Hop

def INGRESS_FUTURE_SKEW_MS : ℤ := 5000

def INGRESS_MAX_AGE_MS : ℤ := 30000

/-- `Number.isSafeInteger`. -/
def isSafeInteger (n : ℤ) : Bool := -(2 ^ 53 - 1) ≤ n && n ≤ 2 ^ 53 - 1

def encodeBase64url (bytes : List UInt8) : String := base64url bytes

def decodeCanonicalBase64url (value : String) (expectedLength : Option ℕ) : Option (List UInt8) :=
  match expectedLength with
  | none => decodeCanonicalB64 value
  | some length => decodeCanonicalB64Of length value

inductive Staleness
  | future
  | stale
  deriving DecidableEq, Repr

def assertIngressFresh (issuedAtMs nowMs : ℤ) : Except Staleness Unit :=
  if ¬ isSafeInteger nowMs ∨ nowMs + INGRESS_FUTURE_SKEW_MS < issuedAtMs then .error .future
  else if issuedAtMs < nowMs - INGRESS_MAX_AGE_MS then .error .stale
  else .ok ()

theorem isSafeInteger_iff {n : ℤ} : isSafeInteger n = true ↔ -(2 ^ 53 - 1) ≤ n ∧ n ≤ 2 ^ 53 - 1 := by
  rw [isSafeInteger, Bool.and_eq_true, decide_eq_true_eq, decide_eq_true_eq]

/-- An envelope is fresh from 5 s before it is issued to 30 s after. -/
theorem assertIngressFresh_eq_ok {issuedAtMs nowMs : ℤ} {u : Unit}
    (h : assertIngressFresh issuedAtMs nowMs = .ok u) :
    issuedAtMs ≤ nowMs + 5000 ∧ nowMs ≤ issuedAtMs + 30000 := by
  unfold assertIngressFresh at h
  split at h
  · cases h
  · next hfuture =>
    split at h
    · cases h
    · next hstale =>
      simp only [INGRESS_FUTURE_SKEW_MS, INGRESS_MAX_AGE_MS] at hfuture hstale
      omega

end Limitmark.Ingress
