import Mathlib.Data.Rat.Floor

/-!
# The closed vocabularies of the defense plane

The shapes shared by every layer (`defense/core/types.ts`): the reject reasons with the status and
the stage each one is answered with, what a layer returns, what the composer makes of it, and the
request a layer sees. A JavaScript number is an exact rational; where the source asks for a safe
integer, `safeInteger?` reads one off.
-/

namespace Limitmark.Defense

/-- `Number.isSafeInteger`, with the integer it finds. -/
def safeInteger? (x : ℚ) : Option ℤ :=
  if x.den = 1 ∧ |x.num| ≤ 2 ^ 53 - 1 then some x.num else none

theorem safeInteger?_eq_some {x : ℚ} {n : ℤ} (h : safeInteger? x = some n) :
    x = n ∧ |n| ≤ 2 ^ 53 - 1 := by
  unfold safeInteger? at h
  split at h
  · next hx =>
    obtain rfl := Option.some.inj h
    exact ⟨(Rat.coe_int_num_of_den_eq_one hx.1).symm, hx.2⟩
  · cases h

/-- A positive safe integer, as the constructors ask for. -/
def positiveInteger? (x : ℚ) : Option ℕ :=
  match safeInteger? x with
  | some n => if 1 ≤ n then some n.toNat else none
  | none => none

theorem positiveInteger?_eq_some {x : ℚ} {n : ℕ} (h : positiveInteger? x = some n) :
    x = n ∧ 1 ≤ n := by
  unfold positiveInteger? at h
  split at h
  · next z hz =>
    split at h
    · next h1 =>
      cases h
      refine ⟨?_, by omega⟩
      rw [(safeInteger?_eq_some hz).1, ← Int.cast_natCast, Int.toNat_of_nonneg (by omega)]
    · cases h
  · cases h

theorem one_le_of_positiveInteger? {x : ℚ} {n : ℕ} (h : positiveInteger? x = some n) : 1 ≤ n :=
  (positiveInteger?_eq_some h).2

/-- Every reason a layer can reject with: the shape gate's, the semantic gate's and the lanes'. -/
inductive RejectReason
  | methodNotAllowed | targetTooLong | targetMalformed | pathNotAllowed | queryNotAllowed
  | headerCountExceeded | headerBytesExceeded | headerNameInvalid | headerValueInvalid
  | hostHeaderInvalid | framingInvalid | contentTypeInvalid | bodyTooLarge | bodyIncomplete
  | bodyReadTimeout | bodyEncodingInvalid | formGrammarInvalid | formFieldNotAllowed
  | formFieldDuplicate | formFieldCountExceeded | formFieldTooLong | formTokenMalformed
  | semanticDuplicate | semanticRefusedHeader | semanticValueInvalid
  | laneCreditedBudget | laneUnverifiedBudget
  deriving DecidableEq, Repr

/-- Whether a reject was decided before or by the form grammar. -/
inductive RejectStage
  | preParse
  | grammar
  deriving DecidableEq, Repr

/-- The status a reject is answered with. -/
def REJECT_STATUS : RejectReason → ℕ
  | .methodNotAllowed => 405
  | .targetTooLong => 414
  | .targetMalformed => 400
  | .pathNotAllowed => 404
  | .queryNotAllowed => 400
  | .headerCountExceeded => 431
  | .headerBytesExceeded => 431
  | .headerNameInvalid => 400
  | .headerValueInvalid => 400
  | .hostHeaderInvalid => 400
  | .framingInvalid => 400
  | .contentTypeInvalid => 415
  | .bodyTooLarge => 413
  | .bodyIncomplete => 400
  | .bodyReadTimeout => 408
  | .bodyEncodingInvalid => 400
  | .formGrammarInvalid => 400
  | .formFieldNotAllowed => 422
  | .formFieldDuplicate => 422
  | .formFieldCountExceeded => 422
  | .formFieldTooLong => 422
  | .formTokenMalformed => 422
  | .semanticDuplicate => 400
  | .semanticRefusedHeader => 400
  | .semanticValueInvalid => 400
  | .laneCreditedBudget => 503
  | .laneUnverifiedBudget => 503

/-- The stage a reject is reported under. -/
def REJECT_STAGE : RejectReason → RejectStage
  | .bodyEncodingInvalid | .formGrammarInvalid | .formFieldNotAllowed | .formFieldDuplicate
  | .formFieldCountExceeded | .formFieldTooLong | .formTokenMalformed => .grammar
  | _ => .preParse

/-- What a layer returns. -/
inductive LayerVerdict
  | pass
  | reject (reason : RejectReason)
  deriving DecidableEq, Repr

inductive LayerErrorKind
  | throw
  | timeout
  | invalidVerdict
  deriving DecidableEq, Repr

/-- What the composer makes of one evaluation of a layer. -/
inductive LayerOutcome
  | pass
  | reject (reason : RejectReason)
  | shed
  | error (kind : LayerErrorKind)
  deriving DecidableEq, Repr

inductive BodyStatus
  | none
  | complete
  | declaredOversize
  | overflow
  | timeout
  | aborted
  deriving DecidableEq, Repr

/-- The two origin instances of the lab. -/
inductive Lane
  | controlLane
  | protectedLane
  deriving DecidableEq, Repr

/-- Every reason an origin-side hop gate can refuse a request with. -/
inductive ObReason
  | proofMissing | proofDuplicate | proofOversize | proofMalformed | wrongHop | versionUnsupported
  | keyUnknown | audienceMismatch | lifetimeInvalid | notYetValid | expired | beforeFence
  | methodMismatch | targetMismatch | headerUnbound | headerDuplicate | headerValueInvalid
  | headerMismatch | lengthMismatch | framingInvalid | signatureInvalid | lineageMissing
  | lineageMismatch | replayed | replayCacheFull | digestMismatch | contentIncomplete
  | expectRefused | canonError
  deriving DecidableEq, Repr

/-- What a layer is allowed to see of a request. -/
structure LayerRequest where
  method : String
  target : String
  headers : List (String × String)
  bodyStatus : BodyStatus
  body : Option (List UInt8)
  deriving DecidableEq, Repr

end Limitmark.Defense
