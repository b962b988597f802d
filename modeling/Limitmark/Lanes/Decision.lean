import Limitmark.Defense.Vocabulary

/-!
# Operation classes and lane decisions

The vocabulary of the journey lanes (`defense/core/lanes.ts`): how a request is classified, what a
decision records, which decisions are valid, and what a failed evaluation becomes. Classification
is a closed exact match that rejects nothing; anything it does not know is `unknown`.
-/

namespace Limitmark.Lanes

open Limitmark.Defense

inductive OperationClass
  | open
  | mutation
  | unknown
  deriving DecidableEq, Repr

inductive Lane2
  | open
  | credited
  | unverified
  deriving DecidableEq, Repr

inductive L2Outcome
  | admitted
  | shed
  | error
  | degraded
  deriving DecidableEq, Repr

inductive ShedReason
  | laneBudget
  | evaluatorSaturation
  deriving DecidableEq, Repr

inductive L2ErrorKind
  | throw
  | timeout
  | invalidVerdict
  | ledgerFull
  deriving DecidableEq, Repr

/-- The label of a verdict a harness override delivered. -/
inductive Basis
  | simulated
  deriving DecidableEq, Repr

def OperationClass.text : OperationClass → String
  | .open => "open"
  | .mutation => "mutation"
  | .unknown => "unknown"

def Lane2.text : Lane2 → String
  | .open => "open"
  | .credited => "credited"
  | .unverified => "unverified"

def L2Outcome.text : L2Outcome → String
  | .admitted => "admitted"
  | .shed => "shed"
  | .error => "error"
  | .degraded => "degraded"

/-- Exact request targets of the reviewed form route. -/
def FORM_ROUTE_TARGETS : List String :=
  ["/test-talep-et", "/test-talep-et?hizmet=web", "/test-talep-et?hizmet=network",
    "/test-talep-et?hizmet=protection", "/test-talep-et?hizmet=unsure"]

def isFormRoute (method target : String) : Bool :=
  method = "GET" && FORM_ROUTE_TARGETS.contains target

def MUTATION_TARGET : String := "/api/public-inquiries"

def OPEN_TARGETS : List String :=
  ["/", "/gizlilik", "/test-talep-et/tesekkurler"] ++ FORM_ROUTE_TARGETS

/-- Closed, exact-match classification. It rejects nothing. -/
def operationClassOf (method target : String) : OperationClass :=
  if method = "GET" ∧ OPEN_TARGETS.contains target then .open
  else if method = "POST" ∧ target = MUTATION_TARGET then .mutation
  else .unknown

/-- The form route is among the open targets. -/
theorem operationClassOf_of_isFormRoute {method target : String}
    (h : isFormRoute method target = true) : operationClassOf method target = .open := by
  simp only [isFormRoute, Bool.and_eq_true, decide_eq_true_eq] at h
  refine if_pos ⟨h.1, ?_⟩
  simp only [OPEN_TARGETS, List.contains_eq_mem, List.mem_append, decide_eq_true_eq]
  exact Or.inr (by simpa using h.2)

/-- What a decision records. The `null` lane is `none`. -/
structure LaneDecision where
  cls : OperationClass
  lane : Option Lane2
  outcome : L2Outcome
  shedReason : Option ShedReason := none
  errorKind : Option L2ErrorKind := none
  creditTag : Option String := none
  spent : Option Lane2 := none
  touched : Option Lane2 := none
  dt : Option ℤ := none
  lvl : Option ℤ := none
  lseq : Option ℤ := none
  basis : Option Basis := none
  shadow : Option String := none
  deriving DecidableEq, Repr

def proceeds (decision : LaneDecision) : Bool :=
  decision.outcome = .admitted || decision.outcome = .degraded

/-- The closed validity matrix of class, lane and outcome. -/
def isValidDecision (decision : LaneDecision) : Bool :=
  if decision.cls = .open then
    decision.lane = some .open && (decision.outcome = .admitted || decision.outcome = .degraded)
  else
    match decision.lane with
    | some .credited | some .unverified =>
      decision.outcome = .admitted ||
        (decision.outcome = .shed && decision.shedReason = some .laneBudget)
    | none =>
      (decision.outcome = .shed && decision.shedReason = some .evaluatorSaturation) ||
        (decision.outcome = .error && decision.errorKind.isSome)
    | some .open => false

inductive L2Failure
  | saturation
  | throw
  | timeout
  | invalidVerdict
  deriving DecidableEq, Repr

/-- The error a failure other than a saturation is reported as. -/
def L2Failure.errorKind : L2Failure → Option L2ErrorKind
  | .saturation => none
  | .throw => some .throw
  | .timeout => some .timeout
  | .invalidVerdict => some .invalidVerdict

/-- What a failed evaluation becomes: only an open operation degrades. -/
def failureDecision (cls : OperationClass) (failure : L2Failure) : LaneDecision :=
  if cls = .open then { cls := .open, lane := some .open, outcome := .degraded }
  else if failure = .saturation then
    { cls, lane := none, outcome := .shed, shedReason := some .evaluatorSaturation }
  else { cls, lane := none, outcome := .error, errorKind := failure.errorKind }

end Limitmark.Lanes
