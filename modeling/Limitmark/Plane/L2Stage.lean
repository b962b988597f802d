import Limitmark.Lanes.BucketDecisions
import Limitmark.Plane.Composer

/-!
# The L2 stage

`L2Stage.decide` of `defense/plane/l2-stage.ts` over the lane layer
(`defense/layers/a7-journey-lanes.ts`): the lanes decide synchronously when the call enters the
composer, the verdict is raced against its deadline, and the outcome of the race, with the decision
the lanes made, becomes exactly one decision, which is recorded.

A call is suspended between the two, so the stage is a machine: `enter` evaluates, `finish` settles
one of the suspended calls with the time its evaluation took, and the lanes may be asked to enroll
or to show themselves in between.
-/

namespace Limitmark.Plane

open Limitmark.Defense Limitmark.Lanes Limitmark.Foundations

/-! ## The lane layer -/

/-- The verdict of the lane layer on a decision; an error decision is thrown, and has none. -/
def layerVerdict (made : LaneDecision) : Option LayerVerdict :=
  match made.outcome with
  | .admitted => some .pass
  | .shed => some (.reject
      (if made.lane = some .credited then .laneCreditedBudget else .laneUnverifiedBudget))
  | .error | .degraded => none

/-- What the race of the lane layer comes to: its evaluation is synchronous and settles first. -/
def evaluationWinner (made : LaneDecision) (elapsed : ℚ) : Winner :=
  match layerVerdict made with
  | some verdict => .verdict (some verdict) elapsed
  | none => .error

/-! ## One decision -/

def failureOf : LayerErrorKind → L2Failure
  | .throw => .throw
  | .timeout => .timeout
  | .invalidVerdict => .invalidVerdict

/-- What a discarded evaluation had taken is reported with the failure, never returned. -/
def withMarkers (decision made : LaneDecision) : LaneDecision :=
  if made.lane.isSome ∧ made.outcome = .admitted then
    { decision with spent := made.lane, dt := made.dt, lvl := made.lvl, lseq := made.lseq }
  else if made.lane.isSome ∧ made.outcome = .shed then
    { decision with touched := made.lane, dt := made.dt, lvl := made.lvl, lseq := made.lseq }
  else decision

/-- The decision of an outcome and of what the layer made. -/
def stageDecision (cls : OperationClass) (outcome : LayerOutcome) (made : Option LaneDecision) :
    LaneDecision :=
  match outcome with
  | .pass | .reject _ => made.getD (failureDecision cls .invalidVerdict)
  | .shed => failureDecision cls .saturation
  | .error kind =>
    match made with
    | none => failureDecision cls (failureOf kind)
    | some made =>
      -- a ledger refusal consumed nothing and is returned as it is
      if made.outcome = .error then made
      else withMarkers (failureDecision cls (failureOf kind)) made

/-- A call suspended at the composer, with the decision the layer made if it entered. -/
structure Call where
  request : LayerRequest
  made : Option LaneDecision
  deriving DecidableEq, Repr

namespace Call

def cls (call : Call) : OperationClass :=
  operationClassOf call.request.method call.request.target

/-- The decision of a call that took `elapsed`. -/
def decision (timeoutMs elapsed : ℚ) (call : Call) : LaneDecision :=
  match call.made with
  | none => stageDecision call.cls .shed none
  | some made =>
    stageDecision call.cls (LayerComposer.outcomeOf timeoutMs (evaluationWinner made elapsed))
      (some made)

/-- The verdict on an open operation is discarded. -/
def DiscardsOpen (timeoutMs elapsed : ℚ) (call : Call) : Prop :=
  call.cls = .open ∧ call.made.isSome ∧ timeoutMs < elapsed

instance (timeoutMs elapsed : ℚ) (call : Call) : Decidable (call.DiscardsOpen timeoutMs elapsed) :=
  inferInstanceAs (Decidable (_ ∧ _ ∧ _))

end Call

/-! ## The stage -/

structure L2Stage where
  lanes : JourneyLanes
  composer : LayerComposer
  pending : List Call := []

namespace L2Stage

/-- `new L2Stage(lanes, options)`. -/
def create (lanes : JourneyLanes) (timeoutMs maxConcurrent : ℚ) : Except String L2Stage := do
  let composer ← LayerComposer.create timeoutMs maxConcurrent
  return { lanes, composer }

/-- A new stage has nothing suspended. -/
theorem create_eq_ok {lanes : JourneyLanes} {timeoutMs maxConcurrent : ℚ} {s : L2Stage}
    (h : create lanes timeoutMs maxConcurrent = .ok s) : s.lanes = lanes ∧ s.pending = [] := by
  unfold create at h
  cases hc : LayerComposer.create timeoutMs maxConcurrent with
  | error e => rw [hc] at h; cases h
  | ok composer =>
    rw [hc] at h
    obtain rfl := Except.ok.inj h
    exact ⟨rfl, rfl⟩

/-- A call enters the composer, and the lanes decide if it finds a place. -/
def enter (C : Crypto) (t : Readings) (request : LayerRequest) (s : L2Stage) : L2Stage :=
  let (composer, entered) := s.composer.enter
  if entered then
    let (lanes, made) := s.lanes.decide C t request
    { lanes, composer, pending := s.pending ++ [⟨request, some made⟩] }
  else { s with composer, pending := s.pending ++ [⟨request, none⟩] }

/-- A suspended call settles: its decision is recorded and returned. -/
def finish (i : ℕ) (elapsed : ℚ) (s : L2Stage) : L2Stage × Option LaneDecision :=
  match s.pending[i]? with
  | none => (s, none)
  | some call =>
    let decision := call.decision s.composer.options.timeoutMs elapsed
    let composer :=
      match call.made with
      | none => s.composer
      | some made => (s.composer.leave (evaluationWinner made elapsed)).1
    ({ lanes := s.lanes.record decision, composer, pending := s.pending.eraseIdx i },
      some decision)

/-! ## Runs -/

/-- What happens at a stage: a call enters, a suspended one settles, and the lanes enroll a
delivered token or are looked at. -/
inductive Op
  | enter (request : LayerRequest)
  | finish (i : ℕ) (elapsed : ℚ)
  | enroll (token : List UInt8)
  | snapshot
  deriving DecidableEq, Repr

/-- One event, with the readings of the clock it makes. -/
def step (C : Crypto) (s : L2Stage) (op : Op × Readings) : L2Stage × Option LaneDecision :=
  match op.1 with
  | .enter request => (s.enter C op.2 request, none)
  | .finish i elapsed => s.finish i elapsed
  | .enroll token => ({ s with lanes := (s.lanes.enroll C op.2 token).1 }, none)
  | .snapshot => ({ s with lanes := (s.lanes.snapshot C op.2).1 }, none)

/-- An event that settles an open operation too late. -/
def discardsOpen (s : L2Stage) (op : Op × Readings) : Bool :=
  match op.1 with
  | .finish i elapsed =>
    s.pending[i]?.any fun call => call.DiscardsOpen s.composer.options.timeoutMs elapsed
  | _ => false

end L2Stage

end Limitmark.Plane
