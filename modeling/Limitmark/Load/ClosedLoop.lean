import Mathlib.Algebra.Order.Ring.NNRat
import Mathlib.Data.Rat.Floor
import Limitmark.Foundations.Cells
import Limitmark.Foundations.Run

/-!
# The closed-loop generator

`lab/load/closed-loop.ts`, `executeClosedLoop`: workers that share a pacing slot, the counters and a
stop that is latched, and are suspended while they sleep and while their request is in flight. A step
goes from one suspension to the next. The clock never steps back, and a timer fires at its time or
later. Times are exact rationals: the code adds them in doubles, so that a bound on the starts of a time
holds of it up to a unit in the last place of the clock.

What a step does to the schedule is `Move`; the counters are the subject of `Load.ClosedLoopBounds`.
-/

namespace Limitmark.Load

open Limitmark.Foundations

/-! ## Requests and their results -/

inductive Outcome
  | ok | http4xx | http5xx | redirect | redirectRefused
  | timeout | connRefused | connReset | dns | tls | bodyTooLarge | aborted | otherError
  deriving DecidableEq, Repr

def Outcome.all : List Outcome :=
  [.ok, .http4xx, .http5xx, .redirect, .redirectRefused, .timeout, .connRefused, .connReset, .dns,
    .tls, .bodyTooLarge, .aborted, .otherError]

def Outcome.text : Outcome → String
  | .ok => "ok"
  | .http4xx => "http_4xx"
  | .http5xx => "http_5xx"
  | .redirect => "redirect"
  | .redirectRefused => "redirect_refused"
  | .timeout => "timeout"
  | .connRefused => "conn_refused"
  | .connReset => "conn_reset"
  | .dns => "dns"
  | .tls => "tls"
  | .bodyTooLarge => "body_too_large"
  | .aborted => "aborted"
  | .otherError => "other_error"

/-- The outcomes by which the transport failed. -/
def TRANSPORT_FAILURES : List Outcome :=
  [.timeout, .connRefused, .connReset, .dns, .tls, .bodyTooLarge, .aborted, .otherError]

structure ClosedLoopSend where
  outcome : Outcome
  status : Option ℕ
  deriving DecidableEq, Repr

/-! ## The run -/

def CLOSED_LOOP_SETUP_ALLOWANCE_MS : ℚ := 2000

structure ClosedLoopRun where
  /-- The workers. -/
  concurrency : ℕ
  ratePerSecond : ℚ
  durationSeconds : ℚ
  maxDurationSeconds : ℚ
  maxTotalRequests : ℕ
  /-- The identifiers of the fixtures. -/
  fixtures : List String
  stopOnTransportFailure : Bool
  wallStart : ℚ
  rate_pos : 0 < ratePerSecond
  fixtures_ne : fixtures ≠ []

namespace ClosedLoopRun

variable (run : ClosedLoopRun)

def intervalMs : ℚ := 1000 / run.ratePerSecond

def phaseEnd : ℚ := run.wallStart + run.durationSeconds * 1000

def dispatchDeadline : ℚ :=
  run.wallStart + run.maxDurationSeconds * 1000 + CLOSED_LOOP_SETUP_ALLOWANCE_MS

/-- The fixture a cursor points at. -/
def fixtureAt (cursor : ℕ) : String :=
  run.fixtures.get
    ⟨cursor % run.fixtures.length, Nat.mod_lt _ (List.length_pos_of_ne_nil run.fixtures_ne)⟩

theorem intervalMs_pos : 0 < run.intervalMs := div_pos (by norm_num) run.rate_pos

end ClosedLoopRun

inductive ClosedLoopStopKind
  | completed | deadline | totalCeiling | transportFailure | authorizationExpired | operatorAbort
  | inFlightExceeded
  deriving DecidableEq, Repr

structure ClosedLoopStop where
  kind : ClosedLoopStopKind := .completed
  detail : Option String := none
  deriving DecidableEq, Repr

structure FixtureCounts where
  attempted : ℕ := 0
  responses : ℕ := 0
  transportFailures : ℕ := 0
  deriving DecidableEq, Repr

/-- Where a worker is suspended. -/
inductive Worker
  /-- Before its loop, or on the way to its next turn. -/
  | ready
  | sleeping (slot : ℚ)
  | sending (fixture : String)
  | returned
  deriving DecidableEq, Repr

/-- The slot a worker sleeps for. -/
def Worker.slot? : Worker → Option ℚ
  | .sleeping slot => some slot
  | _ => none

structure ClosedLoop where
  now : ℚ
  nextSlot : ℚ
  stop : ClosedLoopStop := {}
  hardStopped : Bool := false
  attempted : ℕ := 0
  responses : ℕ := 0
  transportFailures : ℕ := 0
  inFlight : ℕ := 0
  maxInFlight : ℕ := 0
  paced : ℕ := 0
  cursor : ℕ := 0
  outcomes : Outcome → ℕ := fun _ => 0
  statuses : ℕ → ℕ := fun _ => 0
  perFixture : String → FixtureCounts := fun _ => {}
  workers : List Worker

/-- What passes between the readings of the clock in one turn, and the answer of the policy. -/
structure Readings where
  top : ℚ≥0 := 0
  phase : ℚ≥0 := 0
  deadline : ℚ≥0 := 0
  lag : ℚ≥0 := 0
  authorized : Bool := true

/-- A request that starts: its slot, the readings of the checks before it, and when it starts. -/
structure Start where
  slot : ℚ
  phaseReading : ℚ
  deadlineReading : ℚ
  startedAt : ℚ

namespace ClosedLoop

variable (run : ClosedLoopRun)

/-- The setup ends a while after the wall clock was read. -/
def create (setup : ℚ≥0) : ClosedLoop where
  now := run.wallStart + setup
  nextSlot := run.wallStart + setup
  workers := List.replicate run.concurrency .ready

/-! ## The pieces of a turn -/

def stopWith (kind : ClosedLoopStopKind) (detail : Option String) (s : ClosedLoop) : ClosedLoop :=
  if s.stop.kind = .completed then { s with stop := ⟨kind, detail⟩ } else s

def stopped (s : ClosedLoop) : Bool := s.stop.kind ≠ .completed || s.hardStopped

def moveTo (i : ℕ) (worker : Worker) (s : ClosedLoop) : ClosedLoop :=
  { s with workers := s.workers.set i worker }

def updateFixture (fixture : String) (f : FixtureCounts → FixtureCounts) (s : ClosedLoop) :
    ClosedLoop :=
  { s with perFixture := Function.update s.perFixture fixture (f (s.perFixture fixture)) }

/-- The counters of a request that starts. -/
def attempt (fixture : String) (s : ClosedLoop) : ClosedLoop :=
  { s with
    cursor := s.cursor + 1
    attempted := s.attempted + 1
    inFlight := s.inFlight + 1
    maxInFlight := max s.maxInFlight (s.inFlight + 1) }.updateFixture fixture
      fun counts => { counts with attempted := counts.attempted + 1 }

/-- The counters of a request that was refused before a socket was opened. -/
def refuse (fixture : String) (s : ClosedLoop) : ClosedLoop :=
  { s with
    inFlight := s.inFlight - 1
    attempted := s.attempted - 1 }.updateFixture fixture
      fun counts => { counts with attempted := counts.attempted - 1 }

/-- The counters of a result. -/
def count (fixture : String) (result : ClosedLoopSend) (s : ClosedLoop) : ClosedLoop :=
  let s := { s with
    inFlight := s.inFlight - 1
    outcomes := Function.update s.outcomes result.outcome (s.outcomes result.outcome + 1) }
  match result.status with
  | none => s
  | some status =>
    { s with
      statuses := Function.update s.statuses status (s.statuses status + 1)
      responses := s.responses + 1 }.updateFixture fixture
        fun counts => { counts with responses := counts.responses + 1 }

def countFailure (fixture : String) (s : ClosedLoop) : ClosedLoop :=
  { s with transportFailures := s.transportFailures + 1 }.updateFixture fixture
    fun counts => { counts with transportFailures := counts.transportFailures + 1 }

/-! ## A turn -/

/-- The request of a worker starts. -/
def send (i : ℕ) (start : Start) (s : ClosedLoop) : ClosedLoop × Option Start :=
  let fixture := run.fixtureAt s.cursor
  let s := { s with now := start.startedAt }.attempt fixture
  let s := if run.concurrency < s.inFlight then
      s.stopWith .inFlightExceeded
        (some s!"{s.inFlight} in flight with {run.concurrency} workers")
    else s
  (s.moveTo i (.sending fixture), some start)

/-- A worker has its slot: the last checks, and the request. -/
def dispatch (i : ℕ) (slot : ℚ) (r : Readings) (s : ClosedLoop) : ClosedLoop × Option Start :=
  let phaseReading := s.now + r.phase
  let deadlineReading := phaseReading + r.deadline
  if run.phaseEnd ≤ phaseReading then ({ s with now := phaseReading }.moveTo i .returned, none)
  else
    let s := { s with now := deadlineReading }
    if run.dispatchDeadline ≤ deadlineReading then
      ((s.stopWith .deadline none).moveTo i .returned, none)
    else if run.maxTotalRequests ≤ s.attempted then
      ((s.stopWith .totalCeiling none).moveTo i .returned, none)
    else if ¬ r.authorized then
      ((s.stopWith .authorizationExpired none).moveTo i .returned, none)
    else s.send run i ⟨slot, phaseReading, deadlineReading, deadlineReading + r.lag⟩

/-- The loop of a worker, from its top to the next suspension. -/
def turn (i : ℕ) (r : Readings) (s : ClosedLoop) : ClosedLoop × Option Start :=
  if s.stopped then (s.moveTo i .returned, none)
  else
    let now := s.now + r.top
    let s := { s with now := now }
    if run.phaseEnd ≤ now then (s.moveTo i .returned, none)
    else if run.dispatchDeadline ≤ now then
      ((s.stopWith .deadline none).moveTo i .returned, none)
    else
      let slot := max now s.nextSlot
      let s := { s with nextSlot := slot + run.intervalMs }
      if now < slot then ({ s with paced := s.paced + 1 }.moveTo i (.sleeping slot), none)
      else s.dispatch run i slot r

/-- A sleep ends, at its time or later. -/
def wake (i : ℕ) (slot : ℚ) (r : Readings) (s : ClosedLoop) : ClosedLoop × Option Start :=
  let s := { s with now := max s.now slot + r.top }
  if s.stopped then (s.moveTo i .returned, none) else s.dispatch run i slot r

/-- The sender throws. -/
def refused (i : ℕ) (fixture name : String) (s : ClosedLoop) : ClosedLoop :=
  ((s.refuse fixture).stopWith .authorizationExpired (some name)).moveTo i .returned

/-- A request has its result, and its worker goes on. -/
def settle (i : ℕ) (fixture : String) (result : ClosedLoopSend) (r : Readings) (s : ClosedLoop) :
    ClosedLoop × Option Start :=
  let s := (s.count fixture result).moveTo i .ready
  if result.outcome ∈ TRANSPORT_FAILURES then
    let s := s.countFailure fixture
    if s.hardStopped ∧ s.stop.kind = .operatorAbort then (s.moveTo i .returned, none)
    else if run.stopOnTransportFailure then
      ((s.stopWith .transportFailure (some result.outcome.text)).moveTo i .returned, none)
    else s.turn run i r
  else s.turn run i r

/-! ## Steps -/

inductive Input
  /-- A worker is started. -/
  | start (i : ℕ) (r : Readings)
  /-- The timer of a sleeping worker fires. -/
  | wake (i : ℕ) (r : Readings)
  | result (i : ℕ) (result : ClosedLoopSend) (r : Readings)
  | thrown (i : ℕ) (name : String)
  | operatorAbort
  | hardStop

/-- One step. An input for a worker that does not await it changes nothing. -/
def step (s : ClosedLoop) : Input → ClosedLoop × Option Start
  | .start i r => if s.workers[i]? = some .ready then s.turn run i r else (s, none)
  | .wake i r =>
    match s.workers[i]? with
    | some (.sleeping slot) => s.wake run i slot r
    | _ => (s, none)
  | .result i result r =>
    match s.workers[i]? with
    | some (.sending fixture) => s.settle run i fixture result r
    | _ => (s, none)
  | .thrown i name =>
    match s.workers[i]? with
    | some (.sending fixture) => (s.refused i fixture name, none)
    | _ => (s, none)
  | .operatorAbort => ({ s.stopWith .operatorAbort none with hardStopped := true }, none)
  | .hardStop => ({ s with hardStopped := true }, none)

/-! ## What the pieces leave alone -/

section Pieces

variable {run} {s : ClosedLoop}

@[simp] theorem stopWith_now (kind detail) : (s.stopWith kind detail).now = s.now := by
  unfold stopWith; split <;> rfl

@[simp] theorem stopWith_nextSlot (kind detail) :
    (s.stopWith kind detail).nextSlot = s.nextSlot := by
  unfold stopWith; split <;> rfl

@[simp] theorem stopWith_workers (kind detail) : (s.stopWith kind detail).workers = s.workers := by
  unfold stopWith; split <;> rfl

theorem stopWith_stop (kind detail) : (s.stopWith kind detail).stop =
    if s.stop.kind = .completed then ⟨kind, detail⟩ else s.stop := by
  unfold stopWith; split <;> rfl

@[simp] theorem count_now (fixture result) : (s.count fixture result).now = s.now := by
  unfold count; split <;> rfl

@[simp] theorem count_nextSlot (fixture result) :
    (s.count fixture result).nextSlot = s.nextSlot := by
  unfold count; split <;> rfl

@[simp] theorem count_workers (fixture result) : (s.count fixture result).workers = s.workers := by
  unfold count; split <;> rfl

@[simp] theorem count_stop (fixture result) : (s.count fixture result).stop = s.stop := by
  unfold count; split <;> rfl

@[simp] theorem count_hardStopped (fixture result) :
    (s.count fixture result).hardStopped = s.hardStopped := by
  unfold count; split <;> rfl

end Pieces

/-! ## What a step does to the schedule -/

section Moves

variable {run} {s : ClosedLoop} {i : ℕ} {slot : ℚ} {r : Readings}

/-- A worker with its slot returns, or its request starts, with the checks behind it. -/
inductive Dispatched (run : ClosedLoopRun) (s : ClosedLoop) (i : ℕ) (slot : ℚ) (s' : ClosedLoop) :
    Option Start → Prop
  | returned (now : s.now ≤ s'.now) (next : s'.nextSlot = s.nextSlot)
      (workers : s'.workers = s.workers.set i .returned) : Dispatched run s i slot s' none
  | started {start : Start} {fixture : String} (slot_eq : start.slot = slot)
      (now : s.now ≤ start.startedAt) (now' : s'.now = start.startedAt)
      (next : s'.nextSlot = s.nextSlot) (workers : s'.workers = s.workers.set i (.sending fixture))
      (phase : start.phaseReading < run.phaseEnd)
      (deadline : start.deadlineReading < run.dispatchDeadline) :
      Dispatched run s i slot s' (some start)

theorem send_eq (start : Start) :
    (s.send run i start).2 = some start ∧ (s.send run i start).1.now = start.startedAt ∧
      (s.send run i start).1.nextSlot = s.nextSlot ∧
      (s.send run i start).1.workers = s.workers.set i (.sending (run.fixtureAt s.cursor)) := by
  unfold send
  dsimp only
  split
  · simp [moveTo, attempt, updateFixture]
  · simp [moveTo, attempt, updateFixture]

theorem dispatch_spec :
    Dispatched run s i slot (s.dispatch run i slot r).1 (s.dispatch run i slot r).2 := by
  have hphase : s.now ≤ s.now + r.phase := le_add_of_nonneg_right r.phase.2
  have hdeadline : s.now ≤ s.now + r.phase + r.deadline :=
    hphase.trans (le_add_of_nonneg_right r.deadline.2)
  unfold dispatch
  dsimp only
  split
  · exact .returned hphase rfl rfl
  · next hend =>
    split
    · exact .returned (by simpa [moveTo] using hdeadline) (by simp [moveTo]) (by simp [moveTo])
    · next hlate =>
      split
      · exact .returned (by simpa [moveTo] using hdeadline) (by simp [moveTo]) (by simp [moveTo])
      · split
        · exact .returned (by simpa [moveTo] using hdeadline) (by simp [moveTo]) (by simp [moveTo])
        · set start : Start := ⟨slot, s.now + r.phase, s.now + r.phase + r.deadline,
            s.now + r.phase + r.deadline + r.lag⟩ with hstart
          obtain ⟨hout, hnow, hnext, hworkers⟩ := @send_eq run
            { s with now := s.now + r.phase + r.deadline } i start
          rw [hout]
          exact .started rfl (hdeadline.trans (le_add_of_nonneg_right r.lag.2)) hnow hnext hworkers
            (not_le.1 hend) (not_le.1 hlate)

/-- What a step does to the clock, the slots and the workers, and what starts in it. -/
inductive Move (run : ClosedLoopRun) (s s' : ClosedLoop) : Option Start → Prop
  | quiet {i : ℕ} {w : Worker} (now : s.now ≤ s'.now) (next : s.nextSlot ≤ s'.nextSlot)
      (awake : w.slot? = none) (workers : s'.workers = s.workers.set i w) : Move run s s' none
  /-- A worker takes the next slot and sleeps until then. -/
  | sleeps {i : ℕ} {w : Worker} {slot : ℚ} (cell : s.workers[i]? = some w) (awake : w.slot? = none)
      (now : s.now ≤ s'.now) (taken : slot = max s'.now s.nextSlot)
      (next : s'.nextSlot = slot + run.intervalMs)
      (workers : s'.workers = s.workers.set i (.sleeping slot)) : Move run s s' none
  /-- A worker takes a slot that is now, and starts. -/
  | starts {i : ℕ} {w : Worker} {fixture : String} {start : Start}
      (cell : s.workers[i]? = some w) (awake : w.slot? = none) (now : s.now ≤ start.slot)
      (taken : s.nextSlot ≤ start.slot) (late : start.slot ≤ start.startedAt)
      (now' : s'.now = start.startedAt) (next : s'.nextSlot = start.slot + run.intervalMs)
      (workers : s'.workers = s.workers.set i (.sending fixture)) : Move run s s' (some start)
  /-- A worker that slept until its slot starts. -/
  | wakes {i : ℕ} {fixture : String} {start : Start}
      (cell : s.workers[i]? = some (.sleeping start.slot)) (late : start.slot ≤ start.startedAt)
      (now : s.now ≤ start.startedAt) (now' : s'.now = start.startedAt)
      (next : s'.nextSlot = s.nextSlot)
      (workers : s'.workers = s.workers.set i (.sending fixture)) : Move run s s' (some start)

theorem Move.same : Move run s s none :=
  @Move.quiet run s s s.workers.length .returned le_rfl le_rfl rfl
    (List.set_eq_of_length_le le_rfl).symm

/-- The turn of a worker that does not sleep, in a step that began in `s₀`. -/
theorem turn_move {s₀ : ClosedLoop} {w : Worker} (hcell : s₀.workers[i]? = some w)
    (hawake : w.slot? = none) (hnow : s.now = s₀.now) (hnext : s.nextSlot = s₀.nextSlot)
    (hworkers : ∀ w', s.workers.set i w' = s₀.workers.set i w') :
    Move run s₀ (s.turn run i r).1 (s.turn run i r).2 := by
  have htop : s₀.now ≤ s.now + r.top := hnow ▸ le_add_of_nonneg_right r.top.2
  have hinterval := run.intervalMs_pos
  have hreturned {s' : ClosedLoop} (hnow : s₀.now ≤ s'.now) (hnext : s₀.nextSlot ≤ s'.nextSlot)
      (hset : s'.workers = s.workers.set i .returned) : Move run s₀ s' none :=
    .quiet hnow hnext rfl (hset.trans (hworkers _))
  unfold turn
  dsimp only
  split
  · exact hreturned hnow.ge hnext.ge rfl
  · split
    · exact hreturned htop hnext.ge rfl
    · split
      · exact hreturned (by simpa [moveTo] using htop) (by simp [moveTo, hnext]) (by simp [moveTo])
      · split
        · exact .sleeps hcell hawake htop (by rw [hnext]; rfl) rfl (hworkers _)
        · next hslot =>
          have hslot : max (s.now + r.top) s.nextSlot = s.now + r.top :=
            le_antisymm (not_lt.1 hslot) (le_max_left _ _)
          have htaken : s₀.nextSlot ≤ s.now + r.top := by
            rw [← hslot, hnext]
            exact le_max_right _ _
          rw [hslot]
          generalize hs₁ : ({ s with
            now := s.now + r.top
            nextSlot := s.now + r.top + run.intervalMs } : ClosedLoop) = s₁
          have hnow₁ : s₁.now = s.now + r.top := hs₁ ▸ rfl
          have hnext₁ : s₁.nextSlot = s.now + r.top + run.intervalMs := hs₁ ▸ rfl
          have hworkers₁ : s₁.workers = s.workers := hs₁ ▸ rfl
          have hdispatched := @dispatch_spec run s₁ i (s.now + r.top) r
          revert hdispatched
          generalize (s₁.dispatch run i (s.now + r.top) r).2 = out
          rintro (⟨hnow', hnext', hset⟩ | ⟨hstart, hstarted, hnow', hnext', hset, -, -⟩)
          · refine hreturned (htop.trans (hnow₁ ▸ hnow')) ?_ (hworkers₁ ▸ hset)
            rw [hnext', hnext₁]
            exact htaken.trans (le_add_of_nonneg_right hinterval.le)
          · rw [hworkers₁, hworkers] at hset
            rw [hnow₁] at hstarted
            rw [hnext₁] at hnext'
            refine .starts hcell hawake ?_ ?_ ?_ hnow' ?_ hset
            · rw [hstart]; exact htop
            · rw [hstart]; exact htaken
            · rw [hstart]; exact hstarted
            · rw [hstart]; exact hnext'

theorem wake_move (hcell : s.workers[i]? = some (.sleeping slot)) :
    Move run s (s.wake run i slot r).1 (s.wake run i slot r).2 := by
  have hwoken : max s.now slot ≤ max s.now slot + r.top := le_add_of_nonneg_right r.top.2
  unfold wake
  dsimp only
  split
  · exact .quiet ((le_max_left _ _).trans hwoken) le_rfl rfl rfl
  · generalize hs₁ : ({ s with now := max s.now slot + r.top } : ClosedLoop) = s₁
    have hnow₁ : s₁.now = max s.now slot + r.top := hs₁ ▸ rfl
    have hnext₁ : s₁.nextSlot = s.nextSlot := hs₁ ▸ rfl
    have hworkers₁ : s₁.workers = s.workers := hs₁ ▸ rfl
    have hdispatched := @dispatch_spec run s₁ i slot r
    revert hdispatched
    generalize (s₁.dispatch run i slot r).2 = out
    rintro (⟨hnow', hnext', hset⟩ | ⟨hstart, hstarted, hnow', hnext', hset, -, -⟩)
    · rw [hnow₁] at hnow'
      exact .quiet (((le_max_left _ _).trans hwoken).trans hnow') (hnext'.trans hnext₁).ge rfl
        (hworkers₁ ▸ hset)
    · rw [hnow₁] at hstarted
      refine .wakes (hstart ▸ hcell) ?_ (((le_max_left _ _).trans hwoken).trans hstarted) hnow'
        (hnext'.trans hnext₁) (hworkers₁ ▸ hset)
      rw [hstart]
      exact ((le_max_right _ _).trans hwoken).trans hstarted

theorem settle_move {fixture : String} (result : ClosedLoopSend)
    (hcell : s.workers[i]? = some (.sending fixture)) :
    Move run s (s.settle run i fixture result r).1 (s.settle run i fixture result r).2 := by
  unfold settle
  dsimp only
  split
  · split
    · refine @Move.quiet run s _ i .returned ?_ ?_ rfl ?_ <;>
        simp [moveTo, countFailure, updateFixture]
    · split
      · refine @Move.quiet run s _ i .returned ?_ ?_ rfl ?_ <;>
          simp [moveTo, countFailure, updateFixture]
      · refine turn_move hcell rfl ?_ ?_ fun w => ?_ <;>
          simp [moveTo, countFailure, updateFixture]
  · refine turn_move hcell rfl ?_ ?_ fun w => ?_ <;> simp [moveTo]

/-- **What a step does to the schedule.** -/
theorem step_move (run : ClosedLoopRun) (s : ClosedLoop) (input : Input) :
    Move run s (s.step run input).1 (s.step run input).2 := by
  cases input with
  | start i r =>
    rw [step]
    split
    · next hcell => exact turn_move hcell rfl rfl rfl fun _ => rfl
    · exact .same
  | wake i r =>
    simp only [step]
    split
    · next slot hcell => exact wake_move hcell
    · exact .same
  | result i result r =>
    simp only [step]
    split
    · next fixture hcell => exact settle_move result hcell
    · exact .same
  | thrown i name =>
    simp only [step]
    split
    · refine @Move.quiet run s _ i .returned ?_ ?_ rfl ?_ <;>
        simp [refused, moveTo, refuse, updateFixture]
    · exact .same
  | operatorAbort =>
    refine @Move.quiet run s { s.stopWith .operatorAbort none with hardStopped := true }
      s.workers.length .returned ?_ ?_ rfl ?_ <;> simp [List.set_eq_of_length_le]
  | hardStop =>
    exact @Move.quiet run s { s with hardStopped := true } s.workers.length .returned le_rfl le_rfl
      rfl (List.set_eq_of_length_le le_rfl).symm

/-! ## What is checked before a request starts -/

theorem dispatch_checked {start : Start} (h : (s.dispatch run i slot r).2 = some start) :
    start.phaseReading < run.phaseEnd ∧ start.deadlineReading < run.dispatchDeadline := by
  have hdispatched := @dispatch_spec run s i slot r
  rw [h] at hdispatched
  cases hdispatched with
  | started _ _ _ _ _ hphase hdeadline => exact ⟨hphase, hdeadline⟩

theorem turn_checked {start : Start} (h : (s.turn run i r).2 = some start) :
    s.stopped = false ∧ start.phaseReading < run.phaseEnd ∧
      start.deadlineReading < run.dispatchDeadline := by
  unfold turn at h
  dsimp only at h
  split_ifs at h with hstopped
  exact ⟨by simpa using hstopped, dispatch_checked h⟩

/-- **No request starts in a step that began with a stop, or past an end.** -/
theorem step_checked {input : Input} {start : Start} (h : (s.step run input).2 = some start) :
    s.stopped = false ∧ start.phaseReading < run.phaseEnd ∧
      start.deadlineReading < run.dispatchDeadline := by
  cases input with
  | start i r =>
    rw [step] at h
    split_ifs at h
    exact turn_checked h
  | wake i r =>
    simp only [step] at h
    split at h
    · unfold wake at h
      dsimp only at h
      split_ifs at h with hstopped
      exact ⟨by simpa [stopped] using hstopped, dispatch_checked h⟩
    · cases h
  | result i result r =>
    simp only [step] at h
    split at h
    · unfold settle at h
      dsimp only at h
      split_ifs at h
      · simpa [stopped, moveTo, countFailure, updateFixture] using turn_checked h
      · simpa [stopped, moveTo] using turn_checked h
    · cases h
  | thrown i name =>
    simp only [step] at h
    split at h <;> cases h
  | operatorAbort | hardStop => cases h

/-! ## The stop -/

theorem turn_stop (h : s.stop.kind ≠ .completed) : (s.turn run i r).1.stop = s.stop := by
  have hstopped : s.stopped = true := by simp [stopped, h]
  rw [turn, if_pos hstopped]
  rfl

/-- **The first stop is never replaced.** -/
theorem step_stop (run : ClosedLoopRun) (input : Input) (h : s.stop.kind ≠ .completed) :
    (s.step run input).1.stop = s.stop := by
  cases input with
  | start i r =>
    rw [step]
    split
    · exact turn_stop h
    · rfl
  | wake i r =>
    have hstopped (now : ℚ) : ({ s with now } : ClosedLoop).stopped = true := by simp [stopped, h]
    simp only [step]
    split
    · rw [wake, if_pos (hstopped _)]
      rfl
    · rfl
  | result i result r =>
    simp only [step]
    split
    · next fixture _ =>
      have hcount : (s.count fixture result).stop.kind ≠ .completed := by rwa [count_stop]
      unfold settle
      dsimp only
      split_ifs
      · exact count_stop _ _
      · simp [stopWith_stop, h, moveTo, countFailure, updateFixture]
      · exact (turn_stop (s := ((s.count fixture result).moveTo i .ready).countFailure fixture)
          hcount).trans (count_stop _ _)
      · exact (turn_stop (s := (s.count fixture result).moveTo i .ready) hcount).trans
          (count_stop _ _)
    · rfl
  | thrown i name =>
    simp only [step]
    split
    · simp [refused, stopWith_stop, h, moveTo, refuse, updateFixture]
    · rfl
  | operatorAbort => simp [step, stopWith_stop, h]
  | hardStop => rfl

end Moves

end ClosedLoop

end Limitmark.Load
