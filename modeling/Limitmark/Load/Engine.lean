import Mathlib.Algebra.Order.Floor.Ring
import Mathlib.Tactic.Linarith
import Limitmark.Load.ClosedLoop

/-!
# The open-loop generator

`lab/load/engine.ts`, `executeHttpWorkload`: a dispatcher that starts requests at the rate of a phase
and never waits for one, the results that come in meanwhile, and a watcher that proves the
destination again and again. The dispatcher's step is one iteration of its loop; between two
iterations anything else may happen. The clock never steps back, and a timer fires at its time or
later. Times are exact rationals: the code adds them in doubles, so that a bound on the starts of a time
holds of it up to a unit in the last place of the clock.

What an iteration does is `Iterated`; what holds over a run is the subject of `Load.EngineBounds`.
-/

namespace Limitmark.Load

open Limitmark.Foundations

/-! ## Thresholds -/

inductive PhaseRuleKind
  | measured | expectFailures | health
  deriving DecidableEq, Repr

/-- When measured results stop the run. -/
structure StopThresholds where
  errorRate : ℚ
  afterSamples : ℕ
  consecutiveFailures : ℕ
  p99Ms : ℚ

structure HttpThresholds where
  stop : StopThresholds
  /-- The beginning of a phase's name, and its rule. -/
  phaseRules : List (String × PhaseRuleKind) := []

def ruleFor (thresholds : HttpThresholds) (phaseName : String) : PhaseRuleKind :=
  match thresholds.phaseRules.find? fun entry => phaseName.startsWith entry.1 with
  | some entry => entry.2
  | none => .measured

/-- The entry of a sorted list below which `p` of a hundred lie. -/
def percentile (sortedAscending : List ℚ) (p : ℚ) : ℚ :=
  sortedAscending.getD
    (min (sortedAscending.length - 1) (⌈p / 100 * sortedAscending.length⌉₊ - 1)) 0

structure StopState where
  measured : ℕ := 0
  failed : ℕ := 0
  consecutiveFailures : ℕ := 0
  latenciesMs : List ℚ := []

/-- Why measured results stop the run. -/
inductive ThresholdReason
  | consecutiveFailures (count : ℕ)
  | errorRate (rate : ℚ)
  | p99 (ms : ℚ)
  deriving DecidableEq

def evaluateStop (thresholds : HttpThresholds) (state : StopState) : Option ThresholdReason :=
  let stop := thresholds.stop
  let p99 := percentile (state.latenciesMs.mergeSort (· ≤ ·)) 99
  if stop.consecutiveFailures ≤ state.consecutiveFailures then
    some (.consecutiveFailures state.consecutiveFailures)
  else if stop.afterSamples ≤ state.measured then
    if stop.errorRate ≤ state.failed / state.measured then
      some (.errorRate (state.failed / state.measured))
    else if stop.p99Ms < p99 then some (.p99 p99)
    else none
  else none

structure LatencySummary where
  count : ℕ
  min : ℚ
  mean : ℚ
  p50 : ℚ
  p90 : ℚ
  p95 : ℚ
  p99 : ℚ
  max : ℚ

def roundLatency (value : ℚ) : ℚ := ⌊value * 100 + 1 / 2⌋ / 100

def summarizeLatencies (values : List ℚ) : LatencySummary :=
  let sorted := values.mergeSort (· ≤ ·)
  { count := sorted.length
    min := roundLatency (sorted.headD 0)
    mean := roundLatency (if sorted = [] then 0 else sorted.sum / sorted.length)
    p50 := roundLatency (percentile sorted 50)
    p90 := roundLatency (percentile sorted 90)
    p95 := roundLatency (percentile sorted 95)
    p99 := roundLatency (percentile sorted 99)
    max := roundLatency (sorted.getLastD 0) }

/-! ## The run -/

def SETUP_ALLOWANCE_MS : ℚ := 2000

structure PhaseSpec where
  name : String
  durationSeconds : ℕ
  ratePerSecond : ℕ
  concurrency : ℕ
  timeoutMs : ℕ
  rate_pos : 0 < ratePerSecond

namespace PhaseSpec

variable (phase : PhaseSpec)

def intervalMs : ℚ := 1000 / phase.ratePerSecond

/-- A phase never emits more than its rate times its duration. -/
def phaseCap : ℕ := phase.ratePerSecond * phase.durationSeconds

theorem intervalMs_pos : 0 < phase.intervalMs :=
  div_pos (by norm_num) (Nat.cast_pos.2 phase.rate_pos)

end PhaseSpec

structure DestinationGuard where
  intervalMs : Option ℚ := none
  maxStaleMs : Option ℚ := none

namespace DestinationGuard

variable (guard : DestinationGuard)

def guardIntervalMs : ℚ := guard.intervalMs.getD 250

def guardMaxStaleMs : ℚ := guard.maxStaleMs.getD 750

end DestinationGuard

structure OpenLoopRun where
  methods : List String
  paths : List String
  phases : List PhaseSpec
  maxTotalRequests : ℕ
  maxDurationSeconds : ℕ
  thresholds : HttpThresholds
  destination : Option DestinationGuard
  started : ℚ
  methods_ne : methods ≠ []
  paths_ne : paths ≠ []

structure AuthorizedRequest where
  method : String
  path : String
  deriving DecidableEq, Repr

namespace OpenLoopRun

variable (run : OpenLoopRun)

def requests : List AuthorizedRequest :=
  run.methods.flatMap fun method => run.paths.map fun path => ⟨method, path⟩

theorem requests_ne : run.requests ≠ [] := by
  obtain ⟨method, methods, hmethods⟩ := List.exists_cons_of_ne_nil run.methods_ne
  obtain ⟨path, paths, hpaths⟩ := List.exists_cons_of_ne_nil run.paths_ne
  simp [requests, hmethods, hpaths]

/-- The request a cursor points at. -/
def requestAt (cursor : ℕ) : AuthorizedRequest :=
  run.requests.get
    ⟨cursor % run.requests.length, Nat.mod_lt _ (List.length_pos_of_ne_nil run.requests_ne)⟩

def deadline : ℚ := run.started + run.maxDurationSeconds * 1000 + SETUP_ALLOWANCE_MS

end OpenLoopRun

/-! ## The state -/

/-- The outcomes that count as failed: all but three. -/
def FAILURE_OUTCOMES : List Outcome :=
  [.http5xx, .http4xx, .redirectRefused, .timeout, .connRefused, .connReset, .dns, .tls,
    .bodyTooLarge, .aborted, .otherError]

def isFailure (outcome : Outcome) : Bool := outcome ∈ FAILURE_OUTCOMES

structure RequestResult where
  outcome : Outcome
  status : Option ℕ
  latencyMs : ℚ
  bytes : ℕ

def StopState.measure (result : RequestResult) (state : StopState) : StopState where
  measured := state.measured + 1
  latenciesMs := state.latenciesMs ++ [result.latencyMs]
  failed := if isFailure result.outcome then state.failed + 1 else state.failed
  consecutiveFailures :=
    if isFailure result.outcome then state.consecutiveFailures + 1 else 0

inductive StopReason
  | deadline | authorizationExpired | ownershipUnproven | totalCeiling
  | ownershipLost (error : String)
  | threshold (reason : ThresholdReason)
  deriving DecidableEq

/-- The variables of a phase. -/
structure PhaseRun where
  /-- Its place among the phases. -/
  index : ℕ
  phase : PhaseSpec
  phaseEnd : ℚ
  nextSend : ℚ
  attempted : ℕ := 0
  succeeded : ℕ := 0
  failed : ℕ := 0
  dropped : ℕ := 0
  bytes : ℕ := 0
  inFlight : ℕ := 0
  latencies : List ℚ := []
  outcomes : Outcome → ℕ := fun _ => 0
  statuses : ℕ → ℕ := fun _ => 0
  /-- The requests without a result, by their cursors. -/
  pending : List ℕ := []

structure PhaseStats where
  name : String
  planned : PhaseSpec
  attempted : ℕ
  succeeded : ℕ
  failed : ℕ
  outcomes : Outcome → ℕ
  statuses : ℕ → ℕ
  droppedByConcurrencyCap : ℕ
  bytesReceived : ℕ
  latencyMs : LatencySummary

namespace PhaseRun

/-- The record of a phase. -/
def stats (p : PhaseRun) : PhaseStats where
  name := p.phase.name
  planned := p.phase
  attempted := p.attempted
  succeeded := p.succeeded
  failed := p.failed
  outcomes := p.outcomes
  statuses := p.statuses
  droppedByConcurrencyCap := p.dropped
  bytesReceived := p.bytes
  latencyMs := summarizeLatencies p.latencies

/-- The counters of a result. -/
def count (cursor : ℕ) (result : RequestResult) (p : PhaseRun) : PhaseRun :=
  { p with
    inFlight := p.inFlight - 1
    latencies := p.latencies ++ [result.latencyMs]
    bytes := p.bytes + result.bytes
    outcomes := Function.update p.outcomes result.outcome (p.outcomes result.outcome + 1)
    statuses := match result.status with
      | none => p.statuses
      | some status => Function.update p.statuses status (p.statuses status + 1)
    failed := if isFailure result.outcome then p.failed + 1 else p.failed
    succeeded := if isFailure result.outcome then p.succeeded else p.succeeded + 1
    pending := p.pending.erase cursor }

end PhaseRun

/-- Where the dispatcher is. -/
inductive Dispatcher
  /-- Before the first verification has succeeded. -/
  | proving
  /-- A phase's start hook is awaited. -/
  | starting (index : ℕ)
  /-- In the loop of a phase, which goes on at a time. -/
  | looping (p : PhaseRun) (wakeAt : ℚ)
  /-- The requests of a phase that have no result are awaited. -/
  | draining (p : PhaseRun)
  | returned
  | rejected (p : Option PhaseRun)

/-- The phase of a dispatcher. -/
def Dispatcher.phase? : Dispatcher → Option PhaseRun
  | .looping p _ | .draining p => some p
  | .rejected p => p
  | _ => none

/-- The phase of a dispatcher that has not rejected. -/
def Dispatcher.live? : Dispatcher → Option PhaseRun
  | .looping p _ | .draining p => some p
  | _ => none

inductive Watcher
  | off
  | sleeping (wakeAt : ℚ)
  | verifying
  | ended

structure Engine where
  now : ℚ
  stopReason : Option StopReason := none
  hardStopped : Bool := false
  totalAttempted : ℕ := 0
  cursor : ℕ := 0
  state : StopState := {}
  lastOkAt : ℚ
  watcher : Watcher := .off
  dispatcher : Dispatcher
  phases : List PhaseStats := []

/-- What passes between the readings of the clock in one iteration, and what it is told. -/
structure Iteration where
  loop : ℚ≥0 := 0
  top : ℚ≥0 := 0
  age : ℚ≥0 := 0
  authorized : Bool := true
  shouldEndPhase : Bool := false
  /-- The sender throws. -/
  throws : Bool := false

/-- A request that starts, with the readings of the clock before it. -/
structure Dispatch where
  index : ℕ
  cursor : ℕ
  now : ℚ
  ageReading : ℚ
  request : AuthorizedRequest

inductive Event
  | dispatched (d : Dispatch)
  /-- A verification of the destination succeeds. -/
  | verified (time : ℚ)

namespace Engine

variable (run : OpenLoopRun)

/-! ## The phases -/

def stopWith (reason : StopReason) (s : Engine) : Engine :=
  { s with stopReason := some (s.stopReason.getD reason) }

/-- The head of the loop over the phases. -/
def enterPhase (index : ℕ) (s : Engine) : Engine :=
  if s.stopReason.isSome ∨ s.hardStopped then { s with dispatcher := .returned }
  else if index < run.phases.length then { s with dispatcher := .starting index }
  else { s with dispatcher := .returned }

/-- The start, a while after the clock was read for the deadline. -/
def create (setup : ℚ≥0) : Engine :=
  let s : Engine := {
    now := run.started + setup, lastOkAt := run.started + setup, dispatcher := .proving }
  match run.destination with
  | some _ => s
  | none => s.enterPhase run 0

/-- The variables of a phase, when its hook is done. -/
def startPhase (index : ℕ) (phase : PhaseSpec) (setup : ℚ≥0) (s : Engine) : Engine :=
  let nextSend := s.now + setup
  { s with
    now := nextSend
    dispatcher := .looping
      { index := index
        phase := phase
        nextSend := nextSend
        phaseEnd := s.now + phase.durationSeconds * 1000 } nextSend }

/-! ## An iteration -/

/-- The next slot, which is never more than an interval behind. -/
def advance (intervalMs now nextSend : ℚ) : ℚ :=
  if nextSend + intervalMs < now - intervalMs then now + intervalMs else nextSend + intervalMs

/-- The request of an iteration starts. -/
def send (p : PhaseRun) (now ageReading : ℚ) (throws : Bool) (s : Engine) : Engine × Option Event :=
  let p := { p with attempted := p.attempted + 1, inFlight := p.inFlight + 1 }
  let s' := { s with
    now := ageReading
    cursor := s.cursor + 1
    totalAttempted := s.totalAttempted + 1 }
  if throws then ({ s' with dispatcher := .rejected (some p) }, none)
  else
    ({ s' with dispatcher := .looping { p with pending := p.pending ++ [s.cursor] } ageReading },
      some (.dispatched ⟨p.index, s.cursor, now, ageReading, run.requestAt s.cursor⟩))

/-- The slot is taken: the ceilings, and the request. -/
def dispatch (p : PhaseRun) (now ageReading : ℚ) (throws : Bool) (s : Engine) :
    Engine × Option Event :=
  let s := { s with now := ageReading }
  let p := { p with nextSend := advance p.phase.intervalMs now p.nextSend }
  if run.maxTotalRequests ≤ s.totalAttempted then
    ({ s.stopWith .totalCeiling with dispatcher := .draining p }, none)
  else if p.phase.phaseCap ≤ p.attempted then ({ s with dispatcher := .draining p }, none)
  else if p.phase.concurrency ≤ p.inFlight then
    ({ s with dispatcher := .looping { p with dropped := p.dropped + 1 } ageReading }, none)
  else s.send run p now ageReading throws

/-- The pacing of an iteration whose destination is proved. -/
def pace (p : PhaseRun) (now ageReading : ℚ) (throws : Bool) (s : Engine) : Engine × Option Event :=
  if now < p.nextSend then
    ({ s with
      now := ageReading
      dispatcher := .looping p (ageReading + min (p.nextSend - now) 5) }, none)
  else s.dispatch run p now ageReading throws

/-- One iteration of the dispatch loop. -/
def iterate (p : PhaseRun) (wakeAt : ℚ) (r : Iteration) (s : Engine) : Engine × Option Event :=
  let loopReading := max s.now wakeAt + r.loop
  if p.phaseEnd ≤ loopReading ∨ s.stopReason.isSome ∨ s.hardStopped ∨ r.shouldEndPhase then
    ({ s with now := loopReading, dispatcher := .draining p }, none)
  else
    let now := loopReading + r.top
    if run.deadline ≤ now then
      ({ s.stopWith .deadline with now := now, dispatcher := .draining p }, none)
    else if ¬ r.authorized then
      ({ s.stopWith .authorizationExpired with now := now, dispatcher := .draining p }, none)
    else
      match run.destination with
      | none => s.pace run p now now r.throws
      | some guard =>
        let ageReading := now + r.age
        let age := ageReading - s.lastOkAt
        if guard.guardMaxStaleMs * 4 < age then
          ({ s.stopWith .ownershipUnproven with now := ageReading, dispatcher := .draining p }, none)
        else if guard.guardMaxStaleMs < age then
          ({ s with now := ageReading, dispatcher := .looping p (ageReading + 5) }, none)
        else s.pace run p now ageReading r.throws

/-! ## Results -/

/-- A result is measured against the thresholds, in a phase whose rule says so. -/
def measure (phaseName : String) (result : RequestResult) (s : Engine) : Engine :=
  if ruleFor run.thresholds phaseName = .measured then
    let s := { s with state := s.state.measure result }
    match evaluateStop run.thresholds s.state with
    | none => s
    | some reason => s.stopWith (.threshold reason)
  else s

/-! ## Steps -/

inductive Input
  /-- The first verification. -/
  | proved (clock : ℚ≥0)
  | unproved
  | phaseStarted (clock setup : ℚ≥0)
  | hookThrows
  | iterate (r : Iteration)
  | result (cursor : ℕ) (result : RequestResult)
  /-- The promise of a request is rejected, which ends the process. -/
  | resultRejected (cursor : ℕ)
  | drained
  | watcherWakes (late : ℚ≥0)
  | verified (clock : ℚ≥0)
  /-- A verification fails, or takes too long. -/
  | unverified (error : String)
  | hardStop

/-- One step. An input that nothing awaits changes nothing. -/
def step (s : Engine) : Input → Engine × Option Event
  | .proved clock =>
    match run.destination, s.dispatcher with
    | some guard, .proving =>
      let now := s.now + clock
      ({ s with now := now, lastOkAt := now,
                watcher := .sleeping (now + guard.guardIntervalMs) }.enterPhase run 0,
        some (.verified now))
    | _, _ => (s, none)
  | .unproved =>
    match s.dispatcher with
    | .proving => ({ s with dispatcher := .rejected none }, none)
    | _ => (s, none)
  | .phaseStarted clock setup =>
    match s.dispatcher with
    | .starting index =>
      match run.phases[index]? with
      | some phase => ({ s with now := s.now + clock }.startPhase index phase setup, none)
      | none => (s, none)
    | _ => (s, none)
  | .hookThrows =>
    match s.dispatcher with
    | .starting _ => ({ s with dispatcher := .rejected none }, none)
    | _ => (s, none)
  | .iterate r =>
    match s.dispatcher with
    | .looping p wakeAt => s.iterate run p wakeAt r
    | _ => (s, none)
  | .result cursor result =>
    match s.dispatcher with
    | .looping p wakeAt =>
      if cursor ∈ p.pending then
        ({ s.measure run p.phase.name result with
            dispatcher := .looping (p.count cursor result) wakeAt }, none)
      else (s, none)
    | .draining p =>
      if cursor ∈ p.pending then
        ({ s.measure run p.phase.name result with
            dispatcher := .draining (p.count cursor result) }, none)
      else (s, none)
    | _ => (s, none)
  | .resultRejected cursor =>
    match s.dispatcher with
    | .looping p _ | .draining p =>
      if cursor ∈ p.pending then ({ s with dispatcher := .rejected (some p) }, none) else (s, none)
    | _ => (s, none)
  | .drained =>
    match s.dispatcher with
    | .draining p =>
      if p.pending = [] then
        ({ s with phases := s.phases ++ [p.stats] }.enterPhase run (p.index + 1), none)
      else (s, none)
    | _ => (s, none)
  | .watcherWakes late =>
    match s.watcher, s.dispatcher with
    | .sleeping _, .returned | .sleeping _, .rejected _ => ({ s with watcher := .ended }, none)
    | .sleeping wakeAt, _ =>
      ({ s with now := max s.now wakeAt + late, watcher := .verifying }, none)
    | _, _ => (s, none)
  | .verified clock =>
    match run.destination, s.watcher with
    | some guard, .verifying =>
      let now := s.now + clock
      ({ s with now := now, lastOkAt := now, watcher := .sleeping (now + guard.guardIntervalMs) },
        some (.verified now))
    | _, _ => (s, none)
  | .unverified error =>
    match s.watcher with
    | .verifying =>
      ({ s.stopWith (.ownershipLost error) with hardStopped := true, watcher := .ended }, none)
    | _ => (s, none)
  | .hardStop => ({ s with hardStopped := true }, none)

/-! ## What an iteration does -/

section Iterations

variable {run} {s : Engine} {p : PhaseRun} {now ageReading : ℚ} {throws : Bool}

theorem le_advance {intervalMs : ℚ} (hpos : 0 < intervalMs) (nextSend : ℚ) :
    nextSend + intervalMs ≤ advance intervalMs now nextSend ∧
      now - intervalMs ≤ advance intervalMs now nextSend := by
  unfold advance
  split
  · constructor <;> linarith
  · next hnear => exact ⟨le_rfl, not_lt.1 hnear⟩

/-- What is checked before a request starts. -/
structure Checked (run : OpenLoopRun) (s : Engine) (p : PhaseRun) (now ageReading : ℚ) : Prop where
  running : s.stopReason = none
  allowed : s.hardStopped = false
  later : s.now ≤ now
  age : now ≤ ageReading
  deadline : now < run.deadline
  fresh : ∀ guard, run.destination = some guard → ageReading - s.lastOkAt ≤ guard.guardMaxStaleMs
  slot : p.nextSend ≤ now
  total : s.totalAttempted < run.maxTotalRequests
  cap : p.attempted < p.phase.phaseCap
  room : p.inFlight < p.phase.concurrency

/-- The phase after a request started. -/
def sent (p : PhaseRun) (now : ℚ) : PhaseRun :=
  { p with
    nextSend := advance p.phase.intervalMs now p.nextSend
    attempted := p.attempted + 1
    inFlight := p.inFlight + 1 }

/-- What an iteration does, and what starts in it. -/
inductive Iterated (run : OpenLoopRun) (s : Engine) (p : PhaseRun) : Engine × Option Event → Prop
  | drains {now nextSend : ℚ} {stop : Option StopReason} (later : s.now ≤ now)
      (slot : p.nextSend ≤ nextSend) :
      Iterated run s p ({ s with
        now := now
        stopReason := stop
        dispatcher := .draining { p with nextSend := nextSend } }, none)
  | waits {now nextSend wakeAt : ℚ} {dropped : ℕ} (later : s.now ≤ now)
      (slot : p.nextSend ≤ nextSend) :
      Iterated run s p ({ s with
        now := now
        dispatcher := .looping { p with nextSend := nextSend, dropped := dropped } wakeAt }, none)
  | throws {now ageReading : ℚ} (checked : Checked run s p now ageReading) :
      Iterated run s p ({ s with
        now := ageReading
        cursor := s.cursor + 1
        totalAttempted := s.totalAttempted + 1
        dispatcher := .rejected (some (sent p now)) }, none)
  | sends {now ageReading : ℚ} (checked : Checked run s p now ageReading) :
      Iterated run s p ({ s with
        now := ageReading
        cursor := s.cursor + 1
        totalAttempted := s.totalAttempted + 1
        dispatcher := .looping { sent p now with pending := p.pending ++ [s.cursor] } ageReading },
        some (.dispatched ⟨p.index, s.cursor, now, ageReading, run.requestAt s.cursor⟩))

theorem pace_spec (running : s.stopReason = none) (allowed : s.hardStopped = false)
    (later : s.now ≤ now) (age : now ≤ ageReading) (deadline : now < run.deadline)
    (fresh : ∀ guard, run.destination = some guard →
      ageReading - s.lastOkAt ≤ guard.guardMaxStaleMs) :
    Iterated run s p (s.pace run p now ageReading throws) := by
  unfold pace
  split
  · exact @Iterated.waits run s p ageReading p.nextSend _ p.dropped (later.trans age) le_rfl
  · next hslot =>
    have hslot : p.nextSend ≤ now := not_lt.1 hslot
    have hnext : p.nextSend ≤ advance p.phase.intervalMs now p.nextSend :=
      (le_add_of_nonneg_right p.phase.intervalMs_pos.le).trans
        (le_advance p.phase.intervalMs_pos _).1
    unfold dispatch
    dsimp only
    split_ifs with htotal hcap hroom
    · exact .drains (later.trans age) hnext
    · exact @Iterated.drains run s p ageReading _ s.stopReason (later.trans age) hnext
    · exact .waits (later.trans age) hnext
    · have hchecked : Checked run s p now ageReading :=
        ⟨running, allowed, later, age, deadline, fresh, hslot, not_le.1 htotal, not_le.1 hcap,
          not_le.1 hroom⟩
      unfold send
      cases throws with
      | true => exact .throws hchecked
      | false => exact .sends hchecked

/-- **What an iteration does.** -/
theorem iterate_spec (run : OpenLoopRun) (s : Engine) (p : PhaseRun) (wakeAt : ℚ) (r : Iteration) :
    Iterated run s p (s.iterate run p wakeAt r) := by
  have hloop : s.now ≤ max s.now wakeAt + r.loop :=
    (le_max_left _ _).trans (le_add_of_nonneg_right r.loop.2)
  have htop : s.now ≤ max s.now wakeAt + r.loop + r.top :=
    hloop.trans (le_add_of_nonneg_right r.top.2)
  have hage : max s.now wakeAt + r.loop + r.top ≤ max s.now wakeAt + r.loop + r.top + r.age :=
    le_add_of_nonneg_right r.age.2
  unfold iterate
  dsimp only
  split
  · exact @Iterated.drains run s p _ p.nextSend s.stopReason hloop le_rfl
  · next hgo =>
    obtain ⟨hrunning, hallowed⟩ : s.stopReason = none ∧ s.hardStopped = false := by
      simp only [not_or, Bool.not_eq_true, Option.isSome_eq_false_iff,
        Option.isNone_iff_eq_none] at hgo
      exact ⟨hgo.2.1, hgo.2.2.1⟩
    split_ifs with hdeadline hauthorized
    · exact @Iterated.drains run s p _ p.nextSend _ htop le_rfl
    · have hdeadline := not_le.1 hdeadline
      split
      · next hnone =>
        exact pace_spec hrunning hallowed htop le_rfl hdeadline fun guard hguard => by
          rw [hnone] at hguard
          cases hguard
      · next guard hsome =>
        split_ifs with hlost hstale
        · exact @Iterated.drains run s p _ p.nextSend _ (htop.trans hage) le_rfl
        · exact @Iterated.waits run s p _ p.nextSend _ p.dropped (htop.trans hage) le_rfl
        · refine pace_spec hrunning hallowed htop hage hdeadline fun guard' hguard => ?_
          rw [hsome] at hguard
          cases hguard
          exact not_lt.1 hstale
    · exact @Iterated.drains run s p _ p.nextSend _ htop le_rfl

end Iterations

/-! ## What a step does -/

/-- What most steps leave alone. -/
structure Kept (s s' : Engine) : Prop where
  now : s.now ≤ s'.now
  total : s'.totalAttempted = s.totalAttempted
  lastOkAt : s'.lastOkAt = s.lastOkAt
  phases : s'.phases = s.phases

/-- The dispatcher goes on to a phase, or returns. -/
def Enters (index : ℕ) (s' : Engine) : Prop :=
  s'.dispatcher = .returned ∨ s'.dispatcher = .starting index

/-- What a step does to the dispatcher and to its counters. -/
inductive Move (run : OpenLoopRun) (s s' : Engine) : Option Event → Prop
  | stays (kept : Kept s s') (dispatcher : s'.dispatcher = s.dispatcher) : Move run s s' none
  | verified (now : s.now ≤ s'.now) (total : s'.totalAttempted = s.totalAttempted)
      (phases : s'.phases = s.phases) (lastOkAt : s'.lastOkAt = s'.now)
      (dispatcher : s'.dispatcher = s.dispatcher) : Move run s s' (some (.verified s'.now))
  | proved (now : s.now ≤ s'.now) (total : s'.totalAttempted = s.totalAttempted)
      (phases : s'.phases = s.phases) (lastOkAt : s'.lastOkAt = s'.now)
      (before : s.dispatcher = .proving) (enters : Enters 0 s') :
      Move run s s' (some (.verified s'.now))
  | begins {index : ℕ} {phase : PhaseSpec} {phaseEnd nextSend wakeAt : ℚ} (kept : Kept s s')
      (before : s.dispatcher = .starting index) (place : run.phases[index]? = some phase)
      (dispatcher : s'.dispatcher = .looping
        { index := index, phase := phase, phaseEnd := phaseEnd, nextSend := nextSend } wakeAt) :
      Move run s s' none
  | rejects {p : Option PhaseRun} (kept : Kept s s') (dispatcher : s'.dispatcher = .rejected p)
      (mine : ∀ q, p = some q → s.dispatcher.live? = some q) : Move run s s' none
  | iterates {p : PhaseRun} {wakeAt : ℚ} {out : Option Event}
      (before : s.dispatcher = .looping p wakeAt) (iterated : Iterated run s p (s', out)) :
      Move run s s' out
  | counts {p : PhaseRun} {cursor : ℕ} {result : RequestResult} (kept : Kept s s')
      (before : s.dispatcher.live? = some p) (awaited : cursor ∈ p.pending)
      (dispatcher : s'.dispatcher.live? = some (p.count cursor result)) : Move run s s' none
  | records {p : PhaseRun} (now : s.now ≤ s'.now) (total : s'.totalAttempted = s.totalAttempted)
      (lastOkAt : s'.lastOkAt = s.lastOkAt) (phases : s'.phases = s.phases ++ [p.stats])
      (before : s.dispatcher = .draining p) (empty : p.pending = [])
      (enters : Enters (p.index + 1) s') : Move run s s' none

section Moves

variable {run} {s : Engine}

theorem Kept.refl (s : Engine) : Kept s s := ⟨le_rfl, rfl, rfl, rfl⟩

theorem Move.same : Move run s s none := .stays (.refl s) rfl

theorem enterPhase_enters (s : Engine) (index : ℕ) : Enters index (s.enterPhase run index) := by
  unfold enterPhase
  split_ifs
  · exact .inl rfl
  · exact .inr rfl
  · exact .inl rfl

theorem enterPhase_kept (s : Engine) (index : ℕ) : Kept s (s.enterPhase run index) := by
  unfold enterPhase
  split_ifs <;> exact ⟨le_rfl, rfl, rfl, rfl⟩

theorem measure_kept (phaseName : String) (result : RequestResult) :
    Kept s (s.measure run phaseName result) := by
  unfold measure
  split
  · dsimp only
    split <;> exact ⟨le_rfl, rfl, rfl, rfl⟩
  · exact .refl s

/-- **What a step does.** -/
theorem step_move (run : OpenLoopRun) (s : Engine) (input : Input) :
    Move run s (s.step run input).1 (s.step run input).2 := by
  cases input with
  | proved clock =>
    simp only [step]
    split
    · next guard hguard hproving =>
      set s₁ : Engine := { s with
        now := s.now + clock
        lastOkAt := s.now + clock
        watcher := .sleeping (s.now + clock + guard.guardIntervalMs) } with hs₁
      obtain ⟨hnow, htotal, hok, hphases⟩ := @enterPhase_kept run s₁ 0
      have hlater : s.now ≤ (s₁.enterPhase run 0).now :=
        (le_add_of_nonneg_right clock.2).trans hnow
      have hsame : (s₁.enterPhase run 0).now = s.now + clock := by
        unfold enterPhase
        split_ifs <;> rfl
      rw [← hsame]
      exact .proved hlater htotal hphases (hok.trans hsame.symm) hproving (enterPhase_enters s₁ 0)
    · exact .same
  | unproved =>
    simp only [step]
    split
    · exact .rejects ⟨le_rfl, rfl, rfl, rfl⟩ rfl nofun
    · exact .same
  | phaseStarted clock setup =>
    simp only [step]
    split
    · next index hstarting =>
      split
      · next phase hphase =>
        refine .begins ⟨?_, rfl, rfl, rfl⟩ hstarting hphase rfl
        exact (le_add_of_nonneg_right clock.2).trans (le_add_of_nonneg_right setup.2)
      · exact .same
    · exact .same
  | hookThrows =>
    simp only [step]
    split
    · exact .rejects ⟨le_rfl, rfl, rfl, rfl⟩ rfl nofun
    · exact .same
  | iterate r =>
    simp only [step]
    split
    · next p wakeAt hlooping => exact .iterates hlooping (iterate_spec run s p wakeAt r)
    · exact .same
  | result cursor result =>
    simp only [step]
    split
    · next p wakeAt hlooping =>
      obtain ⟨hnow, htotal, hok, hphases⟩ := @measure_kept run s p.phase.name result
      split_ifs with hmem
      · refine .counts ⟨hnow, htotal, hok, hphases⟩ ?_ hmem rfl
        rw [hlooping]
        rfl
      · exact .same
    · next p hdraining =>
      obtain ⟨hnow, htotal, hok, hphases⟩ := @measure_kept run s p.phase.name result
      split_ifs with hmem
      · refine .counts ⟨hnow, htotal, hok, hphases⟩ ?_ hmem rfl
        rw [hdraining]
        rfl
      · exact .same
    · exact .same
  | resultRejected cursor =>
    simp only [step]
    split
    · next p wakeAt hlooping =>
      split_ifs
      · refine .rejects ⟨le_rfl, rfl, rfl, rfl⟩ rfl fun q hq => ?_
        rw [hlooping, ← hq]
        rfl
      · exact .same
    · next p hdraining =>
      split_ifs
      · refine .rejects ⟨le_rfl, rfl, rfl, rfl⟩ rfl fun q hq => ?_
        rw [hdraining, ← hq]
        rfl
      · exact .same
    · exact .same
  | drained =>
    simp only [step]
    split
    · next p hdraining =>
      split_ifs with hempty
      · set s₁ : Engine := { s with phases := s.phases ++ [p.stats] } with hs₁
        obtain ⟨hnow, htotal, hok, hphases⟩ := @enterPhase_kept run s₁ (p.index + 1)
        exact .records hnow htotal hok hphases hdraining hempty (enterPhase_enters s₁ _)
      · exact .same
    · exact .same
  | watcherWakes late =>
    simp only [step]
    split
    · exact .stays ⟨le_rfl, rfl, rfl, rfl⟩ rfl
    · exact .stays ⟨le_rfl, rfl, rfl, rfl⟩ rfl
    · exact .stays ⟨(le_max_left _ _).trans (le_add_of_nonneg_right late.2), rfl, rfl, rfl⟩ rfl
    · exact .same
  | verified clock =>
    simp only [step]
    split
    · exact .verified (le_add_of_nonneg_right clock.2) rfl rfl rfl rfl
    · exact .same
  | unverified error =>
    simp only [step]
    split
    · exact .stays ⟨le_rfl, rfl, rfl, rfl⟩ rfl
    · exact .same
  | hardStop => exact .stays ⟨le_rfl, rfl, rfl, rfl⟩ rfl

end Moves

end Engine

end Limitmark.Load
