import Limitmark.Defense.Vocabulary
import Limitmark.Foundations.Run

/-!
# The layer composer

`LayerComposer` of `defense/core/composer.ts`: one layer under a deadline and a bulkhead. A call
enters the bulkhead or is shed; the evaluation is raced against the deadline, and what wins becomes
exactly one outcome. A verdict that arrives after its deadline is discarded. An evaluation that was
abandoned while it ran keeps its place in the bulkhead until it settles or is reclaimed.

The deadline is on the verdict, so a call comes with the time it took.
-/

namespace Limitmark.Plane

open Limitmark.Defense Limitmark.Foundations

structure ComposerOptions where
  timeoutMs : ℚ
  maxConcurrent : ℕ
  deriving DecidableEq, Repr

structure ComposerErrors where
  throw : ℕ := 0
  timeout : ℕ := 0
  invalidVerdict : ℕ := 0
  deriving DecidableEq, Repr

structure ComposerStats where
  evaluated : ℕ := 0
  pass : ℕ := 0
  reject : ℕ := 0
  shed : ℕ := 0
  error : ComposerErrors := {}
  inFlightHighWater : ℕ := 0
  abandoned : ℕ := 0
  abandonedReclaimed : ℕ := 0
  lateVerdictsDiscarded : ℕ := 0
  deriving DecidableEq, Repr

structure LayerComposer where
  options : ComposerOptions
  inFlight : ℕ := 0
  abandonedLive : ℕ := 0
  counters : ComposerStats := {}
  deriving DecidableEq, Repr

/-- What wins the race of an evaluation against its deadline. The deadline can win while the
evaluation is still running; a value that is no verdict is `none`. -/
inductive Winner
  | deadline (settled : Bool)
  | error
  | verdict (verdict : Option LayerVerdict) (elapsed : ℚ)
  deriving DecidableEq, Repr

namespace LayerComposer

/-- `new LayerComposer(layer, options)`. -/
def create (timeoutMs maxConcurrent : ℚ) : Except String LayerComposer :=
  match positiveInteger? timeoutMs, positiveInteger? maxConcurrent with
  | none, _ => .error "timeoutMs must be a positive integer"
  | _, none => .error "maxConcurrent must be a positive integer"
  | some timeout, some concurrent =>
    .ok { options := { timeoutMs := timeout, maxConcurrent := concurrent } }

/-- The evaluations that count against the bulkhead. -/
def occupancy (c : LayerComposer) : ℕ := c.inFlight + c.abandonedLive

/-- The first half of `run`: a place in the bulkhead, or a shed. -/
def enter (c : LayerComposer) : LayerComposer × Bool :=
  let counters := { c.counters with evaluated := c.counters.evaluated + 1 }
  if c.options.maxConcurrent ≤ c.occupancy then
    ({ c with counters := { counters with shed := counters.shed + 1 } }, false)
  else
    ({ c with
        inFlight := c.inFlight + 1
        counters := { counters with
          inFlightHighWater := max counters.inFlightHighWater (c.inFlight + 1) } }, true)

/-- The outcome of a race. -/
def outcomeOf (timeoutMs : ℚ) : Winner → LayerOutcome
  | .deadline _ => .error .timeout
  | .error => .error .throw
  | .verdict none _ => .error .invalidVerdict
  | .verdict (some verdict) elapsed =>
    if timeoutMs < elapsed then .error .timeout
    else
      match verdict with
      | .pass => .pass
      | .reject reason => .reject reason

/-- Counts an outcome. -/
def countOutcome (outcome : LayerOutcome) (counters : ComposerStats) : ComposerStats :=
  match outcome with
  | .pass => { counters with pass := counters.pass + 1 }
  | .reject _ => { counters with reject := counters.reject + 1 }
  | .shed => counters
  | .error .throw =>
    { counters with error := { counters.error with throw := counters.error.throw + 1 } }
  | .error .timeout =>
    { counters with error := { counters.error with timeout := counters.error.timeout + 1 } }
  | .error .invalidVerdict =>
    { counters with
      error := { counters.error with invalidVerdict := counters.error.invalidVerdict + 1 } }

/-- A verdict was there, and was not used. -/
def discards (timeoutMs : ℚ) : Winner → Bool
  | .verdict (some _) elapsed => timeoutMs < elapsed
  | _ => false

/-- The second half of `run`: the outcome, counted, and the place in the bulkhead given back unless
the evaluation was abandoned while it ran. -/
def leave (winner : Winner) (c : LayerComposer) : LayerComposer × LayerOutcome :=
  let outcome := outcomeOf c.options.timeoutMs winner
  let late := if discards c.options.timeoutMs winner then 1 else 0
  let abandoned := if winner = .deadline false then 1 else 0
  ({ c with
      inFlight := c.inFlight - 1
      abandonedLive := c.abandonedLive + abandoned
      counters := countOutcome outcome { c.counters with
        lateVerdictsDiscarded := c.counters.lateVerdictsDiscarded + late
        abandoned := c.counters.abandoned + abandoned } }, outcome)

/-- An abandoned evaluation settled. -/
def settle (c : LayerComposer) : LayerComposer := { c with abandonedLive := c.abandonedLive - 1 }

/-- An abandoned evaluation stopped counting before it settled. -/
def reclaim (c : LayerComposer) : LayerComposer :=
  { c with
    abandonedLive := c.abandonedLive - 1
    counters := { c.counters with abandonedReclaimed := c.counters.abandonedReclaimed + 1 } }

/-! ## What the halves do -/

variable (c : LayerComposer)

@[simp] theorem options_enter : c.enter.1.options = c.options := by
  unfold enter
  split <;> rfl

@[simp] theorem options_leave (winner : Winner) : (c.leave winner).1.options = c.options := rfl

@[simp] theorem leave_snd (winner : Winner) :
    (c.leave winner).2 = outcomeOf c.options.timeoutMs winner := rfl

end LayerComposer

end Limitmark.Plane
