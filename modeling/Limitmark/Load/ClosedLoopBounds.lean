import Mathlib.Algebra.BigOperators.Group.List.Basic
import Mathlib.Algebra.Order.Floor.Ring
import Mathlib.Data.List.Dedup
import Mathlib.Tactic.Linarith
import Limitmark.Load.ClosedLoop

/-!
# The bounds of the closed loop

Whatever the workers, their timers, the results and the stops do: the requests in flight are those of
the workers that await a result, the counters agree (`Books`), and the starts of any time are bounded
by the slots of it and one late worker each (`Slots`).
-/

namespace Limitmark.Load

open Limitmark.Foundations

/-! ## Sums of counters -/

/-- A counter that is set moves the sum by what it changes. -/
theorem sum_map_update {α : Type} [DecidableEq α] {l : List α} (hnodup : l.Nodup) {a : α}
    (ha : a ∈ l) (f : α → ℕ) (n : ℕ) :
    (l.map (Function.update f a n)).sum + f a = (l.map f).sum + n := by
  induction l with
  | nil => cases ha
  | cons first l ih =>
    obtain ⟨hfirst, hnodup⟩ := List.nodup_cons.1 hnodup
    rw [List.map_cons, List.map_cons, List.sum_cons, List.sum_cons]
    by_cases heq : a = first
    · subst heq
      have hrest : l.map (Function.update f a n) = l.map f :=
        List.map_congr_left fun b hb => Function.update_of_ne (ne_of_mem_of_not_mem hb hfirst) n f
      rw [hrest, Function.update_self]
      omega
    · have := ih hnodup ((List.mem_cons.1 ha).resolve_left heq)
      rw [Function.update_of_ne (Ne.symm heq)]
      omega

theorem map_update_of_notMem {α : Type} [DecidableEq α] {l : List α} {a : α} (ha : a ∉ l)
    (f : α → ℕ) (n : ℕ) : l.map (Function.update f a n) = l.map f :=
  List.map_congr_left fun _ hb => Function.update_of_ne (ne_of_mem_of_not_mem hb ha) n f

namespace ClosedLoop

/-! ## The books -/

def isSending : Worker → Bool
  | .sending _ => true
  | _ => false

/-- The sum of the outcome counts. -/
def settled (s : ClosedLoop) : ℕ := (Outcome.all.map s.outcomes).sum

/-- The sum of the attempts of the fixtures. -/
def attempts (run : ClosedLoopRun) (s : ClosedLoop) : ℕ :=
  (run.fixtures.dedup.map fun id => (s.perFixture id).attempted).sum

/-- The sum of the counts of the outcomes by which the transport failed. -/
def failures (s : ClosedLoop) : ℕ := (TRANSPORT_FAILURES.map s.outcomes).sum

structure Books (run : ClosedLoopRun) (s : ClosedLoop) : Prop where
  length : s.workers.length = run.concurrency
  inFlight : s.inFlight = s.workers.countP isSending
  settled : s.attempted = s.inFlight + s.settled
  attempts : s.attempted = s.attempts run
  /-- Every request in flight is among the attempts of its fixture. -/
  mine : ∀ id, s.workers.countP (· = .sending id) ≤ (s.perFixture id).attempted
  known : ∀ id, .sending id ∈ s.workers → id ∈ run.fixtures
  failures : s.transportFailures = s.failures
  ceiling : s.attempted ≤ run.maxTotalRequests
  stop : s.stop.kind ≠ .inFlightExceeded

namespace Books

variable {run : ClosedLoopRun} {s s' : ClosedLoop} {i : ℕ}

theorem inFlight_le (h : Books run s) : s.inFlight ≤ run.concurrency := by
  rw [h.inFlight, ← h.length]
  exact List.countP_le_length

/-- Books that are about the same counters. -/
theorem congr (h : Books run s) (hworkers : s'.workers = s.workers)
    (hattempted : s'.attempted = s.attempted) (hinFlight : s'.inFlight = s.inFlight)
    (houtcomes : s'.outcomes = s.outcomes) (hperFixture : s'.perFixture = s.perFixture)
    (hfailures : s'.transportFailures = s.transportFailures) (hstop : s'.stop = s.stop) :
    Books run s' where
  length := by rw [hworkers, h.length]
  inFlight := by rw [hworkers, hinFlight, h.inFlight]
  settled := by rw [hattempted, hinFlight, h.settled, ClosedLoop.settled, ClosedLoop.settled, houtcomes]
  attempts := by rw [hattempted, h.attempts, ClosedLoop.attempts, ClosedLoop.attempts, hperFixture]
  mine := by rw [hworkers, hperFixture]; exact h.mine
  known := by rw [hworkers]; exact h.known
  failures := by rw [hfailures, h.failures, ClosedLoop.failures, ClosedLoop.failures, houtcomes]
  ceiling := by rw [hattempted]; exact h.ceiling
  stop := by rw [hstop]; exact h.stop

theorem stopWith (h : Books run s) {kind : ClosedLoopStopKind} {detail : Option String}
    (hkind : kind ≠ .inFlightExceeded) : Books run (s.stopWith kind detail) := by
  unfold ClosedLoop.stopWith
  split
  · exact ⟨h.length, h.inFlight, h.settled, h.attempts, h.mine, h.known, h.failures, h.ceiling, hkind⟩
  · exact h

/-- A worker that awaits no result goes on without a request. -/
theorem moveTo (h : Books run s) {w w' : Worker} (hcell : s.workers[i]? = some w)
    (hw : isSending w = false) (hw' : isSending w' = false) : Books run (s.moveTo i w') where
  length := by rw [ClosedLoop.moveTo, List.length_set, h.length]
  inFlight := by
    have hset := Cells.countP_set isSending hcell w'
    have hinFlight : s.inFlight = s.workers.countP isSending := h.inFlight
    simp only [hw, hw', ClosedLoop.moveTo] at hset ⊢
    omega
  settled := h.settled
  attempts := h.attempts
  mine id := by
    have hset := Cells.countP_set (· = .sending id) hcell w'
    have hmine := h.mine id
    have hne (w : Worker) (hw : isSending w = false) : decide (w = .sending id) = false := by
      cases w <;> simp_all [isSending]
    simp only [hne w hw, hne w' hw', ClosedLoop.moveTo] at hset ⊢
    omega
  known id hmem := by
    rcases List.mem_or_eq_of_mem_set hmem with hmem | rfl
    · exact h.known id hmem
    · cases hw'
  failures := h.failures
  ceiling := h.ceiling
  stop := h.stop

/-- The attempts of a fixture whose counts are set. -/
theorem attempts_updateFixture {fixture : String} (hfixture : fixture ∈ run.fixtures)
    (f : FixtureCounts → FixtureCounts) :
    (s.updateFixture fixture f).attempts run + (s.perFixture fixture).attempted =
      s.attempts run + (f (s.perFixture fixture)).attempted := by
  have hcounts : (fun id => ((s.updateFixture fixture f).perFixture id).attempted) =
      Function.update (fun id => (s.perFixture id).attempted) fixture
        (f (s.perFixture fixture)).attempted :=
    funext fun id => Function.apply_update (fun _ => FixtureCounts.attempted) _ _ _ _
  rw [ClosedLoop.attempts, hcounts]
  exact sum_map_update (List.nodup_dedup _) (List.mem_dedup.2 hfixture) _ _

/-- The requests of one fixture in flight, when a worker goes from one cell to another. -/
theorem countP_fixture {w : Worker} (hcell : s.workers[i]? = some w) (w' : Worker) (id : String) :
    (s.workers.set i w').countP (· = .sending id) + (if w = .sending id then 1 else 0) =
      s.workers.countP (· = .sending id) + if w' = .sending id then 1 else 0 := by
  simpa using Cells.countP_set (fun w => decide (w = .sending id)) hcell w'

/-- A request starts, while there is room. -/
theorem attempt (h : Books run s) {w : Worker} (hcell : s.workers[i]? = some w)
    (hw : isSending w = false) (hroom : s.attempted < run.maxTotalRequests) {fixture : String}
    (hfixture : fixture ∈ run.fixtures) :
    Books run ((s.attempt fixture).moveTo i (.sending fixture)) ∧ s.inFlight < run.concurrency := by
  have hset := Cells.countP_set isSending hcell (.sending fixture)
  have hinFlight := h.inFlight
  have hlength : (s.workers.set i (.sending fixture)).countP isSending ≤ run.concurrency := by
    rw [← h.length, ← List.length_set]
    exact List.countP_le_length
  simp only [hw] at hset
  have hone : isSending (.sending fixture) = true := rfl
  simp only [hone, if_true, Bool.false_eq_true, if_false] at hset
  refine ⟨?_, by omega⟩
  exact {
    length := by rw [ClosedLoop.moveTo, List.length_set]; exact h.length
    inFlight := by
      change s.inFlight + 1 = (s.workers.set i (.sending fixture)).countP isSending
      omega
    settled := by
      have hsettled := h.settled
      change s.attempted + 1 = s.inFlight + 1 + s.settled
      omega
    attempts := by
      have hattempts := h.attempts
      have hsum := attempts_updateFixture (s := s) hfixture
        fun counts => { counts with attempted := counts.attempted + 1 }
      change s.attempted + 1 = (s.updateFixture fixture
        fun counts => { counts with attempted := counts.attempted + 1 }).attempts run
      dsimp only at hsum
      omega
    mine := fun id => by
      have hmine := h.mine id
      have hcount := countP_fixture hcell (.sending fixture) id
      have hne : w ≠ .sending id := by
        rintro rfl
        cases hw
      rw [if_neg hne] at hcount
      change (s.workers.set i (.sending fixture)).countP (· = .sending id) ≤
        (Function.update s.perFixture fixture _ id).attempted
      by_cases hid : id = fixture
      · subst hid
        rw [if_pos rfl] at hcount
        rw [Function.update_self]
        dsimp only
        omega
      · have hother : Worker.sending fixture ≠ .sending id := fun heq =>
          hid (Worker.sending.inj heq).symm
        rw [if_neg hother] at hcount
        rw [Function.update_of_ne hid]
        omega
    known := fun id hmem => by
      rcases List.mem_or_eq_of_mem_set hmem with hmem | heq
      · exact h.known id hmem
      · cases heq
        exact hfixture
    failures := h.failures
    ceiling := hroom
    stop := h.stop }

theorem nodup_all : Outcome.all.Nodup := by decide

theorem nodup_failures : TRANSPORT_FAILURES.Nodup := by decide

theorem inFlight_pos (h : Books run s) {fixture : String}
    (hcell : s.workers[i]? = some (.sending fixture)) : 0 < s.inFlight := by
  rw [h.inFlight]
  exact Cells.countP_pos isSending hcell rfl

/-- A worker that awaits a result has one and goes on. -/
theorem counted (h : Books run s) {fixture : String} {outcome : Outcome}
    (hcell : s.workers[i]? = some (.sending fixture)) (w' : Worker) (hw' : isSending w' = false)
    (hworkers : s'.workers = s.workers.set i w') (hattempted : s'.attempted = s.attempted)
    (hinFlight : s'.inFlight = s.inFlight - 1)
    (houtcomes : s'.outcomes = Function.update s.outcomes outcome (s.outcomes outcome + 1))
    (hperFixture : ∀ id, (s'.perFixture id).attempted = (s.perFixture id).attempted)
    (hfailures : s'.transportFailures =
      s.transportFailures + if outcome ∈ TRANSPORT_FAILURES then 1 else 0)
    (hstop : s'.stop = s.stop) : Books run s' where
  length := by rw [hworkers, List.length_set, h.length]
  inFlight := by
    have hset := Cells.countP_set isSending hcell w'
    have hone : isSending (.sending fixture) = true := rfl
    have hall := h.inFlight
    simp only [hw', hone, if_true, Bool.false_eq_true, if_false] at hset
    rw [hinFlight, hworkers]
    omega
  settled := by
    have hsettled := h.settled
    have hpos := h.inFlight_pos hcell
    have hmem : outcome ∈ Outcome.all := by cases outcome <;> decide
    have hsum := sum_map_update nodup_all hmem s.outcomes (s.outcomes outcome + 1)
    have hmine : s.settled = (Outcome.all.map s.outcomes).sum := rfl
    rw [hattempted, hinFlight, ClosedLoop.settled, houtcomes]
    omega
  attempts := by
    have hattempts : s.attempted = s.attempts run := h.attempts
    rw [hattempted, hattempts, ClosedLoop.attempts, ClosedLoop.attempts]
    simp only [hperFixture]
  mine id := by
    have hcount := countP_fixture hcell w' id
    have hmine := h.mine id
    have hne : w' ≠ .sending id := by
      rintro rfl
      cases hw'
    rw [if_neg hne] at hcount
    rw [hworkers, hperFixture]
    omega
  known id hmem := by
    rw [hworkers] at hmem
    rcases List.mem_or_eq_of_mem_set hmem with hmem | rfl
    · exact h.known id hmem
    · cases hw'
  failures := by
    have hold : s.transportFailures = (TRANSPORT_FAILURES.map s.outcomes).sum := h.failures
    rw [hfailures, ClosedLoop.failures, houtcomes]
    by_cases hmem : outcome ∈ TRANSPORT_FAILURES
    · have hsum := sum_map_update nodup_failures hmem s.outcomes (s.outcomes outcome + 1)
      rw [if_pos hmem]
      omega
    · rw [if_neg hmem, map_update_of_notMem hmem, hold, Nat.add_zero]
  ceiling := by rw [hattempted]; exact h.ceiling
  stop := by rw [hstop]; exact h.stop

/-- A refused request is taken back. -/
theorem refused (h : Books run s) {fixture name : String}
    (hcell : s.workers[i]? = some (.sending fixture)) :
    Books run (s.refused i fixture name) := by
  have hset := Cells.countP_set isSending hcell .returned
  have hone : isSending (.sending fixture) = true := rfl
  have hzero : isSending .returned = false := rfl
  have hpos := h.inFlight_pos hcell
  have hall := h.inFlight
  have hsettled := h.settled
  have hmem : fixture ∈ run.fixtures := h.known fixture (List.mem_of_getElem? hcell)
  have hmine := h.mine fixture
  have hcells : 0 < s.workers.countP (· = .sending fixture) :=
    Cells.countP_pos (fun w => decide (w = .sending fixture)) hcell (by simp)
  simp only [hzero, hone, if_true, Bool.false_eq_true, if_false] at hset
  have hbooks : Books run ((s.refuse fixture).moveTo i .returned) := {
    length := by rw [ClosedLoop.moveTo, List.length_set]; exact h.length
    inFlight := by
      change s.inFlight - 1 = (s.workers.set i .returned).countP isSending
      omega
    settled := by
      change s.attempted - 1 = s.inFlight - 1 + s.settled
      omega
    attempts := by
      have hattempts := h.attempts
      have hsum := attempts_updateFixture (s := s) hmem
        fun counts => { counts with attempted := counts.attempted - 1 }
      change s.attempted - 1 = (s.updateFixture fixture
        fun counts => { counts with attempted := counts.attempted - 1 }).attempts run
      dsimp only at hsum
      omega
    mine := fun id => by
      have hmine := h.mine id
      have hcount := countP_fixture hcell .returned id
      rw [if_neg (by simp : Worker.returned ≠ .sending id)] at hcount
      change (s.workers.set i .returned).countP (· = .sending id) ≤
        (Function.update s.perFixture fixture _ id).attempted
      by_cases hid : id = fixture
      · subst hid
        rw [if_pos rfl] at hcount
        rw [Function.update_self]
        dsimp only
        omega
      · rw [Function.update_of_ne hid]
        omega
    known := fun id hmem => by
      rcases List.mem_or_eq_of_mem_set hmem with hmem | heq
      · exact h.known id hmem
      · cases heq
    failures := h.failures
    ceiling := by
      have hceiling := h.ceiling
      change s.attempted - 1 ≤ run.maxTotalRequests
      omega
    stop := h.stop }
  have hswap : s.refused i fixture name =
      ((s.refuse fixture).moveTo i .returned).stopWith .authorizationExpired (some name) := by
    unfold ClosedLoop.refused ClosedLoop.stopWith
    split <;> rename_i hkind
    · exact (if_pos hkind).symm
    · exact (if_neg hkind).symm
  rw [hswap]
  exact hbooks.stopWith (by simp)

/-! ### Turns -/

/-- A worker returns, perhaps with a stop. -/
theorem leave (h : Books run s) {w : Worker} (hcell : s.workers[i]? = some w)
    (hw : isSending w = false) {kind : ClosedLoopStopKind} {detail : Option String}
    (hkind : kind ≠ .inFlightExceeded) :
    Books run ((s.stopWith kind detail).moveTo i .returned) :=
  (h.stopWith hkind).moveTo (by rwa [stopWith_workers]) hw rfl

theorem dispatch (h : Books run s) {w : Worker} (hcell : s.workers[i]? = some w)
    (hw : isSending w = false) (slot : ℚ) (r : Readings) :
    Books run (s.dispatch run i slot r).1 := by
  have hnow (now : ℚ) : Books run { s with now } := h.congr rfl rfl rfl rfl rfl rfl rfl
  have hread := hnow (s.now + r.phase + r.deadline)
  unfold ClosedLoop.dispatch
  dsimp only
  split_ifs with hend hlate hfull hauthorized
  · exact (hnow (s.now + r.phase)).moveTo hcell hw rfl
  · exact hread.leave hcell hw (by decide)
  · exact hread.leave hcell hw (by decide)
  · have hfixture : run.fixtureAt s.cursor ∈ run.fixtures := List.get_mem _ _
    obtain ⟨hbooks, hroom⟩ := (hnow (s.now + r.phase + r.deadline + r.lag)).attempt hcell hw
      (not_le.1 hfull) hfixture
    unfold ClosedLoop.send
    dsimp only
    rw [if_neg (not_lt.2 hroom)]
    exact hbooks
  · exact hread.leave hcell hw (by decide)

theorem turn (h : Books run s) {w : Worker} (hcell : s.workers[i]? = some w)
    (hw : isSending w = false) (r : Readings) : Books run (s.turn run i r).1 := by
  have hnow : Books run { s with now := s.now + r.top } := h.congr rfl rfl rfl rfl rfl rfl rfl
  have htaken : Books run { s with
      now := s.now + r.top
      nextSlot := max (s.now + r.top) s.nextSlot + run.intervalMs } :=
    h.congr rfl rfl rfl rfl rfl rfl rfl
  have hpaced : Books run { s with
      now := s.now + r.top
      nextSlot := max (s.now + r.top) s.nextSlot + run.intervalMs
      paced := s.paced + 1 } := h.congr rfl rfl rfl rfl rfl rfl rfl
  unfold ClosedLoop.turn
  dsimp only
  split_ifs
  · exact h.moveTo hcell hw rfl
  · exact hnow.moveTo hcell hw rfl
  · exact hnow.leave hcell hw (by decide)
  · exact hpaced.moveTo hcell hw rfl
  · exact htaken.dispatch hcell hw _ _

theorem settle (h : Books run s) {fixture : String} (hcell : s.workers[i]? = some (.sending fixture))
    (result : ClosedLoopSend) (r : Readings) : Books run (s.settle run i fixture result r).1 := by
  have hlt : i < s.workers.length := (List.getElem?_eq_some_iff.1 hcell).1
  have hattempted : (s.count fixture result).attempted = s.attempted := by
    unfold ClosedLoop.count; split <;> rfl
  have hinFlight : (s.count fixture result).inFlight = s.inFlight - 1 := by
    unfold ClosedLoop.count; split <;> rfl
  have houtcomes : (s.count fixture result).outcomes =
      Function.update s.outcomes result.outcome (s.outcomes result.outcome + 1) := by
    unfold ClosedLoop.count; split <;> rfl
  have hfailures : (s.count fixture result).transportFailures = s.transportFailures := by
    unfold ClosedLoop.count; split <;> rfl
  have hkept (s' : ClosedLoop) (f : FixtureCounts → FixtureCounts)
      (hf : ∀ counts, (f counts).attempted = counts.attempted) (id : String) :
      ((s'.updateFixture fixture f).perFixture id).attempted = (s'.perFixture id).attempted := by
    by_cases hid : id = fixture
    · subst hid
      simp [updateFixture, hf]
    · simp [updateFixture, hid]
  have hperFixture (id : String) :
      ((s.count fixture result).perFixture id).attempted = (s.perFixture id).attempted := by
    unfold ClosedLoop.count
    split
    · rfl
    · exact hkept _ (fun counts => { counts with responses := counts.responses + 1 })
        (fun _ => rfl) id
  have hready : (s.workers.set i .ready)[i]? = some .ready := by
    rw [List.getElem?_set_self hlt]
  unfold ClosedLoop.settle
  dsimp only
  by_cases htransport : result.outcome ∈ TRANSPORT_FAILURES
  · rw [if_pos htransport]
    have hbooks : Books run (((s.count fixture result).moveTo i .ready).countFailure fixture) := by
      refine h.counted hcell .ready rfl ?_ hattempted hinFlight houtcomes (fun id => ?_) ?_ (count_stop _ _)
      · exact congrArg (List.set · i .ready) (count_workers _ _)
      · exact (hkept (s.count fixture result) (fun counts => { counts with
          transportFailures := counts.transportFailures + 1 }) (fun _ => rfl) id).trans
          (hperFixture id)
      · rw [if_pos htransport, ← hfailures]
        rfl
    have hcell' : (((s.count fixture result).moveTo i .ready).countFailure fixture).workers[i]? =
        some .ready := by
      change ((s.count fixture result).workers.set i .ready)[i]? = some .ready
      rw [count_workers, hready]
    split_ifs
    · exact hbooks.moveTo hcell' rfl rfl
    · exact hbooks.leave hcell' rfl (by decide)
    · exact hbooks.turn hcell' rfl r
  · rw [if_neg htransport]
    have hbooks : Books run ((s.count fixture result).moveTo i .ready) := by
      refine h.counted hcell .ready rfl ?_ hattempted hinFlight houtcomes hperFixture ?_ (count_stop _ _)
      · exact congrArg (List.set · i .ready) (count_workers _ _)
      · rw [if_neg htransport, Nat.add_zero]
        exact hfailures
    have hcell' : ((s.count fixture result).moveTo i .ready).workers[i]? = some .ready := by
      change ((s.count fixture result).workers.set i .ready)[i]? = some .ready
      rw [count_workers, hready]
    exact hbooks.turn hcell' rfl r

theorem step (h : Books run s) (input : Input) : Books run (s.step run input).1 := by
  cases input with
  | start i r =>
    rw [ClosedLoop.step]
    split
    · next hcell => exact h.turn hcell rfl r
    · exact h
  | wake i r =>
    simp only [ClosedLoop.step]
    split
    · next slot hcell =>
      have hnow : Books run { s with now := max s.now slot + r.top } :=
        h.congr rfl rfl rfl rfl rfl rfl rfl
      unfold ClosedLoop.wake
      dsimp only
      split
      · exact hnow.moveTo hcell rfl rfl
      · exact hnow.dispatch hcell rfl _ _
    · exact h
  | result i result r =>
    simp only [ClosedLoop.step]
    split
    · next fixture hcell => exact h.settle hcell result r
    · exact h
  | thrown i name =>
    simp only [ClosedLoop.step]
    split
    · next fixture hcell => exact h.refused hcell
    · exact h
  | operatorAbort =>
    have hstop : Books run (s.stopWith .operatorAbort none) := h.stopWith (by decide)
    exact hstop.congr rfl rfl rfl rfl rfl rfl rfl
  | hardStop => exact h.congr rfl rfl rfl rfl rfl rfl rfl

theorem create (run : ClosedLoopRun) (setup : ℚ≥0) : Books run (ClosedLoop.create run setup) where
  length := List.length_replicate ..
  inFlight := by
    have hnone : (List.replicate run.concurrency Worker.ready).countP isSending = 0 := by
      rw [List.countP_replicate]; rfl
    exact hnone.symm
  settled := by simp [ClosedLoop.create, ClosedLoop.settled, Outcome.all]
  attempts := by simp [ClosedLoop.create, ClosedLoop.attempts]
  mine id := by simp [ClosedLoop.create, List.countP_replicate]
  known id hmem := by simp [ClosedLoop.create, List.mem_replicate] at hmem
  failures := by simp [ClosedLoop.create, ClosedLoop.failures, TRANSPORT_FAILURES]
  ceiling := Nat.zero_le _
  stop := nofun

end Books

/-! ## The slots -/

abbrev Run := List (Entry ClosedLoop Input (Option Start))

/-- What starts in a run. -/
def starts (tr : Run) : List Start := tr.filterMap (·.out)

/-- A start at `a` or later whose slot was before. -/
def IsLate (a : ℚ) (start : Start) : Prop := start.slot < a ∧ a ≤ start.startedAt

instance (a : ℚ) (start : Start) : Decidable (IsLate a start) :=
  inferInstanceAs (Decidable (_ ∧ _))

/-- A slot of the time from `a` to `b`. -/
def InSlot (a b slot : ℚ) : Prop := a ≤ slot ∧ slot ≤ b

instance (a b slot : ℚ) : Decidable (InSlot a b slot) := inferInstanceAs (Decidable (_ ∧ _))

/-- The workers that sleep for a slot with the property. -/
def sleepers (p : ℚ → Bool) (s : ClosedLoop) : ℕ := s.workers.countP fun w => w.slot?.any p

/-- So many slots of the time from `a` on for a time `t` were taken, each an interval after the one
before. -/
def Apart (run : ClosedLoopRun) (a t : ℚ) (taken : ℕ) (nextSlot : ℚ) : Prop :=
  ∃ k : ℕ, taken ≤ k ∧ (k : ℚ) ≤ t / run.intervalMs + 1 ∧
    (k = 0 ∨ a + k * run.intervalMs ≤ nextSlot)

namespace Apart

variable {run : ClosedLoopRun} {a t nextSlot slot : ℚ} {taken : ℕ}

theorem zero (ht : 0 ≤ t) : Apart run a t 0 nextSlot := by
  have hnonneg : 0 ≤ t / run.intervalMs := div_nonneg ht run.intervalMs_pos.le
  exact ⟨0, le_rfl, by push_cast; linarith, .inl rfl⟩

theorem mono (h : Apart run a t taken nextSlot) {taken' : ℕ} (htaken : taken' ≤ taken)
    (hnext : nextSlot ≤ slot) : Apart run a t taken' slot := by
  obtain ⟨k, hk, hbound, hlast⟩ := h
  exact ⟨k, htaken.trans hk, hbound, hlast.imp_right (·.trans hnext)⟩

/-- The next slot is taken. -/
theorem take (h : Apart run a t taken nextSlot) (hslot : nextSlot ≤ slot) {taken' : ℕ}
    (htaken : taken' ≤ taken + if InSlot a (a + t) slot then 1 else 0) :
    Apart run a t taken' (slot + run.intervalMs) := by
  have hpos := run.intervalMs_pos
  by_cases hin : InSlot a (a + t) slot
  · rw [if_pos hin] at htaken
    obtain ⟨k, hk, hbound, hlast⟩ := h
    have hreached : a + k * run.intervalMs ≤ slot := by
      rcases hlast with rfl | hlast
      · simpa using hin.1
      · exact hlast.trans hslot
    refine ⟨k + 1, by omega, ?_, .inr ?_⟩
    · have hmul : (k : ℚ) ≤ t / run.intervalMs := by
        rw [le_div_iff₀ hpos]
        linarith [hin.2]
      push_cast
      linarith
    · push_cast
      linarith
  · rw [if_neg hin] at htaken
    exact h.mono htaken (hslot.trans (le_add_of_nonneg_right hpos.le))

theorem le_floor (h : Apart run a t taken nextSlot) : taken ≤ ⌊t / run.intervalMs⌋₊ + 1 := by
  obtain ⟨k, hk, hbound, -⟩ := h
  cases k with
  | zero => omega
  | succ k =>
    have hfloor : k ≤ ⌊t / run.intervalMs⌋₊ := Nat.le_floor (by push_cast at hbound; linarith)
    omega

end Apart

/-- The starts of a run up to now, against the slots from `a` on for a time `t`. -/
structure Slots (run : ClosedLoopRun) (a t : ℚ) (tr : Run) (s : ClosedLoop) : Prop where
  length : s.workers.length = run.concurrency
  slots : ∀ start ∈ starts tr, start.slot ≤ start.startedAt
  past : ∀ start ∈ starts tr, start.startedAt ≤ s.now
  /-- Every worker is late once at most. -/
  late : (starts tr).countP (IsLate a ·) + sleepers (· < a) s ≤ run.concurrency
  /-- The slots of the time are apart. -/
  apart : Apart run a t
    ((starts tr).countP (InSlot a (a + t) ·.slot) + sleepers (InSlot a (a + t) ·) s) s.nextSlot

namespace Slots

variable {run : ClosedLoopRun} {a t : ℚ} {tr : Run} {s s' : ClosedLoop}

/-- A worker that goes from one cell to another. -/
theorem sleepers_set {i : ℕ} {w : Worker} (hcell : s.workers[i]? = some w) (w' : Worker)
    (hworkers : s'.workers = s.workers.set i w') (p : ℚ → Bool) :
    sleepers p s' + (if w.slot?.any p then 1 else 0) =
      sleepers p s + if w'.slot?.any p then 1 else 0 := by
  rw [sleepers, hworkers]
  exact Cells.countP_set (fun w => w.slot?.any p) hcell w'

/-- A worker that is set awake. -/
theorem sleepers_le {i : ℕ} {w : Worker} (hawake : w.slot? = none)
    (hworkers : s'.workers = s.workers.set i w) (p : ℚ → Bool) : sleepers p s' ≤ sleepers p s := by
  cases hcell : s.workers[i]? with
  | none =>
    rw [sleepers, hworkers, List.set_eq_of_length_le (List.getElem?_eq_none_iff.1 hcell)]
    exact le_rfl
  | some w₀ =>
    have hset := sleepers_set hcell w hworkers p
    rw [hawake] at hset
    simp only [Option.any_none, Bool.false_eq_true, if_false] at hset
    omega

theorem sleepers_lt {i : ℕ} {w : Worker} (hcell : s.workers[i]? = some w) (hawake : w.slot? = none)
    (p : ℚ → Bool) : sleepers p s < s.workers.length := by
  have hlt : i < s.workers.length := (List.getElem?_eq_some_iff.1 hcell).1
  refine lt_of_le_of_ne List.countP_le_length fun hall => ?_
  have hmem := List.countP_eq_length.1 hall w (List.mem_of_getElem? hcell)
  rw [hawake] at hmem
  cases hmem

/-- Before the time nothing that started is late. -/
theorem late_eq_zero (h : Slots run a t tr s) (hnow : s.now < a) :
    (starts tr).countP (IsLate a ·) = 0 := by
  rw [List.countP_eq_zero]
  intro start hstart hlate
  exact absurd (of_decide_eq_true hlate).2 (not_le.2 ((h.past start hstart).trans_lt hnow))

theorem create (run : ClosedLoopRun) (setup : ℚ≥0) (a : ℚ) {t : ℚ} (ht : 0 ≤ t) :
    Slots run a t [] (ClosedLoop.create run setup) where
  length := List.length_replicate ..
  slots _ hstart := absurd hstart List.not_mem_nil
  past _ hstart := absurd hstart List.not_mem_nil
  late := by
    have hasleep : sleepers (· < a) (ClosedLoop.create run setup) = 0 := by
      simp [sleepers, ClosedLoop.create, List.countP_replicate, Worker.slot?]
    rw [hasleep]
    exact Nat.zero_le _
  apart := by
    have hasleep : sleepers (InSlot a (a + t) ·) (ClosedLoop.create run setup) = 0 := by
      simp [sleepers, ClosedLoop.create, List.countP_replicate, Worker.slot?]
    rw [hasleep]
    exact .zero ht

/-- A step in which no request starts. -/
theorem silent (h : Slots run a t tr s) {e : Entry ClosedLoop Input (Option Start)}
    (hout : e.out = none) (hlength : s'.workers.length = s.workers.length) (hnow : s.now ≤ s'.now)
    (hlate : (starts tr).countP (IsLate a ·) + sleepers (· < a) s' ≤ run.concurrency)
    (hapart : Apart run a t
      ((starts tr).countP (InSlot a (a + t) ·.slot) + sleepers (InSlot a (a + t) ·) s')
      s'.nextSlot) : Slots run a t (tr ++ [e]) s' := by
  have hstarts : starts (tr ++ [e]) = starts tr := by simp [starts, hout]
  exact {
    length := hlength.trans h.length
    slots := by rw [hstarts]; exact h.slots
    past := by rw [hstarts]; exact fun start hstart => (h.past start hstart).trans hnow
    late := by rw [hstarts]; exact hlate
    apart := by rw [hstarts]; exact hapart }

/-- A step in which a request starts. -/
theorem starting (h : Slots run a t tr s) {e : Entry ClosedLoop Input (Option Start)}
    {start : Start} (hout : e.out = some start) (hlength : s'.workers.length = s.workers.length)
    (hslot : start.slot ≤ start.startedAt) (hnow : s.now ≤ start.startedAt)
    (hnow' : s'.now = start.startedAt)
    (hlate : (starts tr).countP (IsLate a ·) + (if IsLate a start then 1 else 0) +
      sleepers (· < a) s' ≤ run.concurrency)
    (hapart : Apart run a t ((starts tr).countP (InSlot a (a + t) ·.slot) +
      (if InSlot a (a + t) start.slot then 1 else 0) + sleepers (InSlot a (a + t) ·) s')
      s'.nextSlot) : Slots run a t (tr ++ [e]) s' := by
  have hstarts : starts (tr ++ [e]) = starts tr ++ [start] := by simp [starts, hout]
  exact {
    length := hlength.trans h.length
    slots := by
      rw [hstarts]
      exact List.forall_mem_append.2 ⟨h.slots, List.forall_mem_singleton.2 hslot⟩
    past := by
      rw [hstarts, hnow']
      exact List.forall_mem_append.2 ⟨fun start hstart => (h.past start hstart).trans hnow,
        List.forall_mem_singleton.2 le_rfl⟩
    late := by
      rw [hstarts, List.countP_append, List.countP_singleton]
      simpa using hlate
    apart := by
      rw [hstarts, List.countP_append, List.countP_singleton]
      simpa using hapart }

/-- **The slots over one step.** -/
theorem step (h : Slots run a t tr s) {e : Entry ClosedLoop Input (Option Start)}
    (hmove : Move run s s' e.out) : Slots run a t (tr ++ [e]) s' := by
  have hall (p : ℚ → Bool) : sleepers p s ≤ run.concurrency := h.length ▸ List.countP_le_length
  have hlate := h.late
  generalize hout : e.out = out at hmove
  cases hmove with
  | quiet hnow hnext hawake hworkers =>
    have hslept := sleepers_le hawake hworkers
    refine h.silent hout (by rw [hworkers, List.length_set]) hnow ?_ ?_
    · have := hslept (· < a)
      omega
    · exact h.apart.mono (Nat.add_le_add_left (hslept _) _) hnext
  | @sleeps i w slot hcell hawake hnow htaken hnext hworkers =>
    have hlength : s'.workers.length = s.workers.length := by rw [hworkers, List.length_set]
    have hset := sleepers_set hcell (.sleeping slot) hworkers
    simp only [hawake, Option.any_none, Bool.false_eq_true, if_false, Nat.add_zero] at hset
    refine h.silent hout hlength hnow ?_ ?_
    · by_cases hslot : slot < a
      · -- the clock has not reached `a`, so nothing was late before
        have hbefore : s.now < a := (hnow.trans (htaken ▸ le_max_left _ _)).trans_lt hslot
        have hall' : sleepers (· < a) s' ≤ run.concurrency :=
          hlength.trans h.length ▸ List.countP_le_length
        rw [h.late_eq_zero hbefore, Nat.zero_add]
        exact hall'
      · have hsame := hset (· < a)
        simp only [Worker.slot?, Option.any_some, hslot, decide_false, Bool.false_eq_true,
          if_false] at hsame
        omega
    · rw [hnext]
      refine h.apart.take (htaken ▸ le_max_right _ _) ?_
      have hsame := hset (InSlot a (a + t) ·)
      simp only [Worker.slot?, Option.any_some, decide_eq_true_eq] at hsame
      omega
  | @starts i w fixture start hcell hawake hnow htaken hslot hnow' hnext hworkers =>
    have hslept := sleepers_le (w := .sending fixture) rfl hworkers
    refine h.starting hout (by rw [hworkers, List.length_set]) hslot (hnow.trans hslot) hnow' ?_ ?_
    · have hless := hslept (· < a)
      split
      · next hlate' =>
        have hroom := sleepers_lt hcell hawake (· < a)
        have hlength := h.length
        rw [h.late_eq_zero (hnow.trans_lt hlate'.1)]
        omega
      · omega
    · rw [hnext]
      refine h.apart.take htaken ?_
      have hless := hslept (InSlot a (a + t) ·)
      omega
  | @wakes i fixture start hcell hslot hnow hnow' hnext hworkers =>
    have hset := sleepers_set hcell (.sending fixture) hworkers
    simp only [Worker.slot?, Option.any_some, Option.any_none, Bool.false_eq_true, if_false,
      Nat.add_zero] at hset
    refine h.starting hout (by rw [hworkers, List.length_set]) hslot hnow hnow' ?_ ?_
    · have hsame := hset (· < a)
      by_cases hlate' : IsLate a start
      · rw [if_pos hlate']
        simp only [hlate'.1, decide_true, if_true] at hsame
        omega
      · rw [if_neg hlate']
        omega
    · rw [hnext]
      refine h.apart.mono ?_ le_rfl
      have hsame := hset (InSlot a (a + t) ·)
      simp only [decide_eq_true_eq] at hsame
      omega

/-- **The slots over a run.** -/
theorem of_run (run : ClosedLoopRun) (setup : ℚ≥0) (a : ℚ) {t : ℚ} (ht : 0 ≤ t)
    (inputs : List Input) :
    Slots run a t (trace (ClosedLoop.step run) (ClosedLoop.create run setup) inputs)
      (exec (ClosedLoop.step run) (ClosedLoop.create run setup) inputs) :=
  run_induction _ (P := fun tr s => Slots run a t tr s) (create run setup a ht)
    (fun _ s input h => h.step (step_move run s input)) inputs

/-- **The starts of a time**: one for each slot of it, and one for each worker that was late. -/
theorem countP_window_le (h : Slots run a t tr s) :
    (starts tr).countP (fun start => a ≤ start.startedAt ∧ start.startedAt ≤ a + t) ≤
      ⌊t / run.intervalMs⌋₊ + run.concurrency + 1 := by
  have hsplit (l : List Start) (hl : ∀ start ∈ l, start.slot ≤ start.startedAt) :
      l.countP (fun start => a ≤ start.startedAt ∧ start.startedAt ≤ a + t) ≤
        l.countP (IsLate a ·) + l.countP (InSlot a (a + t) ·.slot) := by
    induction l with
    | nil => exact le_rfl
    | cons start l ih =>
      obtain ⟨hslot, hl⟩ := List.forall_mem_cons.1 hl
      have := ih hl
      simp only [List.countP_cons, decide_eq_true_eq]
      by_cases hin : a ≤ start.startedAt ∧ start.startedAt ≤ a + t
      · rw [if_pos hin]
        rcases lt_or_ge start.slot a with hlate | hfrom
        · rw [if_pos (show IsLate a start from ⟨hlate, hin.1⟩)]
          omega
        · rw [if_pos (show InSlot a (a + t) start.slot from ⟨hfrom, hslot.trans hin.2⟩)]
          omega
      · rw [if_neg hin]
        omega
  have hlate := h.late
  have hfloor := h.apart.le_floor
  have := hsplit _ h.slots
  omega

end Slots

/-! ## Runs -/

section Runs

variable (run : ClosedLoopRun) (setup : ℚ≥0) (inputs : List Input)

theorem exec_books : Books run (exec (step run) (create run setup) inputs) :=
  exec_invariant _ (Books.create run setup) (fun _ input h => h.step input) inputs

theorem exec_stop {s : ClosedLoop} (h : s.stop.kind ≠ .completed) :
    (exec (step run) s inputs).stop = s.stop :=
  exec_invariant (step run) (I := fun s' => s'.stop = s.stop) rfl
    (fun s' input h' => (step_stop run input (s := s') (by rwa [h'])).trans h') inputs

theorem trace_checked (s : ClosedLoop) {e : Entry ClosedLoop Input (Option Start)}
    (he : e ∈ trace (step run) s inputs) {start : Start} (hout : e.out = some start) :
    e.pre.stopped = false ∧ start.phaseReading < run.phaseEnd ∧
      start.deadlineReading < run.dispatchDeadline := by
  obtain ⟨before, after, hsplit⟩ := List.append_of_mem he
  obtain ⟨_, input, _, _, _, rfl, _⟩ := trace_eq_append_cons _ hsplit
  exact step_checked hout

/-- **The bounds of the closed loop**, in every state that the workers, the timers, the results and
the stops lead to. -/
theorem closed_loop_bounds :
    let s : ClosedLoop := exec (step run) (create run setup) inputs
    let tr := trace (step run) (create run setup) inputs
    (s.inFlight ≤ run.concurrency ∧ s.stop.kind ≠ .inFlightExceeded ∧
      s.attempted ≤ run.maxTotalRequests) ∧
    (∀ e ∈ tr, ∀ start, e.out = some start → e.pre.stopped = false ∧
      start.phaseReading < run.phaseEnd ∧ start.deadlineReading < run.dispatchDeadline) ∧
    (∀ later, s.stop.kind ≠ .completed → (exec (step run) s later).stop = s.stop) ∧
    (∀ (a : ℚ) (t : ℚ≥0),
      (starts tr).countP (fun start => a ≤ start.startedAt ∧ start.startedAt ≤ a + t) ≤
        ⌊(t : ℚ) / run.intervalMs⌋₊ + run.concurrency + 1) ∧
    s.attempted = s.inFlight + s.settled ∧ s.attempted = s.attempts run ∧
    s.transportFailures = s.failures := by
  intro s tr
  have hbooks : Books run s := exec_books run setup inputs
  have hwindow (a : ℚ) (t : ℚ≥0) := (Slots.of_run run setup a t.2 inputs).countP_window_le
  exact ⟨⟨hbooks.inFlight_le, hbooks.stop, hbooks.ceiling⟩,
    fun e he start hout => trace_checked run inputs _ he hout,
    fun later hstop => exec_stop run later hstop, hwindow, hbooks.settled, hbooks.attempts,
    hbooks.failures⟩

end Runs

end ClosedLoop

end Limitmark.Load
