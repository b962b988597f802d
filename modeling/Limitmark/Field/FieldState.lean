import Limitmark.Field.Reconcile
import Limitmark.Foundations.Run

/-!
# The state machine of a level

`lab/defense/field-state.ts`, `FieldMachine`: the states of a level, the latch of the first reason and
the stop.

Whatever the calls, the first reason stays, a stop is never undone, the states visited from it on are
those of the stop in their order, and work never starts again (`calls_irreversible`).
-/

namespace Limitmark.Field

open Limitmark.Foundations

/-! ## States -/

inductive FieldState
  | created | preflight | topologyUp | baseline | armed | window | residual | quiet | recovery
  | stopping | draining | snapshot | finalizing | done
  deriving DecidableEq, Repr

def NORMAL : List FieldState :=
  [.created, .preflight, .topologyUp, .baseline, .armed, .window, .residual, .quiet, .recovery,
    .finalizing, .done]

/-- The states a stop may begin in. -/
def STOPPABLE : List FieldState :=
  [.topologyUp, .baseline, .armed, .window, .residual, .quiet, .recovery]

/-- The only path after a stop. -/
def STOP_ORDER : List FieldState := [.stopping, .draining, .snapshot, .finalizing, .done]

structure IllegalTransition where
  source : FieldState
  target : FieldState
  deriving DecidableEq, Repr

structure LatchedReason where
  code : String
  cls : Option ReasonClass
  atMs : ℚ
  wallMs : ℚ
  detail : Option Detail
  deriving DecidableEq, Repr

/-! ## The machine -/

structure FieldMachine where
  current : FieldState
  history : List (FieldState × ℚ)
  reasons : List LatchedReason
  first : Option LatchedReason
  stopBegan : Bool
  refusedAtPreflight : Bool
  deriving DecidableEq, Repr

namespace FieldMachine

def create (clock : ℚ) : FieldMachine := ⟨.created, [(.created, clock)], [], none, false, false⟩

variable (m : FieldMachine)

def canStartWork : Bool := !m.stopBegan && m.current ≠ .finalizing && m.current ≠ .done

def set (next : FieldState) (clock : ℚ) : FieldMachine :=
  { m with current := next, history := m.history ++ [(next, clock)] }

/-- The order the machine is bound to. -/
def order : List FieldState := if m.stopBegan then STOP_ORDER else NORMAL

def advance (next : FieldState) (clock : ℚ) : Except IllegalTransition FieldMachine :=
  -- A state that is not in the order has nothing after it: its index is the length.
  if m.order[m.order.idxOf m.current + 1]? = some next then .ok (m.set next clock)
  else .error ⟨m.current, next⟩

/-- At most 64 reasons are kept, and the first one for good. -/
def record (entry : LatchedReason) : FieldMachine :=
  { m with
    reasons := if m.reasons.length < 64 then m.reasons ++ [entry] else m.reasons
    first := m.first.or (some entry) }

/-- The clock is read for the entry, and once more where the stop is entered. -/
def latch (reason : Reason) (stops : Bool) (clock wall stopClock : ℚ) : FieldMachine × Bool :=
  let entry := ⟨reason.code, classOf reason.code, clock, wall, reason.detail⟩
  let wasFirst := m.first = none
  let m := m.record entry
  if stops ∧ ¬ m.stopBegan ∧ m.current ∈ STOPPABLE then
    ({ m with stopBegan := true }.set .stopping stopClock, wasFirst)
  else (m, wasFirst)

/-- A refusal before anything was bound. -/
def refuse (reason : Reason) (clock wall doneClock : ℚ) : FieldMachine :=
  { (m.latch reason false clock wall clock).1 with refusedAtPreflight := true }.set .done doneClock

def visited : List FieldState := m.history.map Prod.fst

end FieldMachine

/-! ## Calls -/

/-- A call, with what the clocks read. -/
inductive FieldCall
  | latch (reason : Reason) (stops : Bool) (clock wall stopClock : ℚ)
  | advance (next : FieldState) (clock : ℚ)

inductive FieldAnswer
  | latched (first : Bool)
  | advanced
  | illegal (transition : IllegalTransition)
  deriving DecidableEq, Repr

/-- A call of the machine; an illegal one leaves it as it was. -/
def FieldMachine.call (m : FieldMachine) : FieldCall → FieldMachine × FieldAnswer
  | .latch reason stops clock wall stopClock =>
    let (m, first) := m.latch reason stops clock wall stopClock
    (m, .latched first)
  | .advance next clock =>
    match m.advance next clock with
    | .ok m => (m, .advanced)
    | .error transition => (m, .illegal transition)

/-! ## What one call can do -/

namespace FieldMachine

variable {m : FieldMachine}

/-- A call records a reason, begins a stop with it, goes on in the order, or changes nothing. -/
theorem call_cases (m : FieldMachine) (call : FieldCall) :
    (∃ entry, (m.call call).1 = m.record entry) ∨
    (∃ entry clock, m.stopBegan = false ∧ m.current ∈ STOPPABLE ∧
      (m.call call).1 = { m.record entry with stopBegan := true }.set .stopping clock) ∨
    (∃ next clock, m.order[m.order.idxOf m.current + 1]? = some next ∧
      (m.call call).1 = m.set next clock) ∨
    (m.call call).1 = m := by
  cases call with
  | latch reason stops clock wall stopClock =>
    simp only [FieldMachine.call, latch]
    split
    · next hstop =>
      exact .inr (.inl ⟨_, stopClock, by simpa [record] using hstop.2.1, hstop.2.2, rfl⟩)
    · exact .inl ⟨_, rfl⟩
  | advance next clock =>
    simp only [FieldMachine.call, advance]
    by_cases hnext : m.order[m.order.idxOf m.current + 1]? = some next
    · rw [if_pos hnext]
      exact .inr (.inr (.inl ⟨next, clock, hnext, rfl⟩))
    · rw [if_neg hnext]
      exact .inr (.inr (.inr rfl))

@[simp] theorem visited_record (entry : LatchedReason) : (m.record entry).visited = m.visited := rfl

@[simp] theorem visited_set (next : FieldState) (clock : ℚ) :
    (m.set next clock).visited = m.visited ++ [next] := by
  simp [visited, set]

/-- The first reason stays. -/
theorem call_first (call : FieldCall) {reason : LatchedReason} (h : m.first = some reason) :
    (m.call call).1.first = some reason := by
  rcases call_cases m call with ⟨entry, hcall⟩ | ⟨entry, clock, -, -, hcall⟩ | ⟨next, clock, -, hcall⟩ |
    hcall <;> simp [hcall, record, set, h]

theorem call_stopBegan (call : FieldCall) (h : m.stopBegan = true) :
    (m.call call).1.stopBegan = true := by
  rcases call_cases m call with ⟨entry, hcall⟩ | ⟨entry, clock, -, -, hcall⟩ | ⟨next, clock, -, hcall⟩ |
    hcall <;> simp [hcall, record, set, h]

theorem call_visited (call : FieldCall) : m.visited <+: (m.call call).1.visited := by
  rcases call_cases m call with ⟨entry, hcall⟩ | ⟨entry, clock, -, -, hcall⟩ | ⟨next, clock, -, hcall⟩ |
    hcall
  · rw [hcall, visited_record]
  · rw [hcall, visited_set]
    exact List.prefix_append m.visited [.stopping]
  · rw [hcall, visited_set]
    exact List.prefix_append m.visited [next]
  · rw [hcall]

/-- Once work may not start, no call lets it start. -/
theorem call_canStartWork (call : FieldCall) (h : m.canStartWork = false) :
    (m.call call).1.canStartWork = false := by
  rcases call_cases m call with ⟨entry, hcall⟩ | ⟨entry, clock, -, -, hcall⟩ | ⟨next, clock, hnext, hcall⟩ |
    hcall
  · rw [hcall]
    exact h
  · rw [hcall]
    rfl
  · rw [hcall]
    by_cases hstop : m.stopBegan = true
    · simp [canStartWork, set, hstop]
    · have hlast : m.current = .finalizing ∨ m.current = .done := by
        simpa [canStartWork, hstop, or_iff_not_imp_left] using h
      rw [order, if_neg hstop] at hnext
      rcases hlast with hlast | hlast
      · rw [hlast] at hnext
        obtain rfl : .done = next := Option.some.inj hnext
        simp [canStartWork, set]
      · rw [hlast] at hnext
        cases hnext
  · rwa [hcall]

/-- A refused level starts no work, whatever is called. -/
theorem refuse_canStartWork (reason : Reason) (clock wall doneClock : ℚ) (calls : List FieldCall) :
    (exec FieldMachine.call (m.refuse reason clock wall doneClock) calls).canStartWork = false := by
  have hrefused : (m.refuse reason clock wall doneClock).canStartWork = false := by
    simp [refuse, canStartWork, set]
  generalize m.refuse reason clock wall doneClock = refused at hrefused ⊢
  induction calls generalizing refused with
  | nil => exact hrefused
  | cons call calls ih => exact ih _ (call_canStartWork call hrefused)

/-! ## The course of a level -/

/-- What has been visited: the normal flow, and from a stop on the order of the stop. -/
structure OnCourse (m : FieldMachine) : Prop where
  flow : m.stopBegan = false →
    ∃ n, NORMAL[n]? = some m.current ∧ m.visited = NORMAL.take (n + 1)
  stop : m.stopBegan = true → ∃ n k, n < 9 ∧ STOP_ORDER[k]? = some m.current ∧
    m.visited = NORMAL.take (n + 1) ++ STOP_ORDER.take (k + 1)

theorem onCourse_create (clock : ℚ) : OnCourse (create clock) :=
  ⟨fun _ => ⟨0, rfl, rfl⟩, nofun⟩

/-- The next state of an order comes after the part of it already visited. -/
theorem take_next {order : List FieldState} (hnodup : order.Nodup) {n : ℕ} {s next : FieldState}
    (hs : order[n]? = some s) (hnext : order[order.idxOf s + 1]? = some next) :
    order[n + 1]? = some next ∧ order.take (n + 1 + 1) = order.take (n + 1) ++ [next] := by
  obtain ⟨hn, rfl⟩ := List.getElem?_eq_some_iff.1 hs
  rw [hnodup.idxOf_getElem n hn] at hnext
  refine ⟨hnext, ?_⟩
  rw [List.take_add_one, hnext]
  rfl

theorem onCourse_call (call : FieldCall) (h : OnCourse m) : OnCourse (m.call call).1 := by
  rcases call_cases m call with ⟨entry, hcall⟩ | ⟨entry, clock, hrunning, hstoppable, hcall⟩ |
    ⟨next, clock, hnext, hcall⟩ | hcall
  · rw [hcall]
    exact ⟨h.flow, h.stop⟩
  · obtain ⟨n, hcurrent, hvisited⟩ := h.flow hrunning
    have hearly : ∀ n < NORMAL.length, NORMAL[n]?.any (· ∈ STOPPABLE) = true → n < 9 := by decide
    have hn : n < 9 :=
      hearly n (List.getElem?_eq_some_iff.1 hcurrent).1 (by simpa [hcurrent] using hstoppable)
    rw [hcall]
    refine ⟨nofun, fun _ => ⟨n, 0, hn, rfl, ?_⟩⟩
    rw [visited_set]
    exact congrArg (· ++ [.stopping]) hvisited
  · rw [hcall]
    constructor
    · intro hrunning
      obtain ⟨n, hcurrent, hvisited⟩ := h.flow hrunning
      have horder : m.order = NORMAL := by
        have hrunning : m.stopBegan = false := hrunning
        simp [order, hrunning]
      rw [horder] at hnext
      obtain ⟨hafter, htake⟩ := take_next (by decide) hcurrent hnext
      exact ⟨n + 1, hafter, by rw [visited_set, hvisited, htake]⟩
    · intro hstop
      obtain ⟨n, k, hn, hcurrent, hvisited⟩ := h.stop hstop
      have horder : m.order = STOP_ORDER := by
        have hstop : m.stopBegan = true := hstop
        simp [order, hstop]
      rw [horder] at hnext
      obtain ⟨hafter, htake⟩ := take_next (by decide) hcurrent hnext
      exact ⟨n, k + 1, hn, hafter, by rw [visited_set, hvisited, htake, List.append_assoc]⟩
  · rwa [hcall]

end FieldMachine

/-! ## Every run -/

/-- What holds of a machine and of a later state of it. -/
structure Irreversible (m later : FieldMachine) : Prop where
  first : ∀ reason, m.first = some reason → later.first = some reason
  stopped : m.stopBegan = true → later.stopBegan = true
  visited : m.visited <+: later.visited
  /-- From the stop on, the states are those of the stop. -/
  order : later.stopBegan = true → ∃ flow k, later.visited = flow ++ STOP_ORDER.take (k + 1) ∧
    STOP_ORDER[k]? = some later.current ∧ ∀ state ∈ flow, state ∉ STOP_ORDER
  work : m.canStartWork = false → later.canStartWork = false

theorem onCourse_exec {m : FieldMachine} (h : m.OnCourse) (calls : List FieldCall) :
    (exec FieldMachine.call m calls).OnCourse := by
  induction calls generalizing m with
  | nil => exact h
  | cons call calls ih => exact ih (FieldMachine.onCourse_call call h)

/-- The order of the stop, as it is seen in what has been visited. -/
theorem FieldMachine.OnCourse.order {m : FieldMachine} (h : m.OnCourse) (hstop : m.stopBegan = true) :
    ∃ flow k, m.visited = flow ++ STOP_ORDER.take (k + 1) ∧ STOP_ORDER[k]? = some m.current ∧
      ∀ state ∈ flow, state ∉ STOP_ORDER := by
  obtain ⟨n, k, hn, hcurrent, hvisited⟩ := h.stop hstop
  have hflow : ∀ state ∈ NORMAL.take 9, state ∉ STOP_ORDER := by decide
  exact ⟨_, k, hvisited, hcurrent, fun state hstate =>
    hflow state (List.take_subset_take_left NORMAL hn hstate)⟩

/-- **No call undoes a stop, and none replaces the first reason.** -/
theorem exec_irreversible {m : FieldMachine} (h : m.OnCourse) (calls : List FieldCall) :
    Irreversible m (exec FieldMachine.call m calls) := by
  induction calls generalizing m with
  | nil => exact ⟨fun _ => id, id, List.prefix_rfl, h.order, id⟩
  | cons call calls ih =>
    have hlater := ih (FieldMachine.onCourse_call call h)
    exact {
      first := fun reason hreason => hlater.first reason (FieldMachine.call_first call hreason)
      stopped := fun hstop => hlater.stopped (FieldMachine.call_stopBegan call hstop)
      visited := (FieldMachine.call_visited call).trans hlater.visited
      order := hlater.order
      work := fun hwork => hlater.work (FieldMachine.call_canStartWork call hwork) }

/-- Every run of calls, and every moment of it. -/
theorem calls_irreversible (clock : ℚ) (before after : List FieldCall) :
    Irreversible (exec FieldMachine.call (.create clock) before)
      (exec FieldMachine.call (.create clock) (before ++ after)) := by
  rw [exec_append]
  exact exec_irreversible (onCourse_exec (FieldMachine.onCourse_create clock) before) after

end Limitmark.Field
