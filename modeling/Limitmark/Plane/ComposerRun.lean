import Limitmark.Plane.ComposerCalls

/-!
# The bulkhead of a layer over whole runs

A composer that is steady (`Steady`) counts every call it started and holds no more places than it
has; every event keeps it so, and gives back only a place that is held (`Steady.step`). `Bulkhead`
is what follows for a whole run.
-/

namespace Limitmark.Plane

open Limitmark.Defense Limitmark.Foundations

namespace LayerComposer

variable {c : LayerComposer} {call : LayerCall} {clock now : ℚ} {s : ComposerRun}

/-- The clock never steps back. -/
def Timed (t : ℚ) (events : List CallEvent) : Prop :=
  Paced (fun t (e : CallEvent) => ∀ now ∈ e.now?, t ≤ now) (fun t e => e.now?.getD t) t events

/-- Between events: the composer counts its calls, and its bulkhead holds. -/
structure Steady (options : ComposerOptions) (clock : ℚ) (s : ComposerRun) : Prop where
  same : s.composer.options = options
  tallied : Tallied s
  room : s.composer.occupancy ≤ options.maxConcurrent
  fair : ∀ call ∈ s.calls, Fair options.timeoutMs clock call

/-- A call is counted under its outcome, or is in flight. -/
theorem LayerCall.counted_once (call : LayerCall) :
    (if call.counted .pass then 1 else 0) + (if call.counted .reject then 1 else 0) +
      (if call.counted .shed then 1 else 0) + ((if call.counted (.error .throw) then 1 else 0) +
        (if call.counted (.error .timeout) then 1 else 0) +
        (if call.counted (.error .invalidVerdict) then 1 else 0)) +
      (if call.counted .inFlight then 1 else 0) = 1 := by
  obtain ⟨startedAt, answer, race, settled, counted, armed, outcome⟩ := call
  rcases outcome with _ | _ | _ | _ | (_ | _ | _) <;> rfl

theorem length_eq_tallies (calls : List LayerCall) :
    calls.length = calls.countP (·.counted .pass) + calls.countP (·.counted .reject) +
      calls.countP (·.counted .shed) + (calls.countP (·.counted (.error .throw)) +
        calls.countP (·.counted (.error .timeout)) +
        calls.countP (·.counted (.error .invalidVerdict))) + calls.countP (·.counted .inFlight) := by
  induction calls with
  | nil => rfl
  | cons call calls ih =>
    have := call.counted_once
    simp only [List.countP_cons, List.length_cons]
    omega

/-- A call that was abandoned has ended: it holds one place, not two. -/
theorem Fair.holds_eq (h : Fair timeoutMs clock call) :
    (if call.holds then 1 else 0) =
      (if call.running then 1 else 0) + if call.abandonedCounted then 1 else 0 := by
  have hnot : call.abandonedCounted = true → call.running = false := by
    intro hcounted
    rw [LayerCall.running, (h.abandoned hcounted).2.2]
    rfl
  rw [LayerCall.holds]
  cases hcounted : call.abandonedCounted with
  | true =>
    rw [hnot hcounted]
    rfl
  | false => cases call.running <;> rfl

/-- The places that count are those of the calls that hold one. -/
theorem Steady.occupancy_eq {options : ComposerOptions} (h : Steady options clock s) :
    s.composer.occupancy = s.calls.countP LayerCall.holds := by
  have hflight : s.composer.inFlight = s.calls.countP LayerCall.running := h.tallied.tally .inFlight
  have hlive : s.composer.abandonedLive = s.calls.countP LayerCall.abandonedCounted :=
    h.tallied.tally .abandonedLive
  have hfair := h.fair
  rw [occupancy, hflight, hlive]
  generalize s.calls = calls at hfair ⊢
  clear hflight hlive h
  induction calls with
  | nil => rfl
  | cons call calls ih =>
    rw [List.forall_mem_cons] at hfair
    have hrest := ih hfair.2
    have hcall := hfair.1.holds_eq
    rw [List.countP_cons, List.countP_cons, List.countP_cons]
    omega

/-- The start of a call. -/
theorem Steady.start {options : ComposerOptions} (h : Steady options clock s)
    (hclock : clock ≤ now) :
    Steady options now (callsStep s (.start now)).1 ∧
      ((s.composer.enter.2 = true ∧
          (callsStep s (.start now)).1.composer.occupancy = s.composer.occupancy + 1 ∧
          (callsStep s (.start now)).1.calls = s.calls ++ [{ startedAt := now }]) ∨
        (s.composer.enter.2 = false ∧
          (callsStep s (.start now)).1.composer.occupancy = s.composer.occupancy ∧
          (callsStep s (.start now)).1.calls =
            s.calls ++ [{ startedAt := now, outcome := some .shed }])) := by
  obtain ⟨hoptions, ⟨hevaluated, htally⟩, hroom, hfair⟩ := h
  have hfair' (call : LayerCall) (hcall : Fair options.timeoutMs now call) :
      ∀ call' ∈ s.calls ++ [call], Fair options.timeoutMs now call' := by
    rw [List.forall_mem_append, List.forall_mem_singleton]
    exact ⟨fun call' hmem => (hfair call' hmem).tick hclock, hcall⟩
  rw [callsStep, enter]
  dsimp only
  by_cases hfull : s.composer.options.maxConcurrent ≤ s.composer.occupancy
  · rw [if_pos hfull]
    dsimp only
    refine ⟨⟨hoptions, ⟨?_, fun k => ?_⟩, hroom, hfair' _ ?_⟩, Or.inr ⟨rfl, rfl, rfl⟩⟩
    · rw [List.length_append, ← hevaluated]
      rfl
    · have hk := htally k
      rw [List.countP_append, List.countP_singleton, ← hk]
      rcases k with _ | _ | _ | _ | _ | (_ | _ | _) <;> rfl
    · constructor <;> simp
  · rw [if_neg hfull]
    dsimp only
    refine ⟨⟨hoptions, ⟨?_, fun k => ?_⟩, ?_, hfair' _ ?_⟩, Or.inl ⟨rfl, ?_, rfl⟩⟩
    · rw [List.length_append, ← hevaluated]
      rfl
    · have hk := htally k
      rw [List.countP_append, List.countP_singleton, ← hk]
      rcases k with _ | _ | _ | _ | _ | (_ | _ | _) <;> rfl
    · rw [hoptions] at hfull
      simp only [occupancy] at hfull ⊢
      omega
    · constructor <;> simp
    · simp only [occupancy]
      omega

/-- An event of a call that is there. -/
theorem callsStep_of_call (event : CallEvent) {i : ℕ} (hevent : event.call = some i)
    (hcall : s.calls[i]? = some call) :
    (callsStep s event).1 = ⟨(callStep s.composer call event).1,
      s.calls.set i (callStep s.composer call event).2⟩ := by
  cases event with
  | start now => cases hevent
  | _ =>
    obtain rfl := Option.some.inj hevent
    simp only [callsStep, CallEvent.call, hcall]

theorem callsStep_of_none (event : CallEvent) {i : ℕ} (hevent : event.call = some i)
    (hcall : s.calls[i]? = none) : (callsStep s event).1 = s := by
  cases event with
  | start now => cases hevent
  | _ =>
    obtain rfl := Option.some.inj hevent
    simp only [callsStep, CallEvent.call, hcall]

theorem Steady.moves {options : ComposerOptions} (h : Steady options clock s) {i : ℕ}
    (hcall : s.calls[i]? = some call) (event : CallEvent) :
    Moves s.composer call (callStep s.composer call event).1
      (callStep s.composer call event).2 := by
  have hmem := List.mem_of_getElem? hcall
  refine moves_callStep (h.fair call hmem) (fun hrunning => ?_) (fun habandoned => ?_) event
  · rw [show s.composer.inFlight = s.calls.countP LayerCall.running from h.tallied.tally .inFlight]
    exact Cells.countP_pos _ hcall hrunning
  · rw [show s.composer.abandonedLive = s.calls.countP LayerCall.abandonedCounted from
      h.tallied.tally .abandonedLive]
    exact Cells.countP_pos _ hcall habandoned

/-- An event of a call. -/
theorem Steady.callStep {options : ComposerOptions} (h : Steady options clock s) {i : ℕ}
    (hcall : s.calls[i]? = some call) {event : CallEvent} (hevent : event.call = some i)
    (hclock : ∀ now ∈ event.now?, clock ≤ now) :
    Steady options (event.now?.getD clock) (callsStep s event).1 ∧
      (callsStep s event).1.composer.occupancy + (if call.holds then 1 else 0) =
        s.composer.occupancy + if (callStep s.composer call event).2.holds then 1 else 0 := by
  have hmoves := h.moves hcall event
  have hmem := List.mem_of_getElem? hcall
  have hnext : clock ≤ event.now?.getD clock := by
    cases hnow : event.now? with
    | none => exact le_rfl
    | some now => exact hclock now hnow
  have hfair := fair_callStep (c := s.composer) (h.same.symm ▸ h.fair call hmem) event hclock
  have hafter := h.same ▸ hfair
  have hplaces : (callsStep s event).1.composer.occupancy + (if call.holds then 1 else 0) =
      s.composer.occupancy + if (LayerComposer.callStep s.composer call event).2.holds then 1 else 0 := by
    have hbefore := (h.fair call hmem).holds_eq
    have hthen := hafter.holds_eq
    rw [callsStep_of_call event hevent hcall]
    generalize LayerComposer.callStep s.composer call event = next at hmoves hthen
    have hflight : next.1.inFlight + (if call.running then 1 else 0) =
      s.composer.inFlight + if next.2.running then 1 else 0 := hmoves.tally .inFlight
    have hlive : next.1.abandonedLive + (if call.abandonedCounted then 1 else 0) =
      s.composer.abandonedLive + if next.2.abandonedCounted then 1 else 0 :=
      hmoves.tally .abandonedLive
    simp only [occupancy]
    omega
  refine ⟨⟨?_, ⟨?_, fun k => ?_⟩, ?_, ?_⟩, hplaces⟩
  · rw [callsStep_of_call event hevent hcall]
    exact hmoves.options.trans h.same
  · rw [callsStep_of_call event hevent hcall, hmoves.evaluated, h.tallied.evaluated, List.length_set]
  · have hk := hmoves.tally k
    have htally := h.tallied.tally k
    have hset := Cells.countP_set (·.counted k) hcall
      (LayerComposer.callStep s.composer call event).2
    rw [callsStep_of_call event hevent hcall]
    dsimp only at hset ⊢
    omega
  · have hroom := h.room
    have hholds := hmoves.holds
    split_ifs at hplaces with hold hnew hnew
    · omega
    · omega
    · exact absurd (hholds hnew) hold
    · omega
  · rw [callsStep_of_call event hevent hcall]
    exact Cells.forall_mem_set (fun call' hmem' => (h.fair call' hmem').tick hnext) hafter

/-! ## The places of one call -/

/-- The call holds a place. -/
def holdsAt (s : ComposerRun) (i : ℕ) : Bool := (s.calls[i]?).any LayerCall.holds

/-- The step takes a place for a call: it is its start, and one place more counts. -/
def acquires (i : ℕ) (e : Entry ComposerRun CallEvent Unit) : Bool :=
  e.input.call.isNone && e.pre.calls.length = i &&
    e.post.composer.occupancy = e.pre.composer.occupancy + 1

/-- The step gives a place of a call back: it is an event of it, and one place fewer counts. -/
def releases (i : ℕ) (e : Entry ComposerRun CallEvent Unit) : Bool :=
  e.input.call = some i && e.post.composer.occupancy + 1 = e.pre.composer.occupancy

theorem holdsAt_of_concat {s' : ComposerRun} (h : s'.calls = s.calls ++ [call]) (i : ℕ) :
    holdsAt s' i = if i = s.calls.length then call.holds else holdsAt s i := by
  rw [holdsAt, h, holdsAt]
  split_ifs with heq
  · rw [heq, List.getElem?_concat_length, Option.any_some]
  · by_cases hlt : i < s.calls.length
    · rw [List.getElem?_append_left hlt]
    · rw [List.getElem?_eq_none (by simp; omega), List.getElem?_eq_none (by omega)]

theorem holdsAt_of_set {s' : ComposerRun} {i : ℕ} {call' : LayerCall}
    (hcall : s.calls[i]? = some call) (h : s'.calls = s.calls.set i call') (j : ℕ) :
    holdsAt s' j = if j = i then call'.holds else holdsAt s j := by
  rw [holdsAt, h, holdsAt]
  split_ifs with heq
  · rw [heq, Cells.getElem?_set_self_of_eq_some hcall, Option.any_some]
  · rw [List.getElem?_set_ne (Ne.symm heq)]

theorem holdsAt_length (s : ComposerRun) : holdsAt s s.calls.length = false := by
  rw [holdsAt, List.getElem?_eq_none le_rfl]
  rfl

/-- What a step does to the places: a call holds one when it held or takes one, and has not given
it back; and a place that comes or goes is that of a call. -/
structure Places (e : Entry ComposerRun CallEvent Unit) : Prop where
  holds : ∀ i, (if holdsAt e.pre i then 1 else 0) + (if acquires i e then 1 else 0) =
    (if releases i e then 1 else 0) + if holdsAt e.post i then 1 else 0
  whose : e.post.composer.occupancy ≠ e.pre.composer.occupancy →
    ∃ i, acquires i e = true ∨ releases i e = true
  bounded : e.post.composer.occupancy ≤ e.pre.composer.occupancy + 1
  acquired : ∀ i, acquires i e = true → i = e.pre.calls.length
  length : e.pre.calls.length ≤ e.post.calls.length
  started : ∀ i, acquires i e = true → i < e.post.calls.length

theorem Steady.places_start {options : ComposerOptions} (h : Steady options clock s)
    (hclock : clock ≤ now) : Places (entry callsStep s (.start now)) := by
  obtain ⟨-, hcases⟩ := h.start hclock
  have hreleases (i : ℕ) : releases i (entry callsStep s (.start now)) = false := rfl
  have hlength := holdsAt_length s
  rcases hcases with ⟨-, hoccupancy, hcalls⟩ | ⟨-, hoccupancy, hcalls⟩
  · have hacquires (i : ℕ) : acquires i (entry callsStep s (.start now)) =
        decide (s.calls.length = i) := by
      rw [Bool.eq_iff_iff]
      simp only [acquires, Bool.and_eq_true, decide_eq_true_eq]
      simp [hoccupancy, CallEvent.call]
    refine ⟨fun i => ?_, fun _ => ⟨s.calls.length, Or.inl ?_⟩, ?_, fun i hi => ?_, ?_, fun i hi => ?_⟩
    · rw [hreleases, hacquires, entry_pre, entry_post, holdsAt_of_concat hcalls]
      by_cases hi : i = s.calls.length
      · rw [if_pos hi, hi, hlength]
        simp [LayerCall.holds, LayerCall.running]
      · rw [if_neg hi]
        simp [Ne.symm hi]
    · rw [hacquires, decide_eq_true_eq]
    · exact hoccupancy.le
    · rw [hacquires, decide_eq_true_eq] at hi
      exact hi.symm
    · rw [entry_post, hcalls, List.length_append]
      exact Nat.le_add_right _ _
    · rw [hacquires, decide_eq_true_eq] at hi
      rw [entry_post, hcalls, List.length_append, ← hi]
      exact Nat.lt_succ_self _
  · have hacquires (i : ℕ) : acquires i (entry callsStep s (.start now)) = false := by
      simp only [acquires, entry_input, entry_pre, entry_post, hoccupancy]
      simp
    refine ⟨fun i => ?_, fun hne => absurd hoccupancy hne, ?_, fun i hi => ?_, ?_, fun i hi => ?_⟩
    · rw [hreleases, hacquires, entry_pre, entry_post, holdsAt_of_concat hcalls]
      by_cases hi : i = s.calls.length
      · rw [if_pos hi, hi, hlength]
        simp [LayerCall.holds, LayerCall.running]
      · rw [if_neg hi]
        simp
    · exact hoccupancy.le.trans (Nat.le_succ _)
    · rw [hacquires] at hi
      cases hi
    · rw [entry_post, hcalls, List.length_append]
      exact Nat.le_add_right _ _
    · rw [hacquires] at hi
      cases hi

theorem Steady.places_call {options : ComposerOptions} (h : Steady options clock s) {i : ℕ}
    (hcall : s.calls[i]? = some call) {event : CallEvent} (hevent : event.call = some i)
    (hclock : ∀ now ∈ event.now?, clock ≤ now) : Places (entry callsStep s event) := by
  obtain ⟨-, hplaces⟩ := h.callStep hcall hevent hclock
  have hholds := (h.moves hcall event).holds
  have hcalls : (callsStep s event).1.calls =
      s.calls.set i (LayerComposer.callStep s.composer call event).2 := by
    rw [callsStep_of_call event hevent hcall]
  have hacquires (j : ℕ) : acquires j (entry callsStep s event) = false := by
    rw [acquires, entry_input, hevent]
    rfl
  have hat : holdsAt s i = call.holds := by
    rw [holdsAt, hcall, Option.any_some]
  have hreleases (j : ℕ) : releases j (entry callsStep s event) = (decide (i = j) &&
      decide ((callsStep s event).1.composer.occupancy + 1 = s.composer.occupancy)) := by
    rw [Bool.eq_iff_iff]
    simp only [releases, Bool.and_eq_true, decide_eq_true_eq]
    simp [hevent]
  generalize (LayerComposer.callStep s.composer call event).2 = call' at hplaces hholds hcalls
  have hdelta : (if call.holds then 1 else 0) =
      (if (callsStep s event).1.composer.occupancy + 1 = s.composer.occupancy then 1 else 0) +
        if call'.holds then 1 else 0 := by
    by_cases hnew : call'.holds = true
    · rw [if_pos hnew, if_pos (hholds hnew)] at hplaces ⊢
      rw [if_neg (by omega)]
    · rw [if_neg hnew] at hplaces ⊢
      by_cases hold : call.holds = true
      · rw [if_pos hold] at hplaces ⊢
        rw [if_pos (by omega)]
      · rw [if_neg hold] at hplaces ⊢
        rw [if_neg (by omega)]
  refine ⟨fun j => ?_, fun hne => ⟨i, Or.inr ?_⟩, ?_, fun j hj => ?_, ?_, fun j hj => ?_⟩
  · rw [hacquires, hreleases, entry_pre, entry_post, holdsAt_of_set hcall hcalls]
    by_cases hj : j = i
    · rw [hj, if_pos rfl, hat]
      simpa using hdelta
    · rw [if_neg hj]
      simp [Ne.symm hj]
  · rw [entry_post, entry_pre] at hne
    rw [hreleases]
    simp only [decide_true, Bool.true_and, decide_eq_true_eq]
    split_ifs at hplaces with hold hnew hnew
    · omega
    · omega
    · exact absurd (hholds hnew) hold
    · omega
  · rw [entry_post, entry_pre]
    split_ifs at hplaces with hold hnew hnew
    · omega
    · omega
    · exact absurd (hholds hnew) hold
    · omega
  · rw [hacquires] at hj
    cases hj
  · rw [entry_post, hcalls, List.length_set]
    exact le_rfl
  · rw [hacquires] at hj
    cases hj

/-- An event of a call that is not there. -/
theorem places_none {event : CallEvent} {i : ℕ} (hevent : event.call = some i)
    (hstep : (callsStep s event).1 = s) : Places (entry callsStep s event) := by
  have hacquires (j : ℕ) : acquires j (entry callsStep s event) = false := by
    rw [acquires, entry_input, hevent]
    rfl
  have hreleases (j : ℕ) : releases j (entry callsStep s event) = false := by
    rw [releases, entry_post, entry_pre, hstep]
    simp
  refine ⟨fun j => ?_, fun hne => ?_, ?_, fun j hj => ?_, ?_, fun j hj => ?_⟩
  · rw [hacquires, hreleases, entry_post, entry_pre, hstep]
    simp
  · rw [entry_post, hstep] at hne
    exact absurd rfl hne
  · rw [entry_post, hstep]
    exact Nat.le_succ _
  · rw [hacquires] at hj
    cases hj
  · rw [entry_post, hstep]
    exact le_rfl
  · rw [hacquires] at hj
    cases hj

/-- **Every event** keeps the composer steady, and gives back only a place that is held. -/
theorem Steady.step {options : ComposerOptions} (h : Steady options clock s) {event : CallEvent}
    (hclock : ∀ now ∈ event.now?, clock ≤ now) :
    Steady options (event.now?.getD clock) (callsStep s event).1 ∧
      Places (entry callsStep s event) := by
  cases hevent : event.call with
  | none =>
    cases event with
    | start now => exact ⟨(h.start (hclock now rfl)).1, h.places_start (hclock now rfl)⟩
    | _ => cases hevent
  | some i =>
    cases hcall : s.calls[i]? with
    | none =>
      have hstep := callsStep_of_none event hevent hcall
      refine ⟨?_, places_none hevent hstep⟩
      have hnext : clock ≤ event.now?.getD clock := by
        cases hnow : event.now? with
        | none => exact le_rfl
        | some now => exact hclock now hnow
      rw [hstep]
      exact ⟨h.same, h.tallied, h.room, fun call hmem => (h.fair call hmem).tick hnext⟩
    | some call =>
      exact ⟨(h.callStep hcall hevent hclock).1, h.places_call hcall hevent hclock⟩

/-- A composer before its first call. -/
theorem steady_new (options : ComposerOptions) (clock : ℚ) :
    Steady options clock ⟨{ options }, []⟩ := by
  refine ⟨rfl, ⟨rfl, fun k => ?_⟩, Nat.zero_le _, fun call hmem => absurd hmem List.not_mem_nil⟩
  rcases k with _ | _ | _ | _ | _ | (_ | _ | _) <;> rfl

/-- A place is taken at most once, and given back as often as it was taken and is not held. -/
structure Settled (options : ComposerOptions) (tr : List (Entry ComposerRun CallEvent Unit))
    (s : ComposerRun) (clock : ℚ) : Prop where
  steady : Steady options clock s
  balance : ∀ i, tr.countP (acquires i) = tr.countP (releases i) + if holdsAt s i then 1 else 0
  once : ∀ i, tr.countP (acquires i) ≤ if i < s.calls.length then 1 else 0
  whose : ∀ e ∈ tr, e.post.composer.occupancy ≠ e.pre.composer.occupancy →
    ∃ i, acquires i e = true ∨ releases i e = true

theorem settled_run (options : ComposerOptions) {t : ℚ} {events : List CallEvent}
    (h : Timed t events) : Settled options (trace callsStep ⟨{ options }, []⟩ events)
      (exec callsStep ⟨{ options }, []⟩ events)
      (events.foldl (fun t (e : CallEvent) => e.now?.getD t) t) := by
  refine Paced.run_induction callsStep (P := fun tr s t => Settled options tr s t) ?_ ?_ h
  · exact ⟨steady_new options t, fun i => rfl, fun i => Nat.zero_le _,
      fun e hmem => absurd hmem List.not_mem_nil⟩
  · rintro tr s clock event ⟨hsteady, hbalance, honce, hwhose⟩ hclock
    obtain ⟨hsteady', hplaces⟩ := hsteady.step hclock
    refine ⟨hsteady', fun i => ?_, fun i => ?_, ?_⟩
    · have hi := hplaces.holds i
      have hb := hbalance i
      rw [List.countP_append, List.countP_append, List.countP_singleton, List.countP_singleton]
      rw [entry_pre, entry_post] at hi
      omega
    · have ho := honce i
      have hlength := hplaces.length
      rw [entry_pre, entry_post] at hlength
      rw [List.countP_append, List.countP_singleton]
      by_cases hacquires : acquires i (entry callsStep s event) = true
      · have hi := hplaces.acquired i hacquires
        have hlt := hplaces.started i hacquires
        rw [entry_pre] at hi
        rw [entry_post] at hlt
        rw [if_neg (by omega)] at ho
        rw [if_pos hacquires, if_pos hlt]
        omega
      · rw [if_neg hacquires]
        split_ifs at ho ⊢ <;> omega
    · rw [List.forall_mem_append, List.forall_mem_singleton]
      exact ⟨hwhose, hplaces.whose⟩

/-- A call that ended is freed by its reclaim timer. -/
theorem holds_reclaim (hended : call.running = false)
    (harmed : call.abandonedCounted = true → call.reclaimArmed = true) (i : ℕ) :
    (callStep c call (.reclaim i)).2.holds = false := by
  by_cases h : call.reclaimArmed = true
  · rw [callStep, if_pos h, LayerCall.holds, Bool.or_false]
    exact hended
  · have hnot : call.abandonedCounted = false := by
      by_contra hcounted
      rw [Bool.not_eq_false] at hcounted
      exact h (harmed hcounted)
    rw [callStep, if_neg h, LayerCall.holds, hended, hnot]
    rfl

/-- A call whose race is over ends when it goes on. -/
theorem ended_resume (hrace : call.race.isSome = true ∨ call.running = false)
    (harmed : call.abandonedCounted = true → call.reclaimArmed = true) (i : ℕ) (now : ℚ) :
    (callStep c call (.resume i now)).2.running = false ∧
      ((callStep c call (.resume i now)).2.abandonedCounted = true →
        (callStep c call (.resume i now)).2.reclaimArmed = true) := by
  rw [callStep]
  split
  · exact ⟨rfl, id⟩
  · next hnot =>
    refine ⟨?_, harmed⟩
    rcases hrace with hrace | hended
    · obtain ⟨race, hrace⟩ := Option.isSome_iff_exists.1 hrace
      rw [LayerCall.running]
      cases houtcome : call.outcome with
      | none => exact absurd hrace (hnot race houtcome)
      | some outcome => rfl
    · exact hended

/-- After its deadline the race of a call is over. -/
theorem raced_deadline (harmed : call.abandonedCounted = true → call.reclaimArmed = true) (i : ℕ) :
    ((callStep c call (.deadline i)).2.race.isSome = true ∨
      (callStep c call (.deadline i)).2.running = false) ∧
      ((callStep c call (.deadline i)).2.abandonedCounted = true →
        (callStep c call (.deadline i)).2.reclaimArmed = true) := by
  rw [callStep]
  split_ifs with h
  · exact ⟨Or.inl rfl, harmed⟩
  · refine ⟨?_, harmed⟩
    rw [Bool.and_eq_true, not_and_or, Bool.not_eq_true, Bool.not_eq_true] at h
    refine h.imp (fun hrace => ?_) id
    rw [← Option.not_isNone, hrace]
    rfl

/-- The timers of a call and its end give its place back, wherever the call is. -/
theorem Steady.reclaimed {options : ComposerOptions} (h : Steady options clock s) (i : ℕ) (now : ℚ) :
    holdsAt (exec callsStep s [.deadline i, .resume i now, .reclaim i]) i = false := by
  simp only [exec_cons, exec_nil]
  cases hcall : s.calls[i]? with
  | none =>
    rw [callsStep_of_none (.deadline i) rfl hcall,
      callsStep_of_none (.resume i now) rfl hcall,
      callsStep_of_none (.reclaim i) rfl hcall, holdsAt, hcall]
    rfl
  | some call =>
    have hfair := h.fair call (List.mem_of_getElem? hcall)
    rw [callsStep_of_call (.deadline i) rfl hcall]
    have hfirst := Cells.getElem?_set_self_of_eq_some hcall
      (LayerComposer.callStep s.composer call (.deadline i)).2
    rw [callsStep_of_call (.resume i now) rfl hfirst]
    have hsecond := Cells.getElem?_set_self_of_eq_some hfirst
      (LayerComposer.callStep (LayerComposer.callStep s.composer call (.deadline i)).1
        (LayerComposer.callStep s.composer call (.deadline i)).2 (.resume i now)).2
    rw [callsStep_of_call (.reclaim i) rfl hsecond, holdsAt,
      Cells.getElem?_set_self_of_eq_some hsecond, Option.any_some]
    obtain ⟨hrace, harmed⟩ := raced_deadline (c := s.composer)
      (fun hcounted => (hfair.abandoned hcounted).1) i
    obtain ⟨hended, harmed⟩ := ended_resume (c := (LayerComposer.callStep s.composer call
      (.deadline i)).1) hrace harmed i now
    exact holds_reclaim hended harmed i

/-- What a bulkhead promises of a run and the state it ends in. -/
structure Bulkhead (options : ComposerOptions) (tr : List (Entry ComposerRun CallEvent Unit))
    (s : ComposerRun) : Prop where
  /-- The places that count are those of the calls that hold one. -/
  held : s.composer.occupancy = s.calls.countP LayerCall.holds
  room : s.composer.occupancy ≤ options.maxConcurrent
  /-- A call takes a place at most once. -/
  acquired : ∀ i, tr.countP (acquires i) ≤ 1
  /-- A place that was taken was given back once, or is held. -/
  released : ∀ i, tr.countP (acquires i) =
    tr.countP (releases i) + if holdsAt s i then 1 else 0
  /-- No place comes or goes but for a call. -/
  whose : ∀ e ∈ tr, e.post.composer.occupancy ≠ e.pre.composer.occupancy →
    ∃ i, acquires i e = true ∨ releases i e = true
  /-- No place is lost. -/
  reclaimed : ∀ i now,
    holdsAt (exec callsStep s [.deadline i, .resume i now, .reclaim i]) i = false
  counted : ∀ k, s.composer.tally k = s.calls.countP (·.counted k)
  evaluated : s.composer.counters.evaluated =
    s.composer.counters.pass + s.composer.counters.reject + s.composer.counters.shed +
      (s.composer.counters.error.throw + s.composer.counters.error.timeout +
        s.composer.counters.error.invalidVerdict) + s.composer.inFlight
  /-- A pass is a verdict that came in time. -/
  passed : ∀ call ∈ s.calls, call.outcome = some .pass →
    call.race = some (.answer (.value (some .pass))) ∧
      ∃ at', call.answer = some (.value (some .pass), at') ∧
        at' - call.startedAt ≤ options.timeoutMs

/-- **The bulkhead of a layer** holds whatever the order of starts, settlements, deadlines and
reclaim timers. -/
theorem bulkhead_run (options : ComposerOptions) {t : ℚ} {events : List CallEvent}
    (h : Timed t events) : Bulkhead options (trace callsStep ⟨{ options }, []⟩ events)
      (exec callsStep ⟨{ options }, []⟩ events) := by
  obtain ⟨hsteady, hbalance, honce, hwhose⟩ := settled_run options h
  refine ⟨hsteady.occupancy_eq, hsteady.room, fun i => ?_, hbalance, hwhose,
    hsteady.reclaimed, hsteady.tallied.tally, ?_, fun call hmem => (hsteady.fair call hmem).passed⟩
  · have := honce i
    split_ifs at this <;> omega
  · have hlength := length_eq_tallies (exec callsStep ⟨{ options }, []⟩ events).calls
    rw [← hsteady.tallied.evaluated] at hlength
    simp only [← hsteady.tallied.tally] at hlength
    exact hlength

/-- One place: a call sheds while another is in flight, the next takes the place of an evaluation
that was abandoned and reclaimed, and the late verdict of that evaluation frees nothing more. -/
def crowded : List CallEvent :=
  [.start 0, .start 1, .deadline 0, .resume 0 11, .start 12, .reclaim 0, .start 13,
    .settle 0 14 (.value (some .pass)), .answer 0, .finished 0, .settle 3 15 (.value (some .pass)),
    .answer 3, .resume 3 16, .finished 3]

theorem bulkhead_run_crowded :
    Timed 0 crowded ∧
      (exec callsStep ⟨{ options := ⟨10, 1⟩ }, []⟩ crowded).composer.occupancy ≤ 1 ∧
      (exec callsStep ⟨{ options := ⟨10, 1⟩ }, []⟩ crowded).calls.map LayerCall.outcome =
        [some (.error .timeout), some .shed, some .shed, some .pass] := by
  have htimed : Timed 0 crowded := by
    simp [crowded, Timed, CallEvent.now?]
    norm_num
  exact ⟨htimed, (bulkhead_run ⟨10, 1⟩ htimed).room, by decide +kernel⟩

end LayerComposer

end Limitmark.Plane
