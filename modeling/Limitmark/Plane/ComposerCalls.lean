import Limitmark.Foundations.Cells
import Limitmark.Plane.Composer

/-!
# Calls of a layer composer, one by one

`run` of `defense/core/composer.ts` as a machine on its calls. Every `await`, every timer and every
reaction of a promise is an event of its own, so that a settlement, a deadline, the end of a call and
the reclaim timer of an abandoned evaluation come in any order. A call has its own variables of
`run`; the composer's counters are shared.

A call holds a place in the bulkhead from its start until it ends, and if it ends abandoned, until
its evaluation settles or is reclaimed. Every event of a call moves the numbers the composer keeps as
it moves the call (`moves_callStep`), and keeps what is true of the call (`fair_callStep`).
-/

namespace Limitmark.Plane

open Limitmark.Defense Limitmark.Foundations

namespace LayerComposer

/-- How an evaluation settles; a value that is no verdict is `none`. -/
inductive Answer
  | error
  | value (verdict : Option LayerVerdict)
  deriving DecidableEq, Repr

/-- What the race of a call came to. -/
inductive Race
  | deadline
  | answer (answer : Answer)
  deriving DecidableEq, Repr

/-- The variables of one call. `answer` is the evaluation's, with the time it settled; `settled` is
the variable the evaluation's last reaction sets. -/
structure LayerCall where
  startedAt : ℚ
  answer : Option (Answer × ℚ) := none
  race : Option Race := none
  settled : Bool := false
  abandonedCounted : Bool := false
  reclaimArmed : Bool := false
  outcome : Option LayerOutcome := none
  deriving DecidableEq, Repr

namespace LayerCall

def running (call : LayerCall) : Bool := call.outcome.isNone

/-- The call ended with an outcome of a kind. -/
def ended (p : LayerOutcome → Bool) (call : LayerCall) : Bool := call.outcome.any p

/-- The call has a place in the bulkhead. -/
def holds (call : LayerCall) : Bool := call.running || call.abandonedCounted

end LayerCall

structure ComposerRun where
  composer : LayerComposer
  calls : List LayerCall := []

/-- What happens next; a call is named by its number. -/
inductive CallEvent
  /-- `run` is called. -/
  | start (now : ℚ)
  /-- The evaluation settles. -/
  | settle (i : ℕ) (now : ℚ) (answer : Answer)
  /-- The evaluation's reaction reaches the race. -/
  | answer (i : ℕ)
  /-- The deadline's timer fires. -/
  | deadline (i : ℕ)
  /-- `run` goes on after the race. -/
  | resume (i : ℕ) (now : ℚ)
  /-- The evaluation's last reaction. -/
  | finished (i : ℕ)
  /-- The reclaim timer fires. -/
  | reclaim (i : ℕ)
  deriving DecidableEq, Repr

/-- The call an event is about. -/
def CallEvent.call : CallEvent → Option ℕ
  | .start _ => none
  | .settle i _ _ | .answer i | .deadline i | .resume i _ | .finished i | .reclaim i => some i

/-- The reading of the clock. -/
def CallEvent.now? : CallEvent → Option ℚ
  | .start now | .settle _ now _ | .resume _ now => some now
  | _ => none

/-- The winner of a race, when `run` goes on. -/
def winnerOf (call : LayerCall) (now : ℚ) : Race → Winner
  | .deadline => .deadline call.settled
  | .answer .error => .error
  | .answer (.value verdict) => .verdict verdict (now - call.startedAt)

/-- One event of a call; an event that is not enabled does nothing. -/
def callStep (composer : LayerComposer) (call : LayerCall) : CallEvent → LayerComposer × LayerCall
  | .start _ => (composer, call)
  | .settle _ now answer =>
    if call.answer.isNone && call.outcome != some .shed then
      (composer, { call with answer := some (answer, now) })
    else (composer, call)
  | .answer _ =>
    match call.answer, call.race with
    | some (answer, _), none => (composer, { call with race := some (.answer answer) })
    | _, _ => (composer, call)
  | .deadline _ =>
    if call.race.isNone && call.running then (composer, { call with race := some .deadline })
    else (composer, call)
  | .resume _ now =>
    match call.outcome, call.race with
    | none, some race =>
      let winner := winnerOf call now race
      let abandoned := decide (winner = .deadline false)
      ((composer.leave winner).1, { call with
        outcome := some (composer.leave winner).2
        abandonedCounted := abandoned
        reclaimArmed := abandoned })
    | _, _ => (composer, call)
  | .finished _ =>
    if call.answer.isSome && !call.settled then
      (if call.abandonedCounted then composer.settle else composer,
        { call with settled := true, abandonedCounted := false, reclaimArmed := false })
    else (composer, call)
  | .reclaim _ =>
    if call.reclaimArmed then
      (if call.abandonedCounted then composer.reclaim else composer,
        { call with abandonedCounted := false, reclaimArmed := false })
    else (composer, call)

/-- One event. -/
def callsStep (s : ComposerRun) (event : CallEvent) : ComposerRun × Unit :=
  match event with
  | .start now =>
    let call : LayerCall :=
      { startedAt := now, outcome := if s.composer.enter.2 then none else some .shed }
    (⟨s.composer.enter.1, s.calls ++ [call]⟩, ())
  | event =>
    match event.call with
    | none => (s, ())
    | some i =>
      match s.calls[i]? with
      | none => (s, ())
      | some call =>
        (⟨(callStep s.composer call event).1, s.calls.set i (callStep s.composer call event).2⟩, ())

/-! ## What the composer counts -/

/-- The calls a composer keeps a number of. -/
inductive Tally
  | inFlight
  | abandonedLive
  | pass
  | reject
  | shed
  | error (kind : LayerErrorKind)
  deriving DecidableEq

/-- The number a composer keeps. -/
def tally (c : LayerComposer) : Tally → ℕ
  | .inFlight => c.inFlight
  | .abandonedLive => c.abandonedLive
  | .pass => c.counters.pass
  | .reject => c.counters.reject
  | .shed => c.counters.shed
  | .error .throw => c.counters.error.throw
  | .error .timeout => c.counters.error.timeout
  | .error .invalidVerdict => c.counters.error.invalidVerdict

/-- An outcome is of the kind a number is kept of. -/
def Tally.ofOutcome : LayerOutcome → Tally
  | .pass => .pass
  | .reject _ => .reject
  | .shed => .shed
  | .error kind => .error kind

/-- The call is among those a number is kept of. -/
def LayerCall.counted (call : LayerCall) : Tally → Bool
  | .inFlight => call.running
  | .abandonedLive => call.abandonedCounted
  | k => call.outcome.any fun outcome => Tally.ofOutcome outcome = k

/-- **The composer counts its calls.** -/
structure Tallied (s : ComposerRun) : Prop where
  evaluated : s.composer.counters.evaluated = s.calls.length
  tally : ∀ k, s.composer.tally k = s.calls.countP (·.counted k)

/-- What is true of a call: how it can be abandoned, and what it took for it to pass. -/
structure Fair (timeoutMs clock : ℚ) (call : LayerCall) : Prop where
  abandoned : call.abandonedCounted = true →
    call.reclaimArmed = true ∧ call.settled = false ∧ call.outcome = some (.error .timeout)
  answered : ∀ answer at', call.answer = some (answer, at') → at' ≤ clock
  raced : ∀ answer, call.race = some (.answer answer) → ∃ at', call.answer = some (answer, at')
  passed : call.outcome = some .pass → call.race = some (.answer (.value (some .pass))) ∧
    ∃ at', call.answer = some (.value (some .pass), at') ∧ at' - call.startedAt ≤ timeoutMs

variable {c : LayerComposer} {call : LayerCall} {timeoutMs clock now : ℚ} {s : ComposerRun}

theorem Fair.tick (h : Fair timeoutMs clock call) (hclock : clock ≤ now) :
    Fair timeoutMs now call :=
  ⟨h.abandoned, fun answer at' hanswer => (h.answered answer at' hanswer).trans hclock, h.raced,
    h.passed⟩

theorem outcomeOf_ne_shed (timeoutMs : ℚ) (winner : Winner) : outcomeOf timeoutMs winner ≠ .shed := by
  cases winner with
  | deadline settled => simp [outcomeOf]
  | error => simp [outcomeOf]
  | verdict verdict elapsed =>
    cases verdict with
    | none => simp [outcomeOf]
    | some verdict =>
      simp only [outcomeOf]
      split_ifs
      · simp
      · cases verdict <;> simp

/-- Only a pass in time is a pass. -/
theorem outcomeOf_eq_pass {winner : Winner} (h : outcomeOf timeoutMs winner = .pass) :
    ∃ elapsed ≤ timeoutMs, winner = .verdict (some .pass) elapsed := by
  cases winner with
  | deadline settled => cases h
  | error => cases h
  | verdict verdict elapsed =>
    cases verdict with
    | none => cases h
    | some verdict =>
      simp only [outcomeOf] at h
      split_ifs at h with hlate
      cases verdict with
      | pass => exact ⟨elapsed, not_lt.1 hlate, rfl⟩
      | reject reason => cases h

/-- The end of a call: one call fewer in flight, and its outcome one more of its kind. -/
theorem tally_leave (winner : Winner) (k : Tally) (hk : k ≠ .inFlight) (hk' : k ≠ .abandonedLive) :
    (c.leave winner).1.tally k =
      c.tally k + if Tally.ofOutcome (c.leave winner).2 = k then 1 else 0 := by
  have hshed := outcomeOf_ne_shed c.options.timeoutMs winner
  rw [leave_snd]
  simp only [leave]
  generalize outcomeOf c.options.timeoutMs winner = outcome at hshed
  cases outcome with
  | pass =>
    rcases k with _ | _ | _ | _ | _ | (_ | _ | _) <;>
      simp_all [tally, countOutcome, Tally.ofOutcome]
  | reject reason =>
    rcases k with _ | _ | _ | _ | _ | (_ | _ | _) <;>
      simp_all [tally, countOutcome, Tally.ofOutcome]
  | shed => exact absurd rfl hshed
  | error kind =>
    cases kind <;> rcases k with _ | _ | _ | _ | _ | (_ | _ | _) <;>
      simp_all [tally, countOutcome, Tally.ofOutcome]

/-! ## One event of one call -/

/-- What an event of a call does to the composer: it moves every number as it moves the call, and it
gives the call no place that it did not have. -/
structure Moves (c : LayerComposer) (call : LayerCall) (c' : LayerComposer) (call' : LayerCall) :
    Prop where
  evaluated : c'.counters.evaluated = c.counters.evaluated
  options : c'.options = c.options
  tally : ∀ k, c'.tally k + (if call.counted k then 1 else 0) =
    c.tally k + if call'.counted k then 1 else 0
  holds : call'.holds = true → call.holds = true

/-- An event that moves no number. -/
theorem Moves.of_eq {call' : LayerCall} (houtcome : call'.outcome = call.outcome)
    (habandoned : call'.abandonedCounted = call.abandonedCounted) : Moves c call c call' := by
  refine ⟨rfl, rfl, fun k => ?_, fun h => ?_⟩
  · have hk : call'.counted k = call.counted k := by
      cases k <;> simp only [LayerCall.counted, LayerCall.running, houtcome, habandoned]
    rw [hk]
  · rw [← h]
    simp only [LayerCall.holds, LayerCall.running, houtcome, habandoned]

theorem Moves.refl : Moves c call c call := Moves.of_eq rfl rfl

/-- The end of a call that runs. -/
theorem moves_leave {winner : Winner} (hrunning : call.outcome = none)
    (hflight : 0 < c.inFlight) (hnot : call.abandonedCounted = false) :
    Moves c call (c.leave winner).1 { call with
      outcome := some (c.leave winner).2
      abandonedCounted := decide (winner = .deadline false)
      reclaimArmed := decide (winner = .deadline false) } := by
  refine ⟨?_, rfl, fun k => ?_, fun _ => ?_⟩
  · simp only [leave]
    cases outcomeOf c.options.timeoutMs winner with
    | error kind => cases kind <;> rfl
    | _ => rfl
  · by_cases hk : k = .inFlight
    · subst hk
      simp only [LayerCall.counted, LayerCall.running, hrunning, LayerComposer.tally, leave]
      simp only [Option.isNone_none, Option.isNone_some, if_true]
      simp
      omega
    by_cases hk' : k = .abandonedLive
    · subst hk'
      simp only [LayerCall.counted, LayerComposer.tally, leave, hnot]
      simp
    rw [tally_leave winner k hk hk']
    rcases k with _ | _ | _ | _ | _ | kind
    · exact absurd rfl hk
    · exact absurd rfl hk'
    all_goals
      simp only [LayerCall.counted, hrunning, Option.any_none, Option.any_some, decide_eq_true_eq]
      simp
  · rw [LayerCall.holds, LayerCall.running, hrunning]
    rfl

/-- The end of an abandoned evaluation, noted by its own reaction or by the timer. -/
theorem moves_release {c' : LayerComposer} {call' : LayerCall} (hc' : c'.counters = c.counters ∨
      c'.counters = { c.counters with abandonedReclaimed := c.counters.abandonedReclaimed + 1 })
    (hoptions : c'.options = c.options) (hflight : c'.inFlight = c.inFlight)
    (hlive : c'.abandonedLive + (if call.abandonedCounted then 1 else 0) = c.abandonedLive)
    (houtcome : call'.outcome = call.outcome) (hnot : call'.abandonedCounted = false) :
    Moves c call c' call' := by
  refine ⟨?_, hoptions, fun k => ?_, fun h => ?_⟩
  · rcases hc' with hc' | hc' <;> rw [hc']
  · by_cases hk : k = .abandonedLive
    · subst hk
      have hcounted : call'.counted .abandonedLive = false := hnot
      rw [hcounted]
      exact hlive
    · have hcounted : call'.counted k = call.counted k := by
        cases k with
        | abandonedLive => exact absurd rfl hk
        | _ => simp only [LayerCall.counted, LayerCall.running, houtcome]
      have htally : c'.tally k = c.tally k := by
        cases k with
        | inFlight => exact hflight
        | abandonedLive => exact absurd rfl hk
        | error kind => cases kind <;> rcases hc' with hc' | hc' <;> simp only [LayerComposer.tally, hc']
        | _ => rcases hc' with hc' | hc' <;> simp only [LayerComposer.tally, hc']
      rw [hcounted, htally]
  · rw [LayerCall.holds, hnot, Bool.or_false, LayerCall.running, houtcome] at h
    rw [LayerCall.holds, LayerCall.running, h]
    rfl

/-- **One event of one call** moves the numbers with the call. -/
theorem moves_callStep (h : Fair timeoutMs clock call)
    (hflight : call.running = true → 0 < c.inFlight)
    (hlive : call.abandonedCounted = true → 0 < c.abandonedLive) (event : CallEvent) :
    Moves c call (callStep c call event).1 (callStep c call event).2 := by
  cases event with
  | start now => exact Moves.refl
  | settle i now answer =>
    rw [callStep]
    split_ifs
    · exact Moves.of_eq rfl rfl
    · exact Moves.refl
  | answer i =>
    rw [callStep]
    split
    · exact Moves.of_eq rfl rfl
    · exact Moves.refl
  | deadline i =>
    rw [callStep]
    split_ifs
    · exact Moves.of_eq rfl rfl
    · exact Moves.refl
  | resume i now =>
    rw [callStep]
    split
    · next race houtcome hrace =>
      have hnot : call.abandonedCounted = false := by
        by_contra hcounted
        rw [Bool.not_eq_false] at hcounted
        have := (h.abandoned hcounted).2.2
        rw [houtcome] at this
        cases this
      exact moves_leave houtcome (hflight (by rw [LayerCall.running, houtcome]; rfl)) hnot
    · exact Moves.refl
  | finished i =>
    rw [callStep]
    split_ifs with hanswer habandoned
    · refine moves_release (Or.inl rfl) rfl rfl ?_ rfl rfl
      have := hlive habandoned
      rw [habandoned]
      simp only [LayerComposer.settle, if_true]
      omega
    · refine moves_release (Or.inl rfl) rfl rfl ?_ rfl rfl
      rw [if_neg habandoned]
      rfl
    · exact Moves.refl
  | reclaim i =>
    rw [callStep]
    split_ifs with harmed habandoned
    · refine moves_release (Or.inr rfl) rfl rfl ?_ rfl rfl
      have := hlive habandoned
      rw [habandoned]
      simp only [LayerComposer.reclaim, if_true]
      omega
    · refine moves_release (Or.inl rfl) rfl rfl ?_ rfl rfl
      rw [if_neg habandoned]
      rfl
    · exact Moves.refl

/-- One event of one call keeps what is true of it. -/
theorem fair_callStep (h : Fair c.options.timeoutMs clock call) (event : CallEvent)
    (hclock : ∀ now ∈ event.now?, clock ≤ now) :
    Fair c.options.timeoutMs (event.now?.getD clock) (callStep c call event).2 := by
  cases event with
  | start now => exact h.tick (hclock now rfl)
  | settle i now answer =>
    have htick := h.tick (hclock now rfl)
    rw [callStep]
    split_ifs with hnew
    · have hnone : call.answer = none := by
        rw [Bool.and_eq_true, Option.isNone_iff_eq_none] at hnew
        exact hnew.1
      refine ⟨htick.abandoned, ?_, ?_, ?_⟩
      · intro answer' at' heq
        obtain ⟨rfl, rfl⟩ := Prod.mk.inj (Option.some.inj heq)
        exact le_rfl
      · intro answer' hrace
        obtain ⟨at', hanswer⟩ := htick.raced answer' hrace
        rw [hnone] at hanswer
        cases hanswer
      · intro hpass
        obtain ⟨-, at', hanswer, -⟩ := htick.passed hpass
        rw [hnone] at hanswer
        cases hanswer
    · exact htick
  | answer i =>
    rw [callStep]
    split
    · next answer at' hanswer hrace =>
      refine ⟨h.abandoned, h.answered, ?_, ?_⟩
      · intro answer' heq
        obtain rfl := Race.answer.inj (Option.some.inj heq)
        exact ⟨at', hanswer⟩
      · intro hpass
        have := (h.passed hpass).1
        rw [hrace] at this
        cases this
    · exact h
  | deadline i =>
    rw [callStep]
    split_ifs with hfires
    · rw [Bool.and_eq_true, LayerCall.running, Option.isNone_iff_eq_none,
        Option.isNone_iff_eq_none] at hfires
      refine ⟨h.abandoned, h.answered, ?_, ?_⟩
      · intro answer heq
        cases Option.some.inj heq
      · intro hpass
        rw [hfires.2] at hpass
        cases hpass
    · exact h
  | resume i now =>
    have htick := h.tick (hclock now rfl)
    rw [callStep]
    split
    · next race houtcome hrace =>
      refine ⟨?_, htick.answered, htick.raced, ?_⟩
      · intro habandoned
        have hwinner := of_decide_eq_true habandoned
        cases race with
        | deadline =>
          rw [winnerOf, Winner.deadline.injEq] at hwinner
          exact ⟨habandoned, hwinner, rfl⟩
        | answer answer => cases answer <;> cases hwinner
      · intro hpass
        have hpass' := Option.some.inj hpass
        rw [leave_snd] at hpass'
        obtain ⟨elapsed, hle, hwinner⟩ := outcomeOf_eq_pass hpass'
        cases race with
        | deadline => cases hwinner
        | answer answer =>
          cases answer with
          | error => cases hwinner
          | value verdict =>
            obtain ⟨rfl, rfl⟩ := Winner.verdict.inj hwinner
            obtain ⟨at', hanswer⟩ := htick.raced _ hrace
            refine ⟨hrace, at', hanswer, ?_⟩
            have hat := htick.answered _ _ hanswer
            exact (sub_le_sub_right hat _).trans hle
    · exact htick
  | finished i =>
    rw [callStep]
    split_ifs
    · refine ⟨?_, h.answered, h.raced, h.passed⟩
      rintro ⟨⟩
    · refine ⟨?_, h.answered, h.raced, h.passed⟩
      rintro ⟨⟩
    · exact h
  | reclaim i =>
    rw [callStep]
    split_ifs
    · refine ⟨?_, h.answered, h.raced, h.passed⟩
      rintro ⟨⟩
    · refine ⟨?_, h.answered, h.raced, h.passed⟩
      rintro ⟨⟩
    · exact h

end LayerComposer

end Limitmark.Plane
