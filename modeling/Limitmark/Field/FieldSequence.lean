import Mathlib.Data.Rat.Floor
import Mathlib.Algebra.Order.Ring.NNRat
import Limitmark.Foundations.Checks
import Limitmark.Field.FieldState

/-!
# The sequence that ends a level

`lab/defense/field-state.ts`, `runSequence`: the steps in order, each with its own budget, under one
hard cap. Times are those the clock shows since the sequence began, and a step starts where it reads
the clock for its own duration.

A step whose `run` throws before it returns a promise ends the sequence with that error. Without such
a step among those that start, every step has its result, every essential one runs, and none that is
not starts once the cap is spent (`completes_iff`).
-/

namespace Limitmark.Field

open Limitmark.Foundations

/-! ## Steps and what they do -/

structure SequenceStep where
  name : String
  budgetMs : ℚ
  essential : Bool
  deriving DecidableEq, Repr

/-- What a call of `run` does. -/
inductive Body
  | resolves (after : ℚ≥0)
  | rejects (after : ℚ≥0) (error : String)
  | hangs
  /-- No promise is returned. -/
  | throws (error : String)
  deriving DecidableEq

/-- The time a step takes where it is run, and what it does. -/
structure Course where
  /-- From the last reading of the clock to the check of the cap. -/
  idle : ℚ≥0
  /-- The hook `before`, whose errors are ignored. -/
  hook : ℚ≥0
  body : Body
  /-- How far from its time the timer fires. -/
  drift : ℚ
  /-- From the end of the race to the next reading of the clock. -/
  lag : ℚ≥0
  deriving DecidableEq

structure StepResult where
  name : String
  ok : Bool
  timedOut : Bool
  skippedByCap : Bool
  ms : ℤ
  error : Option String
  deriving DecidableEq, Repr

inductive Outcome
  | ok
  | timeout
  | error (error : String)
  deriving DecidableEq, Repr

/-- Who comes first, the promise or the timer, and when. -/
def race (course : Course) (delay : ℚ) : Except String (ℚ≥0 × Outcome) :=
  let fires := (max 1 delay + course.drift).toNNRat
  match course.body with
  | .resolves after => .ok (if after ≤ fires then (after, .ok) else (fires, .timeout))
  | .rejects after error => .ok (if after ≤ fires then (after, .error error) else (fires, .timeout))
  | .hangs => .ok (fires, .timeout)
  | .throws error => .error error

/-- `Math.round` -/
def round (x : ℚ) : ℤ := ⌊x + 1 / 2⌋

/-- One step under a timeout, with the time it took. -/
def runBounded (step : SequenceStep) (course : Course) (budgetMs : ℚ) :
    Except String (StepResult × ℚ≥0) :=
  (race course budgetMs).map fun (raced, outcome) =>
    let took := course.hook + raced + course.lag
    let ms := round took
    match outcome with
    | .ok => (⟨step.name, true, false, false, ms, none⟩, took)
    | .timeout => (⟨step.name, false, true, false, ms, none⟩, took)
    | .error error => (⟨step.name, false, false, false, ms, some error⟩, took)

/-! ## The sequence -/

/-- A step of the sequence: its result, when it started if it did, and when it was over. -/
structure Turn where
  result : StepResult
  startedAt : Option ℚ≥0
  endedAt : ℚ≥0
  deriving DecidableEq

structure Progress where
  now : ℚ≥0 := 0
  capSpent : Bool := false
  /-- What is returned. The caller may supply the list, which each step is pushed on as it completes. -/
  results : List StepResult := []
  turns : List Turn := []
  deriving DecidableEq

abbrev Item := SequenceStep × Course

/-- The step is skipped. -/
def Skips (hardCapMs : ℚ) (s : Progress) (item : Item) : Prop :=
  (s.capSpent = true ∨ hardCapMs - (s.now + item.2.idle : ℚ≥0) ≤ 0) ∧ item.1.essential = false

instance (hardCapMs : ℚ) (s : Progress) (item : Item) : Decidable (Skips hardCapMs s item) :=
  inferInstanceAs (Decidable (_ ∧ _))

/-- The timer of the step is set to what is left of the cap. -/
def CapBound (hardCapMs : ℚ) (step : SequenceStep) (startedAt : ℚ≥0) : Prop :=
  step.essential = false ∧ max 1 (hardCapMs - startedAt) ≤ step.budgetMs

instance (hardCapMs : ℚ) (step : SequenceStep) (startedAt : ℚ≥0) :
    Decidable (CapBound hardCapMs step startedAt) :=
  inferInstanceAs (Decidable (_ ∧ _))

def takeTurn (hardCapMs : ℚ) (s : Progress) (item : Item) : Except String Progress :=
  let (step, course) := item
  let startedAt := s.now + course.idle
  if Skips hardCapMs s item then
    let result : StepResult := ⟨step.name, false, false, true, 0, none⟩
    .ok { s with
      now := startedAt
      results := s.results ++ [result]
      turns := s.turns ++ [⟨result, none, startedAt⟩] }
  else
    let remaining := hardCapMs - startedAt
    let budget := min step.budgetMs (if step.essential then step.budgetMs else max 1 remaining)
    (runBounded step course budget).map fun (result, took) =>
      { now := startedAt + took
        capSpent := s.capSpent || (CapBound hardCapMs step startedAt && result.timedOut)
        results := s.results ++ [result]
        turns := s.turns ++ [⟨result, some startedAt, startedAt + took⟩] }

def runSequence (hardCapMs : ℚ) (results : List StepResult) (items : List Item) :
    Except String Progress :=
  items.foldlM (takeTurn hardCapMs) { results }

/-! ## What a sequence owes -/

/-- The step was cut at the cap. -/
def CutAtCap (hardCapMs : ℚ) (item : Item) (turn : Turn) : Prop :=
  turn.result.timedOut = true ∧
    ∃ startedAt, turn.startedAt = some startedAt ∧ CapBound hardCapMs item.1 startedAt

/-- The cap is spent once a step is over: by the clock, or because the step was cut at it. -/
def SpentAfter (hardCapMs : ℚ) (item : Item) (turn : Turn) : Prop :=
  hardCapMs ≤ turn.endedAt ∨ CutAtCap hardCapMs item turn

structure Ended (hardCapMs : ℚ) (items : List Item) (s : Progress) : Prop where
  /-- One result for every step, in order. -/
  results : List.Forall₂ (fun item result => result.name = item.1.name) items
    (s.turns.map Turn.result)
  essential : List.Forall₂ (fun item turn => item.1.essential = true → turn.startedAt ≠ none) items
    s.turns
  skipped : ∀ turn ∈ s.turns, turn.result.skippedByCap = true ↔ turn.startedAt = none
  /-- None that is not essential starts when the clock shows the cap. -/
  started : List.Forall₂ (fun item turn => item.1.essential = false →
    ∀ startedAt : ℚ≥0, turn.startedAt = some startedAt → (startedAt : ℚ) < hardCapMs) items s.turns
  /-- None that is not essential starts after a step that left the cap spent. -/
  spent : (items.zip s.turns).Pairwise fun earlier later =>
    SpentAfter hardCapMs earlier.1 earlier.2 → later.1.1.essential = false →
      later.2.startedAt = none

/-- The sequence returns, and what it returns is in order: the results of the steps behind those that
were supplied. -/
def Completes (hardCapMs : ℚ) (results : List StepResult) (items : List Item) : Prop :=
  ∃ s, runSequence hardCapMs results items = .ok s ∧ Ended hardCapMs items s ∧
    s.results = results ++ s.turns.map Turn.result

def Throws (item : Item) : Prop := ∃ error, item.2.body = .throws error

/-- Every step that throws is one that is skipped where the sequence comes to it. -/
def Harmless (hardCapMs : ℚ) (results : List StepResult) (items : List Item) : Prop :=
  ∀ before item after, items = before ++ item :: after → ∀ s,
    runSequence hardCapMs results before = .ok s → Throws item → Skips hardCapMs s item

/-! ## One step -/

variable {hardCapMs : ℚ} {results : List StepResult}

theorem runBounded_eq {step : SequenceStep} {course : Course} {budgetMs : ℚ} {result : StepResult}
    {took : ℚ≥0} (h : runBounded step course budgetMs = .ok (result, took)) :
    result.name = step.name ∧ result.skippedByCap = false := by
  obtain ⟨⟨raced, outcome⟩, -, hresult⟩ := map_eq_ok.1 h
  cases outcome <;> cases hresult <;> exact ⟨rfl, rfl⟩

/-- A step returns unless it throws. -/
theorem runBounded_ok (step : SequenceStep) (course : Course) (budgetMs : ℚ) :
    (∃ result, runBounded step course budgetMs = .ok result) ↔ ¬ Throws (step, course) := by
  unfold runBounded race Throws
  cases course.body <;> simp [Except.map]

/-- Where the sequence comes to a step it goes on, unless the step is run and throws. -/
theorem takeTurn_ok (s : Progress) (item : Item) :
    (∃ s', takeTurn hardCapMs s item = .ok s') ↔ (Throws item → Skips hardCapMs s item) := by
  obtain ⟨step, course⟩ := item
  by_cases hskips : Skips hardCapMs s (step, course)
  · exact iff_of_true ⟨_, if_pos hskips⟩ fun _ => hskips
  · rw [← not_imp_not, forall_prop_of_true hskips, ← runBounded_ok step course
      (min step.budgetMs (if step.essential then step.budgetMs
        else max 1 (hardCapMs - (s.now + course.idle : ℚ≥0))))]
    simp only [takeTurn, if_neg hskips, map_eq_ok]
    constructor
    · rintro ⟨s', result, hresult, -⟩
      exact ⟨result, hresult⟩
    · rintro ⟨result, hresult⟩
      exact ⟨_, result, hresult, rfl⟩

/-- What a turn adds. -/
structure Adds (hardCapMs : ℚ) (s : Progress) (item : Item) (turn : Turn) (s' : Progress) : Prop where
  turns : s'.turns = s.turns ++ [turn]
  results : s'.results = s.results ++ [turn.result]
  name : turn.result.name = item.1.name
  now : turn.endedAt = s'.now
  later : s.now + item.2.idle ≤ s'.now
  skipped : turn.result.skippedByCap = true ↔ turn.startedAt = none
  started : ∀ startedAt, turn.startedAt = some startedAt →
    startedAt = s.now + item.2.idle ∧ ¬ Skips hardCapMs s item
  skips : turn.startedAt = none → item.1.essential = false
  spent : s.capSpent = true ∨ CutAtCap hardCapMs item turn → s'.capSpent = true

theorem takeTurn_adds {s s' : Progress} {item : Item} (h : takeTurn hardCapMs s item = .ok s') :
    ∃ turn, Adds hardCapMs s item turn s' := by
  obtain ⟨step, course⟩ := item
  by_cases hskips : Skips hardCapMs s (step, course)
  · simp only [takeTurn, if_pos hskips, Except.ok.injEq] at h
    subst h
    exact ⟨_, {
      turns := rfl
      results := rfl
      name := rfl
      now := rfl
      later := le_rfl
      skipped := iff_of_true rfl rfl
      started := nofun
      skips := fun _ => hskips.2
      spent := fun hspent => hspent.resolve_right fun hcut => nomatch hcut.1 }⟩
  · simp only [takeTurn, if_neg hskips, map_eq_ok] at h
    obtain ⟨⟨result, took⟩, hresult, rfl⟩ := h
    obtain ⟨hname, hrun⟩ := runBounded_eq hresult
    refine ⟨_, {
      turns := rfl
      results := rfl
      name := hname
      now := rfl
      later := le_self_add
      skipped := by simp [hrun]
      started := fun startedAt hstarted => ⟨(Option.some.inj hstarted).symm, hskips⟩
      skips := nofun
      spent := ?_ }⟩
    rintro (hspent | ⟨htimedOut, startedAt, hstarted, hbound⟩)
    · simp [hspent]
    · obtain rfl := Option.some.inj hstarted
      simp_all

/-! ## The whole sequence -/

/-- What holds of the sequence after the steps it has come to. -/
structure Inv (hardCapMs : ℚ) (results : List StepResult) (items : List Item) (s : Progress) :
    Prop where
  ended : Ended hardCapMs items s
  results : s.results = results ++ s.turns.map Turn.result
  past : ∀ turn ∈ s.turns, turn.endedAt ≤ s.now
  cut : ∀ entry ∈ items.zip s.turns, CutAtCap hardCapMs entry.1 entry.2 → s.capSpent = true

theorem Ended.length {items : List Item} {s : Progress} (h : Ended hardCapMs items s) :
    items.length = s.turns.length := by
  rw [h.results.length_eq, List.length_map]

theorem inv_nil : Inv hardCapMs results [] { results } :=
  ⟨⟨.nil, .nil, fun _ h => absurd h List.not_mem_nil, .nil, .nil⟩, (List.append_nil results).symm,
    fun _ h => absurd h List.not_mem_nil, fun _ h => absurd h List.not_mem_nil⟩

/-- A step after which the cap is spent has those skipped that are not essential. -/
theorem skips_of_spent {items : List Item} {s : Progress} (h : Inv hardCapMs results items s)
    {entry : Item × Turn} (hentry : entry ∈ items.zip s.turns)
    (hspent : SpentAfter hardCapMs entry.1 entry.2) {item : Item} (hitem : item.1.essential = false) :
    Skips hardCapMs s item := by
  refine ⟨?_, hitem⟩
  rcases hspent with hclock | hcut
  · right
    have hover := h.past entry.2 (List.of_mem_zip hentry).2
    have hnow : (entry.2.endedAt : ℚ) ≤ (s.now + item.2.idle : ℚ≥0) :=
      NNRat.coe_le_coe.2 (hover.trans le_self_add)
    exact sub_nonpos.2 (hclock.trans hnow)
  · exact .inl (h.cut entry hentry hcut)

theorem inv_takeTurn {items : List Item} {s s' : Progress} {item : Item} (h : Inv hardCapMs results items s)
    (hturn : takeTurn hardCapMs s item = .ok s') : Inv hardCapMs results (items ++ [item]) s' := by
  obtain ⟨turn, hadds⟩ := takeTurn_adds hturn
  have hlength := h.ended.length
  have hzip : (items ++ [item]).zip s'.turns = items.zip s.turns ++ [(item, turn)] := by
    rw [hadds.turns, List.zip_append hlength]
    rfl
  have hsnoc {R : Item → Turn → Prop} (hbefore : List.Forall₂ R items s.turns) (hlast : R item turn) :
      List.Forall₂ R (items ++ [item]) s'.turns := by
    rw [hadds.turns]
    exact List.rel_append hbefore (.cons hlast .nil)
  refine ⟨⟨?_, ?_, ?_, ?_, ?_⟩, ?_, ?_, ?_⟩
  · rw [List.forall₂_map_right_iff]
    exact hsnoc (List.forall₂_map_right_iff.1 h.ended.results) hadds.name
  · refine hsnoc h.ended.essential fun hessential hnone => ?_
    rw [hadds.skips hnone] at hessential
    cases hessential
  · rw [hadds.turns, List.forall_mem_append]
    exact ⟨h.ended.skipped, List.forall_mem_singleton.2 hadds.skipped⟩
  · refine hsnoc h.ended.started fun hessential startedAt hstarted => ?_
    obtain ⟨rfl, hskips⟩ := hadds.started startedAt hstarted
    have hleft : 0 < hardCapMs - (s.now + item.2.idle : ℚ≥0) := by
      by_contra hspent
      exact hskips ⟨.inr (not_lt.1 hspent), hessential⟩
    exact sub_pos.1 hleft
  · rw [hzip, List.pairwise_append]
    refine ⟨h.ended.spent, List.pairwise_singleton _ _, fun entry hentry later hlater hspent hitem => ?_⟩
    obtain rfl := List.mem_singleton.1 hlater
    by_contra hstarted
    obtain ⟨startedAt, hstarted⟩ := Option.ne_none_iff_exists'.1 hstarted
    exact (hadds.started startedAt hstarted).2 (skips_of_spent h hentry hspent hitem)
  · rw [hadds.results, hadds.turns, h.results, List.map_append, List.append_assoc]
    rfl
  · rw [hadds.turns, List.forall_mem_append]
    exact ⟨fun turn hturn => (h.past turn hturn).trans (le_self_add.trans hadds.later),
      List.forall_mem_singleton.2 hadds.now.le⟩
  · rw [hzip, List.forall_mem_append]
    exact ⟨fun entry hentry hcut => hadds.spent (.inl (h.cut entry hentry hcut)),
      List.forall_mem_singleton.2 fun hcut => hadds.spent (.inr hcut)⟩

theorem runSequence_snoc (items : List Item) (item : Item) :
    runSequence hardCapMs results (items ++ [item]) =
      (runSequence hardCapMs results items >>= fun s => takeTurn hardCapMs s item) := by
  rw [runSequence, List.foldlM_append]
  simp [runSequence]

theorem inv_runSequence {items : List Item} {s : Progress}
    (h : runSequence hardCapMs results items = .ok s) : Inv hardCapMs results items s := by
  induction items using List.reverseRecOn generalizing s with
  | nil =>
    obtain rfl : { results } = s := Except.ok.inj h
    exact inv_nil
  | append_singleton items item ih =>
    rw [runSequence_snoc, bind_eq_ok] at h
    obtain ⟨before, hbefore, hturn⟩ := h
    exact inv_takeTurn (ih hbefore) hturn

theorem harmless_snoc (items : List Item) (item : Item) :
    Harmless hardCapMs results (items ++ [item]) ↔ Harmless hardCapMs results items ∧
      ∀ s, runSequence hardCapMs results items = .ok s → Throws item → Skips hardCapMs s item := by
  constructor
  · intro h
    refine ⟨fun before other after hitems => h before other (after ++ [item]) (by simp [hitems]), ?_⟩
    exact h items item [] rfl
  · rintro ⟨hbefore, hlast⟩ before other after hitems
    rcases List.eq_nil_or_concat' after with rfl | ⟨after, last, rfl⟩
    · obtain ⟨rfl, hitem⟩ := List.append_inj' hitems rfl
      obtain rfl := List.singleton_inj.1 hitem
      exact hlast
    · rw [← List.cons_append, ← List.append_assoc] at hitems
      exact hbefore before other after (List.append_inj' hitems rfl).1

/-- The sequence returns exactly when no step that starts throws. -/
theorem runSequence_ok (items : List Item) :
    (∃ s, runSequence hardCapMs results items = .ok s) ↔ Harmless hardCapMs results items := by
  induction items using List.reverseRecOn with
  | nil => exact iff_of_true ⟨_, rfl⟩ fun before item after h => by simp at h
  | append_singleton items item ih =>
    rw [harmless_snoc, ← ih, runSequence_snoc]
    simp only [bind_eq_ok]
    constructor
    · rintro ⟨s', s, hbefore, hturn⟩
      refine ⟨⟨s, hbefore⟩, fun other hother => ?_⟩
      obtain rfl := Except.ok.inj (hbefore.symm.trans hother)
      exact (takeTurn_ok s item).1 ⟨s', hturn⟩
    · rintro ⟨⟨s, hbefore⟩, hlast⟩
      obtain ⟨s', hturn⟩ := (takeTurn_ok s item).2 (hlast s hbefore)
      exact ⟨s', s, hbefore, hturn⟩

/-- **A sequence does all it owes exactly when no step that starts throws before its promise.** -/
theorem completes_iff (results : List StepResult) (items : List Item) :
    Completes hardCapMs results items ↔ Harmless hardCapMs results items := by
  rw [← runSequence_ok]
  exact exists_congr fun s => and_iff_left_of_imp fun hrun =>
    ⟨(inv_runSequence hrun).ended, (inv_runSequence hrun).results⟩

/-! ## The end of a level -/

/-- **A stop is irreversible, and the sequence completes exactly when no step that starts throws before
its promise.** -/
theorem field_stop_iff (clock : ℚ) (before after : List FieldCall) (results : List StepResult)
    (items : List Item) :
    Irreversible (exec FieldMachine.call (.create clock) before)
        (exec FieldMachine.call (.create clock) (before ++ after)) ∧
      Completes hardCapMs results items ↔ Harmless hardCapMs results items :=
  (and_iff_right (calls_irreversible clock before after)).trans (completes_iff results items)

/-- A step that throws before its promise, and the evidence after it. -/
def sampleItems : List Item :=
  [(⟨"drain", 200, false⟩, ⟨0, 0, .throws "TypeError", 0, 0⟩),
    (⟨"finalize_evidence", 200, true⟩, ⟨0, 0, .resolves 1, 0, 0⟩)]

/-- The sequence ends with the error, and the evidence is not written. -/
theorem not_completes_sampleItems : ¬ ∀ (clock hardCapMs : ℚ) (before after : List FieldCall)
    (results : List StepResult) (items : List Item),
    Irreversible (exec FieldMachine.call (.create clock) before)
        (exec FieldMachine.call (.create clock) (before ++ after)) ∧
      Completes hardCapMs results items := by
  intro h
  obtain ⟨-, s, hrun, -⟩ := h 0 5000 [] [] [] sampleItems
  have hstarts : ¬ Skips 5000 {} (⟨"drain", 200, false⟩, ⟨0, 0, .throws "TypeError", 0, 0⟩) := by
    rintro ⟨hspent | hspent, -⟩
    · cases hspent
    · norm_num at hspent
  have hthrown : runSequence 5000 [] sampleItems = .error "TypeError" := by
    simp only [runSequence, sampleItems, List.foldlM_cons, takeTurn, if_neg hstarts]
    rfl
  rw [hthrown] at hrun
  cases hrun

end Limitmark.Field
