import Limitmark.Plane.StageDecision

/-!
# The accounting of the L2 stage

What the buckets of the lanes counted, against what the stage recorded. In every run in which no
verdict on an open operation is discarded, the two agree to the token, the calls still suspended
included (`exact_exec`): the admissions of a bucket are the recorded admissions of its lane, its
discarded admissions and the suspended ones, and its takes are those and the sheds, each recorded,
touched or suspended. A marker is recorded only where a take of that lane was made in the run, and
every decision satisfies its rules.

The invariant keeps, for every suspended call, the step of the run that made its decision.
-/

namespace Limitmark.Plane

open Limitmark.Defense Limitmark.Lanes Limitmark.Foundations Limitmark.Ledger

/-- The steps of a run of the stage. -/
abbrev StageTrace := List (Entry L2Stage (L2Stage.Op × Readings) (Option LaneDecision))

/-- The decisions a run recorded and returned, in order. -/
def recorded (tr : StageTrace) : List LaneDecision := tr.filterMap Entry.out

/-- A step of the run took `k` from the bucket of `lane`. -/
def TookIn (tr : StageTrace) (lane : Lane2) (k : Taken) : Prop :=
  ∃ e ∈ tr, JourneyLanes.Took lane k e.pre.lanes e.post.lanes

/-- The suspended calls whose decision passes a test. -/
def waiting (p : LaneDecision → Bool) (s : L2Stage) : ℕ := s.pending.countP fun c => c.made.any p

/-- The books of a run that leads to `s` are exact. -/
structure Exact (tr : StageTrace) (s : L2Stage) : Prop where
  admitted : ∀ lane : Lane2, lane ≠ .open → (s.lanes.bucket lane).admittedCount =
    (recorded tr).countP (admittedIn lane) + s.lanes.spentOn lane + waiting (admittedIn lane) s
  takes : ∀ lane : Lane2, lane ≠ .open → (s.lanes.bucket lane).takes =
    (recorded tr).countP (admittedIn lane) + s.lanes.spentOn lane +
      waiting (admittedIn lane) s + (recorded tr).countP (shedIn lane) +
      (recorded tr).countP (touchedIn lane) + waiting (shedIn lane) s
  spentOn : ∀ lane : Lane2, lane ≠ .open →
    s.lanes.spentOn lane = (recorded tr).countP (spentIn lane)
  counts : ∀ key, (s.lanes.decisionCounts.lookup key).getD 0 =
    (recorded tr).countP fun d => (d.cls, d.lane, d.outcome) = key
  spent : ∀ d ∈ recorded tr, ∀ lane, d.spent = some lane →
    lane ≠ .open ∧ ∃ k, TookIn tr lane k ∧ k.ok = true ∧ Reports d k
  touched : ∀ d ∈ recorded tr, ∀ lane, d.touched = some lane →
    lane ≠ .open ∧ ∃ k, TookIn tr lane k ∧ k.ok = false ∧ Reports d k
  rules : ∀ d ∈ recorded tr, ∀ view, decisionRules view d = []

/-- A suspended call's decision was made by the lanes in the run. -/
structure Suspended (tr : StageTrace) (call : Call) : Prop where
  madeFor : ∀ made, call.made = some made → MadeFor call.cls made
  took : ∀ cls lane creditTag k, call.made = some (takenDecision cls lane creditTag k) →
    TookIn tr lane k

/-- The invariant of a run. -/
structure Booked (tr : StageTrace) (s : L2Stage) : Prop extends Exact tr s where
  calls : ∀ call ∈ s.pending, Suspended tr call

/-! ## A longer run -/

variable {C : Crypto} {tr : StageTrace} {s : L2Stage}
  {e : Entry L2Stage (L2Stage.Op × Readings) (Option LaneDecision)}

theorem recorded_concat : recorded (tr ++ [e]) = recorded tr ++ e.out.toList := by
  cases h : e.out <;> simp [recorded, List.filterMap_append, h]

theorem TookIn.mono {lane : Lane2} {k : Taken} (h : TookIn tr lane k) :
    TookIn (tr ++ [e]) lane k := by
  obtain ⟨f, hf, htook⟩ := h
  exact ⟨f, List.mem_append_left _ hf, htook⟩

theorem Suspended.mono {call : Call} (h : Suspended tr call) : Suspended (tr ++ [e]) call where
  madeFor := h.madeFor
  took cls lane creditTag k hk := (h.took cls lane creditTag k hk).mono

/-- A step that records nothing keeps the books if it keeps the recorded counters and moves the
buckets with the suspended calls. -/
theorem Booked.quiet (h : Booked tr s) (s' : L2Stage) (hout : e.out = none)
    (hrecords : s'.lanes.decisionCounts = s.lanes.decisionCounts ∧ s'.lanes.spent = s.lanes.spent)
    (hcounters : ∀ lane : Lane2, lane ≠ .open →
      (s'.lanes.bucket lane).admittedCount + waiting (admittedIn lane) s =
        (s.lanes.bucket lane).admittedCount + waiting (admittedIn lane) s' ∧
      (s'.lanes.bucket lane).takes + waiting (admittedIn lane) s + waiting (shedIn lane) s =
        (s.lanes.bucket lane).takes + waiting (admittedIn lane) s' + waiting (shedIn lane) s')
    (hsuspended : ∀ call ∈ s'.pending, Suspended (tr ++ [e]) call) : Booked (tr ++ [e]) s' := by
  have hrec : recorded (tr ++ [e]) = recorded tr := by
    rw [recorded_concat, hout, Option.toList_none, List.append_nil]
  have hspent (lane : Lane2) : s'.lanes.spentOn lane = s.lanes.spentOn lane := by
    rw [JourneyLanes.spentOn, JourneyLanes.spentOn, hrecords.2]
  refine ⟨⟨?_, ?_, ?_, ?_, ?_, ?_, ?_⟩, hsuspended⟩ <;> rw [hrec]
  · intro lane hlane
    have := h.admitted lane hlane
    have := (hcounters lane hlane).1
    rw [hspent]
    omega
  · intro lane hlane
    have := h.takes lane hlane
    have := (hcounters lane hlane).2
    rw [hspent]
    omega
  · intro lane hlane
    rw [hspent, h.spentOn lane hlane]
  · rw [hrecords.1]
    exact h.counts
  · intro d hd lane hs
    obtain ⟨hopen, k, htook, hk⟩ := h.spent d hd lane hs
    exact ⟨hopen, k, htook.mono, hk⟩
  · intro d hd lane ht
    obtain ⟨hopen, k, htook, hk⟩ := h.touched d hd lane ht
    exact ⟨hopen, k, htook.mono, hk⟩
  · exact h.rules

/-! ## The steps -/

/-- A call that enters: the lanes decide, and the decision waits. -/
theorem Booked.enter (h : Booked tr s) (t : Readings) (request : LayerRequest)
    (he : e = entry (L2Stage.step C) s (.enter request, t)) :
    Booked (tr ++ [e]) (s.enter C t request) := by
  have hout : e.out = none := by rw [he]; rfl
  have hcalls (call : Call) (hc : call ∈ s.pending) : Suspended (tr ++ [e]) call :=
    (h.calls call hc).mono
  by_cases hentered : s.composer.enter.2 = true
  · have hs' : s.enter C t request =
        { lanes := (s.lanes.decide C t request).1, composer := s.composer.enter.1,
          pending := s.pending ++ [⟨request, some (s.lanes.decide C t request).2⟩] } := by
      simp [L2Stage.enter, hentered]
    have hshape := JourneyLanes.decide_shape C t request s.lanes
    have hrecords := JourneyLanes.records_step C s.lanes (.decide request, t)
    rw [hs']
    refine h.quiet _ hout hrecords (fun lane hlane => ?_) (fun call hc => ?_)
    · have hadmitted := hshape.admittedCount hlane
      have htakes := hshape.takes hlane
      simp only [waiting, List.countP_append, List.countP_singleton, Option.any_some]
      omega
    · rcases List.mem_append.1 hc with hc | hc
      · exact hcalls call hc
      · obtain rfl := List.mem_singleton.1 hc
        refine ⟨fun made hmade => ?_, fun cls lane creditTag k hk => ?_⟩
        · obtain rfl := Option.some.inj hmade
          exact ⟨_, _, hshape⟩
        · have htook := hshape.took (Option.some.inj hk)
          refine ⟨e, by simp, ?_⟩
          rw [he]
          change JourneyLanes.Took lane k s.lanes (s.enter C t request).lanes
          rw [hs']
          exact htook
  · have hs' : s.enter C t request = { s with
        composer := s.composer.enter.1, pending := s.pending ++ [⟨request, none⟩] } := by
      simp [L2Stage.enter, hentered]
    rw [hs']
    refine h.quiet _ hout ⟨rfl, rfl⟩ (fun lane _ => ?_) (fun call hc => ?_)
    · simp [waiting]
    · rcases List.mem_append.1 hc with hc | hc
      · exact hcalls call hc
      · obtain rfl := List.mem_singleton.1 hc
        exact ⟨by simp, by simp⟩

/-- A call that settles: its decision moves from the waiting ones to the recorded ones. -/
theorem Booked.finish (h : Booked tr s) {i : ℕ} {elapsed : ℚ} {call : Call}
    (hcall : s.pending[i]? = some call)
    (hopen : ¬ call.DiscardsOpen s.composer.options.timeoutMs elapsed)
    (hout : e.out = some (call.decision s.composer.options.timeoutMs elapsed)) :
    Booked (tr ++ [e]) (s.finish i elapsed).1 := by
  obtain ⟨hi, hget⟩ := List.getElem?_eq_some_iff.1 hcall
  have hmem : call ∈ s.pending := hget ▸ List.getElem_mem hi
  have hsusp := h.calls call hmem
  have hsettles := settles_decision s.composer.options.timeoutMs elapsed hsusp.madeFor hopen
  have hrules := (decisionRules_decision · s.composer.options.timeoutMs elapsed hsusp.madeFor)
  have hrec : recorded (tr ++ [e]) = recorded tr ++ [call.decision s.composer.options.timeoutMs
      elapsed] := by
    rw [recorded_concat, hout, Option.toList_some]
  have hperm : s.pending.Perm (call :: s.pending.eraseIdx i) := by
    rw [← hget]
    exact (List.getElem_cons_eraseIdx_perm hi).symm
  have hwaiting (p : LaneDecision → Bool) : waiting p s =
      waiting p (s.finish i elapsed).1 + if call.made.any p then 1 else 0 := by
    rw [waiting, hperm.countP_eq, List.countP_cons]
    simp only [waiting, L2Stage.finish, hcall]
  have hlanes : (s.finish i elapsed).1.lanes =
      s.lanes.record (call.decision s.composer.options.timeoutMs elapsed) := by
    simp only [L2Stage.finish, hcall]
  have hpending : ∀ c ∈ (s.finish i elapsed).1.pending, c ∈ s.pending := by
    simp only [L2Stage.finish, hcall]
    exact fun c hc => List.mem_of_mem_eraseIdx hc
  generalize call.decision s.composer.options.timeoutMs elapsed = d at *
  generalize (s.finish i elapsed).1 = s' at *
  have hspentOpen : d.spent ≠ some .open := fun hs => (hsettles.spent _ hs).1 rfl
  have hspentOn (lane : Lane2) (hlane : lane ≠ .open) : s'.lanes.spentOn lane =
      s.lanes.spentOn lane + if spentIn lane d then 1 else 0 := by
    rw [hlanes, JourneyLanes.spentOn_record d hspentOpen hlane]
    simp only [spentIn, decide_eq_true_eq]
  refine ⟨⟨?_, ?_, ?_, ?_, ?_, ?_, ?_⟩, fun c hc => (h.calls c (hpending c hc)).mono⟩ <;> rw [hrec]
  · intro lane hlane
    have := h.admitted lane hlane
    have := hsettles.admitted lane hlane
    have := hwaiting (admittedIn lane)
    rw [hspentOn lane hlane, hlanes, JourneyLanes.bucket_record, List.countP_append,
      List.countP_singleton]
    omega
  · intro lane hlane
    have := h.takes lane hlane
    have := hsettles.admitted lane hlane
    have := hsettles.shed lane hlane
    have := hwaiting (admittedIn lane)
    have := hwaiting (shedIn lane)
    rw [hspentOn lane hlane, hlanes, JourneyLanes.bucket_record]
    simp only [List.countP_append, List.countP_singleton]
    omega
  · intro lane hlane
    rw [hspentOn lane hlane, h.spentOn lane hlane, List.countP_append, List.countP_singleton]
  · intro key
    rw [hlanes, JourneyLanes.decisionCounts_record, h.counts, List.countP_append,
      List.countP_singleton]
    simp only [decide_eq_true_eq]
  · intro f hf lane hs
    rcases List.mem_append.1 hf with hf | hf
    · obtain ⟨hne, k, htook, hk⟩ := h.spent f hf lane hs
      exact ⟨hne, k, htook.mono, hk⟩
    · obtain rfl := List.mem_singleton.1 hf
      obtain ⟨hne, cls, creditTag, k, hmade, hk⟩ := hsettles.spent lane hs
      exact ⟨hne, k, (hsusp.took cls lane creditTag k hmade).mono, hk⟩
  · intro f hf lane ht
    rcases List.mem_append.1 hf with hf | hf
    · obtain ⟨hne, k, htook, hk⟩ := h.touched f hf lane ht
      exact ⟨hne, k, htook.mono, hk⟩
    · obtain rfl := List.mem_singleton.1 hf
      obtain ⟨hne, cls, creditTag, k, hmade, hk⟩ := hsettles.touched lane ht
      exact ⟨hne, k, (hsusp.took cls lane creditTag k hmade).mono, hk⟩
  · intro f hf view
    rcases List.mem_append.1 hf with hf | hf
    · exact h.rules f hf view
    · obtain rfl := List.mem_singleton.1 hf
      exact (hrules view).2 hopen

/-- An operation of the lanes that takes from no bucket keeps the books. -/
theorem Booked.lanes (h : Booked tr s) (op : JourneyLanes.Op × Readings)
    (hop : ∀ request, op.1 ≠ .decide request) (hout : e.out = none) :
    Booked (tr ++ [e]) { s with lanes := (JourneyLanes.step C s.lanes op).1 } := by
  refine h.quiet _ hout (JourneyLanes.records_step C s.lanes op) (fun lane _ => ?_)
    fun call hc => (h.calls call hc).mono
  obtain ⟨hadmitted, htakes⟩ := JourneyLanes.counters_step C s.lanes op hop lane
  simp only [waiting]
  omega

/-- Every step keeps the books, unless it discards an open verdict. -/
theorem Booked.step (h : Booked tr s) (op : L2Stage.Op × Readings)
    (hopen : s.discardsOpen op = false) :
    Booked (tr ++ [entry (L2Stage.step C) s op]) (L2Stage.step C s op).1 := by
  obtain ⟨request | ⟨i, elapsed⟩ | token | _, t⟩ := op
  · exact h.enter t request rfl
  · cases hcall : s.pending[i]? with
    | none =>
      have hs' : (L2Stage.step C s (.finish i elapsed, t)) = (s, none) := by
        simp [L2Stage.step, L2Stage.finish, hcall]
      have hquiet := h.quiet (e := entry (L2Stage.step C) s (.finish i elapsed, t)) s
        (by rw [entry_out, hs']) ⟨rfl, rfl⟩ (fun _ _ => ⟨rfl, rfl⟩)
        (fun call hc => (h.calls call hc).mono)
      rwa [hs']
    | some call =>
      have hkeeps : ¬ call.DiscardsOpen s.composer.options.timeoutMs elapsed := by
        simpa [L2Stage.discardsOpen, hcall] using hopen
      refine h.finish hcall hkeeps ?_
      simp [L2Stage.step, L2Stage.finish, hcall]
  · exact h.lanes (C := C) (.enroll token, t) (by simp) rfl
  · exact h.lanes (C := C) (.snapshot, t) (by simp) rfl

/-! ## Runs -/

/-- No step of a run discards an open verdict. -/
def KeepsOpen (C : Crypto) (s : L2Stage) (ops : List (L2Stage.Op × Readings)) : Prop :=
  ∀ e ∈ trace (L2Stage.step C) s ops, e.pre.discardsOpen e.input = false

/-- The books of a new stage are exact. -/
theorem booked_create {config : LanesConfig} {t : Readings} {lanes : JourneyLanes}
    (hlanes : JourneyLanes.create config t = .ok lanes) {timeoutMs maxConcurrent : ℚ}
    (hs : L2Stage.create lanes timeoutMs maxConcurrent = .ok s) : Booked [] s := by
  obtain ⟨-, fp, cp, up, lp, -, -, -, -, rfl⟩ := JourneyLanes.create_eq_ok hlanes
  obtain ⟨hl, hpending⟩ := L2Stage.create_eq_ok hs
  refine ⟨⟨?_, ?_, ?_, ?_, by simp [recorded], by simp [recorded], by simp [recorded]⟩,
    by simp [hpending]⟩
  · intro lane hlane
    cases lane <;>
      simp_all [recorded, waiting, JourneyLanes.bucket, JourneyLanes.spentOn, TokenBucket.init]
  · intro lane hlane
    cases lane <;>
      simp_all [recorded, waiting, JourneyLanes.bucket, JourneyLanes.spentOn, TokenBucket.init]
  · intro lane hlane
    cases lane <;> simp_all [recorded, JourneyLanes.spentOn]
  · intro key
    simp [hl, recorded]

/-- **Bucket accounting is exact.** In every run of a new stage in which no verdict on an open
operation is discarded, whatever enters, settles and is enrolled in whatever order, the books are
exact. -/
theorem exact_exec (C : Crypto) {config : LanesConfig} {t : Readings} {lanes : JourneyLanes}
    (hlanes : JourneyLanes.create config t = .ok lanes) {timeoutMs maxConcurrent : ℚ}
    (hs : L2Stage.create lanes timeoutMs maxConcurrent = .ok s)
    (ops : List (L2Stage.Op × Readings)) (hopen : KeepsOpen C s ops) :
    Exact (trace (L2Stage.step C) s ops) (exec (L2Stage.step C) s ops) := by
  suffices Booked (trace (L2Stage.step C) s ops) (exec (L2Stage.step C) s ops) from this.toExact
  induction ops using List.reverseRecOn with
  | nil => exact booked_create hlanes hs
  | append_singleton ops op ih =>
    rw [KeepsOpen, trace_append] at hopen
    rw [trace_append, exec_append]
    have hprefix := ih fun e he => hopen e (List.mem_append_left _ he)
    exact hprefix.step op (hopen _ (List.mem_append_right _ (List.mem_singleton.2 rfl)))

/-! ### A discarded open verdict -/

/-- The stage over the sample lanes, with the deadline and the bulkhead of the plane. -/
def sampleStage : L2Stage where
  lanes := JourneyLanes.sampleLanes
  composer := { options := ⟨50, 64⟩ }

/-- The request of the front page. -/
def sampleGet : LayerRequest where
  method := "GET"
  target := "/"
  headers := []
  bodyStatus := .none
  body := none

/-- A submission without a credit, discarded after 60 ms. -/
def sampleDiscard : List (L2Stage.Op × Readings) :=
  [(.enter (JourneyLanes.samplePost JourneyLanes.sampleToken), ⟨0, 0, 0⟩),
    (.finish 0 60, ⟨0, 0, 0⟩)]

/-- The front page, discarded after 60 ms. -/
def sampleOpenDiscard : List (L2Stage.Op × Readings) :=
  [(.enter sampleGet, ⟨0, 0, 0⟩), (.finish 0 60, ⟨0, 0, 0⟩)]

theorem create_sampleStage : L2Stage.create JourneyLanes.sampleLanes 50 64 = .ok sampleStage := by
  have hc : LayerComposer.create 50 64 = .ok { options := ⟨50, 64⟩ } := by decide
  rw [L2Stage.create, hc]
  rfl

theorem exact_exec_sampleDiscard :
    Exact (trace (L2Stage.step JourneyLanes.sampleCrypto) sampleStage sampleDiscard)
      (exec (L2Stage.step JourneyLanes.sampleCrypto) sampleStage sampleDiscard) :=
  exact_exec JourneyLanes.sampleCrypto JourneyLanes.create_sampleConfig create_sampleStage
    sampleDiscard (by
      rw [KeepsOpen]
      decide)

/-- The degraded decision of a discarded open verdict is counted as a token of the unverified
bucket, which took nothing. -/
theorem not_exact_openDiscard :
    ¬ ∀ (C : Crypto) (config : LanesConfig) (t : Readings) (lanes : JourneyLanes),
      JourneyLanes.create config t = .ok lanes →
      ∀ (timeoutMs maxConcurrent : ℚ) (s : L2Stage),
        L2Stage.create lanes timeoutMs maxConcurrent = .ok s →
        ∀ ops, Exact (trace (L2Stage.step C) s ops) (exec (L2Stage.step C) s ops) := by
  intro h
  have hexact := h JourneyLanes.sampleCrypto _ _ _ JourneyLanes.create_sampleConfig 50 64 _
    create_sampleStage sampleOpenDiscard
  have hadmitted := hexact.admitted .unverified (by decide)
  revert hadmitted
  decide

end Limitmark.Plane
