import Limitmark.Foundations.Run
import Limitmark.Plane.FrontStream

/-!
# The front emits what its validators accept

The run of the handler of one request, up to its end. It can always come to an end (`exec_settled`),
and its stream then breaks no rule of the validators, but for one decision: where the stage
discarded the verdict on an open operation that took too long, the decision it reports carries a
marker that the rules of a decision refuse (`planeClean_exec`).
-/

namespace Limitmark.Plane

open Limitmark.Defense Limitmark.Lanes Limitmark.Foundations Limitmark.Ledger

/-! ## Whole runs -/

/-- What the plane's validators ask of a complete stream: the phase automaton in sequence order, one
terminal event, one verdict of L1, the status the events prescribe, and the rules of L2. -/
def PlaneClean (view : LifecycleView) : Prop :=
  planeWalk view none [] (-1) view.plane = [] ∧ resolutionRules view = [] ∧
    verdictRules view = [] ∧ statusRules view = [] ∧ validateL2Lifecycle view true = []

variable (C : Crypto) (options : FrontOptions) {req : IncomingRequest} {minted : String} {seq : ℤ}

/-- The story of a run is told at every point of it. -/
theorem told_exec (hseq : 0 ≤ seq) (inputs : List Input) :
    Told options.l2.isSome
      (∀ e ∈ trace (FrontState.step C options) (FrontState.accept req minted seq) inputs,
        ¬ e.pre.DiscardsOpen options e.input)
      (exec (FrontState.step C options) (FrontState.accept req minted seq) inputs) := by
  refine @run_induction _ _ _ (FrontState.step C options)
    (fun tr s => Told options.l2.isSome (∀ e ∈ tr, ¬ e.pre.DiscardsOpen options e.input) s) _ ?_ ?_
    inputs
  · simpa using told_accept req minted hseq
  · intro tr s input h
    have hstep := told_step C h input
    simpa [List.forall_mem_append, or_imp, forall_and] using hstep

/-- The stream of a request whose handler is done is clean exactly when its decision keeps the
rules. -/
theorem Told.planeClean_iff {l2 keeps} {s : FrontState} (h : Told l2 keeps s)
    (hdone : s.phase = .done) {view : LifecycleView} (hplane : view.plane = s.events)
    (hl2 : view.l2 = l2) (hprotected : view.protectedLike = true) : PlaneClean view ↔ keeps := by
  cases h with
  | @done story disposition flushed _ hlegal hjudged hdisposes hwritten =>
    have hstream : view.plane.map plain = finished s.incoming story disposition flushed := by
      rw [hplane]
      exact hwritten.plain
    obtain ⟨hresolution, hverdict, hstatus, hvalidate⟩ :=
      validate_finished true hstream hl2 hprotected hlegal hdisposes
    have hkinds : view.plane.map PlaneEvent.kind =
        (finished s.incoming story disposition flushed).map PlaneEvent.kind := by
      rw [← hstream, List.map_map]
      rfl
    have hwalk : planeWalk view none [] (-1) view.plane = [] := by
      rw [planeWalk_eq_nil, hl2, hkinds]
      refine ⟨accepts_finished hlegal hdisposes, ?_⟩
      have hnumbered := hwritten.numbered
      rw [← List.cons_append] at hnumbered
      rw [hplane]
      exact hnumbered.left_of_append
    rw [PlaneClean, hvalidate, hjudged view]
    simp [hwalk, hresolution, hverdict, hstatus]
  | _ => simp_all

/-- **The front emits what its validators accept, but for one decision.** For every request, every
answer of L1, the lanes and the upstream, every moment the client leaves and whatever other requests
do in between: once the handler is done, its stream is clean exactly when no step discarded the
verdict on an open operation. -/
theorem planeClean_exec (hseq : 0 ≤ seq) (inputs : List Input)
    (hdone : (exec (FrontState.step C options) (FrontState.accept req minted seq) inputs).phase =
      .done) {view : LifecycleView}
    (hplane : view.plane =
      (exec (FrontState.step C options) (FrontState.accept req minted seq) inputs).events)
    (hl2 : view.l2 = options.l2.isSome) (hprotected : view.protectedLike = true) :
    PlaneClean view ↔
      ∀ e ∈ trace (FrontState.step C options) (FrontState.accept req minted seq) inputs,
        ¬ e.pre.DiscardsOpen options e.input :=
  (told_exec C options hseq inputs).planeClean_iff hdone hplane hl2 hprotected

/-! ### Every request comes to its end -/

section Settled

variable {options} {keeps : Prop} {s : FrontState}

/-- How far the handler is. -/
def Phase.rank : Phase → ℕ
  | .readingBody => 0
  | .l1 => 1
  | .l2 => 2
  | .forwarding => 3
  | .closing => 4
  | .done => 5

theorem rank_injective {p q : Phase} (h : p.rank = q.rank) : p = q := by
  cases p <;> cases q <;> simp_all [Phase.rank]

theorem rank_tail (s : FrontState) : 4 ≤ s.tail.phase.rank := by
  rw [FrontState.tail]
  split_ifs
  · exact Nat.le_succ 4
  · exact le_rfl

theorem rank_egress (decision : Option LaneDecision) (s : FrontState) :
    3 ≤ (s.egress options decision).phase.rank := by
  rw [FrontState.egress]
  cases options.hop with
  | none => exact le_rfl
  | some issue =>
    dsimp only
    cases issue _ _ _ with
    | ok => exact le_rfl
    | error => exact (Nat.le_succ 3).trans (rank_tail _)

theorem rank_afterL1 (outcome : LayerOutcome) (s : FrontState) :
    2 ≤ (s.afterL1 options outcome).phase.rank := by
  cases outcome with
  | pass =>
    rw [FrontState.afterL1]
    dsimp only
    split_ifs
    · exact le_rfl
    · exact (Nat.le_succ 2).trans (rank_egress none _)
  | _ => exact le_trans (by decide) (rank_tail _)

theorem rank_afterL2 (decision : LaneDecision) (s : FrontState) :
    3 ≤ (s.afterL2 options decision).phase.rank := by
  rw [FrontState.afterL2]
  split_ifs
  · exact rank_egress _ _
  · exact (Nat.le_succ 3).trans (rank_tail _)

theorem rank_upstream (result : Upstream) (s : FrontState) :
    4 ≤ (s.upstream result).phase.rank := by
  cases result <;> exact rank_tail _

/-- An answer that is awaited takes the handler further. -/
theorem rank_step (h : Told options.l2.isSome keeps s) (input : Input) {phase : Phase}
    (hawaited : input.awaitedIn = some phase) (hne : phase ≠ .closing)
    (hrank : phase.rank ≤ s.phase.rank) :
    phase.rank + 1 ≤ (FrontState.step C options s input).1.phase.rank := by
  by_cases hphase : s.phase = phase
  · cases input with
    | close | others => cases hawaited
    | finish => exact absurd (Option.some.inj hawaited).symm hne
    | body =>
      obtain rfl := Option.some.inj hawaited
      rw [FrontState.step_body C hphase]
      exact le_rfl
    | l1 =>
      obtain rfl := Option.some.inj hawaited
      rw [FrontState.step_l1 C hphase]
      exact rank_afterL1 _ _
    | l2 =>
      obtain rfl := Option.some.inj hawaited
      obtain ⟨composer, hcomposer⟩ : ∃ composer, options.l2 = some composer := by
        cases h <;> simp_all [Option.isSome_iff_exists]
      rw [FrontState.step_l2 C hphase hcomposer]
      exact rank_afterL2 _ _
    | upstream =>
      obtain rfl := Option.some.inj hawaited
      rw [FrontState.step_upstream C hphase]
      exact rank_upstream _ _
  · rw [step_unheard C hawaited hphase]
    exact lt_of_le_of_ne hrank fun heq => hphase (rank_injective heq).symm

theorem step_close_of_rank (flushed : Bool) (hrank : 4 ≤ s.phase.rank) :
    (FrontState.step C options s (.close flushed)).1.phase = .done := by
  rw [FrontState.step_close]
  split_ifs with hdone hclosing
  · exact hdone
  · rfl
  · cases hphase : s.phase <;> simp_all [Phase.rank]

/-- **Every request comes to its end**: whatever state its handler is in, the answers it awaits and
the close of its connection end it. -/
theorem exec_settled (h : Told options.l2.isSome keeps s) (body : BodyResult) (l1 : LayerOutcome)
    (lanes : JourneyLanes) (t : Readings) (entered : Bool) (elapsed : ℚ) (result : Upstream)
    (flushed : Bool) :
    (exec (FrontState.step C options) s [.body body, .l1 l1, .l2 lanes t entered elapsed,
      .upstream result, .close flushed]).phase = .done := by
  have h₁ := told_step C h (.body body)
  have h₂ := told_step C h₁ (.l1 l1)
  have h₃ := told_step C h₂ (.l2 lanes t entered elapsed)
  have hr₁ := rank_step C h (.body body) rfl (by simp) (Nat.zero_le _)
  have hr₂ := rank_step C h₁ (.l1 l1) rfl (by simp) hr₁
  have hr₃ := rank_step C h₂ (.l2 lanes t entered elapsed) rfl (by simp) hr₂
  have hr₄ := rank_step C h₃ (.upstream result) rfl (by simp) hr₃
  exact step_close_of_rank C flushed hr₄

end Settled

/-! ### A late front page -/

def sampleOptions : FrontOptions where
  hop := none
  l2 := some ⟨50, 64⟩

/-- A reader asks for the front page. -/
def sampleIncoming : IncomingRequest where
  method := "GET"
  url := "/"
  rawHeaders := [("Host", "127.0.0.1")]
  remote := false

/-- The front page, whose L2 verdict takes `elapsed`. -/
def sampleInputs (elapsed : ℚ) : List Input :=
  [.l1 .pass, .l2 JourneyLanes.sampleLanes ⟨0, 0, 0⟩ true elapsed,
    .upstream (.responded 200 .tokenCountZero), .close true]

def sampleFront (elapsed : ℚ) : FrontState :=
  exec (FrontState.step JourneyLanes.sampleCrypto sampleOptions)
    (FrontState.accept sampleIncoming "n" 0) (sampleInputs elapsed)

def sampleView (elapsed : ℚ) : LifecycleView where
  nonce := "n"
  expected := .protectedLane
  harness := []
  plane := (sampleFront elapsed).events
  origin := []
  l2 := true

theorem planeClean_exec_sampleInputs :
    PlaneClean (sampleView 10) ↔
      ∀ e ∈ trace (FrontState.step JourneyLanes.sampleCrypto sampleOptions)
        (FrontState.accept sampleIncoming "n" 0) (sampleInputs 10),
        ¬ e.pre.DiscardsOpen sampleOptions e.input :=
  planeClean_exec JourneyLanes.sampleCrypto sampleOptions (by decide) (sampleInputs 10)
    (by decide) rfl rfl rfl

/-- The front page, decided after 60 ms, is degraded with a marker that its validator refuses. -/
theorem not_planeClean_late :
    ¬ ∀ (C : Crypto) (options : FrontOptions) (req : IncomingRequest) (minted : String) (seq : ℤ),
      0 ≤ seq → ∀ inputs : List Input,
        (exec (FrontState.step C options) (FrontState.accept req minted seq) inputs).phase =
          .done →
        ∀ view : LifecycleView, view.plane =
          (exec (FrontState.step C options) (FrontState.accept req minted seq) inputs).events →
        view.l2 = options.l2.isSome → view.protectedLike = true → PlaneClean view := by
  intro h
  have hclean := h JourneyLanes.sampleCrypto sampleOptions sampleIncoming "n" 0 (by decide)
    (sampleInputs 60) (by decide) (sampleView 60) rfl rfl rfl
  have hvalidate := hclean.2.2.2.2
  revert hvalidate
  decide

end Limitmark.Plane
