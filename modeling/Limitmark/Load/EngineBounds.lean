import Limitmark.Load.Engine

/-!
# The bounds of the open loop

Whatever the timers, the results, the verifications and the stops do: a phase emits no more than its
rate times its duration and has no more in flight than its concurrency (`Books`), nothing starts
without the checks or after a stale verification (`Proved`), and the starts of any time within a
phase are bounded by its slots and three more (`Paced`).
-/

namespace Limitmark.Load

open Limitmark.Foundations

namespace Engine

/-! ## The books -/

structure PhaseBooks (run : OpenLoopRun) (p : PhaseRun) : Prop where
  place : run.phases[p.index]? = some p.phase
  sum : p.attempted = p.succeeded + p.failed + p.inFlight
  cap : p.attempted ≤ p.phase.phaseCap
  room : p.inFlight ≤ p.phase.concurrency

structure Books (run : OpenLoopRun) (s : Engine) : Prop where
  total : s.totalAttempted ≤ run.maxTotalRequests
  phase : ∀ p, s.dispatcher.phase? = some p → PhaseBooks run p
  pending : ∀ p, s.dispatcher.live? = some p → p.inFlight = p.pending.length
  records : ∀ record ∈ s.phases, record.attempted = record.succeeded + record.failed ∧
    record.attempted ≤ record.planned.phaseCap

variable {run : OpenLoopRun} {s s' : Engine} {out : Option Event}

theorem phase?_of_live? {d : Dispatcher} {p : PhaseRun} (h : d.live? = some p) :
    d.phase? = some p := by
  cases d with
  | looping | draining => exact h
  | proving | starting | returned | rejected => cases h

theorem Enters.phase? {index : ℕ} (h : Enters index s') : s'.dispatcher.phase? = none := by
  rcases h with h | h <;> rw [h] <;> rfl

theorem Enters.live? {index : ℕ} (h : Enters index s') : s'.dispatcher.live? = none := by
  rcases h with h | h <;> rw [h] <;> rfl

namespace PhaseBooks

variable {p : PhaseRun}

/-- A phase with the same counters. -/
theorem congr (h : PhaseBooks run p) {nextSend : ℚ} {dropped : ℕ} {pending : List ℕ} :
    PhaseBooks run
      { p with nextSend := nextSend, dropped := dropped, pending := pending } :=
  ⟨h.place, h.sum, h.cap, h.room⟩

theorem sent (h : PhaseBooks run p) {now ageReading : ℚ} (hchecked : Checked run s p now ageReading) :
    PhaseBooks run (Engine.sent p now) where
  place := h.place
  sum := by
    have hsum := h.sum
    change p.attempted + 1 = p.succeeded + p.failed + (p.inFlight + 1)
    omega
  cap := hchecked.cap
  room := hchecked.room

theorem count (h : PhaseBooks run p) (cursor : ℕ) (result : RequestResult) (hpos : 0 < p.inFlight) :
    PhaseBooks run (p.count cursor result) where
  place := h.place
  sum := by
    have hsum := h.sum
    simp only [PhaseRun.count]
    split <;> omega
  cap := h.cap
  room := (Nat.sub_le _ _).trans h.room

end PhaseBooks

/-- **The books over one step.** -/
theorem Books.move (h : Books run s) (hmove : Move run s s' out) : Books run s' := by
  cases hmove with
  | stays hkept hsame =>
    exact ⟨hkept.total ▸ h.total, hsame ▸ h.phase, hsame ▸ h.pending, hkept.phases ▸ h.records⟩
  | verified _ htotal hphases _ hsame =>
    exact ⟨htotal ▸ h.total, hsame ▸ h.phase, hsame ▸ h.pending, hphases ▸ h.records⟩
  | proved _ htotal hphases _ _ henters =>
    refine ⟨htotal ▸ h.total, fun p hp => ?_, fun p hp => ?_, hphases ▸ h.records⟩
    · rw [henters.phase?] at hp
      cases hp
    · rw [henters.live?] at hp
      cases hp
  | begins hkept _ hplace hlooping =>
    refine ⟨hkept.total ▸ h.total, fun p hp => ?_, fun p hp => ?_, hkept.phases ▸ h.records⟩
    · rw [hlooping] at hp
      cases hp
      exact ⟨hplace, rfl, Nat.zero_le _, Nat.zero_le _⟩
    · rw [hlooping] at hp
      cases hp
      rfl
  | rejects hkept hrejected hmine =>
    refine ⟨hkept.total ▸ h.total, fun q hq => ?_, fun q hq => ?_, hkept.phases ▸ h.records⟩
    · rw [hrejected] at hq
      exact h.phase q (phase?_of_live? (hmine q hq))
    · rw [hrejected] at hq
      cases hq
  | @iterates p wakeAt _ hlooping hiterated =>
    have hphase : PhaseBooks run p := h.phase p (by rw [hlooping]; rfl)
    have hpending : p.inFlight = p.pending.length := h.pending p (by rw [hlooping]; rfl)
    cases hiterated with
    | drains | waits =>
      refine ⟨h.total, fun q hq => ?_, fun q hq => ?_, h.records⟩
      · cases hq
        exact hphase.congr
      · cases hq
        exact hpending
    | throws hchecked =>
      refine ⟨hchecked.total, fun q hq => ?_, nofun, h.records⟩
      cases hq
      exact hphase.sent hchecked
    | sends hchecked =>
      refine ⟨hchecked.total, fun q hq => ?_, fun q hq => ?_, h.records⟩
      · cases hq
        exact (hphase.sent hchecked).congr
      · cases hq
        rw [List.length_append, ← hpending]
        rfl
  | @counts p cursor result hkept hlive hmem hcounted =>
    have hpending := h.pending p hlive
    have hpos : 0 < p.inFlight := hpending ▸ List.length_pos_of_mem hmem
    refine ⟨hkept.total ▸ h.total, fun q hq => ?_, fun q hq => ?_, hkept.phases ▸ h.records⟩
    · rw [phase?_of_live? hcounted] at hq
      cases hq
      exact (h.phase p (phase?_of_live? hlive)).count cursor result hpos
    · rw [hcounted] at hq
      cases hq
      change p.inFlight - 1 = (p.pending.erase cursor).length
      rw [List.length_erase_of_mem hmem, hpending]
  | @records p _ htotal _ hphases hdraining hempty henters =>
    have hphase : PhaseBooks run p := h.phase p (by rw [hdraining]; rfl)
    have hpending : p.inFlight = p.pending.length := h.pending p (by rw [hdraining]; rfl)
    refine ⟨htotal ▸ h.total, fun q hq => ?_, fun q hq => ?_, ?_⟩
    · rw [henters.phase?] at hq
      cases hq
    · rw [henters.live?] at hq
      cases hq
    · rw [hphases]
      refine List.forall_mem_append.2 ⟨h.records, List.forall_mem_singleton.2 ⟨?_, hphase.cap⟩⟩
      have hsum := hphase.sum
      rw [hempty, List.length_nil] at hpending
      change p.attempted = p.succeeded + p.failed
      omega

theorem create_dispatcher (run : OpenLoopRun) (setup : ℚ≥0) :
    (create run setup).dispatcher = .proving ∨ Enters 0 (create run setup) := by
  unfold create
  dsimp only
  split
  · exact .inl rfl
  · exact .inr (enterPhase_enters _ _)

theorem create_phases (run : OpenLoopRun) (setup : ℚ≥0) :
    (create run setup).totalAttempted = 0 ∧ (create run setup).phases = [] := by
  unfold create
  dsimp only
  split
  · exact ⟨rfl, rfl⟩
  · obtain ⟨-, htotal, -, hphases⟩ := @enterPhase_kept run
      { now := run.started + setup, lastOkAt := run.started + setup, dispatcher := .proving } 0
    exact ⟨htotal, hphases⟩

theorem Books.create (run : OpenLoopRun) (setup : ℚ≥0) : Books run (create run setup) := by
  obtain ⟨htotal, hphases⟩ := create_phases run setup
  have hnone : (Engine.create run setup).dispatcher.phase? = none := by
    rcases create_dispatcher run setup with h | h
    · rw [h]; rfl
    · exact h.phase?
  refine ⟨htotal ▸ Nat.zero_le _, fun p hp => ?_, fun p hp => ?_, ?_⟩
  · rw [hnone] at hp
    cases hp
  · rw [phase?_of_live? hp] at hnone
    cases hnone
  · rw [hphases]
    exact fun _ hrecord => absurd hrecord List.not_mem_nil

/-! ## Verifications -/

abbrev Run := List (Entry Engine Input (Option Event))

def Event.verified? : Event → Option ℚ
  | .verified time => some time
  | .dispatched _ => none

def Event.dispatched? : Event → Option Dispatch
  | .dispatched d => some d
  | .verified _ => none

/-- The times of the successful verifications. -/
def verifications (tr : Run) : List ℚ := tr.filterMap fun e => e.out.bind Event.verified?

def dispatches (tr : Run) : List Dispatch := tr.filterMap fun e => e.out.bind Event.dispatched?

/-- The dispatcher is past the first verification. -/
def Past : Dispatcher → Prop
  | .proving | .rejected _ => False
  | _ => True

theorem past_of_live? {d : Dispatcher} {p : PhaseRun} (h : d.live? = some p) : Past d := by
  cases d with
  | looping | draining => trivial
  | proving | starting | returned | rejected => cases h

/-- A dispatcher that is past the first verification goes by the last one. -/
def Proved (tr : Run) (s : Engine) : Prop :=
  Past s.dispatcher → (verifications tr).getLast? = some s.lastOkAt

section Verifications

variable {tr : Run} {e : Entry Engine Input (Option Event)}

theorem verifications_concat (tr : Run) (e : Entry Engine Input (Option Event)) :
    verifications (tr ++ [e]) = verifications tr ++ (e.out.bind Event.verified?).toList := by
  rw [verifications, List.filterMap_append]
  cases h : e.out.bind Event.verified? <;> simp [h, verifications]

theorem dispatches_concat (tr : Run) (e : Entry Engine Input (Option Event)) :
    dispatches (tr ++ [e]) = dispatches tr ++ (e.out.bind Event.dispatched?).toList := by
  rw [dispatches, List.filterMap_append]
  cases h : e.out.bind Event.dispatched? <;> simp [h, dispatches]

theorem Proved.move (h : Proved tr s) (hmove : Move run s s' e.out) : Proved (tr ++ [e]) s' := by
  intro hpast
  rw [verifications_concat]
  generalize e.out = out at hmove
  cases hmove with
  | stays hkept hsame =>
    rw [hkept.lastOkAt, ← h (hsame ▸ hpast)]
    simp
  | verified _ _ _ hok _ => simp [Event.verified?, hok]
  | proved _ _ _ hok _ _ => simp [Event.verified?, hok]
  | begins hkept hstarting _ _ =>
    rw [hkept.lastOkAt, ← h (by rw [hstarting]; trivial)]
    simp
  | rejects _ hrejected _ =>
    rw [hrejected] at hpast
    cases hpast
  | iterates hlooping hiterated =>
    have hlast := h (by rw [hlooping]; trivial)
    cases hiterated with
    | drains | waits | throws | sends => simpa [Event.verified?] using hlast
  | counts hkept hlive _ _ =>
    rw [hkept.lastOkAt, ← h (past_of_live? hlive)]
    simp
  | records _ _ hok _ hdraining _ _ =>
    rw [hok, ← h (by rw [hdraining]; trivial)]
    simp

theorem Proved.create {guard : DestinationGuard} (hguard : run.destination = some guard)
    (setup : ℚ≥0) : Proved [] (create run setup) := by
  intro hpast
  unfold Engine.create at hpast
  simp only [hguard] at hpast
  cases hpast

end Verifications

/-! ## The pace of a phase -/

/-- A start of a phase, paced at a time from `a` on for a time `t`. -/
def InWindow (k : ℕ) (a t : ℚ) (d : Dispatch) : Prop := d.index = k ∧ a ≤ d.now ∧ d.now ≤ a + t

instance (k : ℕ) (a t : ℚ) (d : Dispatch) : Decidable (InWindow k a t d) :=
  inferInstanceAs (Decidable (_ ∧ _))

/-- A start of a phase that was paced before `a` and comes at `a` or later. -/
def Straddles (k : ℕ) (a : ℚ) (d : Dispatch) : Prop := d.index = k ∧ d.now < a ∧ a ≤ d.ageReading

instance (k : ℕ) (a : ℚ) (d : Dispatch) : Decidable (Straddles k a d) :=
  inferInstanceAs (Decidable (_ ∧ _))

/-- The number of phases begun, while there may be more. -/
def begun : Dispatcher → Option ℕ
  | .proving => some 0
  | .starting index => some index
  | .looping p _ | .draining p => some (p.index + 1)
  | .returned | .rejected _ => none

theorem begun_of_live? {d : Dispatcher} {p : PhaseRun} (h : d.live? = some p) :
    begun d = some (p.index + 1) := by
  cases d with
  | looping | draining => cases h; rfl
  | proving | starting | returned | rejected => cases h

theorem Enters.begun {index : ℕ} (h : Enters index s') {m : ℕ}
    (hm : Engine.begun s'.dispatcher = some m) : m = index := by
  rcases h with h | h <;> rw [h] at hm <;> cases hm
  rfl

/-- The starts of phase `k` so far, against the time from `a` on for a time `t`. -/
structure Paced (k : ℕ) (phase : PhaseSpec) (a t : ℚ) (tr : Run) (s : Engine) : Prop where
  begun : ∀ d ∈ dispatches tr, ∀ m, begun s.dispatcher = some m → d.index < m
  age : ∀ d ∈ dispatches tr, d.now ≤ d.ageReading
  bound : ((dispatches tr).countP (InWindow k a t ·) : ℚ) ≤ t / phase.intervalMs + 3
  /-- Every start of the time but the first two has taken a slot of it. -/
  slot : ∀ p, s.dispatcher.live? = some p → p.index = k →
    (dispatches tr).countP (InWindow k a t ·) = 0 ∨
      a + ((dispatches tr).countP (InWindow k a t ·) - 2) * phase.intervalMs ≤ p.nextSend
  straddle : (dispatches tr).countP (Straddles k a ·) ≤ 1
  reached : 0 < (dispatches tr).countP (Straddles k a ·) → a ≤ s.now

namespace Paced

variable {k : ℕ} {phase : PhaseSpec} {a t : ℚ} {tr : Run} {e : Entry Engine Input (Option Event)}

/-- A step in which nothing starts. -/
theorem silent (h : Paced k phase a t tr s) (hout : e.out.bind Event.dispatched? = none)
    (hnow : s.now ≤ s'.now)
    (hbegun : ∀ d ∈ dispatches tr, ∀ m, Engine.begun s'.dispatcher = some m → d.index < m)
    (hslot : ∀ p, s'.dispatcher.live? = some p → p.index = k →
      (dispatches tr).countP (InWindow k a t ·) = 0 ∨
        a + ((dispatches tr).countP (InWindow k a t ·) - 2) * phase.intervalMs ≤ p.nextSend) :
    Paced k phase a t (tr ++ [e]) s' := by
  have hsame : dispatches (tr ++ [e]) = dispatches tr := by
    rw [dispatches_concat, hout]
    exact List.append_nil _
  exact {
    begun := by rw [hsame]; exact hbegun
    age := by rw [hsame]; exact h.age
    bound := by rw [hsame]; exact h.bound
    slot := by rw [hsame]; exact hslot
    straddle := by rw [hsame]; exact h.straddle
    reached := by rw [hsame]; exact fun hpos => (h.reached hpos).trans hnow }

/-- The dispatcher has no phase. -/
theorem of_not_live (h : Paced k phase a t tr s) (hout : e.out.bind Event.dispatched? = none)
    (hnow : s.now ≤ s'.now) (hlive : s'.dispatcher.live? = none)
    (hbegun : ∀ m, Engine.begun s'.dispatcher = some m →
      ∃ m', Engine.begun s.dispatcher = some m' ∧ m' ≤ m) : Paced k phase a t (tr ++ [e]) s' := by
  refine h.silent hout hnow (fun d hd m hm => ?_) fun p hp => ?_
  · obtain ⟨m', hm', hle⟩ := hbegun m hm
    exact (h.begun d hd m' hm').trans_le hle
  · rw [hlive] at hp
    cases hp

/-- The slot of a phase over a start, if it is in the time. -/
theorem slot_sent (hpos : 0 < phase.intervalMs) {n : ℕ} {now nextSend : ℚ}
    (hslot : n = 0 ∨ a + (n - 2) * phase.intervalMs ≤ nextSend) (hnow : a ≤ now) :
    a + ((n + 1 : ℕ) - 2) * phase.intervalMs ≤ advance phase.intervalMs now nextSend := by
  obtain ⟨hnext, hbehind⟩ : nextSend + phase.intervalMs ≤ advance phase.intervalMs now nextSend ∧
      now - phase.intervalMs ≤ advance phase.intervalMs now nextSend := le_advance hpos nextSend
  rcases hslot with rfl | hslot
  · push_cast
    linarith
  · push_cast
    linarith

/-- **The pace over one step.** -/
theorem move (h : Paced k phase a t tr s) (ht : 0 ≤ t) (hplace : run.phases[k]? = some phase)
    (hbooks : Books run s) (hmove : Move run s s' e.out) : Paced k phase a t (tr ++ [e]) s' := by
  have hpos := phase.intervalMs_pos
  have hnonneg : 0 ≤ t / phase.intervalMs := div_nonneg ht hpos.le
  generalize hout : e.out = out at hmove
  have hevent : e.out.bind Event.dispatched? = out.bind Event.dispatched? := by rw [hout]
  cases hmove with
  | stays hkept hsame =>
    exact h.silent hevent hkept.now (hsame ▸ h.begun) (hsame ▸ h.slot)
  | verified hnow _ _ _ hsame => exact h.silent hevent hnow (hsame ▸ h.begun) (hsame ▸ h.slot)
  | proved hnow _ _ _ hproving henters =>
    refine h.of_not_live hevent hnow henters.live? fun m hm => ⟨0, ?_, Nat.zero_le _⟩
    rw [hproving]
    rfl
  | @begins index _ _ _ _ hkept hstarting _ hlooping =>
    have hbefore : ∀ d ∈ dispatches tr, d.index < index := fun d hd =>
      h.begun d hd index (by rw [hstarting]; rfl)
    refine h.silent hevent hkept.now (fun d hd m hm => ?_) fun p hp hindex => .inl ?_
    · rw [hlooping] at hm
      cases hm
      exact (hbefore d hd).trans (Nat.lt_succ_self _)
    · rw [hlooping] at hp
      cases hp
      rw [List.countP_eq_zero]
      intro d hd hin
      have hwindow := of_decide_eq_true hin
      exact absurd hwindow.1 (hindex ▸ (hbefore d hd).ne)
  | rejects hkept hrejected _ =>
    refine h.of_not_live hevent hkept.now (by rw [hrejected]; rfl) fun m hm => ?_
    rw [hrejected] at hm
    cases hm
  | @counts p cursor result hkept hlive _ hcounted =>
    refine h.silent hevent hkept.now (fun d hd m hm => ?_) fun q hq hindex => ?_
    · rw [begun_of_live? hcounted] at hm
      cases hm
      exact h.begun d hd (p.index + 1) (begun_of_live? hlive)
    · rw [hcounted] at hq
      cases hq
      exact h.slot p hlive hindex
  | @records p hnow _ _ _ hdraining _ henters =>
    refine h.of_not_live hevent hnow henters.live? fun m hm => ?_
    cases henters.begun hm
    exact ⟨_, by rw [hdraining]; rfl, le_rfl⟩
  | @iterates p wakeAt _ hlooping hiterated =>
    have hlive : s.dispatcher.live? = some p := by rw [hlooping]; rfl
    have hbegun : ∀ d ∈ dispatches tr, d.index < p.index + 1 := fun d hd =>
      h.begun d hd _ (begun_of_live? hlive)
    cases hiterated with
    | drains hnow hslot | waits hnow hslot =>
      refine h.silent hevent hnow (fun d hd m hm => ?_) fun q hq hindex => ?_
      · cases hm
        exact hbegun d hd
      · cases hq
        exact (h.slot p hlive hindex).imp_right (·.trans hslot)
    | throws hchecked =>
      exact h.of_not_live hevent (hchecked.later.trans hchecked.age) rfl nofun
    | @sends now ageReading hchecked =>
      have hsame : dispatches (tr ++ [e]) = dispatches tr ++
          [⟨p.index, s.cursor, now, ageReading, run.requestAt s.cursor⟩] := by
        rw [dispatches_concat, hevent]
        rfl
      have hcount := h.slot p hlive
      have hphase (hindex : p.index = k) : p.phase = phase := by
        have hmine := (hbooks.phase p (phase?_of_live? hlive)).place
        rw [hindex, hplace] at hmine
        exact (Option.some.inj hmine).symm
      have hold := h.bound
      exact {
        begun := by
          rw [hsame]
          refine List.forall_mem_append.2 ⟨fun d hd m hm => ?_,
            List.forall_mem_singleton.2 fun m hm => ?_⟩
          · cases hm
            exact hbegun d hd
          · cases hm
            exact Nat.lt_succ_self _
        age := by
          rw [hsame]
          exact List.forall_mem_append.2 ⟨h.age, List.forall_mem_singleton.2 hchecked.age⟩
        bound := by
          rw [hsame, List.countP_append, List.countP_singleton]
          simp only [decide_eq_true_eq]
          split
          · next hin =>
            have hslot := hchecked.slot
            rcases hcount hin.1 with hzero | hslots
            · rw [hzero]
              push_cast
              linarith
            · have hmul : (((dispatches tr).countP (InWindow k a t ·) : ℚ) - 2) ≤
                  t / phase.intervalMs := by
                rw [le_div_iff₀ hpos]
                linarith [hin.2.2]
              push_cast
              linarith
          · simpa using hold
        slot := fun q hq hindex => by
          cases hq
          have hindex : p.index = k := hindex
          have hslots := hcount hindex
          rw [hsame, List.countP_append, List.countP_singleton]
          simp only [decide_eq_true_eq]
          change _ ∨ _ ≤ advance p.phase.intervalMs now p.nextSend
          rw [hphase hindex]
          split
          · next hin => exact .inr (slot_sent hpos hslots hin.2.1)
          · rw [Nat.add_zero]
            refine hslots.imp_right (·.trans ?_)
            exact (le_add_of_nonneg_right hpos.le).trans (le_advance hpos _).1
        straddle := by
          rw [hsame, List.countP_append, List.countP_singleton]
          simp only [decide_eq_true_eq]
          split
          · next hlate =>
            have hzero : (dispatches tr).countP (Straddles k a ·) = 0 := by
              by_contra hne
              exact absurd (h.reached (Nat.pos_of_ne_zero hne))
                (not_le.2 (hchecked.later.trans_lt hlate.2.1))
            omega
          · exact h.straddle
        reached := by
          rw [hsame, List.countP_append, List.countP_singleton]
          simp only [decide_eq_true_eq]
          split
          · next hlate => exact fun _ => hlate.2.2
          · exact fun hpos => (h.reached hpos).trans (hchecked.later.trans hchecked.age) }

theorem create (run : OpenLoopRun) (setup : ℚ≥0) (k : ℕ) (phase : PhaseSpec) (a : ℚ) {t : ℚ}
    (ht : 0 ≤ t) : Paced k phase a t [] (Engine.create run setup) where
  begun _ hd := absurd hd List.not_mem_nil
  age _ hd := absurd hd List.not_mem_nil
  bound := by
    have hnonneg : 0 ≤ t / phase.intervalMs := div_nonneg ht phase.intervalMs_pos.le
    have hzero : ((dispatches []).countP (InWindow k a t ·) : ℚ) = 0 := rfl
    linarith
  slot _ _ _ := .inl rfl
  straddle := Nat.zero_le _
  reached hpos := absurd hpos (Nat.lt_irrefl 0)

/-- **The starts of a time**, by the reading that paced them. -/
theorem countP_inWindow_le (h : Paced k phase a t tr s) :
    (dispatches tr).countP (InWindow k a t ·) ≤ ⌊t / phase.intervalMs⌋₊ + 3 := by
  have hbound := h.bound
  generalize (dispatches tr).countP (InWindow k a t ·) = n at hbound ⊢
  rcases Nat.lt_or_ge n 3 with hsmall | hlarge
  · omega
  · obtain ⟨m, rfl⟩ := Nat.exists_eq_add_of_le' hlarge
    have hfloor : m ≤ ⌊t / phase.intervalMs⌋₊ := Nat.le_floor (by push_cast at hbound; linarith)
    omega

/-- By the last reading before a start, there is one start more at most. -/
theorem countP_started_le (h : Paced k phase a t tr s) :
    (dispatches tr).countP (fun d => d.index = k ∧ a ≤ d.ageReading ∧ d.ageReading ≤ a + t) ≤
      ⌊t / phase.intervalMs⌋₊ + 4 := by
  have hsplit (l : List Dispatch) (hl : ∀ d ∈ l, d.now ≤ d.ageReading) :
      l.countP (fun d => d.index = k ∧ a ≤ d.ageReading ∧ d.ageReading ≤ a + t) ≤
        l.countP (InWindow k a t ·) + l.countP (Straddles k a ·) := by
    induction l with
    | nil => exact le_rfl
    | cons d l ih =>
      obtain ⟨hage, hl⟩ := List.forall_mem_cons.1 hl
      have := ih hl
      simp only [List.countP_cons, decide_eq_true_eq]
      by_cases hin : d.index = k ∧ a ≤ d.ageReading ∧ d.ageReading ≤ a + t
      · rw [if_pos hin]
        rcases lt_or_ge d.now a with hlate | hfrom
        · rw [if_pos (show Straddles k a d from ⟨hin.1, hlate, hin.2.1⟩)]
          omega
        · rw [if_pos (show InWindow k a t d from ⟨hin.1, hfrom, hage.trans hin.2.2⟩)]
          omega
      · rw [if_neg hin]
        omega
  have hwindow := h.countP_inWindow_le
  have hstraddle := h.straddle
  have := hsplit _ h.age
  omega

end Paced

/-! ## Runs -/

section Runs

variable (run) (setup : ℚ≥0) (inputs : List Input)

theorem exec_books : Books run (exec (step run) (create run setup) inputs) :=
  exec_invariant _ (Books.create run setup) (fun s input h => h.move (step_move run s input)) inputs

theorem trace_proved {guard : DestinationGuard} (hguard : run.destination = some guard) :
    Proved (trace (step run) (create run setup) inputs)
      (exec (step run) (create run setup) inputs) :=
  run_induction _ (P := fun tr s => Proved tr s) (.create hguard setup)
    (fun _ s input h => h.move (step_move run s input)) inputs

theorem trace_paced {k : ℕ} {phase : PhaseSpec} (hplace : run.phases[k]? = some phase) (a : ℚ)
    {t : ℚ} (ht : 0 ≤ t) :
    Paced k phase a t (trace (step run) (create run setup) inputs)
      (exec (step run) (create run setup) inputs) := by
  have hboth := run_induction (step run) (s := create run setup)
    (P := fun tr s => Books run s ∧ Paced k phase a t tr s)
    ⟨.create run setup, .create run setup k phase a ht⟩
    (fun _ s input h => ⟨h.1.move (step_move run s input),
      h.2.move ht hplace h.1 (step_move run s input)⟩) inputs
  exact hboth.2

/-- What is checked before a request starts. -/
theorem step_checked {s : Engine} {input : Input} {d : Dispatch}
    (h : (s.step run input).2 = some (.dispatched d)) :
    ∃ p wakeAt, s.dispatcher = .looping p wakeAt ∧ Checked run s p d.now d.ageReading := by
  have hmove := step_move run s input
  rw [h] at hmove
  generalize (s.step run input).1 = s' at hmove
  cases hmove with
  | iterates hlooping hiterated =>
    cases hiterated with
    | sends hchecked => exact ⟨_, _, hlooping, hchecked⟩

/-- **Every request starts with its checks behind it**, and not long after a verification. -/
theorem trace_checked {before after : Run} {e : Entry Engine Input (Option Event)}
    (h : trace (step run) (create run setup) inputs = before ++ e :: after) {d : Dispatch}
    (hout : e.out = some (.dispatched d)) :
    e.pre.stopReason = none ∧ e.pre.hardStopped = false ∧ d.now < run.deadline ∧
      ∀ guard, run.destination = some guard → ∃ time, (verifications before).getLast? = some time ∧
        d.ageReading - time ≤ guard.guardMaxStaleMs := by
  obtain ⟨earlier, input, later, -, rfl, rfl, -⟩ := trace_eq_append_cons _ h
  obtain ⟨p, wakeAt, hlooping, hchecked⟩ := step_checked run hout
  refine ⟨hchecked.running, hchecked.allowed, hchecked.deadline, fun guard hguard => ?_⟩
  have hpast : Past (exec (step run) (create run setup) earlier).dispatcher := by
    rw [hlooping]
    trivial
  exact ⟨_, trace_proved run setup earlier hguard hpast, hchecked.fresh guard hguard⟩

/-- **The bounds of the open loop**, in every state that the timers, the results, the verifications
and the stops lead to. -/
theorem open_loop_bounds :
    let s : Engine := exec (step run) (create run setup) inputs
    let tr := trace (step run) (create run setup) inputs
    (∀ p, s.dispatcher.phase? = some p →
      p.attempted ≤ p.phase.ratePerSecond * p.phase.durationSeconds ∧
        p.inFlight ≤ p.phase.concurrency) ∧
    s.totalAttempted ≤ run.maxTotalRequests ∧
    (∀ k phase, run.phases[k]? = some phase → ∀ (a : ℚ) (t : ℚ≥0),
      (dispatches tr).countP (fun d => d.index = k ∧ a ≤ d.now ∧ d.now ≤ a + t) ≤
          ⌊(t : ℚ) / phase.intervalMs⌋₊ + 3 ∧
        (dispatches tr).countP (fun d => d.index = k ∧ a ≤ d.ageReading ∧ d.ageReading ≤ a + t) ≤
          ⌊(t : ℚ) / phase.intervalMs⌋₊ + 4) ∧
    (∀ before e after, tr = before ++ e :: after → ∀ d, e.out = some (.dispatched d) →
      e.pre.stopReason = none ∧ e.pre.hardStopped = false ∧ d.now < run.deadline ∧
        ∀ guard, run.destination = some guard → ∃ time, (verifications before).getLast? = some time ∧
          d.ageReading - time ≤ guard.guardMaxStaleMs) ∧
    ∀ record ∈ s.phases, record.attempted = record.succeeded + record.failed ∧
      record.attempted ≤ record.planned.ratePerSecond * record.planned.durationSeconds := by
  intro s tr
  have hbooks : Books run s := exec_books run setup inputs
  refine ⟨fun p hp => ⟨(hbooks.phase p hp).cap, (hbooks.phase p hp).room⟩, hbooks.total,
    fun k phase hplace a t => ?_, fun before e after h d hout => ?_, hbooks.records⟩
  · have hpaced := trace_paced run setup inputs hplace a t.2
    exact ⟨hpaced.countP_inWindow_le, hpaced.countP_started_le⟩
  · exact trace_checked run setup inputs h hout

end Runs

end Engine

end Limitmark.Load
