import Limitmark.Hop.Verified

/-!
# Runs of a verifier

What every call of a verifier rests on (`Traced`), and what a step does to the guard and to the
reservations of the calls (`step_cases`): no id is forgotten before its time, and a new reservation
is that of a verified request whose ids were free.
-/

namespace Limitmark.Hop

open Limitmark.Defense Limitmark.Plane Limitmark.Foundations

variable (P : Platform) (config : AdmissionConfig) (fenceMs : ℚ) (W : ℚ → Prop)

/-- A request that was verified at some reading of the wall clock, one of those allowed. -/
def Verifies (nowMs : ℚ) (request : AdmissionRequest) (verified : Verified) : Prop :=
  W nowMs ∧ ∃ c, precheck P config fenceMs nowMs request = .ok c ∧
    authenticate P config fenceMs nowMs c = .ok verified

/-- What the body of a request of this length comes to. -/
def bodyOf (bodyLen : ℕ) (events : List StreamEvent) : BodyResult :=
  if bodyLen = 0 then .complete [] else readBody bodyLen [] events

/-- What a call rests on, wherever it is. -/
def CallState.Traced : CallState → Prop
  | .verifying request checked nowMs =>
    W nowMs ∧ precheck P config fenceMs nowMs request = .ok checked
  | .reading request _ r _ => Verifies P config fenceMs W r.nowMs request r.verified ∧
      r.verified.claims.request.bodyLen ≠ 0 ∧
      r.verified.claims.request.bodyLen ≤ MAX_SEMANTIC_BODY
  | .refused reservation _ => ∀ r, reservation = some r →
      ∃ request, Verifies P config fenceMs W r.nowMs request r.verified
  | .admitted r a => ∃ request events, Verifies P config fenceMs W r.nowMs request r.verified ∧
      r.verified.claims.request.bodyLen ≤ MAX_SEMANTIC_BODY ∧
      Verifier.conclude P config.role request r.verified
        (bodyOf r.verified.claims.request.bodyLen events) = .ok a

variable {P config fenceMs W}

theorem Verifies.genuine {nowMs : ℚ} {request : AdmissionRequest} {verified : Verified}
    (h : Verifies P config fenceMs W nowMs request verified) :
    Genuine P config fenceMs nowMs verified := by
  obtain ⟨-, c, hc, ha⟩ := h
  exact genuine_of_authenticate hc ha

/-- A call that made a reservation was verified when it read the wall clock. -/
theorem CallState.Traced.genuine {call : CallState} {r : Reservation}
    (h : call.Traced P config fenceMs W) (hr : call.reservation = some r) :
    Genuine P config fenceMs r.nowMs r.verified := by
  cases call with
  | verifying => cases hr
  | reading =>
    obtain rfl := Option.some.inj hr
    exact h.1.genuine
  | refused =>
    obtain ⟨request, hverifies⟩ := h r hr
    exact hverifies.genuine
  | admitted =>
    obtain rfl := Option.some.inj hr
    obtain ⟨request, events, hverifies, -⟩ := h
    exact hverifies.genuine

namespace Verifier

variable {v : Verifier} {i : ℕ}

/-! ## Every call is traced -/

theorem traced_set {calls : List CallState} {call : CallState}
    (h : ∀ call ∈ calls, call.Traced P config fenceMs W) (hcall : call.Traced P config fenceMs W) :
    ∀ c ∈ calls.set i call, c.Traced P config fenceMs W := by
  intro c hc
  rcases List.mem_or_eq_of_mem_set hc with hc | rfl
  · exact h c hc
  · exact hcall

theorem traced_finish {request : AdmissionRequest} {r : Reservation} {ticket : ReplayTicket}
    {outcome : Except Refused Admitted} (h : ∀ call ∈ v.calls, call.Traced P config fenceMs W)
    (hverifies : Verifies P config fenceMs W r.nowMs request r.verified)
    (hok : ∀ admitted, outcome = .ok admitted →
      r.verified.claims.request.bodyLen ≤ MAX_SEMANTIC_BODY ∧
        ∃ events, conclude P config.role request r.verified
          (bodyOf r.verified.claims.request.bodyLen events) = .ok admitted) :
    ∀ call ∈ (v.finish i r ticket outcome).calls, call.Traced P config fenceMs W := by
  cases outcome with
  | ok admitted =>
    obtain ⟨hle, events, hconclude⟩ := hok admitted rfl
    exact traced_set h ⟨request, events, hverifies, hle, hconclude⟩
  | error refusal =>
    refine traced_set h ?_
    intro r' hr'
    obtain rfl := Option.some.inj hr'
    exact ⟨request, hverifies⟩

theorem outcomeOf_eq_ok {request : AdmissionRequest} {r : Reservation} {read : BodyResult}
    {admitted : Admitted} (h : outcomeOf P config.role request r read = .ok admitted) :
    conclude P config.role request r.verified read = .ok admitted :=
  mapError_eq_ok.1 h

theorem traced_verify {mono nowMs : ℚ} {request : AdmissionRequest} {checked : Checked}
    (h : ∀ call ∈ v.calls, call.Traced P config fenceMs W)
    (hchecked : W nowMs ∧ precheck P config fenceMs nowMs request = .ok checked) :
    ∀ call ∈ (v.verify P config fenceMs i mono request checked nowMs).calls,
      call.Traced P config fenceMs W := by
  have hrefused (refusal : Refused) : (CallState.refused none refusal).Traced P config fenceMs W := by
    rintro r ⟨⟩
  rw [verify]
  cases ha : authenticate P config fenceMs nowMs checked with
  | error refusal => exact traced_set h (hrefused refusal)
  | ok verified =>
    have hverifies : Verifies P config fenceMs W nowMs request verified :=
      ⟨hchecked.1, checked, hchecked.2, ha⟩
    dsimp only
    cases (v.guard.reserve mono (wants config.role verified)).2 with
    | error refusal => cases refusal <;> exact traced_set h (hrefused _)
    | ok ticket =>
      dsimp only
      split_ifs with hlong hempty
      · refine @traced_finish P config fenceMs W _ i request ⟨verified, nowMs, mono⟩ ticket _ h
          hverifies ?_
        rintro admitted ⟨⟩
      · refine @traced_finish P config fenceMs W _ i request ⟨verified, nowMs, mono⟩ ticket _ h
          hverifies ?_
        intro admitted hadmitted
        refine ⟨not_lt.1 hlong, [], ?_⟩
        rw [bodyOf, if_pos hempty]
        exact outcomeOf_eq_ok hadmitted
      · exact traced_set h ⟨hverifies, hempty, not_lt.1 hlong⟩

/-- Every step leaves every call traced. -/
theorem traced_step (h : ∀ call ∈ v.calls, call.Traced P config fenceMs W) (op : Op)
    (hwall : ∀ w, op.wall = some w → W w) :
    ∀ call ∈ (step P config fenceMs v op).1.calls, call.Traced P config fenceMs W := by
  cases op with
  | begin request nowMs =>
    rw [step]
    cases hc : precheck P config fenceMs nowMs request with
    | error refusal =>
      intro call hcall
      rcases List.mem_append.1 hcall with hcall | hcall
      · exact h call hcall
      · rw [List.mem_singleton.1 hcall]
        rintro r ⟨⟩
    | ok checked =>
      intro call hcall
      rcases List.mem_append.1 hcall with hcall | hcall
      · exact h call hcall
      · rw [List.mem_singleton.1 hcall]
        exact ⟨hwall nowMs rfl, hc⟩
  | verify i mono =>
    rw [step]
    cases hcall : v.calls[i]? with
    | none => exact h
    | some call =>
      have htraced := h call (List.mem_of_getElem? hcall)
      cases call with
      | verifying request checked nowMs => exact traced_verify h htraced
      | _ => exact h
  | body i events =>
    rw [step]
    cases hcall : v.calls[i]? with
    | none => exact h
    | some call =>
      have htraced := h call (List.mem_of_getElem? hcall)
      cases call with
      | reading request tag r ticket =>
        obtain ⟨hverifies, hne, hle⟩ := htraced
        refine traced_finish h hverifies fun admitted hadmitted => ?_
        refine ⟨hle, events, ?_⟩
        rw [bodyOf, if_neg hne]
        exact outcomeOf_eq_ok hadmitted
      | _ => exact h
  | fail i =>
    rw [step]
    cases hcall : v.calls[i]? with
    | none => exact h
    | some call =>
      have htraced := h call (List.mem_of_getElem? hcall)
      cases call with
      | reading request tag r ticket =>
        refine traced_finish h htraced.1 ?_
        rintro admitted ⟨⟩
      | _ => exact h

/-! ## What an admission rests on -/

/-- A request is admitted with the proofs it verified. -/
theorem conclude_ids {role : HopRole} {request : AdmissionRequest} {verified : Verified}
    {read : BodyResult} {a : Admitted} (h : conclude P role request verified read = .ok a) :
    a.claims = verified.claims ∧ a.pb = verified.pb := by
  cases read with
  | complete body =>
    simp only [conclude] at h
    split_ifs at h <;> obtain rfl := Except.ok.inj h <;> exact ⟨rfl, rfl⟩
  | _ => cases h

/-- A call that was admitted reserved what it was admitted with. -/
theorem reservationAt_of_admittedAt (h : ∀ call ∈ v.calls, call.Traced P config fenceMs W)
    {a : Admitted} (hi : v.admittedAt i = some a) :
    ∃ r, v.reservationAt i = some r ∧ a.claims = r.verified.claims ∧ a.pb = r.verified.pb := by
  rw [admittedAt] at hi
  split at hi
  · next r a' hcall =>
    obtain rfl := Option.some.inj hi
    obtain ⟨request, events, -, -, hconclude⟩ := h _ (List.mem_of_getElem? hcall)
    exact ⟨r, by rw [reservationAt, hcall]; rfl, conclude_ids hconclude⟩
  · cases hi

/-! ## What a step does -/

theorem reservationAt_set {old call : CallState} (hold : v.calls[i]? = some old)
    (guard : ReplayGuard) (j : ℕ) :
    Verifier.reservationAt ⟨guard, v.calls.set i call⟩ j =
      if i = j then call.reservation else v.reservationAt j := by
  have hlt : i < v.calls.length := (List.getElem?_eq_some_iff.1 hold).1
  rw [reservationAt, List.getElem?_set]
  by_cases heq : i = j
  · rw [if_pos heq, if_pos hlt, if_pos heq]
    rfl
  · rw [if_neg heq, if_neg heq]
    rfl

/-- A call that moves on keeps its reservation. -/
theorem reservationAt_set_of_eq {old : CallState} (call : CallState)
    (hold : v.calls[i]? = some old) (heq : call.reservation = old.reservation) (guard : ReplayGuard) (j : ℕ) :
    Verifier.reservationAt ⟨guard, v.calls.set i call⟩ j = v.reservationAt j := by
  rw [reservationAt_set hold]
  split_ifs with hj
  · subst hj
    rw [reservationAt, hold, heq]
    rfl
  · rfl

theorem reservationAt_append {call : CallState} (hnone : call.reservation = none) (j : ℕ) :
    Verifier.reservationAt { v with calls := v.calls ++ [call] } j = v.reservationAt j := by
  rw [reservationAt, reservationAt, List.getElem?_append]
  split_ifs with hlt
  · rfl
  · rw [List.getElem?_eq_none (not_lt.1 hlt)]
    cases hj : j - v.calls.length with
    | zero => simp [hnone]
    | succ n => simp

/-- The step from `v` to `v'` reserves for call `i` at time `t`. -/
structure Reserves (P : Platform) (config : AdmissionConfig) (fenceMs : ℚ) (v v' : Verifier) (t : ℚ)
    (i : ℕ) (r : Reservation) : Prop where
  fresh : v.reservationAt i = none
  made : v'.reservationAt i = some r
  others : ∀ j, j ≠ i → v'.reservationAt j = v.reservationAt j
  genuine : Genuine P config fenceMs r.nowMs r.verified
  time : r.reservedAt = t
  room : (wants config.role r.verified).length ≤ v.guard.capacity
  held : ∀ want ∈ wants config.role r.verified, v'.guard.Holds t want.key (t + want.retainMs)
  free : ∀ want ∈ wants config.role r.verified, ∀ clock limit, clock ≤ t →
    v.guard.Holds clock want.key limit → limit ≤ t

theorem finish_guard (r : Reservation) (ticket : ReplayTicket) (outcome : Except Refused Admitted) :
    ∃ next, (v.finish i r ticket outcome).guard = (v.guard.settle next ticket).1 := by
  cases outcome
  · exact ⟨.burned, rfl⟩
  · exact ⟨.committed, rfl⟩

theorem Holds.finish {clock limit : ℚ} {key : String} (h : v.guard.Holds clock key limit)
    (r : Reservation) (ticket : ReplayTicket) (outcome : Except Refused Admitted) :
    (v.finish i r ticket outcome).guard.Holds clock key limit := by
  obtain ⟨next, hguard⟩ := finish_guard (v := v) (i := i) r ticket outcome
  rw [hguard]
  exact h.settle next ticket

theorem finish_capacity (r : Reservation) (ticket : ReplayTicket)
    (outcome : Except Refused Admitted) :
    (v.finish i r ticket outcome).guard.capacity = v.guard.capacity := by
  cases outcome <;> exact ReplayGuard.settle_capacity _ _ _

theorem reservationAt_finish {old : CallState} (hold : v.calls[i]? = some old)
    (guard : ReplayGuard) (r : Reservation) (ticket : ReplayTicket)
    (outcome : Except Refused Admitted) (j : ℕ) :
    (finish i r ticket outcome ⟨guard, v.calls⟩).reservationAt j =
      if i = j then some r else v.reservationAt j := by
  cases outcome <;> exact reservationAt_set hold _ j

/-- What a step does: it forgets no id before its time, and reserves for one call at most. -/
structure Moves (P : Platform) (config : AdmissionConfig) (fenceMs : ℚ) (v v' : Verifier) (t : ℚ) :
    Prop where
  holds : ∀ clock key limit, clock ≤ t → v.guard.Holds clock key limit →
    v'.guard.Holds t key limit
  capacity : v'.guard.capacity = v.guard.capacity
  reserves : (∀ j, v'.reservationAt j = v.reservationAt j) ∨
    ∃ i r, Reserves P config fenceMs v v' t i r

/-- A verified request whose ids were free. -/
theorem moves_of_reserve {request : AdmissionRequest} {checked : Checked} {nowMs t : ℚ}
    {verified : Verified} {ticket : ReplayTicket} {v' : Verifier}
    (hcall : v.calls[i]? = some (.verifying request checked nowMs))
    (hverifies : Verifies P config fenceMs W nowMs request verified)
    (hok : (v.guard.reserve t (wants config.role verified)).2 = .ok ticket)
    (hguard : ∀ key limit, (v.guard.reserve t (wants config.role verified)).1.Holds t key limit →
      v'.guard.Holds t key limit)
    (hcapacity : v'.guard.capacity = v.guard.capacity)
    (hcalls : ∀ j, v'.reservationAt j =
      if i = j then some ⟨verified, nowMs, t⟩ else v.reservationAt j) :
    Moves P config fenceMs v v' t where
  holds clock key limit hclock h := hguard key limit (h.reserve hclock _)
  capacity := hcapacity
  reserves := by
    refine Or.inr ⟨i, ⟨verified, nowMs, t⟩, ?_, ?_, ?_, hverifies.genuine, rfl,
      (ReplayGuard.reserve_capacity _ _ _).2 ticket hok, ?_, ?_⟩
    · rw [reservationAt, hcall]
      rfl
    · rw [hcalls, if_pos rfl]
    · intro j hj
      rw [hcalls, if_neg (Ne.symm hj)]
    · intro want hwant
      exact hguard _ _ (ReplayGuard.reserve_ok hok hwant).1
    · intro want hwant
      exact (ReplayGuard.reserve_ok hok hwant).2

theorem moves_verify {request : AdmissionRequest} {checked : Checked} {nowMs mono : ℚ}
    (hcall : v.calls[i]? = some (.verifying request checked nowMs))
    (hchecked : W nowMs ∧ precheck P config fenceMs nowMs request = .ok checked) :
    Moves P config fenceMs v (v.verify P config fenceMs i mono request checked nowMs) mono := by
  rw [verify]
  cases ha : authenticate P config fenceMs nowMs checked with
  | error refusal =>
    exact ⟨fun clock key limit hclock h => h.tick hclock, rfl,
      Or.inl fun j => reservationAt_set_of_eq (.refused none refusal) hcall rfl _ j⟩
  | ok verified =>
    have hverifies : Verifies P config fenceMs W nowMs request verified :=
      ⟨hchecked.1, checked, hchecked.2, ha⟩
    have hcapacity := (ReplayGuard.reserve_capacity mono (wants config.role verified) v.guard).1
    dsimp only
    cases hok : (v.guard.reserve mono (wants config.role verified)).2 with
    | error refusal =>
      cases refusal <;> exact ⟨fun clock key limit hclock h => h.reserve hclock _, hcapacity,
        Or.inl fun j => reservationAt_set_of_eq (.refused none _) hcall rfl _ j⟩
    | ok ticket =>
      dsimp only
      split_ifs
      · exact moves_of_reserve hcall hverifies hok (fun key limit h => Holds.finish h _ _ _)
          (by rw [finish_capacity]; exact hcapacity) fun j => reservationAt_finish hcall _ _ _ _ j
      · exact moves_of_reserve hcall hverifies hok (fun key limit h => Holds.finish h _ _ _)
          (by rw [finish_capacity]; exact hcapacity) fun j => reservationAt_finish hcall _ _ _ _ j
      · exact moves_of_reserve hcall hverifies hok (fun key limit h => h) hcapacity
          fun j => reservationAt_set hcall _ j

/-- A call that settles. -/
theorem moves_finish {request : AdmissionRequest} {tag : Option String} {r : Reservation}
    {ticket : ReplayTicket} (hcall : v.calls[i]? = some (.reading request tag r ticket))
    (outcome : Except Refused Admitted) (t : ℚ) :
    Moves P config fenceMs v (v.finish i r ticket outcome) t where
  holds clock key limit hclock h := Holds.finish (h.tick hclock) r ticket outcome
  capacity := finish_capacity r ticket outcome
  reserves := by
    refine Or.inl fun j => ?_
    rw [reservationAt_finish hcall v.guard]
    split_ifs with hj
    · subst hj
      rw [reservationAt, hcall]
      rfl
    · rfl

/-- **A step of the verifier.** -/
theorem moves_step (h : ∀ call ∈ v.calls, call.Traced P config fenceMs W) (op : Op) (clock : ℚ) :
    Moves P config fenceMs v (step P config fenceMs v op).1 (op.mono.getD clock) := by
  have hidle (t : ℚ) : Moves P config fenceMs v v t :=
    ⟨fun clock key limit hclock h => h.tick hclock, rfl, Or.inl fun j => rfl⟩
  cases op with
  | begin request nowMs =>
    rw [step]
    cases precheck P config fenceMs nowMs request with
    | error refusal => exact ⟨(hidle _).holds, rfl, Or.inl fun j => reservationAt_append rfl j⟩
    | ok checked => exact ⟨(hidle _).holds, rfl, Or.inl fun j => reservationAt_append rfl j⟩
  | verify i mono =>
    rw [step]
    cases hcall : v.calls[i]? with
    | none => exact hidle _
    | some call =>
      have htraced := h call (List.mem_of_getElem? hcall)
      cases call with
      | verifying request checked nowMs => exact moves_verify hcall htraced
      | _ => exact hidle _
  | body i events =>
    rw [step]
    cases hcall : v.calls[i]? with
    | none => exact hidle _
    | some call =>
      cases call with
      | reading request tag r ticket => exact moves_finish hcall _ _
      | _ => exact hidle _
  | fail i =>
    rw [step]
    cases hcall : v.calls[i]? with
    | none => exact hidle _
    | some call =>
      cases call with
      | reading request tag r ticket => exact moves_finish hcall (.error ⟨.canonError, tag⟩) clock
      | _ => exact hidle _

/-! ## A request alone at a new verifier -/

/-- The ids of one request differ. -/
theorem nodup_wants (role : HopRole) (verified : Verified) :
    ((wants role verified).map ReserveRequest.key).Nodup := by
  cases role with
  | pb => exact List.nodup_singleton _
  | ba =>
    have hne : "ba:" ++ verified.claims.jti ≠ "ln:" ++ verified.pb.claims.jti := by
      intro h
      have hlist := congrArg String.toList h
      simp at hlist
    simpa [wants] using hne

/-- The operations of one request: its checks at wall time `nowMs`, its reservation at monotonic time
`mono`, and its body. -/
def alone (request : AdmissionRequest) (nowMs mono : ℚ) (events : List StreamEvent) : List Op :=
  [.begin request nowMs, .verify 0 mono, .body 0 events]

/-- **A request that is verified is admitted** by a new verifier, if its body is what its proof
says. -/
theorem calls_alone {request : AdmissionRequest} {nowMs : ℚ} {verified : Verified}
    {events : List StreamEvent} {a : Admitted} {capacity : ℕ}
    (hverifies : Verifies P config fenceMs W nowMs request verified)
    (hle : verified.claims.request.bodyLen ≤ MAX_SEMANTIC_BODY)
    (hconclude : conclude P config.role request verified
      (bodyOf verified.claims.request.bodyLen events) = .ok a)
    (hroom : (wants config.role verified).length ≤ capacity) (mono : ℚ) :
    (exec (step P config fenceMs) { guard := { capacity } }
      (alone request nowMs mono events)).calls = [.admitted ⟨verified, nowMs, mono⟩ a] := by
  obtain ⟨-, c, hc, ha⟩ := hverifies
  have hok := ReplayGuard.reserve_new mono (nodup_wants config.role verified) hroom
  have houtcome : outcomeOf P config.role request ⟨verified, nowMs, mono⟩
      (bodyOf verified.claims.request.bodyLen events) = .ok a :=
    mapError_eq_ok.2 hconclude
  rw [bodyOf] at houtcome
  by_cases hempty : verified.claims.request.bodyLen = 0
  · rw [if_pos hempty] at houtcome
    simp [alone, step, hc, verify, ha, hok, hempty, houtcome, finish]
  · rw [if_neg hempty] at houtcome
    simp [alone, step, hc, verify, ha, hok, hempty, not_lt.2 hle, houtcome, finish]

end Verifier

end Limitmark.Hop
