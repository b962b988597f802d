import Limitmark.Hop.SingleAdmission

/-!
# The fence of a restart

Two incarnations of one verifier: the second starts with an empty replay guard and with its start as
its fence, no earlier than the last reading of the wall clock by the first. A proof issued before
that start is refused. One issued ahead of the verifier's clock, as the skew allows, can lie behind
the admission and ahead of the restart at once: it is admitted twice.

`restart_fence` says exactly when a proof that was admitted is never admitted again.
-/

namespace Limitmark.Hop

open Limitmark.Defense Limitmark.Foundations

variable {P : Platform} {config : AdmissionConfig} {W : ℚ → Prop}

namespace Verifier

variable {fenceMs : ℚ} {capacity : ℕ} {ops : List Op}

/-- Every reading of the wall clock by the operations is one of those allowed. -/
abbrev Reads (W : ℚ → Prop) (ops : List Op) : Prop := ∀ op ∈ ops, ∀ w, op.wall = some w → W w

/-- The invariant of an incarnation: its calls are traced to readings of its own, and what they
reserved fits in the guard. -/
structure Rested (P : Platform) (config : AdmissionConfig) (fenceMs : ℚ) (W : ℚ → Prop)
    (capacity : ℕ) (v : Verifier) : Prop where
  traced : ∀ call ∈ v.calls, call.Traced P config fenceMs W
  capacity_eq : v.guard.capacity = capacity
  room : ∀ i r, v.reservationAt i = some r → (wants config.role r.verified).length ≤ capacity

theorem Rested.step {v : Verifier} (h : Rested P config fenceMs W capacity v) (op : Op)
    (hop : ∀ w, op.wall = some w → W w) :
    Rested P config fenceMs W capacity (Verifier.step P config fenceMs v op).1 := by
  obtain ⟨-, hcapacity, hreserves⟩ := moves_step h.traced op 0
  refine ⟨traced_step h.traced op hop, hcapacity.trans h.capacity_eq, ?_⟩
  intro i r hi
  rcases hreserves with hsame | ⟨i₀, r₀, hr⟩
  · rw [hsame] at hi
    exact h.room i r hi
  · by_cases heq : i = i₀
    · subst heq
      rw [hr.made] at hi
      obtain rfl := Option.some.inj hi
      rw [← h.capacity_eq]
      exact hr.room
    · rw [hr.others i heq] at hi
      exact h.room i r hi

theorem rested_exec (hreads : Reads W ops) :
    Rested P config fenceMs W capacity
      (exec (Verifier.step P config fenceMs) { guard := { capacity } } ops) := by
  induction ops using List.reverseRecOn with
  | nil => exact ⟨by simp, rfl, fun i r h => by simp [reservationAt] at h⟩
  | append_singleton ops op ih =>
    rw [exec_append]
    exact (ih fun o ho => hreads o (List.mem_append_left _ ho)).step op
      (hreads op (List.mem_append_right _ (List.mem_singleton.2 rfl)))

/-- What an admitted call had verified, at a reading of its incarnation. -/
theorem genuine_of_admittedAt (hreads : Reads W ops) {i : ℕ} {a : Admitted}
    (hi : (exec (Verifier.step P config fenceMs) { guard := { capacity } } ops).admittedAt i =
      some a) :
    ∃ nowMs request verified events, Verifies P config fenceMs W nowMs request verified ∧
      a.claims = verified.claims ∧ a.pb = verified.pb ∧
      verified.claims.request.bodyLen ≤ MAX_SEMANTIC_BODY ∧
      conclude P config.role request verified
        (bodyOf verified.claims.request.bodyLen events) = .ok a ∧
      (wants config.role verified).length ≤ capacity := by
  have hrested : Rested P config fenceMs W capacity _ := rested_exec hreads
  generalize exec (Verifier.step P config fenceMs) { guard := { capacity } } ops = v at hrested hi
  rw [admittedAt] at hi
  split at hi
  · next r a' hcall =>
    obtain rfl := Option.some.inj hi
    obtain ⟨request, events, hverifies, hle, hconclude⟩ :=
      hrested.traced _ (List.mem_of_getElem? hcall)
    have hr : v.reservationAt i = some r := by rw [reservationAt, hcall]; rfl
    obtain ⟨hclaims, hpb⟩ := conclude_ids hconclude
    exact ⟨r.nowMs, request, r.verified, events, hverifies, hclaims, hpb, hle, hconclude,
      hrested.room i r hr⟩
  · cases hi

/-- No call is admitted with another lineage proof of the digest of this one. -/
def Uncollided (P : Platform) (v : Verifier) (pb : VerifiedPb) : Prop :=
  ∀ j b, v.admittedAt j = some b →
    P.sha256B64 (asciiBytes b.pb.header) = P.sha256B64 (asciiBytes pb.header) →
      b.pb.header = pb.header

/-- The lineage proof of an admitted request is settled by its own proof, which names its digest. -/
theorem lineage_claims {nowMs nowMs' fence fence' : ℚ} {verified verified' : Verified}
    (h : Genuine P config fence nowMs verified) (h' : Genuine P config fence' nowMs' verified')
    (hclaims : verified'.claims = verified.claims)
    (hdigest : P.sha256B64 (asciiBytes verified'.pb.header) =
      P.sha256B64 (asciiBytes verified.pb.header) → verified'.pb.header = verified.pb.header) :
    verified'.pb.claims = verified.pb.claims := by
  have hrole : config.role = .pb ∨ config.role = .ba := by cases config.role <;> simp
  rcases hrole with hrole | hrole
  · rw [h.same hrole, h'.same hrole, hclaims]
  · have hparent := h.parent hrole
    rw [← hclaims, h'.parent hrole, Option.some.injEq, Parent.mk.injEq] at hparent
    obtain ⟨decoded, hdecode, hlineage⟩ := h.decoded
    obtain ⟨decoded', hdecode', hlineage'⟩ := h'.decoded
    rw [hdigest hparent.2, hdecode, Except.ok.injEq] at hdecode'
    rw [← hlineage, ← hlineage', hdecode']

/-- A verifier with one call has admitted it alone. -/
theorem eq_of_calls_singleton {v : Verifier} {r : Reservation} {a b : Admitted} {j : ℕ}
    (hcalls : v.calls = [.admitted r a]) (h : v.admittedAt j = some b) : a = b := by
  rw [admittedAt, hcalls] at h
  cases j with
  | zero => exact Option.some.inj h
  | succ j => cases h

/-- A proof in its window before the start of the second incarnation is still in it at the start,
if it was issued no earlier. -/
theorem inWindow_restart {claims : Claims} {nowMs fence fence' : ℚ}
    (h : InWindow claims nowMs fence) (hnow : nowMs ≤ fence') (hiat : fence' ≤ claims.iat) :
    InWindow claims fence' fence' := by
  have hlife : (claims.iat : ℚ) < claims.exp := by exact_mod_cast h.lifetime.1
  have hskew : (0 : ℚ) ≤ HOP_SKEW_MS := Nat.cast_nonneg _
  refine ⟨h.lifetime, h.valid.trans hnow, ?_, hiat⟩
  linarith

theorem reads_alone {nowMs : ℚ} (h : W nowMs) (request : AdmissionRequest) (mono : ℚ)
    (events : List StreamEvent) : Reads W (alone request nowMs mono events) := by
  intro op hop w hw
  simp only [alone, List.mem_cons, List.not_mem_nil, or_false] at hop
  rcases hop with rfl | rfl | rfl <;> cases hw
  exact h

/-- **The restart fence.** A proof admitted by the first incarnation is never admitted by the second,
whatever it is asked as long as no other lineage proof has the digest of this one, if and only if it, or
the lineage proof under it, was issued before the second one's start. -/
theorem restart_fence {capacity : ℕ} {fence fence' : ℚ} {ops : List Op}
    (hbefore : Reads (· ≤ fence') ops) {i : ℕ} {a : Admitted}
    (hi : (exec (Verifier.step P config fence) { guard := { capacity } } ops).admittedAt i =
      some a) :
    (∀ ops', Reads (fence' ≤ ·) ops' →
      Uncollided P (exec (Verifier.step P config fence') { guard := { capacity } } ops') a.pb →
      ∀ j b, (exec (Verifier.step P config fence') { guard := { capacity } } ops').admittedAt j =
          some b → b.claims ≠ a.claims) ↔
      (a.claims.iat : ℚ) < fence' ∨ (a.pb.claims.iat : ℚ) < fence' := by
  obtain ⟨nowMs, request, verified, events, hverifies, hclaims, hpb, hle, hconclude, hroom⟩ :=
    genuine_of_admittedAt hbefore hi
  have hgenuine := hverifies.genuine
  constructor
  · intro hnever
    by_contra hlate
    rw [not_or, not_lt, not_lt, hclaims, hpb] at hlate
    obtain ⟨hnow, c, hc, hauth⟩ := hverifies
    -- the request is presented again at the start of the second incarnation
    have hagain : Verifies P config fence' (fence' ≤ ·) fence' request verified :=
      ⟨le_rfl, c, verified_retime hc hauth
        (inWindow_restart hgenuine.ownWindow hnow hlate.1)
        (inWindow_restart hgenuine.planeWindow hnow hlate.2)⟩
    have hcalls := calls_alone hagain hle hconclude hroom 0
    refine hnever _ (reads_alone le_rfl request 0 events) (fun j b hj _ => ?_) 0 a ?_ rfl
    · rw [← eq_of_calls_singleton hcalls hj]
    · rw [admittedAt, hcalls]
      rfl
  · intro hold ops' hafter huncollided j b hj hsame
    obtain ⟨nowMs', request', verified', events', hverifies', hclaims', hpb', -⟩ :=
      genuine_of_admittedAt hafter hj
    have hgenuine' := hverifies'.genuine
    have heq : verified'.claims = verified.claims := by rw [← hclaims', ← hclaims, hsame]
    have hdigest := huncollided j b hj
    rw [hpb, hpb'] at hdigest
    rw [hclaims, hpb, ← heq, ← lineage_claims hgenuine hgenuine' heq hdigest] at hold
    rcases hold with hown | hlineage
    · exact absurd hgenuine'.ownWindow.fenced (not_le.2 hown)
    · exact absurd hgenuine'.planeWindow.fenced (not_le.2 hlineage)

/-! ### The sample proof, across a restart -/

theorem restart_fence_sample :
    (∀ ops', Reads ((2000 : ℚ) ≤ ·) ops' →
      Uncollided samplePlatform (exec (Verifier.step samplePlatform sampleConfig 2000)
        { guard := { capacity := 4 } } ops') sampleAdmitted.pb →
      ∀ j b, (exec (Verifier.step samplePlatform sampleConfig 2000) { guard := { capacity := 4 } }
        ops').admittedAt j = some b → b.claims ≠ sampleAdmitted.claims) ↔
      (sampleAdmitted.claims.iat : ℚ) < 2000 ∨ (sampleAdmitted.pb.claims.iat : ℚ) < 2000 :=
  @restart_fence samplePlatform sampleConfig 4 0 2000 _
    (@reads_alone (· ≤ 2000) 1000 (by norm_num) (frontRequest sampleHeader) 0 []) 0 _
    (admittedAt_sample (inWindow_sample (by norm_num) (by norm_num) (by norm_num)))

/-- A proof issued 500 ms ahead of the verifier's clock is admitted at 1000 ms by the first
incarnation, and at 1100 ms by one that started then. -/
theorem admitted_across_restart :
    ∃ ops ops', Reads (· ≤ (1100 : ℚ)) ops ∧ Reads ((1100 : ℚ) ≤ ·) ops' ∧
      (exec (Verifier.step samplePlatform sampleConfig 0) { guard := { capacity := 4 } }
        ops).admittedAt 0 = some sampleAdmitted ∧
      (exec (Verifier.step samplePlatform sampleConfig 1100) { guard := { capacity := 4 } }
        ops').admittedAt 0 = some sampleAdmitted :=
  ⟨alone (frontRequest sampleHeader) 1000 0 [], alone (frontRequest sampleHeader) 1100 0 [],
    reads_alone (by norm_num) _ _ _, reads_alone le_rfl _ _ _,
    admittedAt_sample (inWindow_sample (by norm_num) (by norm_num) (by norm_num)),
    admittedAt_sample (inWindow_sample (by norm_num) (by norm_num) (by norm_num))⟩

end Verifier

end Limitmark.Hop
