import Limitmark.Ledger.L2Lifecycle
import Limitmark.Ledger.Lineage

/-!
# What the three validators rule out together

A request of the protected lane, in a composition with L2, whose lifecycle, lineage and L2 rules
find nothing, over any plane, boundary and app streams. The app acts only behind a complete lineage
(`lineage_of_acted`); the lineage has a proof of the plane, and the automaton leaves one way to reach
that proof (`plane_of_proofIssued`), so that the decision the L2 rules judge is the one before it
(`proceeds_of_attempted`).
-/

namespace Limitmark.Ledger

open Limitmark.Defense Limitmark.Lanes Limitmark.Foundations

/-! ## The plane stream -/

/-- The kinds of a stream of the plane up to the proof it issues. -/
def proofKinds : List PlaneEventKind :=
  [.ingressAccepted, .l1Entered, .l1Passed, .l2Entered, .l2Decided, .egressAttempted, .proofIssued]

/-- Every kind on the way to a proof has one predecessor only. -/
theorem predecessor_of_proofKinds {state : Option PlaneEventKind} :
    (.ingressAccepted ∈ NEXT_PLANE_KINDS_L2 state → state = none) ∧
    (.l1Entered ∈ NEXT_PLANE_KINDS_L2 state → state = some .ingressAccepted) ∧
    (.l1Passed ∈ NEXT_PLANE_KINDS_L2 state → state = some .l1Entered) ∧
    (.l2Entered ∈ NEXT_PLANE_KINDS_L2 state → state = some .l1Passed) ∧
    (.l2Decided ∈ NEXT_PLANE_KINDS_L2 state → state = some .l2Entered) ∧
    (.egressAttempted ∈ NEXT_PLANE_KINDS_L2 state → state = some .l2Decided) ∧
    (.proofIssued ∈ NEXT_PLANE_KINDS_L2 state → state = some .egressAttempted) := by
  rcases state with _ | state
  · decide
  · cases state <;> decide

/-- An accepted stream with a proof begins with the one way to it. -/
theorem plane_of_proofIssued {plane : List PlaneEvent}
    (h : Accepts NEXT_PLANE_KINDS_L2 none (plane.map PlaneEvent.kind)) {issued : PlaneEvent}
    (hissued : first plane .proofIssued = some issued) :
    ∃ accepted entered₁ passed entered₂ decided attempted rest,
      plane = [accepted, entered₁, passed, entered₂, decided, attempted, issued] ++ rest ∧
      [accepted, entered₁, passed, entered₂, decided, attempted, issued].map PlaneEvent.kind =
        proofKinds := by
  obtain ⟨hkind, pre, rest, rfl, -⟩ := List.find?_eq_some_iff_append.1 hissued
  simp only [decide_eq_true_eq] at hkind
  obtain ⟨pre, attempted, rfl, hattempted⟩ := exists_eq_concat_of_accepts _ h
    (hkind ▸ fun state => predecessor_of_proofKinds.2.2.2.2.2.2)
  rw [List.append_assoc] at h ⊢
  obtain ⟨pre, decided, rfl, hdecided⟩ := exists_eq_concat_of_accepts _ h
    (hattempted ▸ fun state => predecessor_of_proofKinds.2.2.2.2.2.1)
  rw [List.append_assoc] at h ⊢
  obtain ⟨pre, entered₂, rfl, hentered₂⟩ := exists_eq_concat_of_accepts _ h
    (hdecided ▸ fun state => predecessor_of_proofKinds.2.2.2.2.1)
  rw [List.append_assoc] at h ⊢
  obtain ⟨pre, passed, rfl, hpassed⟩ := exists_eq_concat_of_accepts _ h
    (hentered₂ ▸ fun state => predecessor_of_proofKinds.2.2.2.1)
  rw [List.append_assoc] at h ⊢
  obtain ⟨pre, entered₁, rfl, hentered₁⟩ := exists_eq_concat_of_accepts _ h
    (hpassed ▸ fun state => predecessor_of_proofKinds.2.2.1)
  rw [List.append_assoc] at h ⊢
  obtain ⟨pre, accepted, rfl, haccepted⟩ := exists_eq_concat_of_accepts _ h
    (hentered₁ ▸ fun state => predecessor_of_proofKinds.2.1)
  rw [List.append_assoc] at h ⊢
  obtain rfl := eq_nil_of_accepts _ h (haccepted ▸ fun state => predecessor_of_proofKinds.1)
  refine ⟨accepted, entered₁, passed, entered₂, decided, attempted, rest, rfl, ?_⟩
  simp [proofKinds, hkind, hattempted, hdecided, hentered₂, hpassed, hentered₁, haccepted]

/-- The stream of a clean protected request is one the automaton with L2 accepts. -/
theorem accepts_of_clean {view : LifecycleView} {final : Bool} (hlike : view.protectedLike = true)
    (hl2 : view.l2 = true) (h : validateLifecycle view final = []) :
    Accepts NEXT_PLANE_KINDS_L2 none (view.plane.map PlaneEvent.kind) := by
  simp only [validateLifecycle, List.append_eq_nil_iff] at h
  have hplane := h.1.1.2
  simp only [planeRules, hlike, if_true, List.append_eq_nil_iff, planeWalk_eq_nil] at hplane
  simpa [planeSuccessors, hl2] using hplane.1.1.1.1

/-- A first decision followed by egress is one that proceeds. -/
theorem proceeds_of_attempted {view : LifecycleView} {final : Bool}
    (hlane : view.expected = .protectedLane) (hl2 : view.l2 = true)
    (h : validateL2Lifecycle view final = []) {decided : PlaneEvent}
    (hdecided : first view.plane .l2Decided = some decided)
    (hattempted : has view.plane .egressAttempted = true) :
    ∃ decision, decisionOf decided = some decision ∧ isValidDecision decision ∧
      proceeds decision := by
  have hlike : view.protectedLike = true := by simp [LifecycleView.protectedLike, hlane]
  simp only [validateL2Lifecycle, hl2, hlike, and_self, if_true, List.append_eq_nil_iff,
    decidedRules, hdecided] at h
  have hrules := h.1.2
  cases hdecision : decisionOf decided with
  | none => simp [hdecision] at hrules
  | some decision =>
    simp only [hdecision, List.append_eq_nil_iff, decisionRules, egressRules,
      LifecycleView.check_eq_nil, hattempted] at hrules
    exact ⟨decision, rfl, by simpa using hrules.1.1.1.1.1.1.1, by simpa using hrules.2.1⟩

/-! ## The lineage -/

theorem protectedLineageComplete_of_lineageOf {view : LifecycleView}
    (hlane : view.expected = .protectedLane) {appAdmitted : AppEvent}
    (hadmitted : firstApp (view.app.getD []) .appAdmitted = some appAdmitted)
    (h : lineageOf view (view.boundary.getD []) appAdmitted = true) :
    protectedLineageComplete view = true := by
  simp only [lineageOf, hlane, reduceCtorEq, if_false, if_true] at h
  rw [protectedLineageComplete, hadmitted]
  cases hissued : first view.plane .proofIssued with
  | none => simp [hissued, chainAgrees] at h
  | some issued => simpa [hissued] using h

/-- **The app acts only behind a complete lineage.** -/
theorem lineage_of_acted {view : LifecycleView} {final : Bool}
    (hlane : view.expected = .protectedLane) (h : validateOriginLineage view final = [])
    {event : AppEvent} (hmem : event ∈ view.app.getD [])
    (hacted : event.kind = .appExecuted ∨ event.kind = .appMutated) :
    protectedLineageComplete view = true ∧
      ((view.app.getD []).countP fun event => event.kind = .appMutated) ≤ 1 := by
  have hstreams : ¬ (view.boundary = none ∧ view.app = none) := by
    rintro ⟨-, happ⟩
    simp [happ] at hmem
  simp only [validateOriginLineage, hstreams, if_false, hlane, List.append_eq_nil_iff,
    LifecycleView.check_eq_nil, not_lt] at h
  obtain ⟨⟨-, hmutations⟩, ⟨-, hrules⟩, -⟩ := h
  refine ⟨?_, hmutations⟩
  simp only [appRules, List.append_eq_nil_iff, LifecycleView.check_eq_nil, not_and, not_not]
    at hrules
  obtain ⟨⟨⟨-, hexecuted⟩, hmutated⟩, -⟩ := hrules
  have hfound : ∀ kind, event.kind = kind → (firstApp (view.app.getD []) kind).isSome = true :=
    fun kind hkind => List.find?_isSome.2 ⟨event, hmem, by simpa using hkind⟩
  have hlineage : (firstApp (view.app.getD []) .appAdmitted).any
      (lineageOf view (view.boundary.getD [])) = true := by
    rcases hacted with hkind | hkind
    · exact hexecuted (hfound _ hkind)
    · by_contra hnone
      exact hmutated (hfound _ hkind) fun _ => hnone
  obtain ⟨appAdmitted, hadmitted, hchain⟩ := (Option.any_eq_true _ _).1 hlineage
  exact protectedLineageComplete_of_lineageOf hlane hadmitted hchain

/-- The identifiers of the whole chain, from the plane's egress to the app's admission. -/
def LineageOf (view : LifecycleView) (attempted issued : PlaneEvent) (pbTag baTag : String) :
    Prop :=
  issued.pbTag = some pbTag ∧
  (∃ admitted ∈ view.boundary.getD [], admitted.kind = .boundaryAdmitted ∧
    admitted.hop = some attempted.seq ∧ admitted.pbTag = some pbTag) ∧
  (∃ issuedBa ∈ view.boundary.getD [], issuedBa.kind = .appProofIssued ∧
    issuedBa.hop = some attempted.seq ∧ issuedBa.pbTag = some pbTag ∧
    issuedBa.baTag = some baTag) ∧
  ∃ appAdmitted ∈ view.app.getD [], appAdmitted.kind = .appAdmitted ∧
    appAdmitted.hop = some attempted.seq ∧ appAdmitted.pbTag = some pbTag ∧
    appAdmitted.baTag = some baTag

/-- What agreement along the chain says of its four parts. -/
theorem chainAgrees_eq_true {root : Option String} {hop : Option ℤ}
    {admitted issuedBa : Option BoundaryEvent} {appAdmitted : AppEvent}
    (h : chainAgrees root hop admitted issuedBa appAdmitted = true) :
    ∃ pbTag n admission proof baTag, root = some pbTag ∧ hop = some n ∧
      (admitted = some admission ∧ admission.hop = some n ∧ admission.pbTag = some pbTag) ∧
      (issuedBa = some proof ∧ proof.hop = some n ∧ proof.pbTag = some pbTag ∧
        proof.baTag = some baTag) ∧
      appAdmitted.hop = some n ∧ appAdmitted.pbTag = some pbTag ∧
        appAdmitted.baTag = some baTag := by
  simp only [chainAgrees] at h
  split at h
  · next pbTag n admission proof =>
    simp only [Bool.and_eq_true, decide_eq_true_eq, Option.isSome_iff_exists] at h
    obtain ⟨⟨⟨⟨⟨⟨⟨h₁, h₂⟩, h₃⟩, h₄⟩, h₅⟩, h₆⟩, baTag, h₇⟩, h₈⟩ := h
    exact ⟨pbTag, n, admission, proof, baTag, rfl, rfl, ⟨rfl, h₁, h₂⟩, ⟨rfl, h₃, h₄, h₇⟩, h₅, h₆,
      h₈.trans h₇⟩
  · cases h

theorem mem_of_find {α : Type*} {p : α → Prop} [DecidablePred p] {xs : List α} {x : α}
    (h : xs.find? (fun x => p x) = some x) : x ∈ xs ∧ p x :=
  ⟨List.mem_of_find?_eq_some h, by simpa using List.find?_some h⟩

/-- A complete lineage starts at the plane's egress and its proof. -/
theorem lineageOf_complete {view : LifecycleView} (h : protectedLineageComplete view = true) :
    ∃ attempted issued pbTag baTag, first view.plane .egressAttempted = some attempted ∧
      first view.plane .proofIssued = some issued ∧
      LineageOf view attempted issued pbTag baTag := by
  rw [protectedLineageComplete] at h
  split at h
  · next issued appAdmitted hissued hadmitted =>
    obtain ⟨pbTag, n, admission, proof, baTag, hroot, hhop, ⟨hadmission, h₁⟩, ⟨hproof, h₂⟩, h₃⟩ :=
      chainAgrees_eq_true h
    obtain ⟨attempted, hattempted, rfl⟩ := Option.map_eq_some_iff.1 hhop
    obtain ⟨hmem, hkind⟩ := mem_of_find hadmission
    obtain ⟨hmem', hkind'⟩ := mem_of_find hproof
    obtain ⟨hmem'', hkind''⟩ := mem_of_find hadmitted
    exact ⟨attempted, issued, pbTag, baTag, hattempted, hissued, hroot,
      ⟨admission, hmem, hkind, h₁⟩, ⟨proof, hmem', hkind', h₂⟩, appAdmitted, hmem'', hkind'', h₃⟩
  · cases h

/-! ## No bypass -/

/-- **The validators rule out a bypass.** A clean request of the protected lane whose app executed
or mutated went through L1 and an admitting decision of L2 before its egress and its proof, has the
complete lineage of that proof, and mutated at most once. -/
theorem no_bypass {view : LifecycleView} (hlane : view.expected = .protectedLane)
    (hl2 : view.l2 = true) (hlifecycle : validateLifecycle view true = [])
    (hlineage : validateOriginLineage view true = [])
    (hstage : validateL2Lifecycle view true = []) {event : AppEvent}
    (hmem : event ∈ view.app.getD [])
    (hacted : event.kind = .appExecuted ∨ event.kind = .appMutated) :
    (∃ passed decided attempted issued decision pbTag baTag,
      [passed, decided, attempted, issued].Sublist view.plane ∧
      [passed, decided, attempted, issued].map PlaneEvent.kind =
        [.l1Passed, .l2Decided, .egressAttempted, .proofIssued] ∧
      decisionOf decided = some decision ∧ isValidDecision decision ∧ proceeds decision ∧
      LineageOf view attempted issued pbTag baTag) ∧
    protectedLineageComplete view = true ∧
    ((view.app.getD []).countP fun event => event.kind = .appMutated) ≤ 1 := by
  obtain ⟨hcomplete, hmutations⟩ := lineage_of_acted hlane hlineage hmem hacted
  refine ⟨?_, hcomplete, hmutations⟩
  obtain ⟨attempted', issued, pbTag, baTag, hattempted', hissued, hchain⟩ :=
    lineageOf_complete hcomplete
  obtain ⟨accepted, entered₁, passed, entered₂, decided, attempted, rest, hplane, hkinds⟩ :=
    plane_of_proofIssued
      (accepts_of_clean (by simp [LifecycleView.protectedLike, hlane]) hl2 hlifecycle) hissued
  simp only [List.map_cons, List.map_nil, proofKinds, List.cons.injEq, and_true] at hkinds
  obtain ⟨h₁, h₂, h₃, h₄, h₅, h₆, h₇⟩ := hkinds
  have hfirst : first view.plane .l2Decided = some decided := by
    simp [hplane, first, h₁, h₂, h₃, h₄, h₅]
  have heq : attempted' = attempted := by
    simpa [hplane, first, h₁, h₂, h₃, h₄, h₅, h₆, eq_comm] using hattempted'
  have hhas : has view.plane .egressAttempted = true := by
    simp [hplane, has, h₆]
  obtain ⟨decision, hdecision, hvalid, hproceeds⟩ :=
    proceeds_of_attempted hlane hl2 hstage hfirst hhas
  refine ⟨passed, decided, attempted, issued, decision, pbTag, baTag, ?_, ?_, hdecision, hvalid,
    hproceeds, heq ▸ hchain⟩
  · rw [hplane]
    refine List.Sublist.trans ?_ (List.sublist_append_left _ rest)
    exact (((((List.Sublist.refl _).cons_cons _).cons_cons _).cons_cons _).cons _).cons_cons _
      |>.cons _ |>.cons _
  · simp [h₃, h₅, h₆, h₇]

/-- A render admitted by L2, served by the app, which mutated once. -/
def servedView : LifecycleView where
  nonce := "n"
  expected := .protectedLane
  harness := [
    { kind := .sent },
    { kind := .clientCompleted, result := some .response, status := some 200
      outcomeHeader := some "proxied" }]
  plane := [
    { seq := 1, nonce := "n", kind := .ingressAccepted },
    { seq := 2, nonce := "n", kind := .l1Entered },
    { seq := 3, nonce := "n", kind := .l1Passed },
    { seq := 4, nonce := "n", kind := .l2Entered },
    { seq := 5, nonce := "n", kind := .l2Decided, cls := some .open, lane := some (some .open)
      outcome := some .admitted },
    { seq := 6, nonce := "n", kind := .egressAttempted },
    { seq := 7, nonce := "n", kind := .proofIssued, pbTag := some "pb" },
    { seq := 8, nonce := "n", kind := .egressResponded, status := some 200 },
    { seq := 9, nonce := "n", kind := .ingressResponded, status := some 200 }]
  origin := [
    { origin := .protectedLane, kind := .originReceived, hop := some 6 },
    { origin := .protectedLane, kind := .originCompleted, hop := some 6, status := some 200 }]
  boundary := some [
    { seq := 1, nonce := some "n", kind := .boundaryArrived },
    { seq := 2, nonce := some "n", kind := .boundaryAdmitted, hop := some 6, pbTag := some "pb" },
    { seq := 3, nonce := some "n", kind := .appProofIssued, hop := some 6, pbTag := some "pb"
      baTag := some "ba" },
    { seq := 4, nonce := some "n", kind := .boundaryForwarded },
    { seq := 5, nonce := some "n", kind := .boundaryForwardResponded, status := some 200 },
    { seq := 6, nonce := some "n", kind := .boundaryResponded, status := some 200 }]
  app := some [
    { seq := 1, nonce := some "n", kind := .appAdmitted, hop := some 6, pbTag := some "pb"
      baTag := some "ba" },
    { seq := 2, nonce := some "n", kind := .appExecuted },
    { seq := 3, nonce := some "n", kind := .appMutated },
    { seq := 4, nonce := some "n", kind := .appCompleted, status := some 200 }]
  l2 := true

theorem no_bypass_servedView : protectedLineageComplete servedView = true :=
  have hmem : ({ seq := 3, nonce := some "n", kind := .appMutated } : AppEvent) ∈
      servedView.app.getD [] := by decide
  (no_bypass rfl rfl (by decide) (by decide) (by decide) hmem (Or.inr rfl)).2.1

end Limitmark.Ledger
