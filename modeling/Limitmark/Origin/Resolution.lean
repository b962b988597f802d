import Mathlib
import Limitmark.Hop.SingleAdmission
import Limitmark.Origin.BoundaryRun

/-!
# Every request resolves once

Whether the terminal event of a request is ever reported hangs on one thing: that its connection did
not close while its admission was pending, before any listener was registered.

`boundary_resolution` says so for every request of every run, and that the counters balance when no
request is in progress, unless a connection closed that early.
-/

namespace Limitmark.Origin

open Limitmark.Defense Limitmark.Plane Limitmark.Hop Limitmark.Ledger Limitmark.Foundations

/-! ## Resolution -/

/-- The connection is gone, and nothing is pending. -/
def Request.Settled (request : Request) : Prop :=
  request.res.closed = true ∧
    match request.phase with
    | .admitting _ | .forwarding => False
    | .waiting => request.heard = false
    | .refused | .resolved => True

/-- The request has resolved exactly once: its stream is accepted and ends in its only terminal
event, so that the final validation finds no order violation in it and nothing left open. -/
structure Request.Resolved (request : Request) : Prop where
  accepted : Accepts NEXT_BOUNDARY_KINDS none request.kinds
  once : ∃ front, ∃ last ∈ terminals, request.kinds = front ++ [last] ∧
    ∀ kind ∈ front, kind ∉ terminals
  ordered : ∀ view, boundaryWalk view request.stream = []
  closed : ∀ view : LifecycleView, view.boundary = some request.stream →
    ∀ anomaly ∈ validateOriginLineage view true,
      anomaly ≠ ⟨.unresolvedAtFinalization, view.nonce, "boundary"⟩ ∧
        anomaly.code ≠ .boundaryDecisionMissing

/-- The counters of a Boundary at rest. -/
structure Counters.Balanced (counters : Counters) : Prop where
  decided : counters.arrived = counters.admitted + counters.rejected
  answered : counters.arrived = counters.responded + counters.aborted
  issued : counters.appProofsIssued = counters.relayed
  forwarded : counters.relayed = counters.forwardResponded + counters.forwardFailed

theorem firstBoundary_ne_none {stream : List BoundaryEvent} {kind : BoundaryEventKind}
    (h : kind ∈ stream.map BoundaryEvent.kind) : firstBoundary stream kind ≠ none := by
  obtain ⟨event, hevent, rfl⟩ := List.mem_map.1 h
  rw [firstBoundary, Ne, List.find?_eq_none]
  intro hall
  exact hall event hevent (decide_eq_true rfl)

theorem accepted_story : ∀ front ∈ rejectedStory :: admittedStories, ∀ last ∈ terminals,
    Accepts NEXT_BOUNDARY_KINDS none (front ++ [last]) := by decide

theorem open_story : ∀ front ∈ rejectedStory :: admittedStories, ∀ kind ∈ front,
    kind ∉ terminals := by decide

theorem decided_story : ∀ front ∈ rejectedStory :: admittedStories,
    .boundaryRejected ∈ front ∨ .boundaryAdmitted ∈ front := by decide

/-- A request that has reported its terminal event is resolved. -/
theorem resolved_of_story {request : Request} {lastSeq : ℕ}
    (hstory : Story .resolved request.kinds) (hnumbered : Numbered lastSeq request.stream) :
    request.Resolved := by
  obtain ⟨front, hfront, last, hlast, hkinds⟩ := hstory
  have haccepted : Accepts NEXT_BOUNDARY_KINDS none request.kinds := by
    rw [hkinds]
    exact accepted_story front hfront last hlast
  have hmem {kind : BoundaryEventKind} (h : kind ∈ front ++ [last]) :
      firstBoundary request.stream kind ≠ none := by
    rw [← hkinds] at h
    exact firstBoundary_ne_none h
  refine ⟨haccepted, ⟨front, last, hlast, hkinds, open_story front hfront⟩, fun view => ?_,
    fun view hview anomaly hanomaly => boundary_resolved hview ?_ ?_ hanomaly⟩
  · exact (boundaryWalk_eq_nil view _).2 ⟨haccepted, hnumbered.1⟩
  · exact (decided_story front hfront).imp (fun h => hmem (List.mem_append_left _ h))
      fun h => hmem (List.mem_append_left _ h)
  · have hlast' : firstBoundary request.stream last ≠ none :=
      hmem (List.mem_append_right _ (List.mem_singleton.2 rfl))
    simp only [terminals, List.mem_cons, List.not_mem_nil, or_false] at hlast
    rcases hlast with rfl | rfl
    · exact Or.inl hlast'
    · exact Or.inr hlast'

/-- A settled request has resolved, unless its connection closed too early. -/
theorem Request.Sound.resolved_iff {early : Prop} {request : Request} {lastSeq : ℕ}
    (h : request.Sound early) (hnumbered : Numbered lastSeq request.stream)
    (hsettled : request.Settled) : request.Resolved ↔ ¬ early := by
  obtain ⟨hstory, hhears, hclosed, hlost⟩ := h
  obtain ⟨hgone, hphase⟩ := hsettled
  have hopen (hkinds : request.kinds ∈ rejectedStory :: admittedStories) :
      ¬ request.Resolved := by
    rintro ⟨-, ⟨front, last, hlast, heq, -⟩, -, -⟩
    refine open_story _ hkinds last ?_ hlast
    rw [heq]
    exact List.mem_append_right _ (List.mem_singleton.2 rfl)
  rw [hlost, hgone]
  rw [Request.Hears] at hhears
  cases hcase : request.phase with
  | admitting call =>
    rw [hcase] at hphase
    exact hphase.elim
  | forwarding =>
    rw [hcase] at hphase
    exact hphase.elim
  | refused =>
    rw [hcase] at hstory hhears
    have hmem : request.kinds ∈ rejectedStory :: admittedStories := by
      rw [hstory]
      exact List.mem_cons_self
    simp [hopen hmem, hhears]
  | waiting =>
    rw [hcase] at hstory hphase
    simp [hopen (List.mem_cons_of_mem _ hstory), hphase]
  | resolved =>
    rw [hcase] at hstory hhears
    simp [resolved_of_story hstory hnumbered, hhears]

/-! ## The counters at rest -/

/-- The events of a stream balance, but for the answer of a request that was lost. -/
structure Balances (kinds : List BoundaryEventKind) (lost : ℕ) : Prop where
  decided : kinds.count .boundaryArrived =
    kinds.count .boundaryAdmitted + kinds.count .boundaryRejected
  answered : kinds.count .boundaryArrived =
    kinds.count .boundaryResponded + kinds.count .boundaryAborted + lost
  issued : kinds.count .appProofIssued = kinds.count .boundaryForwarded
  forwarded : kinds.count .boundaryForwarded =
    kinds.count .boundaryForwardResponded + kinds.count .boundaryForwardFailed

theorem balances_open {kinds : List BoundaryEventKind}
    (h : kinds ∈ rejectedStory :: admittedStories) : Balances kinds 1 := by
  refine ⟨?_, ?_, ?_, ?_⟩ <;> revert kinds <;> decide

theorem balances_story {kinds : List BoundaryEventKind} (h : Story .resolved kinds) :
    Balances kinds 0 := by
  obtain ⟨front, hfront, last, hlast, rfl⟩ := h
  refine ⟨?_, ?_, ?_, ?_⟩ <;> revert last <;> revert front <;> decide

/-- What a settled request lost: its answer, if its connection closed too early. -/
def Request.lost (request : Request) : ℕ := if request.heard then 0 else 1

theorem Request.Sound.balances {early : Prop} {request : Request} (h : request.Sound early)
    (hsettled : request.Settled) : Balances request.kinds request.lost := by
  obtain ⟨hstory, hhears, -, -⟩ := h
  obtain ⟨-, hphase⟩ := hsettled
  rw [Request.Hears] at hhears
  cases hcase : request.phase with
  | admitting call =>
    rw [hcase] at hphase
    exact hphase.elim
  | forwarding =>
    rw [hcase] at hphase
    exact hphase.elim
  | refused =>
    rw [hcase] at hstory hhears
    have hmem : request.kinds ∈ rejectedStory :: admittedStories := by
      rw [hstory]
      exact List.mem_cons_self
    have hheard : request.heard = false := hhears
    rw [Request.lost, hheard]
    exact balances_open hmem
  | waiting =>
    rw [hcase] at hstory hphase
    have hheard : request.heard = false := hphase
    rw [Request.lost, hheard]
    exact balances_open (List.mem_cons_of_mem _ hstory)
  | resolved =>
    rw [hcase] at hstory hhears
    have hheard : request.heard = true := hhears
    rw [Request.lost, hheard]
    exact balances_story hstory

/-- Equal shares sum up. -/
theorem sum_map_congr {α : Type} {l : List α} {f g : α → ℕ} (h : ∀ a ∈ l, f a = g a) :
    (l.map f).sum = (l.map g).sum := by
  rw [List.map_congr_left h]

/-- **The counters at rest** are off by the requests that were lost, and by nothing else. -/
theorem Boundary.Sound.balanced_iff {v : Boundary} {early : ℕ → Prop} (h : v.Sound early)
    (hsettled : ∀ request ∈ v.requests, request.Settled) :
    v.counters.Balanced ↔ ∀ i, ¬ early i := by
  have hsound (request : Request) (hmem : request ∈ v.requests) :
      ∃ i, request.Sound (early i) := by
    obtain ⟨i, hi⟩ := List.getElem?_of_mem hmem
    exact ⟨i, h.requests i request hi⟩
  have hbalances (request : Request) (hmem : request ∈ v.requests) :
      Balances request.kinds request.lost := by
    obtain ⟨i, hi⟩ := hsound request hmem
    exact hi.balances (hsettled request hmem)
  have hcount (kind : BoundaryEventKind) : v.counters.of kind = v.tally kind := h.counters kind
  have hdecided : v.counters.arrived = v.counters.admitted + v.counters.rejected := by
    have hsum := sum_map_congr fun request hmem => (hbalances request hmem).decided
    rw [List.sum_map_add] at hsum
    exact (hcount .boundaryArrived).trans
      (hsum.trans (congrArg₂ _ (hcount .boundaryAdmitted).symm (hcount .boundaryRejected).symm))
  have hissued : v.counters.appProofsIssued = v.counters.relayed := by
    have hsum := sum_map_congr fun request hmem => (hbalances request hmem).issued
    exact (hcount .appProofIssued).trans (hsum.trans (hcount .boundaryForwarded).symm)
  have hforwarded : v.counters.relayed =
      v.counters.forwardResponded + v.counters.forwardFailed := by
    have hsum := sum_map_congr fun request hmem => (hbalances request hmem).forwarded
    rw [List.sum_map_add] at hsum
    exact (hcount .boundaryForwarded).trans (hsum.trans (congrArg₂ _
      (hcount .boundaryForwardResponded).symm (hcount .boundaryForwardFailed).symm))
  have hanswered : v.counters.arrived =
      v.counters.responded + v.counters.aborted + (v.requests.map Request.lost).sum := by
    have hsum := sum_map_congr fun request hmem => (hbalances request hmem).answered
    rw [List.sum_map_add, List.sum_map_add] at hsum
    exact (hcount .boundaryArrived).trans (hsum.trans (congrArg (· + _) (congrArg₂ _
      (hcount .boundaryResponded).symm (hcount .boundaryAborted).symm)))
  have hlost : (v.requests.map Request.lost).sum = 0 ↔ ∀ i, ¬ early i := by
    rw [List.sum_eq_zero_iff]
    constructor
    · intro hzero i hearly
      have hi := List.getElem?_eq_getElem (h.early_lt i hearly)
      have hmem := List.mem_of_getElem? hi
      have hunheard := ((h.requests i _ hi).lost.1 hearly).2
      have hone := hzero _ (List.mem_map_of_mem hmem)
      rw [Request.lost, hunheard] at hone
      cases hone
    · intro hnone n hn
      obtain ⟨request, hmem, rfl⟩ := List.mem_map.1 hn
      obtain ⟨i, hi⟩ := List.getElem?_of_mem hmem
      have hlost := (h.requests i request hi).lost
      have hgone := (hsettled request hmem).1
      have hheard : request.heard = true := by
        by_contra hheard
        exact hnone i (hlost.2 ⟨hgone, by simpa using hheard⟩)
      rw [Request.lost, hheard]
      rfl
  constructor
  · intro hbalanced
    refine hlost.1 ?_
    have h := hbalanced.answered
    omega
  · intro hnone
    refine ⟨hdecided, ?_, hissued, hforwarded⟩
    have h := hlost.2 hnone
    omega

/-- **Every request resolves exactly once**, unless its connection closed while its admission was
pending; and the counters of a Boundary at rest balance if and only if none did. -/
theorem boundary_resolution (P : Platform) (config : AdmissionConfig) (fenceMs : ℚ) (capacity : ℕ)
    (ops : List Boundary.Op) :
    (∀ i request,
      (exec (Boundary.step P config fenceMs) { verifier := { guard := { capacity } } }
        ops).requests[i]? = some request → request.Settled →
      (request.Resolved ↔ ¬ Boundary.ClosedEarly (trace (Boundary.step P config fenceMs)
        { verifier := { guard := { capacity } } } ops) i)) ∧
    ((∀ request ∈ (exec (Boundary.step P config fenceMs)
        { verifier := { guard := { capacity } } } ops).requests, request.Settled) →
      ((exec (Boundary.step P config fenceMs) { verifier := { guard := { capacity } } }
          ops).counters.Balanced ↔
        ∀ i, ¬ Boundary.ClosedEarly (trace (Boundary.step P config fenceMs)
          { verifier := { guard := { capacity } } } ops) i)) := by
  have hsound := @Boundary.sound_exec P config fenceMs ops capacity
  refine ⟨fun i request hi hsettled => ?_, fun hsettled => hsound.balanced_iff hsettled⟩
  exact (hsound.requests i request hi).resolved_iff
    (hsound.numbered request (List.mem_of_getElem? hi)) hsettled

/-! ### A body that never arrives -/

/-- A connection that closes while the body of its request is read. -/
def abandoned (request : AdmissionRequest) (nowMs mono : ℚ) : List Boundary.Op :=
  [.arrive request nowMs, .admission (.verify 0 mono), .close 0, .admission (.body 0 [.closed]),
    .resume 0 none]

/-- Such a request is refused, and nobody reports the end of it. -/
theorem requests_abandoned {P : Platform} {config : AdmissionConfig} {fenceMs nowMs mono : ℚ}
    {capacity : ℕ} {request : AdmissionRequest} {c : Checked} {verified : Verified}
    {ticket : ReplayTicket} (hc : precheck P config fenceMs nowMs request = .ok c)
    (ha : authenticate P config fenceMs nowMs c = .ok verified)
    (hreserve : (ReplayGuard.reserve mono (wants config.role verified) { capacity }).2 = .ok ticket)
    (hle : verified.claims.request.bodyLen ≤ MAX_SEMANTIC_BODY)
    (hempty : verified.claims.request.bodyLen ≠ 0) :
    ∃ r, (exec (Boundary.step P config fenceMs) { verifier := { guard := { capacity } } }
        (abandoned request nowMs mono)).requests[0]? = some r ∧ r.Settled ∧ ¬ r.Resolved := by
  simp [abandoned, Boundary.step, Boundary.arrive, Verifier.step, hc, Verifier.verify, ha, hreserve,
    not_lt.2 hle, hempty, Boundary.close, Boundary.put, Boundary.outcome?, Boundary.refuse,
    Verifier.finish, Verifier.outcomeOf, readBody, Verifier.conclude, Except.mapError]
  refine ⟨⟨rfl, trivial⟩, ?_⟩
  rintro ⟨-, ⟨front, last, hlast, hkinds, -⟩, -, -⟩
  refine open_story rejectedStory List.mem_cons_self last ?_ hlast
  have hmem : last ∈ front ++ [last] := List.mem_append_right _ (List.mem_singleton.2 rfl)
  rw [← hkinds] at hmem
  exact hmem

/-- The claims of a form posted to the front page. -/
def postClaims : Claims where
  role := .pb
  kid := "pb-1"
  aud := Verifier.sampleId
  iat := 1500
  exp := 3000
  jti := Verifier.sampleId
  hop := 1
  corr := Verifier.sampleId
  request := ⟨"POST", "/", [("content-type", FORM_CONTENT_TYPE), ("host", "h")], 3,
    "QhRPOTnD_7vwv4sfEq_7XCOkxb1B4P9nLVSldU8GIFg"⟩

def postPayload : List UInt8 :=
  asciiBytes ("[\"ba0-pb-v2\",\"pb-1\",\"AAAAAAAAAAAAAAAAAAAAAA\",1500,3000," ++
    "\"AAAAAAAAAAAAAAAAAAAAAA\",1,\"AAAAAAAAAAAAAAAAAAAAAA\",\"POST\",\"/\"," ++
    "[[\"content-type\",\"application/x-www-form-urlencoded\"],[\"host\",\"h\"]],3," ++
    "\"QhRPOTnD_7vwv4sfEq_7XCOkxb1B4P9nLVSldU8GIFg\"]")

def postJson : Hop.Json :=
  .arr [.str PB_ROLE, .str "pb-1", .str Verifier.sampleId, .num 1500, .num 3000,
    .str Verifier.sampleId, .num 1, .str Verifier.sampleId, .str "POST", .str "/",
    .arr [.arr [.str "content-type", .str FORM_CONTENT_TYPE], .arr [.str "host", .str "h"]], .num 3,
    .str "QhRPOTnD_7vwv4sfEq_7XCOkxb1B4P9nLVSldU8GIFg"]

def postSignature : List UInt8 :=
  [71, 147, 80, 137, 232, 249, 10, 5, 168, 42, 135, 80, 25, 4, 75, 237, 198, 190, 24, 70, 115, 181,
    156, 108, 64, 88, 36, 107, 220, 237, 244, 63, 97, 253, 48, 134, 233, 182, 158, 246, 39, 238, 59,
    139, 37, 34, 175, 83, 201, 78, 16, 93, 19, 158, 192, 56, 101, 160, 168, 45, 108, 45, 60, 14]

/-- The platform on the proof of the form; no digest is taken before the body is complete. -/
def postPlatform : Platform where
  parseJson payload := if payload = postPayload then some postJson else none
  sha256 _ := Verifier.samplePlatform.sha256 []
  edVerify key message signature := key = Verifier.sampleKey &&
    message = asciiBytes PB_DOMAIN ++ postPayload && signature = postSignature

def postHeader : String := base64url postPayload ++ "." ++ base64url postSignature

def postRequest : AdmissionRequest where
  method := "POST"
  url := "/"
  rawHeaders := [("Host", "h"), ("Content-Type", FORM_CONTENT_TYPE), ("Content-Length", "3"),
    (HOP_PB_HEADER, postHeader)]

theorem contentLength?_post : contentLength? "3" = some 3 := by
  have hshape : "3".length ≤ 9 ∧ "3".toList.all Char.isDigit ∧
      ("3" = "0" ∨ "3".toList.head?.any fun c => c ≠ '0') := by decide
  rw [contentLength?, if_pos hshape]
  cbv

theorem length_postPayload : postPayload.length = 234 := by
  have hlengths : "[\"ba0-pb-v2\",\"pb-1\",\"AAAAAAAAAAAAAAAAAAAAAA\",1500,3000,".length = 55 ∧
      "\"AAAAAAAAAAAAAAAAAAAAAA\",1,\"AAAAAAAAAAAAAAAAAAAAAA\",\"POST\",\"/\",".length = 63 ∧
      "[[\"content-type\",\"application/x-www-form-urlencoded\"],[\"host\",\"h\"]],3,".length = 70 ∧
      "\"QhRPOTnD_7vwv4sfEq_7XCOkxb1B4P9nLVSldU8GIFg\"]".length = 46 :=
    ⟨String.length_ofList, String.length_ofList, String.length_ofList, String.length_ofList⟩
  simp only [postPayload, length_asciiBytes, String.length_append, hlengths]

theorem decodeProof_post :
    decodeProof postPlatform postHeader .pb = .ok ⟨postClaims, postPayload, postSignature⟩ := by
  have hparsed : postPlatform.parseJson postPayload = some postJson := by
    simp only [postPlatform, if_true]
  have hclaims : readClaims .pb postJson = .ok postClaims := by decide +kernel
  have hpayload : postPayload ≠ [] := by
    intro hnil
    have hlength := length_postPayload
    rw [hnil] at hlength
    cases hlength
  have hlength : (postPayload.length * 4 + 2) / 3 + 87 ≤ HEADER_MAX .pb := by
    rw [length_postPayload]
    decide
  rw [postHeader]
  exact decodeProof_encoded hpayload (by decide) hlength hparsed hclaims

theorem scanHopHeaders_post :
    scanHopHeaders postRequest.rawHeaders postRequest.method =
      { pb := [postHeader], bound := [("host", "h"), ("content-type", FORM_CONTENT_TYPE)],
        contentLengths := ["3"] } := by
  have hhost : "Host".toLower = "host" := by decide +kernel
  have htype : "Content-Type".toLower = "content-type" := by decide +kernel
  have hlength : "Content-Length".toLower = "content-length" := by decide +kernel
  have hname : HOP_PB_HEADER.toLower = HOP_PB_HEADER := by decide +kernel
  have hbound : classifyHeader "host" = .bound := by decide
  have hbound' : classifyHeader "content-type" = .bound := by decide +kernel
  have hderived : classifyHeader "content-length" = .derived := by decide
  have hproof : classifyHeader HOP_PB_HEADER = .proof := by decide
  have hvalue : canonicalValue "h" = some "h" := by decide
  have hvalue' : canonicalValue FORM_CONTENT_TYPE = some FORM_CONTENT_TYPE := by decide
  have htrim : trimOws "3" = "3" := by decide
  simp [postRequest, scanHopHeaders, HopScan.scanHeader, hhost, htype, hlength, hname, hbound,
    hbound', hderived, hproof, hvalue, hvalue', htrim, contentLength?_post, HopScan.close]

def postChecked : Checked where
  tag := none
  ownHeader := postHeader
  pbHeader := postHeader
  decoded := ⟨postClaims, postPayload, postSignature⟩

theorem precheck_post :
    precheck postPlatform Verifier.sampleConfig 0 1000 postRequest = .ok postChecked := by
  have hpairs : [("host", "h"), ("content-type", FORM_CONTENT_TYPE)].insertionSort
      (fun a b : HeaderPair => a.1 ≤ b.1) = [("content-type", FORM_CONTENT_TYPE), ("host", "h")] := by
    have hlt : ¬ "host" ≤ "content-type" := by decide
    simp [List.insertionSort, List.orderedInsert, hlt]
  have hwindow : InWindow postClaims 1000 0 := by
    refine ⟨by decide, ?_, ?_, ?_⟩ <;> simp only [postClaims, HOP_SKEW_MS] <;> norm_num
  simp only [precheck, bind_eq_ok, ensure_eq_ok, noReason_eq_ok, mapError_eq_ok, exists_const,
    scanHopHeaders_post]
  refine ⟨postHeader, rfl, fun _ => trivial, postHeader, rfl, rfl,
    ⟨postClaims, postPayload, postSignature⟩, decodeProof_post,
    checkProofWindow_eq_none.2 ⟨rfl, rfl, hwindow⟩, rfl, rfl, hpairs, fun _ => contentLength?_post, rfl⟩

def postVerified : Verified := ⟨postClaims, ⟨postClaims, postHeader⟩, Verifier.sampleId⟩

theorem authenticate_post :
    authenticate postPlatform Verifier.sampleConfig 0 1000 postChecked = .ok postVerified := by
  have hsignature :
      verifyProofSignature postPlatform .pb postChecked.decoded Verifier.sampleKey = true := by
    simp [verifyProofSignature, postPlatform, postChecked, DOMAIN]
  simp only [authenticate, Verifier.sampleConfig, bind_eq_ok]
  exact ⟨(), (ensure_eq_ok _ _ _).2 hsignature, rfl⟩

theorem unresolved_abandoned :
    ∃ request, (exec (Boundary.step postPlatform Verifier.sampleConfig 0)
        { verifier := { guard := { capacity := 4 } } } (abandoned postRequest 1000 7)).requests[0]? =
          some request ∧ request.Settled ∧ ¬ request.Resolved := by
  have hreserve := @ReplayGuard.reserve_new 4 7 _ (Verifier.nodup_wants .pb postVerified) (by decide)
  exact requests_abandoned precheck_post authenticate_post hreserve (by decide) (by decide)

end Limitmark.Origin
