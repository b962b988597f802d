import Limitmark.Ledger.Collector
import Mathlib.Data.List.Nodup

/-!
# The bounds of the collector

What the ledger keeps is bounded whatever it is sent: the requests, the events of each, and the
anomalies, which are counted beyond the bound. Once frozen, the ledger does not change, and every
event that still comes is counted as late.
-/

namespace Limitmark.Ledger

open Limitmark.Foundations

/-! ## The updates of a collector -/

namespace Collector

section Updates

variable (limits : CollectorLimits) (collector : Collector) (anomaly : LedgerAnomaly)
  (code : AnomalyCode) (nonce : Option String) (detail : String) (stream : Stream)
  (f : StreamState → StreamState)

@[simp] theorem records_keepAnomaly :
    (collector.keepAnomaly limits anomaly).records = collector.records := rfl

@[simp] theorem frozen_keepAnomaly :
    (collector.keepAnomaly limits anomaly).frozen = collector.frozen := rfl

@[simp] theorem streams_keepAnomaly :
    (collector.keepAnomaly limits anomaly).streams = collector.streams := rfl

@[simp] theorem external_keepAnomaly :
    (collector.keepAnomaly limits anomaly).external = collector.external := rfl

@[simp] theorem lateEvents_keepAnomaly :
    (collector.keepAnomaly limits anomaly).lateEvents = collector.lateEvents := rfl

@[simp] theorem anomalyCount_keepAnomaly :
    (collector.keepAnomaly limits anomaly).anomalyCount = collector.anomalyCount + 1 := rfl

@[simp] theorem records_anomaly :
    (collector.anomaly limits code nonce detail).records = collector.records := rfl

@[simp] theorem frozen_anomaly :
    (collector.anomaly limits code nonce detail).frozen = collector.frozen := rfl

@[simp] theorem streams_anomaly :
    (collector.anomaly limits code nonce detail).streams = collector.streams := rfl

@[simp] theorem external_anomaly :
    (collector.anomaly limits code nonce detail).external = collector.external := rfl

@[simp] theorem lateEvents_anomaly :
    (collector.anomaly limits code nonce detail).lateEvents = collector.lateEvents := rfl

@[simp] theorem anomalyCount_anomaly :
    (collector.anomaly limits code nonce detail).anomalyCount = collector.anomalyCount + 1 := rfl

@[simp] theorem records_late :
    (collector.late limits nonce detail).records = collector.records := rfl

@[simp] theorem frozen_late :
    (collector.late limits nonce detail).frozen = collector.frozen := rfl

@[simp] theorem streams_late :
    (collector.late limits nonce detail).streams = collector.streams := rfl

@[simp] theorem external_late :
    (collector.late limits nonce detail).external = collector.external := rfl

@[simp] theorem lateEvents_late :
    (collector.late limits nonce detail).lateEvents = collector.lateEvents + 1 := rfl

@[simp] theorem anomalyCount_late :
    (collector.late limits nonce detail).anomalyCount = collector.anomalyCount + 1 := rfl

@[simp] theorem records_setStream : (collector.setStream stream f).records = collector.records :=
  rfl

@[simp] theorem frozen_setStream : (collector.setStream stream f).frozen = collector.frozen := rfl

@[simp] theorem external_setStream :
    (collector.setStream stream f).external = collector.external := rfl

@[simp] theorem lateEvents_setStream :
    (collector.setStream stream f).lateEvents = collector.lateEvents := rfl

@[simp] theorem anomalyCount_setStream :
    (collector.setStream stream f).anomalyCount = collector.anomalyCount := rfl

@[simp] theorem streams_setStream_self :
    (collector.setStream stream f).streams stream = f (collector.streams stream) := by
  simp [setStream]

theorem streams_setStream_of_ne {stream' : Stream} (h : stream' ≠ stream) :
    (collector.setStream stream f).streams stream' = collector.streams stream' := by
  simp [setStream, h]

variable (key : String) (g : LedgerRecord → LedgerRecord)

@[simp] theorem frozen_update : (collector.update key g).frozen = collector.frozen := rfl

@[simp] theorem streams_update : (collector.update key g).streams = collector.streams := rfl

@[simp] theorem external_update : (collector.update key g).external = collector.external := rfl

@[simp] theorem lateEvents_update : (collector.update key g).lateEvents = collector.lateEvents :=
  rfl

@[simp] theorem anomalyCount_update :
    (collector.update key g).anomalyCount = collector.anomalyCount := rfl

end Updates

end Collector

/-! ## What is kept -/

/-- The events a record keeps. The events of an origin read off the app come on top. -/
structure LedgerRecord.Bounded (limits : CollectorLimits) (record : LedgerRecord) : Prop where
  harness : record.harness.length ≤ max 1 limits.maxEventsPerRecord
  plane : record.plane.length ≤ limits.maxEventsPerRecord
  boundary : record.boundary.length ≤ limits.maxEventsPerRecord
  app : record.app.length ≤ limits.maxEventsPerRecord
  origin : record.origin.length ≤ limits.maxEventsPerRecord + record.app.length

/-- The record ids are given out in order. -/
def rids (n : ℕ) : List String := (List.range' 1 n).map fun i => "r" ++ toString i

structure Collector.Bounded (limits : CollectorLimits) (collector : Collector) : Prop where
  records : collector.records.length ≤ limits.maxRequests
  anomalies : collector.anomalyList.length = min limits.maxAnomalies collector.anomalyCount
  nextRid : collector.nextRid = collector.records.length + 1
  rids_eq : collector.records.map LedgerRecord.rid = rids collector.records.length
  nonces : (collector.records.map LedgerRecord.nonce).Nodup
  record : ∀ record ∈ collector.records, record.Bounded limits

/-- What filing an event may do to a record. -/
structure Feed.Lawful {ε σ : Type} (feed : Feed ε σ) : Prop where
  rid : ∀ s record, (feed.push s record).rid = record.rid
  nonce : ∀ s record, (feed.push s record).nonce = record.nonce
  bounded : ∀ limits s record, record.Bounded limits →
    (feed.stored record).length < limits.maxEventsPerRecord → (feed.push s record).Bounded limits
  stored : ∀ event record, feed.counter event.2 = none →
    feed.stored (feed.push (feed.stamp event) record) = feed.stored record ++ [feed.stamp event]
  anonymous : ∀ event, feed.counter event ≠ none → feed.nonce event = none

theorem planeFeed_lawful : planeFeed.Lawful where
  rid _ _ := rfl
  nonce _ _ := rfl
  bounded limits s record h hroom := by
    refine ⟨h.harness, ?_, h.boundary, h.app, h.origin⟩
    simp only [planeFeed, List.length_map] at hroom
    cases s with
    | none => simpa [planeFeed] using h.plane
    | some event =>
      simp only [planeFeed, Option.toList_some, List.length_append, List.length_singleton]
      omega
  stored event record h := by
    obtain ⟨seq, input⟩ := event
    cases input with
    | parserRejected code => simp [planeFeed] at h
    | ofRequest event => simp [planeFeed, PlaneInput.event?]
  anonymous input h := by
    cases input with
    | parserRejected code => rfl
    | ofRequest event => simp [planeFeed] at h

theorem boundaryFeed_lawful : boundaryFeed.Lawful where
  rid _ _ := rfl
  nonce _ _ := rfl
  bounded limits s record h hroom := by
    refine ⟨h.harness, h.plane, ?_, h.app, h.origin⟩
    simp only [boundaryFeed, List.length_append, List.length_singleton] at hroom ⊢
    omega
  stored _ _ _ := rfl
  anonymous event h := by
    simp only [boundaryFeed, ne_eq, ite_eq_right_iff, reduceCtorEq, imp_false, not_not] at h
    exact h

theorem appFeed_lawful : appFeed.Lawful where
  rid _ _ := rfl
  nonce _ _ := rfl
  bounded limits s record h hroom := by
    have horigin := h.origin
    have hderived : (derivedOrigin s).toList.length ≤ 1 := by
      cases derivedOrigin s <;> simp
    simp only [appFeed] at hroom
    refine ⟨h.harness, h.plane, h.boundary, ?_, ?_⟩
    · simp only [appFeed, List.length_append, List.length_singleton]
      omega
    · simp only [appFeed, List.length_append, List.length_singleton]
      omega
  stored _ _ _ := rfl
  anonymous _ h := absurd rfl h

namespace Collector

variable {limits : CollectorLimits} {collector : Collector}

theorem Bounded.keepAnomaly (h : Bounded limits collector) (anomaly : LedgerAnomaly) :
    Bounded limits (collector.keepAnomaly limits anomaly) := by
  refine ⟨h.records, ?_, h.nextRid, h.rids_eq, h.nonces, h.record⟩
  have hanomalies := h.anomalies
  simp only [Collector.keepAnomaly]
  split_ifs with hroom
  · simp only [List.length_append, List.length_singleton]
    omega
  · omega

theorem Bounded.anomaly (h : Bounded limits collector) (code : AnomalyCode)
    (nonce : Option String) (detail : String) :
    Bounded limits (collector.anomaly limits code nonce detail) := h.keepAnomaly _

theorem Bounded.late (h : Bounded limits collector) (nonce : Option String) (detail : String) :
    Bounded limits (collector.late limits nonce detail) := by
  have hlate : Bounded limits { collector with lateEvents := collector.lateEvents + 1 } :=
    ⟨h.records, h.anomalies, h.nextRid, h.rids_eq, h.nonces, h.record⟩
  exact hlate.anomaly _ _ _

theorem Bounded.setStream (h : Bounded limits collector) (stream : Stream)
    (f : StreamState → StreamState) : Bounded limits (collector.setStream stream f) :=
  ⟨h.records, h.anomalies, h.nextRid, h.rids_eq, h.nonces, h.record⟩

/-- A request has one record. -/
theorem eq_of_recordFor (hnodup : (collector.records.map LedgerRecord.nonce).Nodup)
    {nonce : String} {record : LedgerRecord} (h : collector.recordFor nonce = some record) :
    record ∈ collector.records ∧ record.nonce = nonce ∧
      ∀ record' ∈ collector.records, record'.nonce = nonce → record' = record := by
  have hmem := List.mem_of_find?_eq_some h
  have hnonce : record.nonce = nonce := by simpa using List.find?_some h
  refine ⟨hmem, hnonce, fun record' hmem' hnonce' => ?_⟩
  exact List.inj_on_of_nodup_map hnodup hmem' hmem (hnonce'.trans hnonce.symm)

/-- A change of one record that keeps its name and its bounds. -/
theorem Bounded.update (h : Bounded limits collector) {nonce : String} {record : LedgerRecord}
    (hrecord : collector.recordFor nonce = some record) {f : LedgerRecord → LedgerRecord}
    (hrid : ∀ record, (f record).rid = record.rid)
    (hnonce : ∀ record, (f record).nonce = record.nonce) (hf : (f record).Bounded limits) :
    Bounded limits (collector.update record.nonce f) := by
  obtain ⟨-, rfl, honly⟩ := eq_of_recordFor h.nonces hrecord
  refine ⟨?_, h.anomalies, ?_, ?_, ?_, ?_⟩
  · simpa [Collector.update] using h.records
  · simpa [Collector.update] using h.nextRid
  · simp only [Collector.update, List.map_map, List.length_map]
    rw [← h.rids_eq]
    refine List.map_congr_left fun record' _ => ?_
    simp only [Function.comp_apply]
    split_ifs
    · exact hrid _
    · rfl
  · have heq : (collector.update record.nonce f).records.map LedgerRecord.nonce =
        collector.records.map LedgerRecord.nonce := by
      simp only [Collector.update, List.map_map]
      refine List.map_congr_left fun record' _ => ?_
      simp only [Function.comp_apply]
      split_ifs
      · exact hnonce _
      · rfl
    rw [heq]
    exact h.nonces
  · simp only [Collector.update, List.forall_mem_map]
    intro record' hmem
    split_ifs with hsame
    · rw [honly record' hmem hsame]
      exact hf
    · exact h.record record' hmem

/-! ## The inputs keep the bounds -/

/-- A ledger before its run, with the checks the run has turned on. -/
def start (originStreams laneStreams external : Bool) : Collector :=
  { originStreams, laneStreams, external }

theorem Bounded.start (limits : CollectorLimits) (originStreams laneStreams external : Bool) :
    Bounded limits (start originStreams laneStreams external) := by
  constructor <;> simp [Collector.start, rids]

theorem Bounded.sent (h : Bounded limits collector) (nonce : String) (lane : ExpectedLane) :
    Bounded limits (collector.sent limits nonce lane) := by
  unfold Collector.sent
  split_ifs with hfrozen hknown hfull hexceeded
  · exact h.late _ _
  · exact h.anomaly _ _ _
  · exact h
  · have hflag : Bounded limits { collector with capacityExceeded := true } :=
      ⟨h.records, h.anomalies, h.nextRid, h.rids_eq, h.nonces, h.record⟩
    exact hflag.anomaly _ _ _
  · refine ⟨?_, h.anomalies, ?_, ?_, ?_, ?_⟩
    · simp only [List.length_append, List.length_singleton]
      omega
    · simp [h.nextRid]
    · have hrids := h.rids_eq
      simp only [rids] at hrids
      simp [rids, List.range'_concat, h.nextRid, hrids, Nat.add_comm]
    · have hfresh : nonce ∉ collector.records.map LedgerRecord.nonce := by
        simpa [recordFor, List.find?_isSome] using hknown
      rw [List.map_append, List.nodup_append]
      refine ⟨h.nonces, by simp, ?_⟩
      simp only [List.map_cons, List.map_nil, List.mem_singleton, forall_eq]
      exact fun nonce' hmem heq => hfresh (heq ▸ hmem)
    · simp only [List.forall_mem_append, List.forall_mem_singleton]
      exact ⟨h.record, by constructor <;> simp⟩

theorem Bounded.clientCompleted (h : Bounded limits collector) (nonce : String)
    (result : ClientResultKind) (status : Option ℕ) (outcomeHeader : Option String) :
    Bounded limits (collector.clientCompleted limits nonce result status outcomeHeader) := by
  unfold Collector.clientCompleted
  split_ifs with hfrozen
  · exact h.late _ _
  · cases hrecord : collector.recordFor nonce with
    | none => exact h.anomaly _ _ _
    | some record =>
      dsimp only
      obtain ⟨hmem, rfl, -⟩ := eq_of_recordFor h.nonces hrecord
      have hbounded := h.record record hmem
      split_ifs with hfull
      · exact h
      · refine h.update hrecord (fun _ => rfl) (fun _ => rfl)
          ⟨?_, hbounded.plane, hbounded.boundary, hbounded.app, hbounded.origin⟩
        simp only [List.length_append, List.length_singleton]
        omega

theorem Bounded.ingestOrigin (h : Bounded limits collector) (nonce : Option String)
    (event : OriginEvent) (kind : String) :
    Bounded limits (collector.ingestOrigin limits nonce event kind) := by
  unfold Collector.ingestOrigin
  split_ifs with hfrozen
  · exact h.late _ _
  · cases hrecord : nonce.bind fun nonce => collector.recordFor nonce with
    | none => exact h.anomaly _ _ _
    | some record =>
      dsimp only
      obtain ⟨nonce, rfl, hrecord⟩ := Option.bind_eq_some_iff.1 hrecord
      obtain ⟨hmem, rfl, -⟩ := eq_of_recordFor h.nonces hrecord
      have hbounded := h.record record hmem
      split_ifs with hfull
      · exact h.anomaly _ _ _
      · refine h.update hrecord (fun _ => rfl) (fun _ => rfl)
          ⟨hbounded.harness, hbounded.plane, hbounded.boundary, hbounded.app, ?_⟩
        simp only [List.length_append, List.length_singleton]
        omega

section Feeds

variable {ε σ : Type} {feed : Feed ε σ} (hfeed : feed.Lawful) (claims : ε → Bool)
include hfeed

omit hfeed in
theorem Bounded.checkSeq (h : Bounded limits collector) (feed : Feed ε σ) (event : ℕ × ε) :
    Bounded limits (feed.checkSeq limits event collector) := by
  unfold Feed.checkSeq
  dsimp only
  split_ifs
  · exact ((h.setStream _ _).anomaly _ _ _).setStream _ _
  · exact ((h.setStream _ _).anomaly _ _ _).setStream _ _
  · exact (h.setStream _ _).setStream _ _

theorem Bounded.file (h : Bounded limits collector) (event : ℕ × ε) :
    Bounded limits (feed.file limits claims event collector) := by
  unfold Feed.file
  cases feed.counter event.2 with
  | some key => exact h.setStream _ _
  | none =>
    dsimp only
    cases hrecord : (feed.nonce event.2).bind fun nonce => collector.recordFor nonce with
    | none =>
      dsimp only
      split_ifs
      · exact h
      · cases feed.refusal event.2 with
        | some key => exact h.setStream _ _
        | none => exact h.anomaly _ _ _
    | some record =>
      dsimp only
      obtain ⟨nonce, -, hrecord⟩ := Option.bind_eq_some_iff.1 hrecord
      obtain ⟨hmem, rfl, -⟩ := eq_of_recordFor h.nonces hrecord
      split_ifs with hfull
      · exact h.anomaly _ _ _
      · exact h.update hrecord (hfeed.rid _) (hfeed.nonce _)
          (hfeed.bounded limits _ record (h.record record hmem) (Nat.lt_of_not_le hfull))

theorem Bounded.ingestFrame (h : Bounded limits collector) (frame : EventFrame ε) :
    Bounded limits (feed.ingestFrame limits claims frame collector).1 := by
  unfold Feed.ingestFrame
  dsimp only
  generalize hstart : collector.setStream _ _ = collector'
  have hcollector : Bounded limits collector' := hstart ▸ h.setStream _ _
  clear hstart
  induction frame.events generalizing collector' with
  | nil => exact hcollector
  | cons event events ih =>
    refine ih _ ?_
    unfold Feed.ingestEvent
    dsimp only
    split_ifs
    · exact (hcollector.checkSeq feed event).late _ _
    · exact (hcollector.checkSeq feed event).file hfeed claims event

end Feeds

theorem Bounded.step (h : Bounded limits collector) (input : CollectorInput) :
    Bounded limits (collector.step limits input).1 := by
  cases input with
  | sent nonce lane => exact h.sent nonce lane
  | clientCompleted nonce result status outcomeHeader =>
    exact h.clientCompleted nonce result status outcomeHeader
  | planeFrame claims frame => exact h.ingestFrame planeFeed_lawful claims frame
  | boundaryFrame claims frame => exact h.ingestFrame boundaryFeed_lawful claims frame
  | appFrame claims frame => exact h.ingestFrame appFeed_lawful claims frame
  | origin nonce event kind => exact h.ingestOrigin nonce event kind
  | externalAnomaly anomaly => exact h.keepAnomaly anomaly
  | exited stream detail => exact h.setStream _ _
  | finished stream fin => exact h.setStream stream fun state => { state with fin := some fin }
  | freeze => exact ⟨h.records, h.anomalies, h.nextRid, h.rids_eq, h.nonces, h.record⟩

theorem bounded_run (limits : CollectorLimits) (originStreams laneStreams external : Bool)
    (inputs : List CollectorInput) :
    Bounded limits (exec (step limits) (start originStreams laneStreams external) inputs) :=
  exec_invariant _ (Bounded.start limits originStreams laneStreams external)
    (fun _ input h => h.step input) inputs

end Collector

/-! ## The frozen ledger -/

/-- The events an input reports. -/
def CollectorInput.events : CollectorInput → ℕ
  | .sent _ _ | .clientCompleted _ _ _ _ | .origin _ _ _ => 1
  | .planeFrame _ frame => frame.events.length
  | .boundaryFrame _ frame => frame.events.length
  | .appFrame _ frame => frame.events.length
  | .externalAnomaly _ | .exited _ _ | .finished _ _ | .freeze => 0

namespace Collector

/-- A frozen ledger keeps its records and counts `n` more events as late. -/
structure Late (n : ℕ) (before after : Collector) : Prop where
  records : after.records = before.records
  frozen : after.frozen = true
  lateEvents : after.lateEvents = before.lateEvents + n
  anomalyCount : before.anomalyCount + n ≤ after.anomalyCount

theorem Late.trans {m n : ℕ} {before between after : Collector} (h : Late m before between)
    (h' : Late n between after) : Late (m + n) before after where
  records := h'.records.trans h.records
  frozen := h'.frozen
  lateEvents := by rw [h'.lateEvents, h.lateEvents, Nat.add_assoc]
  anomalyCount := by
    have h₁ := h.anomalyCount
    have h₂ := h'.anomalyCount
    omega

variable {limits : CollectorLimits} {collector : Collector}

theorem late_late (h : collector.frozen = true) (nonce : Option String) (detail : String) :
    Late 1 collector (collector.late limits nonce detail) :=
  ⟨rfl, h, rfl, Nat.le_refl _⟩

theorem late_setStream (h : collector.frozen = true) (stream : Stream)
    (f : StreamState → StreamState) : Late 0 collector (collector.setStream stream f) :=
  ⟨rfl, h, rfl, Nat.le_refl _⟩

theorem late_checkSeq (limits : CollectorLimits) {ε σ : Type} (feed : Feed ε σ)
    (h : collector.frozen = true) (event : ℕ × ε) :
    Late 0 collector (feed.checkSeq limits event collector) := by
  unfold Feed.checkSeq
  dsimp only
  split_ifs <;> exact ⟨rfl, h, rfl, by simp⟩

theorem late_ingestFrame {ε σ : Type} {feed : Feed ε σ} (h : collector.frozen = true)
    (claims : ε → Bool) (frame : EventFrame ε) :
    Late frame.events.length collector (feed.ingestFrame limits claims frame collector).1 := by
  unfold Feed.ingestFrame
  dsimp only
  generalize hstart : collector.setStream _ _ = collector'
  have hcollector : Late 0 collector collector' := hstart ▸ late_setStream h _ _
  rw [← Nat.zero_add frame.events.length]
  refine hcollector.trans ?_
  have hfrozen := hcollector.frozen
  clear hcollector hstart
  induction frame.events generalizing collector' with
  | nil => exact ⟨rfl, hfrozen, rfl, Nat.le_refl _⟩
  | cons event events ih =>
    have hseq := late_checkSeq limits feed hfrozen event
    have hevent : Late 1 collector' (feed.ingestEvent limits claims collector' event) := by
      unfold Feed.ingestEvent
      dsimp only
      rw [if_pos hseq.frozen, ← Nat.zero_add 1]
      exact hseq.trans (late_late hseq.frozen _ _)
    rw [List.length_cons, Nat.add_comm]
    exact hevent.trans (ih _ hevent.frozen)

theorem late_step (limits : CollectorLimits) (h : collector.frozen = true)
    (input : CollectorInput) : Late input.events collector (collector.step limits input).1 := by
  cases input with
  | sent nonce lane =>
    simp only [step, sent, h, if_true]
    exact late_late h _ _
  | clientCompleted nonce result status outcomeHeader =>
    simp only [step, clientCompleted, h, if_true]
    exact late_late h _ _
  | planeFrame claims frame => exact late_ingestFrame h claims frame
  | boundaryFrame claims frame => exact late_ingestFrame h claims frame
  | appFrame claims frame => exact late_ingestFrame h claims frame
  | origin nonce event kind =>
    simp only [step, ingestOrigin, h, if_true]
    exact late_late h _ _
  | externalAnomaly anomaly => exact ⟨rfl, h, rfl, Nat.le_succ _⟩
  | exited stream detail => exact late_setStream h _ _
  | finished stream fin => exact late_setStream h stream fun state => { state with fin := some fin }
  | freeze => exact ⟨rfl, rfl, rfl, Nat.le_refl _⟩

theorem late_run (h : collector.frozen = true) (inputs : List CollectorInput) :
    Late (inputs.map CollectorInput.events).sum collector
      (exec (step limits) collector inputs) := by
  induction inputs generalizing collector with
  | nil => exact ⟨rfl, h, rfl, Nat.le_refl _⟩
  | cons input inputs ih =>
    have hstep := late_step limits h input
    exact hstep.trans (ih hstep.frozen)

/-- **The ledger is bounded and final.** In every run, whatever comes in whatever order, what the
ledger keeps is within its limits and a request has one record; from its freezing on the records
stay as they are, and every event that still comes counts as an anomaly of the verdict. -/
theorem collector_run (limits : CollectorLimits) (originStreams laneStreams external : Bool)
    (inputs later : List CollectorInput) :
    let initial := start originStreams laneStreams external
    let frozen := exec (step limits) initial inputs
    let collector := exec (step limits) initial (inputs ++ .freeze :: later)
    Bounded limits collector ∧ collector.records = frozen.records ∧
      (later.map CollectorInput.events).sum ≤ (collector.finalize limits).2 ∧
      (collector.finalize limits).1.length =
        min limits.maxAnomalies (collector.finalize limits).2 := by
  intro initial frozen collector
  have hbounded : Bounded limits collector := bounded_run limits _ _ _ _
  have hlate : Late (later.map CollectorInput.events).sum frozen.freeze collector := by
    simp only [collector, exec_append, exec_cons]
    exact late_run rfl later
  have hcount := hlate.anomalyCount
  have hanomalies := hbounded.anomalies
  refine ⟨hbounded, hlate.records, ?_, ?_⟩
  · simp only [finalize]
    omega
  · simp only [finalize, List.length_take, List.length_append]
    omega

end Collector

end Limitmark.Ledger
