import Limitmark.Foundations.Run

/-!
# The bounded event channel

`BoundedEventChannel` of `defense/core/ledger.ts`: the asynchronous emitter of a process, with a
bounded queue and a bounded window of events sent but not yet acknowledged. An event that does not
fit is dropped and counted, and its number is used up.

The state machine takes one call at a time; an output is the frames the call sent and the waiting
drains it resolved. `sendFrames_spec` says what the sending loop does, and the run lemma of the
channel is `Books`: every event emitted is queued, sent or dropped.
-/

namespace Limitmark.Ledger

open Limitmark.Foundations

/-! ## The channel -/

/-- The options of a channel. The constructor refuses one that is not positive. -/
structure ChannelOptions where
  queueCap : ℕ := 4096
  windowCap : ℕ := 2048
  maxFrameEvents : ℕ := 256
  queueCap_pos : 0 < queueCap := by decide
  windowCap_pos : 0 < windowCap := by decide
  maxFrameEvents_pos : 0 < maxFrameEvents := by decide

/-- The numbered events of one frame, and the drops so far. -/
structure EventFrame (ε : Type) where
  events : List (ℕ × ε)
  dropped : ℕ
  deriving DecidableEq, Repr

structure ChannelStats where
  emitted : ℕ
  dropped : ℕ
  sent : ℕ
  received : ℕ
  queued : ℕ
  unacknowledged : ℕ
  queueHighWater : ℕ
  lastSeq : ℕ
  deriving DecidableEq, Repr

structure Channel (ε : Type) where
  queue : List (ℕ × ε) := []
  timer : Bool := false
  waiters : List ℕ := []
  nextSeq : ℕ := 1
  emittedCount : ℕ := 0
  droppedCount : ℕ := 0
  sentCount : ℕ := 0
  receivedCount : ℕ := 0
  highWater : ℕ := 0
  /-- The drains so far, which name the waiters. -/
  drains : ℕ := 0
  deriving DecidableEq, Repr

/-- What a call sent, and which drains it resolved to what. -/
structure ChannelOutput (ε : Type) where
  frames : List (EventFrame ε) := []
  resolved : List (ℕ × Bool) := []
  deriving DecidableEq, Repr

namespace Channel

variable {ε : Type} (options : ChannelOptions)

def unacknowledged (channel : Channel ε) : ℕ := channel.sentCount - channel.receivedCount

def stats (channel : Channel ε) : ChannelStats where
  emitted := channel.emittedCount
  dropped := channel.droppedCount
  sent := channel.sentCount
  received := channel.receivedCount
  queued := channel.queue.length
  unacknowledged := channel.unacknowledged
  queueHighWater := channel.highWater
  lastSeq := channel.nextSeq - 1

/-- The loop that sends frames while the window has room. Each frame takes an event off the queue,
so that its length is fuel enough. -/
def sendFrames : ℕ → Channel ε → Channel ε × List (EventFrame ε)
  | 0, channel => (channel, [])
  | fuel + 1, channel =>
    if channel.queue ≠ [] ∧ channel.unacknowledged < options.windowCap then
      let size := min options.maxFrameEvents (options.windowCap - channel.unacknowledged)
      let events := channel.queue.take size
      let rest := sendFrames fuel { channel with
        queue := channel.queue.drop size, sentCount := channel.sentCount + events.length }
      (rest.1, ⟨events, channel.droppedCount⟩ :: rest.2)
    else (channel, [])

def flush (channel : Channel ε) : Channel ε × List (EventFrame ε) :=
  let sent := sendFrames options channel.queue.length { channel with timer := false }
  ({ sent.1 with timer := !sent.1.queue.isEmpty }, sent.2)

/-- Nothing waits here, and the collector has acknowledged everything sent. -/
def settled (channel : Channel ε) : Bool :=
  channel.queue.isEmpty && channel.sentCount = channel.receivedCount

/-- Wakes the waiting drains of a settled channel. -/
def settle (channel : Channel ε) : Channel ε × List (ℕ × Bool) :=
  if channel.settled then ({ channel with waiters := [] }, channel.waiters.map fun w => (w, true))
  else (channel, [])

/-- Records one event. -/
def emit (event : ε) (channel : Channel ε) : Channel ε × ChannelOutput ε :=
  let seq := channel.nextSeq
  let channel :=
    { channel with nextSeq := seq + 1, emittedCount := channel.emittedCount + 1 }
  if options.queueCap ≤ channel.queue.length then
    ({ channel with droppedCount := channel.droppedCount + 1 }, {})
  else
    let queue := channel.queue ++ [(seq, event)]
    let channel := { channel with queue, highWater := max channel.highWater queue.length }
    if options.maxFrameEvents ≤ queue.length then
      ((channel.flush options).1, { frames := (channel.flush options).2 })
    else ({ channel with timer := true }, {})

/-- The collector's cumulative count of events it has received. -/
def acknowledge (receivedTotal : ℕ) (channel : Channel ε) : Channel ε × ChannelOutput ε :=
  let channel :=
    if channel.receivedCount < receivedTotal ∧ receivedTotal ≤ channel.sentCount then
      { channel with receivedCount := receivedTotal }
    else channel
  let flushed := channel.flush options
  (flushed.1.settle.1, ⟨flushed.2, flushed.1.settle.2⟩)

/-- The timer of a flush fires. -/
def tick (channel : Channel ε) : Channel ε × ChannelOutput ε :=
  if channel.timer then ((channel.flush options).1, { frames := (channel.flush options).2 })
  else (channel, {})

/-- Waits until everything emitted is acknowledged. -/
def drain (channel : Channel ε) : Channel ε × ChannelOutput ε :=
  let waiter := channel.drains
  let flushed := { channel with drains := waiter + 1 }.flush options
  if flushed.1.settled then (flushed.1, ⟨flushed.2, [(waiter, true)]⟩)
  else ({ flushed.1 with waiters := flushed.1.waiters ++ [waiter] }, { frames := flushed.2 })

/-- The timeout of a drain that still waits. -/
def timeout (waiter : ℕ) (channel : Channel ε) : Channel ε × ChannelOutput ε :=
  if waiter ∈ channel.waiters then
    ({ channel with waiters := channel.waiters.filter (· ≠ waiter) },
      { resolved := [(waiter, false)] })
  else (channel, {})

end Channel

inductive ChannelCall (ε : Type)
  | emit (event : ε)
  | acknowledge (receivedTotal : ℕ)
  | tick
  | drain
  | timeout (waiter : ℕ)
  deriving DecidableEq, Repr

variable {ε : Type} (options : ChannelOptions)

def Channel.step (channel : Channel ε) : ChannelCall ε → Channel ε × ChannelOutput ε
  | .emit event => channel.emit options event
  | .acknowledge receivedTotal => channel.acknowledge options receivedTotal
  | .tick => channel.tick options
  | .drain => channel.drain options
  | .timeout waiter => channel.timeout waiter

/-! ## The sending loop -/

namespace Channel

/-- How many events a flush takes off the queue. -/
def flushable (channel : Channel ε) : ℕ :=
  min channel.queue.length (options.windowCap - channel.unacknowledged)

/-- A channel after its next `n` events were sent. -/
def afterSending (n : ℕ) (channel : Channel ε) : Channel ε :=
  { channel with queue := channel.queue.drop n, sentCount := channel.sentCount + n }

/-- A frame of at most `size` events is the first step of a flush. -/
theorem flushable_step (channel : Channel ε) {size : ℕ}
    (hsize : size ≤ options.windowCap - channel.unacknowledged)
    (hreceived : channel.receivedCount ≤ channel.sentCount) (hqueue : channel.queue ≠ []) :
    let count := min size channel.queue.length
    (channel.afterSending count).flushable options + count = channel.flushable options := by
  have hpos := List.length_pos_iff.2 hqueue
  simp only [flushable, afterSending, unacknowledged, List.length_drop] at hsize ⊢
  omega

/-- **The sending loop** sends what the window has room for, in order, in frames that are neither
empty nor too large. -/
theorem sendFrames_spec {fuel : ℕ} (channel : Channel ε) (hfuel : channel.queue.length ≤ fuel)
    (hreceived : channel.receivedCount ≤ channel.sentCount) :
    (sendFrames options fuel channel).1 = channel.afterSending (channel.flushable options) ∧
    (sendFrames options fuel channel).2.flatMap EventFrame.events =
      channel.queue.take (channel.flushable options) ∧
    ∀ frame ∈ (sendFrames options fuel channel).2, frame.events ≠ [] ∧
      frame.events.length ≤ options.maxFrameEvents ∧ frame.dropped = channel.droppedCount := by
  induction fuel generalizing channel with
  | zero =>
    have hzero : channel.flushable options = 0 := by
      simp only [flushable]
      omega
    rw [hzero]
    exact ⟨rfl, by simp [sendFrames], by simp [sendFrames]⟩
  | succ fuel ih =>
    rw [sendFrames]
    split_ifs with hopen
    · obtain ⟨hqueue, hroom⟩ := hopen
      have hpos := List.length_pos_iff.2 hqueue
      have hframe := options.maxFrameEvents_pos
      set size := min options.maxFrameEvents (options.windowCap - channel.unacknowledged)
        with hsize
      have hle : size ≤ options.windowCap - channel.unacknowledged := Nat.min_le_right _ _
      have hstep := flushable_step options channel hle hreceived hqueue
      -- the frame is shorter than `size` when the queue is
      have hdrop : channel.queue.drop size =
          channel.queue.drop (min size channel.queue.length) := by
        rcases Nat.le_total channel.queue.length size with h | h
        · rw [Nat.min_eq_right h, List.drop_length, List.drop_eq_nil_of_le h]
        · rw [Nat.min_eq_left h]
      have hafter : ({ channel with
          queue := channel.queue.drop size
          sentCount := channel.sentCount + (channel.queue.take size).length } : Channel ε) =
            channel.afterSending (min size channel.queue.length) := by
        simp only [afterSending, hdrop, List.length_take]
      simp only [hafter]
      obtain ⟨hchannel, hevents, hframes⟩ :=
        ih (channel.afterSending (min size channel.queue.length))
          (by simp only [afterSending, List.length_drop]; omega)
          (by simp only [afterSending]; omega)
      refine ⟨?_, ?_, ?_⟩
      · rw [hchannel, ← hstep, Nat.add_comm]
        simp only [afterSending, List.drop_drop, Nat.add_assoc]
      · rw [List.flatMap_cons, hevents, ← hstep, Nat.add_comm, List.take_add]
        simp [afterSending]
      · simp only [List.forall_mem_cons]
        refine ⟨⟨?_, ?_, trivial⟩, hframes⟩
        · simp only [ne_eq, List.take_eq_nil_iff, not_or]
          exact ⟨by omega, hqueue⟩
        · simp only [List.length_take]
          omega
    · -- the queue is empty, or the window is full
      have hzero : channel.flushable options = 0 := by
        rcases not_and_or.1 hopen with h | h
        · simp [flushable, not_not.1 h]
        · simp only [flushable]
          omega
      rw [hzero]
      exact ⟨rfl, by simp, by simp⟩

/-- **A flush** sends what the window has room for and leaves the timer armed for the rest. -/
theorem flush_spec {channel : Channel ε} (hreceived : channel.receivedCount ≤ channel.sentCount) :
    (channel.flush options).1 = { channel.afterSending (channel.flushable options) with
      timer := !(channel.queue.drop (channel.flushable options)).isEmpty } ∧
    (channel.flush options).2.flatMap EventFrame.events =
      channel.queue.take (channel.flushable options) ∧
    ∀ frame ∈ (channel.flush options).2, frame.events ≠ [] ∧
      frame.events.length ≤ options.maxFrameEvents ∧ frame.dropped = channel.droppedCount := by
  obtain ⟨hchannel, hevents, hframes⟩ := sendFrames_spec options
    { channel with timer := false } (Nat.le_refl _) hreceived
  refine ⟨?_, hevents, hframes⟩
  simp only [flush, hchannel]
  rfl

/-! ## The books of a channel -/

/-- The events of a stream under their numbers. -/
def numbered (events : List ε) : List (ℕ × ε) := (events.zipIdx 1).map Prod.swap

theorem numbered_concat (events : List ε) (event : ε) :
    numbered (events ++ [event]) = numbered events ++ [(events.length + 1, event)] := by
  simp [numbered, List.zipIdx_append, Nat.add_comm]

/-- What a channel has emitted and sent, against its counters and its queue. -/
structure Books (emitted : List ε) (frames : List (EventFrame ε)) (channel : Channel ε) : Prop where
  /-- What was sent and what waits is what was emitted, in order, but for the drops. -/
  kept : (frames.flatMap EventFrame.events ++ channel.queue).Sublist (numbered emitted)
  emitted_eq : channel.emittedCount = emitted.length
  sent_eq : channel.sentCount = (frames.flatMap EventFrame.events).length
  balance : channel.emittedCount =
    channel.sentCount + channel.queue.length + channel.droppedCount
  nextSeq_eq : channel.nextSeq = channel.emittedCount + 1
  received_le : channel.receivedCount ≤ channel.sentCount
  window : channel.unacknowledged ≤ options.windowCap
  queue_le : channel.queue.length ≤ channel.highWater
  highWater_le : channel.highWater ≤ options.queueCap
  frame : ∀ frame ∈ frames, frame.events ≠ [] ∧ frame.events.length ≤ options.maxFrameEvents ∧
    frame.dropped ≤ channel.droppedCount

theorem Books.initial : Books options [] [] ({} : Channel ε) := by
  constructor <;> simp [unacknowledged]

variable {options} {emitted : List ε} {frames : List (EventFrame ε)} {channel : Channel ε}

theorem Books.flush (h : Books options emitted frames channel) :
    Books options emitted (frames ++ (channel.flush options).2) (channel.flush options).1 := by
  obtain ⟨hchannel, hevents, hframes⟩ := flush_spec options h.received_le
  have hlength : channel.flushable options ≤ channel.queue.length := Nat.min_le_left _ _
  have hroom : channel.flushable options ≤ options.windowCap - channel.unacknowledged :=
    Nat.min_le_right _ _
  have hwindow := h.window
  have hreceived := h.received_le
  have hbalance := h.balance
  have hqueue := h.queue_le
  rw [hchannel]
  constructor
  case kept =>
    simpa only [List.flatMap_append, hevents, afterSending, List.append_assoc,
      List.take_append_drop] using h.kept
  case emitted_eq => exact h.emitted_eq
  case sent_eq =>
    simp only [afterSending, List.flatMap_append, hevents, List.length_append, List.length_take,
      ← h.sent_eq]
    omega
  case balance =>
    simp only [afterSending, List.length_drop]
    omega
  case nextSeq_eq => exact h.nextSeq_eq
  case received_le =>
    simp only [afterSending]
    omega
  case window =>
    simp only [unacknowledged, afterSending] at hwindow hroom ⊢
    omega
  case queue_le =>
    simp only [afterSending, List.length_drop]
    omega
  case highWater_le => exact h.highWater_le
  case frame =>
    simp only [List.forall_mem_append]
    exact ⟨h.frame, fun frame hmem => ⟨(hframes frame hmem).1, (hframes frame hmem).2.1,
      Nat.le_of_eq (hframes frame hmem).2.2⟩⟩

/-- An acknowledgement that is not of more than was sent moves the window. -/
theorem Books.received (h : Books options emitted frames channel) {receivedTotal : ℕ}
    (hle : channel.receivedCount ≤ receivedTotal) (hsent : receivedTotal ≤ channel.sentCount) :
    Books options emitted frames { channel with receivedCount := receivedTotal } := by
  have hwindow := h.window
  refine ⟨h.kept, h.emitted_eq, h.sent_eq, h.balance, h.nextSeq_eq, hsent, ?_, h.queue_le,
    h.highWater_le, h.frame⟩
  simp only [unacknowledged] at hwindow ⊢
  omega

/-- The timer, the waiters and the drains are not in the books. -/
theorem Books.of_eq (h : Books options emitted frames channel) (timer : Bool) (waiters : List ℕ)
    (drains : ℕ) : Books options emitted frames { channel with timer, waiters, drains } :=
  ⟨h.kept, h.emitted_eq, h.sent_eq, h.balance, h.nextSeq_eq, h.received_le, h.window, h.queue_le,
    h.highWater_le, h.frame⟩

/-- An event that does not fit is dropped, but its number is used up. -/
theorem Books.drop (h : Books options emitted frames channel) (event : ε) :
    Books options (emitted ++ [event]) frames
      { channel with
        nextSeq := channel.nextSeq + 1
        emittedCount := channel.emittedCount + 1
        droppedCount := channel.droppedCount + 1 } := by
  have hbalance := h.balance
  have hemitted := h.emitted_eq
  have hnext := h.nextSeq_eq
  refine ⟨?_, by simp [hemitted], h.sent_eq, ?_, ?_, h.received_le, h.window, h.queue_le,
    h.highWater_le, fun frame hmem => ?_⟩
  · rw [numbered_concat]
    exact h.kept.trans (List.sublist_append_left _ _)
  · simp only
    omega
  · simp only
    omega
  · obtain ⟨hne, hlength, hdropped⟩ := h.frame frame hmem
    exact ⟨hne, hlength, Nat.le_succ_of_le hdropped⟩

/-- An event that fits waits at the end of the queue. -/
theorem Books.push (h : Books options emitted frames channel) (event : ε)
    (hroom : channel.queue.length < options.queueCap) :
    Books options (emitted ++ [event]) frames
      { channel with
        nextSeq := channel.nextSeq + 1
        emittedCount := channel.emittedCount + 1
        queue := channel.queue ++ [(channel.nextSeq, event)]
        highWater := max channel.highWater
          (channel.queue ++ [(channel.nextSeq, event)]).length } := by
  have hbalance := h.balance
  have hemitted := h.emitted_eq
  have hnext := h.nextSeq_eq
  have hhigh := h.highWater_le
  have hqueue := h.queue_le
  refine ⟨?_, by simp [hemitted], h.sent_eq, ?_, ?_, h.received_le, h.window, ?_, ?_, h.frame⟩
  · rw [numbered_concat, ← List.append_assoc, ← hemitted, ← hnext]
    exact h.kept.append_right _
  · simp only [List.length_append, List.length_singleton]
    omega
  · simp only
    omega
  · exact Nat.le_max_right _ _
  · simp only [List.length_append, List.length_singleton]
    omega

/-! ## The waiters -/

theorem settled_eq_false : channel.settled = false ↔
    channel.queue ≠ [] ∨ channel.sentCount ≠ channel.receivedCount := by
  simp [settled, imp_iff_not_or]

/-- A flush settles only a channel that was settled. -/
theorem settled_flush (options : ChannelOptions)
    (hreceived : channel.receivedCount ≤ channel.sentCount)
    (h : channel.settled = false) : (channel.flush options).1.settled = false := by
  have hlength : channel.flushable options ≤ channel.queue.length := Nat.min_le_left _ _
  rw [settled_eq_false] at h ⊢
  rw [(flush_spec options hreceived).1]
  simp only [afterSending, ne_eq, List.drop_eq_nil_iff]
  rcases h with h | h
  · have hpos := List.length_pos_iff.2 h
    omega
  · omega

theorem waiters_flush (options : ChannelOptions)
    (hreceived : channel.receivedCount ≤ channel.sentCount) :
    (channel.flush options).1.waiters = channel.waiters ∧
      (channel.flush options).1.drains = channel.drains := by
  rw [(flush_spec options hreceived).1]
  exact ⟨rfl, rfl⟩

/-- After a flush the timer is armed for what still waits. -/
theorem armed_flush : (channel.flush options).1.queue ≠ [] →
    (channel.flush options).1.timer = true := by
  simp [flush]

/-- Whoever waits is woken: by the timer what is queued, by an acknowledgement what drains. Every
drain is resolved once, or waits. -/
structure Awake (resolved : List (ℕ × Bool)) (channel : Channel ε) : Prop where
  armed : channel.queue ≠ [] → channel.timer = true
  waiting : channel.waiters ≠ [] → channel.settled = false
  once : (resolved.map Prod.fst ++ channel.waiters).Perm (List.range channel.drains)

theorem Awake.initial : Awake [] ({} : Channel ε) := by
  constructor <;> simp

variable {resolved : List (ℕ × Bool)}

theorem Awake.flush (h : Awake resolved channel)
    (hreceived : channel.receivedCount ≤ channel.sentCount) :
    Awake resolved (channel.flush options).1 where
  armed := armed_flush
  waiting hne := by
    rw [(waiters_flush options hreceived).1] at hne
    exact settled_flush options hreceived (h.waiting hne)
  once := by
    rw [(waiters_flush options hreceived).1, (waiters_flush options hreceived).2]
    exact h.once

/-! ## The calls -/

section Calls

variable (hbooks : Books options emitted frames channel) (hawake : Awake resolved channel)
include hbooks hawake

/-- A step of the run: the books go on with what was emitted and sent. -/
def Kept (options : ChannelOptions) (emitted : List ε) (frames : List (EventFrame ε))
    (resolved : List (ℕ × Bool)) (result : Channel ε × ChannelOutput ε) : Prop :=
  Books options emitted (frames ++ result.2.frames) result.1 ∧
    Awake (resolved ++ result.2.resolved) result.1

omit hbooks hawake in
theorem kept_flush (hbooks : Books options emitted frames channel)
    (hawake : Awake resolved channel) : Kept options emitted frames resolved
      ((channel.flush options).1, { frames := (channel.flush options).2 }) := by
  refine ⟨hbooks.flush, ?_⟩
  simpa using hawake.flush hbooks.received_le

theorem kept_emit (event : ε) :
    Kept options (emitted ++ [event]) frames resolved (channel.emit options event) := by
  unfold emit
  dsimp only
  split_ifs with hfull hframe
  · refine ⟨by simpa using hbooks.drop event, ?_⟩
    rw [List.append_nil]
    exact ⟨hawake.armed, hawake.waiting, hawake.once⟩
  · have hpush := hbooks.push event (Nat.lt_of_not_le hfull)
    refine ⟨hpush.flush, ?_⟩
    rw [List.append_nil]
    refine ⟨armed_flush, fun _ => settled_flush options hpush.received_le ?_, ?_⟩
    · exact settled_eq_false.2 (.inl (by simp))
    · rw [(waiters_flush options hpush.received_le).1, (waiters_flush options hpush.received_le).2]
      exact hawake.once
  · have hpush := hbooks.push event (Nat.lt_of_not_le hfull)
    rw [Kept, List.append_nil, List.append_nil]
    exact ⟨hpush.of_eq true channel.waiters channel.drains, fun _ => rfl,
      fun _ => settled_eq_false.2 (.inl (by simp)), hawake.once⟩

theorem kept_acknowledge (receivedTotal : ℕ) :
    Kept options emitted frames resolved (channel.acknowledge options receivedTotal) := by
  have hmoved : ∃ moved : Channel ε, Books options emitted frames moved ∧
      moved.waiters = channel.waiters ∧ moved.drains = channel.drains ∧
      channel.acknowledge options receivedTotal =
        ((moved.flush options).1.settle.1,
          ⟨(moved.flush options).2, (moved.flush options).1.settle.2⟩) := by
    unfold acknowledge
    split_ifs with hmoves
    · exact ⟨_, hbooks.received (Nat.le_of_lt hmoves.1) hmoves.2, rfl, rfl, rfl⟩
    · exact ⟨channel, hbooks, rfl, rfl, rfl⟩
  obtain ⟨moved, hmoved, hwaiters, hdrains, heq⟩ := hmoved
  obtain ⟨hwaiters', hdrains'⟩ := waiters_flush options hmoved.received_le
  rw [heq]
  unfold settle
  split_ifs with hsettled
  · refine ⟨hmoved.flush.of_eq _ [] _, armed_flush, fun hne => absurd rfl hne, ?_⟩
    simpa [hwaiters', hwaiters, hdrains', hdrains, Function.comp_def] using hawake.once
  · refine ⟨hmoved.flush, armed_flush, fun _ => by simpa using hsettled, ?_⟩
    simpa [hwaiters', hwaiters, hdrains', hdrains] using hawake.once

theorem kept_tick : Kept options emitted frames resolved (channel.tick options) := by
  unfold tick
  split_ifs with htimer
  · exact kept_flush hbooks hawake
  · simpa [Kept] using And.intro hbooks hawake

theorem kept_drain : Kept options emitted frames resolved (channel.drain options) := by
  have hnamed := hbooks.of_eq channel.timer channel.waiters (channel.drains + 1)
  obtain ⟨hwaiters, hdrains⟩ := waiters_flush options hnamed.received_le
  have honce := hawake.once
  unfold drain
  dsimp only
  split_ifs with hsettled
  · refine ⟨hnamed.flush, armed_flush, fun hne => ?_, ?_⟩
    · -- a channel with waiters was not settled, and a flush settles none
      rw [hwaiters] at hne
      have hopen := settled_flush options hnamed.received_le (hawake.waiting hne)
      rw [hopen] at hsettled
      cases hsettled
    · rw [hwaiters, hdrains, List.range_succ, List.map_append, List.append_assoc]
      refine (List.Perm.append_left _ List.perm_append_comm).trans ?_
      rw [← List.append_assoc]
      exact honce.append_right _
  · refine ⟨hnamed.flush.of_eq _ _ _, armed_flush,
      fun _ => Bool.eq_false_iff.2 hsettled, ?_⟩
    rw [hwaiters, hdrains, List.range_succ, List.append_nil, ← List.append_assoc]
    exact honce.append_right _

theorem kept_timeout (waiter : ℕ) :
    Kept options emitted frames resolved (channel.timeout waiter) := by
  unfold timeout
  split_ifs with hwaits
  · have honce := hawake.once
    have hnodup := (List.nodup_append.1 (honce.nodup_iff.2 List.nodup_range)).2.1
    have hperm : channel.waiters.Perm (waiter :: channel.waiters.filter (· ≠ waiter)) := by
      have herase := List.perm_cons_erase hwaits
      have hne : (fun w => w != waiter) = fun w => decide (w ≠ waiter) := by
        funext w
        by_cases h : w = waiter <;> simp [h]
      rwa [hnodup.erase_eq_filter, hne] at herase
    refine ⟨by simpa using hbooks.of_eq channel.timer _ channel.drains, hawake.armed,
      fun hne => hawake.waiting fun hnil => hne ?_, ?_⟩
    · simp [hnil]
    · refine List.Perm.trans ?_ honce
      rw [List.map_append, List.append_assoc]
      refine (List.Perm.append_left _ ?_)
      simpa using hperm.symm
  · simpa [Kept] using And.intro hbooks hawake

end Calls

end Channel

/-! ## Runs -/

/-- The event a call emits. -/
def ChannelCall.event? : ChannelCall ε → Option ε
  | .emit event => some event
  | .acknowledge _ | .tick | .drain | .timeout _ => none

/-- What a run emitted. -/
def emittedIn (calls : List (ChannelCall ε)) : List ε := calls.filterMap ChannelCall.event?

namespace Channel

/-- The frames a run sent, in order. -/
def framesOf (calls : List (ChannelCall ε)) : List (EventFrame ε) :=
  (trace (step options) {} calls).flatMap fun entry => entry.out.frames

/-- The drains a run resolved, in order. -/
def resolvedOf (calls : List (ChannelCall ε)) : List (ℕ × Bool) :=
  (trace (step options) {} calls).flatMap fun entry => entry.out.resolved

/-- One call keeps the books. -/
theorem kept_step {emitted : List ε} {frames : List (EventFrame ε)} {resolved : List (ℕ × Bool)}
    {channel : Channel ε} (hbooks : Books options emitted frames channel)
    (hawake : Awake resolved channel) (call : ChannelCall ε) :
    Kept options (emitted ++ call.event?.toList) frames resolved (channel.step options call) := by
  cases call with
  | emit event => exact kept_emit hbooks hawake event
  | acknowledge receivedTotal =>
    simpa [ChannelCall.event?, step] using kept_acknowledge hbooks hawake receivedTotal
  | tick => simpa [ChannelCall.event?, step] using kept_tick hbooks hawake
  | drain => simpa [ChannelCall.event?, step] using kept_drain hbooks hawake
  | timeout waiter => simpa [ChannelCall.event?, step] using kept_timeout hbooks hawake waiter

theorem emittedIn_concat (calls : List (ChannelCall ε)) (call : ChannelCall ε) :
    emittedIn (calls ++ [call]) = emittedIn calls ++ call.event?.toList := by
  cases call <;> simp [emittedIn, ChannelCall.event?]

/-- Every run keeps the books. -/
theorem books (calls : List (ChannelCall ε)) :
    Books options (emittedIn calls) (framesOf options calls) (exec (step options) {} calls) ∧
      Awake (resolvedOf options calls) (exec (step options) {} calls) := by
  induction calls using List.reverseRecOn with
  | nil => exact ⟨Books.initial options, Awake.initial⟩
  | append_singleton calls call ih =>
    have hstep := kept_step options ih.1 ih.2 call
    simp only [framesOf, resolvedOf, emittedIn_concat, trace_append, exec_append,
      List.flatMap_append] at hstep ⊢
    simpa [Kept] using hstep

/-- Only a settled channel wakes its waiters, and it stays settled. -/
theorem settled_of_mem_settle {channel : Channel ε} {result : ℕ × Bool}
    (h : result ∈ channel.settle.2) : channel.settle.1.settled = true := by
  unfold settle at h ⊢
  split_ifs at h ⊢ with hsettled
  · exact hsettled
  · cases h

/-- A drain is resolved to true only by a settled channel. -/
theorem settled_of_resolved {channel : Channel ε} {call : ChannelCall ε} {waiter : ℕ}
    (h : (waiter, true) ∈ (channel.step options call).2.resolved) :
    (channel.step options call).1.settled = true := by
  cases call with
  | emit event =>
    simp only [step, emit] at h
    split_ifs at h <;> simp at h
  | acknowledge receivedTotal => exact settled_of_mem_settle h
  | tick =>
    simp only [step, tick] at h
    split_ifs at h <;> simp at h
  | drain =>
    simp only [step, drain] at h ⊢
    split_ifs at h ⊢ with hsettled
    · exact hsettled
    · simp at h
  | timeout waiter =>
    simp only [step, timeout] at h
    split_ifs at h <;> simp at h

/-- **The channel over any run.** What was emitted is sent, queued or dropped, and what is sent or
queued is the rest of it in order; the queue, the window and the frames keep their bounds; whatever
waits is going to be woken; a drain is resolved once, to true only when nothing is outstanding. -/
theorem channel_run (calls : List (ChannelCall ε)) :
    let channel : Channel ε := exec (step options) {} calls
    let kept := (framesOf options calls).flatMap EventFrame.events ++ channel.queue
    (kept.Sublist (numbered (emittedIn calls)) ∧
      kept.length + channel.droppedCount = (emittedIn calls).length ∧
      channel.stats.lastSeq = (emittedIn calls).length) ∧
    (channel.stats.emitted = channel.stats.sent + channel.stats.queued + channel.stats.dropped ∧
      channel.stats.unacknowledged ≤ options.windowCap ∧
      channel.stats.queued ≤ channel.stats.queueHighWater ∧
      channel.stats.queueHighWater ≤ options.queueCap) ∧
    (∀ frame ∈ framesOf options calls,
      frame.events ≠ [] ∧ frame.events.length ≤ options.maxFrameEvents) ∧
    ((channel.queue ≠ [] → channel.timer = true) ∧
      (channel.waiters ≠ [] → channel.settled = false) ∧
      ((resolvedOf options calls).map Prod.fst ++ channel.waiters).Perm
        (List.range channel.drains)) ∧
    ∀ entry ∈ trace (step options) {} calls, ∀ waiter, (waiter, true) ∈ entry.out.resolved →
      entry.post.queue = [] ∧ entry.post.sentCount = entry.post.receivedCount := by
  obtain ⟨hbooks, hawake⟩ := books options calls
  refine ⟨⟨hbooks.kept, ?_, ?_⟩, ⟨?_, hbooks.window, hbooks.queue_le, hbooks.highWater_le⟩,
    fun frame hmem => ⟨(hbooks.frame frame hmem).1, (hbooks.frame frame hmem).2.1⟩,
    ⟨hawake.armed, hawake.waiting, hawake.once⟩, fun entry hmem waiter hresolved => ?_⟩
  · rw [List.length_append, ← hbooks.sent_eq, ← hbooks.emitted_eq, hbooks.balance]
  · simp only [stats, hbooks.nextSeq_eq, Nat.add_sub_cancel, hbooks.emitted_eq]
  · exact hbooks.balance
  · obtain ⟨pre, post, htrace⟩ := List.append_of_mem hmem
    obtain ⟨js, call, ks, -, -, rfl, -⟩ := trace_eq_append_cons _ htrace
    have hsettled := settled_of_resolved options hresolved
    simpa [settled] using hsettled

/-! ## Progress -/

/-- Acknowledging everything sent, `n` times. -/
def acknowledgements (channel : Channel ε) : ℕ → List (ChannelCall ε)
  | 0 => []
  | n + 1 => .acknowledge channel.sentCount ::
      acknowledgements (channel.step options (.acknowledge channel.sentCount)).1 n

theorem with_receivedCount_self {channel : Channel ε} {n : ℕ} (h : channel.receivedCount = n) :
    ({ channel with receivedCount := n } : Channel ε) = channel := by
  subst h
  rfl

/-- An acknowledgement of everything sent settles an empty queue and shortens any other. -/
theorem acknowledge_all {emitted : List ε} {frames : List (EventFrame ε)} {channel : Channel ε}
    (hbooks : Books options emitted frames channel) :
    let result := channel.step options (.acknowledge channel.sentCount)
    (channel.queue = [] → result.1.settled = true ∧ result.1.waiters = [] ∧
      result.2.resolved = channel.waiters.map fun w => (w, true)) ∧
    (channel.queue ≠ [] → result.1.queue.length < channel.queue.length ∧
      result.1.waiters = channel.waiters) := by
  have hwindow := options.windowCap_pos
  have hreceived := hbooks.received_le
  -- the window is empty after it, whether or not it moved
  have hmoved : (if channel.receivedCount < channel.sentCount ∧
      channel.sentCount ≤ channel.sentCount then
        ({ channel with receivedCount := channel.sentCount } : Channel ε) else channel) =
      { channel with receivedCount := channel.sentCount } := by
    split_ifs with h
    · rfl
    · exact (with_receivedCount_self (by omega)).symm
  have hbooks' := hbooks.received hreceived (Nat.le_refl _)
  have hflush := (flush_spec options hbooks'.received_le).1
  have hcount : ({ channel with receivedCount := channel.sentCount } : Channel ε).flushable
      options = min channel.queue.length options.windowCap := by
    simp [flushable, unacknowledged]
  rw [hcount] at hflush
  simp only [step, acknowledge, hmoved, settle, hflush]
  refine ⟨fun hqueue => ?_, fun hqueue => ?_⟩
  · simp [settled, afterSending, hqueue]
  · have hpos := List.length_pos_iff.2 hqueue
    have hopen : ¬ (channel.sentCount + min channel.queue.length options.windowCap =
        channel.sentCount) := by omega
    simp only [settled, afterSending, hopen, decide_false, Bool.and_false, Bool.false_eq_true,
      if_false, List.length_drop]
    exact ⟨by omega, trivial⟩

/-- **Progress.** In whatever state a run leaves the channel, acknowledging everything sent, at most
once for each queued event and once more, delivers the queue and resolves every waiting drain. -/
theorem channel_progress (calls : List (ChannelCall ε)) :
    let channel : Channel ε := exec (step options) {} calls
    ∃ n ≤ channel.queue.length + 1,
      (exec (step options) channel (acknowledgements options channel n)).settled = true ∧
      (exec (step options) channel (acknowledgements options channel n)).waiters = [] ∧
      ∀ waiter ∈ channel.waiters, ∃ entry ∈ trace (step options) channel
        (acknowledgements options channel n), (waiter, true) ∈ entry.out.resolved := by
  intro channel
  obtain ⟨hbooks, hawake⟩ := books options calls
  change Books options _ _ channel at hbooks
  change Awake _ channel at hawake
  clear_value channel
  generalize emittedIn calls = emitted at hbooks
  generalize framesOf options calls = frames at hbooks
  generalize resolvedOf options calls = resolved at hawake
  induction hlength : channel.queue.length using Nat.strongRecOn generalizing channel frames
    resolved emitted with
  | ind length ih =>
    obtain ⟨hempty, hqueued⟩ := acknowledge_all options hbooks
    by_cases hqueue : channel.queue = []
    · obtain ⟨hsettled, hwaiters, hresolved⟩ := hempty hqueue
      refine ⟨1, by omega, hsettled, hwaiters, fun waiter hmem => ?_⟩
      refine ⟨entry (step options) channel (.acknowledge channel.sentCount), ?_, ?_⟩
      · simp [acknowledgements]
      rw [entry_out, hresolved]
      exact List.mem_map_of_mem hmem
    · obtain ⟨hshorter, hwaiters⟩ := hqueued hqueue
      have hkept := kept_step options hbooks hawake (.acknowledge channel.sentCount)
      obtain ⟨n, hn, hsettled, hnone, hresolved⟩ :=
        ih _ (hlength ▸ hshorter) _ _ _ hkept.1 _ hkept.2 rfl
      refine ⟨n + 1, by omega, hsettled, hnone, fun waiter hmem => ?_⟩
      obtain ⟨entry, hentry, hmem⟩ := hresolved waiter (hwaiters ▸ hmem)
      exact ⟨entry, List.mem_cons_of_mem _ hentry, hmem⟩

end Channel

end Limitmark.Ledger
