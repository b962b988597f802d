import Limitmark.Inquiries.InquiryCreation

/-!
# The creation of an inquiry is idempotent

A token in flight is held by one transaction, and no committed inquiry has it (`Creation.flight`,
`Creation.alone`). So a commit brings a new token, with its event and its notification; a call that has
lost the token finds the inquiry that has it, and answers by its fingerprint.
-/

namespace Limitmark.Inquiries

open Limitmark.Foundations CreateState

abbrev CreateStep := Entry CreateState CreateStepInput CreateOutput

/-- The inquiry of a call. -/
def Matches (row : Inquiry) (input : CreateInquiryInput) : Prop :=
  row.submissionToken = input.submissionToken ∧ row.payloadFingerprint = input.payloadFingerprint

/-- The answer to a call is that of the inquiry with its token. -/
def Answered (tables : InquiryTables) (input : CreateInquiryInput) (result : CreateInquiryResult) : Prop :=
  ∃ row ∈ tables.inquiries, row.submissionToken = input.submissionToken ∧
    (row.payloadFingerprint = input.payloadFingerprint →
      result = .created row.id ∨ result = .idempotent row.id) ∧
    (row.payloadFingerprint ≠ input.payloadFingerprint → result = .conflict)

/-- A call that succeeds returns the inquiry with its token. -/
theorem Answered.exists_row {tables : InquiryTables} {input : CreateInquiryInput}
    {result : CreateInquiryResult} (h : Answered tables input result) {id : String}
    (hid : result = .created id ∨ result = .idempotent id) :
    ∃ row ∈ tables.inquiries, row.submissionToken = input.submissionToken ∧ row.id = id := by
  obtain ⟨row, hrow, htoken, hsame, hother⟩ := h
  refine ⟨row, hrow, htoken, ?_⟩
  by_cases hfingerprint : row.payloadFingerprint = input.payloadFingerprint
  · rcases hsame hfingerprint with rfl | rfl <;> rcases hid with h | h <;> cases h
    · rfl
    · rfl
  · obtain rfl := hother hfingerprint
    rcases hid with h | h <;> cases h

/-- What a transaction has inserted belongs to its call. -/
def CreateTransaction.Sound : CreateTransaction → Prop
  | .insertedInquiry input _ row => Matches row input
  | .insertedEvent input _ row event => Matches row input ∧ event = receivedEvent row
  | .insertedOutbox input row event job =>
    Matches row input ∧ event = receivedEvent row ∧ job.inquiryId = row.id
  | _ => True

/-! ## What a step does -/

variable {s s' : CreateState} {out : CreateOutput}

/-- One transaction goes on. -/
def Moves (id : ℕ) (after : Option CreateTransaction) (s s' : CreateState) : Prop :=
  ∀ j, s'.transactions.lookup j = if j = id then after else s.transactions.lookup j

inductive CreateEffect (s : CreateState) (out : CreateOutput) (s' : CreateState) : Prop
  | kept (same : s' = s) (silent : out = none)
  | moved {id : ℕ} {after : Option CreateTransaction} (tables : s'.tables = s.tables)
      (moves : Moves id after s s')
      (sound : ∀ transaction, after = some transaction → transaction.Sound)
      (keeps : ∀ row, after.bind CreateTransaction.inserted = some row →
        (s.transactions.lookup id).bind CreateTransaction.inserted = some row)
      (selecting : ∀ input, after = some (.selecting input) →
        ∃ row ∈ s.tables.inquiries, row.submissionToken = input.submissionToken)
      (answer : ∀ input result, out = some (input, result) →
        Answered s.tables input result ∧ ∀ inquiryId, result ≠ .created inquiryId)
  | inserted {id : ℕ} {input : CreateInquiryInput} {now : ℤ} {row : Inquiry}
      (tables : s'.tables = s.tables) (moves : Moves id (some (.insertedInquiry input now row)) s s')
      (sound : Matches row input)
      (newToken : ∀ r ∈ s.tables.inquiries, r.submissionToken ≠ row.submissionToken)
      (newKey : ∀ r ∈ s.tables.inquiries, r.id ≠ row.id)
      (alone : ∀ j transaction r, s.transactions.lookup j = some transaction →
        transaction.inserted = some r → r.submissionToken ≠ row.submissionToken ∧ r.id ≠ row.id)
      (silent : out = none)
  | committed {id : ℕ} {input : CreateInquiryInput} {row : Inquiry} {event : InquiryEvent}
      {job : NotificationRow} (call : s.transactions.lookup id = some (.insertedOutbox input row event job))
      (moves : Moves id none s s')
      (tables : s'.tables = ⟨s.tables.inquiries ++ [row], s.tables.events ++ [event],
        s.tables.outbox ++ [job]⟩)
      (answer : out = some (input, .created row.id))

theorem moves_set {id : ℕ} {transaction : CreateTransaction} :
    Moves id (some transaction) s (s.set id transaction) :=
  fun j => Table.lookup_insert_eq j id transaction s.transactions

theorem moves_finish {id : ℕ} : Moves id none s (s.finish id) :=
  fun j => Table.lookup_erase_eq j id s.transactions

theorem effect_finish {id : ℕ}
    (answer : ∀ input result, out = some (input, result) →
      Answered s.tables input result ∧ ∀ inquiryId, result ≠ .created inquiryId) :
    CreateEffect s out (s.finish id) :=
  .moved rfl moves_finish (fun _ h => by cases h) (fun _ h => by cases h) (fun _ h => by cases h) answer

theorem effect_silent {id : ℕ} : CreateEffect s none (s.finish id) :=
  effect_finish fun _ _ h => by cases h

theorem inserted_of_lookup {p : Inquiry → Bool} (h : s.isInFlight p = false) {j : ℕ}
    {transaction : CreateTransaction} {r : Inquiry} (hlookup : s.transactions.lookup j = some transaction)
    (hinserted : transaction.inserted = some r) : p r = false := by
  rw [isInFlight, List.any_eq_false] at h
  have hnone := h transaction (Table.mem_values_of_lookup hlookup)
  rw [hinserted, Option.any_some] at hnone
  exact Bool.eq_false_iff.2 hnone

theorem effect_insertInquiry {id : ℕ} {key : String} {input : CreateInquiryInput} {now : ℤ} :
    CreateEffect s none (s.insertInquiry id key input now) := by
  unfold insertInquiry
  dsimp only
  split
  · next htaken =>
    rw [isCommitted, List.any_eq_true] at htaken
    obtain ⟨row, hrow, htoken⟩ := htaken
    refine .moved rfl moves_set (fun _ h => ?_) (fun _ h => by cases h) (fun input' h => ?_)
      fun _ _ h => by cases h
    · cases h
      trivial
    · cases h
      exact ⟨row, hrow, of_decide_eq_true htoken⟩
  · next hnew =>
    split
    · exact .kept rfl rfl
    · next hfree =>
      split
      · exact effect_silent
      · next hkey =>
        simp only [not_or, Bool.not_eq_true] at hnew hfree hkey
        rw [isCommitted, List.any_eq_false] at hnew
        have hkeys := hkey.2.1
        rw [isCommitted, List.any_eq_false] at hkeys
        refine .inserted rfl moves_set ⟨rfl, rfl⟩ (fun r hr htoken => ?_) (fun r hr hid => ?_)
          (fun j transaction r hlookup hinserted => ⟨fun htoken => ?_, fun hid => ?_⟩) rfl
        · exact hnew r hr (decide_eq_true htoken)
        · exact hkeys r hr (decide_eq_true hid)
        · exact of_decide_eq_false (inserted_of_lookup hfree hlookup hinserted) htoken
        · exact of_decide_eq_false (inserted_of_lookup hkey.2.2 hlookup hinserted) hid

theorem answered_priorResult {input : CreateInquiryInput} {tables : InquiryTables}
    {result : CreateInquiryResult} (h : priorResult input tables = some result) :
    Answered tables input result ∧ ∀ inquiryId, result ≠ .created inquiryId := by
  unfold priorResult at h
  split at h
  · cases h
  · next prior hfind =>
    have hrow := List.mem_of_find?_eq_some hfind
    have htoken := of_decide_eq_true (List.find?_some
      (p := fun r : Inquiry => r.submissionToken = input.submissionToken) hfind)
    split at h
    · next hne =>
      cases h
      exact ⟨⟨prior, hrow, htoken, fun h => absurd h hne, fun _ => rfl⟩, fun _ h => by cases h⟩
    · next heq =>
      cases h
      exact ⟨⟨prior, hrow, htoken, fun _ => .inr rfl, fun h => absurd h heq⟩, fun _ h => by cases h⟩

theorem step_effect_create (hsound : ∀ id transaction, s.transactions.lookup id = some transaction →
      transaction.Sound) (i : CreateStepInput) :
    CreateEffect s (CreateState.step s i).2 (CreateState.step s i).1 := by
  cases i with
  | create input now =>
    have hmoves : Moves s.nextTransaction (some (.inserting input now)) s
        (CreateState.step s (.create input now)).1 := fun j => Table.lookup_insert_eq j _ _ _
    refine .moved rfl hmoves (fun _ h => ?_) (fun _ h => by cases h) (fun _ h => by cases h)
      fun _ _ h => by cases h
    cases h
    trivial
  | insertInquiry id key =>
    unfold CreateState.step
    dsimp only
    split
    · exact effect_insertInquiry
    · exact .kept rfl rfl
  | insertEvent id =>
    unfold CreateState.step
    dsimp only
    split
    · next input now row hcall =>
      refine .moved rfl moves_set (fun _ h => ?_) (fun r h => ?_) (fun _ h => by cases h)
        fun _ _ h => by cases h
      · cases h
        exact ⟨hsound id _ hcall, rfl⟩
      · rw [hcall]
        exact h
    · exact .kept rfl rfl
  | insertOutbox id key =>
    unfold CreateState.step
    dsimp only
    split
    · next input now row event hcall =>
      split
      · exact effect_silent
      · refine .moved rfl moves_set (fun _ h => ?_) (fun r h => ?_) (fun _ h => by cases h)
          fun _ _ h => by cases h
        · cases h
          obtain ⟨hmatches, hevent⟩ := hsound id _ hcall
          exact ⟨hmatches, hevent, rfl⟩
        · rw [hcall]
          exact h
    · exact .kept rfl rfl
  | commit id =>
    unfold CreateState.step
    dsimp only
    split
    · next hcall => exact .committed hcall moves_finish rfl rfl
    · exact .kept rfl rfl
  | select id =>
    unfold CreateState.step
    dsimp only
    split
    · split
      · exact effect_silent
      · next hprior =>
        refine effect_finish fun _ _ h => ?_
        cases h
        exact answered_priorResult hprior
    · exact .kept rfl rfl
  | abort id => exact effect_silent

/-! ## Runs -/

/-- The invariant after the steps `tr`. -/
structure Creation (tr : List CreateStep) (s : CreateState) : Prop where
  tokens : (s.tables.inquiries.map Inquiry.submissionToken).Nodup
  keys : (s.tables.inquiries.map Inquiry.id).Nodup
  sound : ∀ id transaction, s.transactions.lookup id = some transaction → transaction.Sound
  flight : ∀ id transaction row, s.transactions.lookup id = some transaction →
    transaction.inserted = some row → ∀ r ∈ s.tables.inquiries,
      r.submissionToken ≠ row.submissionToken ∧ r.id ≠ row.id
  alone : ∀ id id' transaction transaction' row row', s.transactions.lookup id = some transaction →
    s.transactions.lookup id' = some transaction' → transaction.inserted = some row →
    transaction'.inserted = some row' →
    row.submissionToken = row'.submissionToken ∨ row.id = row'.id → id = id'
  selecting : ∀ id input, s.transactions.lookup id = some (.selecting input) →
    ∃ row ∈ s.tables.inquiries, row.submissionToken = input.submissionToken
  events : ∀ row ∈ s.tables.inquiries, s.tables.events.countP
    (fun event => event.inquiryId = row.id && event.eventType = .inquiryReceived) = 1
  jobs : ∀ row ∈ s.tables.inquiries, s.tables.outbox.countP (fun job => job.inquiryId = row.id) = 1
  knownEvents : ∀ event ∈ s.tables.events, ∃ row ∈ s.tables.inquiries, row.id = event.inquiryId
  knownJobs : ∀ job ∈ s.tables.outbox, ∃ row ∈ s.tables.inquiries, row.id = job.inquiryId
  answers : ∀ e ∈ tr, ∀ input result, e.out = some (input, result) → Answered s.tables input result

namespace Creation

variable {tr : List CreateStep} {e : CreateStep}

theorem empty : Creation [] {} where
  tokens := List.nodup_nil
  keys := List.nodup_nil
  sound := fun _ _ h => by cases h
  flight := fun _ _ _ h => by cases h
  alone := fun _ _ _ _ _ _ h => by cases h
  selecting := fun _ _ h => by cases h
  events := fun _ h => by cases h
  jobs := fun _ h => by cases h
  knownEvents := fun _ h => by cases h
  knownJobs := fun _ h => by cases h
  answers := fun _ h => by cases h

theorem answers_snoc (h : Creation tr s)
    (hkeeps : ∀ input result, Answered s.tables input result → Answered s'.tables input result)
    (hnew : ∀ input result, e.out = some (input, result) → Answered s'.tables input result) :
    ∀ e' ∈ tr ++ [e], ∀ input result, e'.out = some (input, result) →
      Answered s'.tables input result := by
  intro e' he' input result hout
  rw [List.mem_append, List.mem_singleton] at he'
  rcases he' with he' | rfl
  · exact hkeeps input result (h.answers e' he' input result hout)
  · exact hnew input result hout

/-- A transaction that goes on, or ends. -/
theorem lookup_moves {id : ℕ} {after : Option CreateTransaction} (moves : Moves id after s s') {j : ℕ}
    {transaction : CreateTransaction} (h : s'.transactions.lookup j = some transaction) :
    j = id ∧ after = some transaction ∨ j ≠ id ∧ s.transactions.lookup j = some transaction := by
  rw [moves] at h
  split at h
  · next hj => exact .inl ⟨hj, h⟩
  · next hj => exact .inr ⟨hj, h⟩

theorem kept (h : Creation tr s) (silent : e.out = none) : Creation (tr ++ [e]) s :=
  { h with answers := h.answers_snoc (fun _ _ h => h) fun _ _ hout => by rw [silent] at hout; cases hout }

theorem moved (h : Creation tr s) {id : ℕ} {after : Option CreateTransaction}
    (tables : s'.tables = s.tables) (moves : Moves id after s s')
    (sound : ∀ transaction, after = some transaction → transaction.Sound)
    (keeps : ∀ row, after.bind CreateTransaction.inserted = some row →
      (s.transactions.lookup id).bind CreateTransaction.inserted = some row)
    (selecting : ∀ input, after = some (.selecting input) →
      ∃ row ∈ s.tables.inquiries, row.submissionToken = input.submissionToken)
    (answer : ∀ input result, e.out = some (input, result) → Answered s.tables input result) :
    Creation (tr ++ [e]) s' := by
  have hinserted {j : ℕ} {transaction : CreateTransaction} {row : Inquiry}
      (hlookup : s'.transactions.lookup j = some transaction)
      (hrow : transaction.inserted = some row) : ∃ before,
        s.transactions.lookup j = some before ∧ before.inserted = some row := by
    rcases lookup_moves moves hlookup with ⟨rfl, rfl⟩ | ⟨-, hold⟩
    · exact Option.bind_eq_some_iff.1 (keeps row hrow)
    · exact ⟨transaction, hold, hrow⟩
  constructor
  · rw [tables]
    exact h.tokens
  · rw [tables]
    exact h.keys
  · intro j transaction hlookup
    rcases lookup_moves moves hlookup with ⟨-, hafter⟩ | ⟨-, hold⟩
    · exact sound transaction hafter
    · exact h.sound j transaction hold
  · intro j transaction row hlookup hrow
    obtain ⟨before, hbefore, hbeforeRow⟩ := hinserted hlookup hrow
    rw [tables]
    exact h.flight j before row hbefore hbeforeRow
  · intro j j' transaction transaction' row row' hlookup hlookup' hrow hrow' hsame
    obtain ⟨before, hbefore, hbeforeRow⟩ := hinserted hlookup hrow
    obtain ⟨before', hbefore', hbeforeRow'⟩ := hinserted hlookup' hrow'
    exact h.alone j j' before before' row row' hbefore hbefore' hbeforeRow hbeforeRow' hsame
  · intro j input hlookup
    rw [tables]
    rcases lookup_moves moves hlookup with ⟨-, hafter⟩ | ⟨-, hold⟩
    · exact selecting input hafter
    · exact h.selecting j input hold
  · rw [tables]
    exact h.events
  · rw [tables]
    exact h.jobs
  · rw [tables]
    exact h.knownEvents
  · rw [tables]
    exact h.knownJobs
  · rw [tables]
    have hsame : ∀ input result, Answered s.tables input result → Answered s.tables input result :=
      fun _ _ h => h
    exact h.answers_snoc hsame answer

theorem inserted (h : Creation tr s) {id : ℕ} {input : CreateInquiryInput} {now : ℤ} {row : Inquiry}
    (tables : s'.tables = s.tables) (moves : Moves id (some (.insertedInquiry input now row)) s s')
    (sound : Matches row input)
    (newToken : ∀ r ∈ s.tables.inquiries, r.submissionToken ≠ row.submissionToken)
    (newKey : ∀ r ∈ s.tables.inquiries, r.id ≠ row.id)
    (alone : ∀ j transaction r, s.transactions.lookup j = some transaction →
      transaction.inserted = some r → r.submissionToken ≠ row.submissionToken ∧ r.id ≠ row.id)
    (silent : e.out = none) : Creation (tr ++ [e]) s' := by
  have hcase {j : ℕ} {transaction : CreateTransaction} {r : Inquiry}
      (hlookup : s'.transactions.lookup j = some transaction) (hr : transaction.inserted = some r) :
      j = id ∧ r = row ∨ s.transactions.lookup j = some transaction := by
    rcases lookup_moves moves hlookup with ⟨hj, hafter⟩ | ⟨-, hold⟩
    · cases hafter
      cases hr
      exact .inl ⟨hj, rfl⟩
    · exact .inr hold
  constructor
  · rw [tables]
    exact h.tokens
  · rw [tables]
    exact h.keys
  · intro j transaction hlookup
    rcases lookup_moves moves hlookup with ⟨-, hafter⟩ | ⟨-, hold⟩
    · cases hafter
      exact sound
    · exact h.sound j transaction hold
  · intro j transaction r hlookup hr
    rw [tables]
    rcases hcase hlookup hr with ⟨-, rfl⟩ | hold
    · exact fun r' hr' => ⟨newToken r' hr', newKey r' hr'⟩
    · exact h.flight j transaction r hold hr
  · intro j j' transaction transaction' r r' hlookup hlookup' hr hr' hsame
    rcases hcase hlookup hr with ⟨rfl, rfl⟩ | hold
    · rcases hcase hlookup' hr' with ⟨rfl, rfl⟩ | hold'
      · rfl
      · obtain ⟨htoken, hid⟩ := alone j' transaction' r' hold' hr'
        exact (hsame.elim (fun h => htoken h.symm) fun h => hid h.symm).elim
    · rcases hcase hlookup' hr' with ⟨rfl, rfl⟩ | hold'
      · obtain ⟨htoken, hid⟩ := alone j transaction r hold hr
        exact (hsame.elim htoken hid).elim
      · exact h.alone j j' transaction transaction' r r' hold hold' hr hr' hsame
  · intro j input' hlookup
    rw [tables]
    rcases lookup_moves moves hlookup with ⟨-, hafter⟩ | ⟨-, hold⟩
    · cases hafter
    · exact h.selecting j input' hold
  · rw [tables]
    exact h.events
  · rw [tables]
    exact h.jobs
  · rw [tables]
    exact h.knownEvents
  · rw [tables]
    exact h.knownJobs
  · rw [tables]
    have hsame : ∀ input result, Answered s.tables input result → Answered s.tables input result :=
      fun _ _ h => h
    exact h.answers_snoc hsame fun _ _ hout => by rw [silent] at hout; cases hout

theorem committed (h : Creation tr s) {id : ℕ} {input : CreateInquiryInput} {row : Inquiry}
    {event : InquiryEvent} {job : NotificationRow}
    (call : s.transactions.lookup id = some (.insertedOutbox input row event job))
    (moves : Moves id none s s')
    (tables : s'.tables = ⟨s.tables.inquiries ++ [row], s.tables.events ++ [event],
      s.tables.outbox ++ [job]⟩)
    (answer : e.out = some (input, .created row.id)) : Creation (tr ++ [e]) s' := by
  obtain ⟨hmatches, hevent, hjob⟩ := h.sound id _ call
  have hfresh := h.flight id _ row call rfl
  have hold {j : ℕ} {transaction : CreateTransaction}
      (hlookup : s'.transactions.lookup j = some transaction) :
      j ≠ id ∧ s.transactions.lookup j = some transaction := by
    rcases lookup_moves moves hlookup with ⟨-, hafter⟩ | hold
    · cases hafter
    · exact hold
  have hmem {r : Inquiry} : r ∈ s'.tables.inquiries ↔ r ∈ s.tables.inquiries ∨ r = row := by
    rw [tables, List.mem_append, List.mem_singleton]
  constructor
  · rw [tables]
    exact nodup_append_key h.tokens fun r hr => (hfresh r hr).1
  · rw [tables]
    exact nodup_append_key h.keys fun r hr => (hfresh r hr).2
  · exact fun j transaction hlookup => h.sound j transaction (hold hlookup).2
  · intro j transaction row' hlookup hrow' r hr
    obtain ⟨hj, hlookup⟩ := hold hlookup
    rcases hmem.1 hr with hr | rfl
    · exact h.flight j transaction row' hlookup hrow' r hr
    · have halone := h.alone id j _ transaction r row' call hlookup rfl hrow'
      exact ⟨fun htoken => hj (halone (.inl htoken)).symm, fun hid => hj (halone (.inr hid)).symm⟩
  · exact fun j j' transaction transaction' r r' hlookup hlookup' =>
      h.alone j j' transaction transaction' r r' (hold hlookup).2 (hold hlookup').2
  · intro j input' hlookup
    obtain ⟨r, hr, htoken⟩ := h.selecting j input' (hold hlookup).2
    exact ⟨r, hmem.2 (.inl hr), htoken⟩
  · intro r hr
    rw [tables, List.countP_append, List.countP_singleton, hevent]
    rcases hmem.1 hr with hr | rfl
    · rw [h.events r hr, if_neg]
      have hne : row.id ≠ r.id := fun hid => (hfresh r hr).2 hid.symm
      simp [receivedEvent, hne]
    · have hzero : s.tables.events.countP
          (fun event => event.inquiryId = r.id && event.eventType = .inquiryReceived) = 0 := by
        refine List.countP_eq_zero.2 fun event' hevent' hcount => ?_
        obtain ⟨r', hr', hid⟩ := h.knownEvents event' hevent'
        rw [Bool.and_eq_true, decide_eq_true_eq] at hcount
        exact (hfresh r' hr').2 (hid.trans hcount.1)
      rw [hzero, if_pos (by simp [receivedEvent])]
  · intro r hr
    rw [tables, List.countP_append, List.countP_singleton]
    rcases hmem.1 hr with hr | rfl
    · rw [h.jobs r hr, if_neg]
      rw [decide_eq_true_eq, hjob]
      exact fun hid => (hfresh r hr).2 hid.symm
    · have hzero : s.tables.outbox.countP (fun job => job.inquiryId = r.id) = 0 := by
        refine List.countP_eq_zero.2 fun job' hjob' hcount => ?_
        obtain ⟨r', hr', hid⟩ := h.knownJobs job' hjob'
        exact (hfresh r' hr').2 (hid.trans (of_decide_eq_true hcount))
      rw [hzero, if_pos (decide_eq_true hjob)]
  · intro event' hevent'
    rw [tables, List.mem_append, List.mem_singleton] at hevent'
    rcases hevent' with hevent' | rfl
    · obtain ⟨r, hr, hid⟩ := h.knownEvents event' hevent'
      exact ⟨r, hmem.2 (.inl hr), hid⟩
    · exact ⟨row, hmem.2 (.inr rfl), by rw [hevent]; rfl⟩
  · intro job' hjob'
    rw [tables, List.mem_append, List.mem_singleton] at hjob'
    rcases hjob' with hjob' | rfl
    · obtain ⟨r, hr, hid⟩ := h.knownJobs job' hjob'
      exact ⟨r, hmem.2 (.inl hr), hid⟩
    · exact ⟨row, hmem.2 (.inr rfl), hjob.symm⟩
  · refine h.answers_snoc (fun _ _ hanswered => ?_) fun input' result hout => ?_
    · obtain ⟨r, hr, hrest⟩ := hanswered
      exact ⟨r, hmem.2 (.inl hr), hrest⟩
    · rw [answer] at hout
      cases hout
      exact ⟨row, hmem.2 (.inr rfl), hmatches.1, fun _ => .inl rfl, fun h => absurd hmatches.2 h⟩

theorem step (h : Creation tr s) (i : CreateStepInput) :
    Creation (tr ++ [entry CreateState.step s i]) (CreateState.step s i).1 := by
  cases step_effect_create h.sound i with
  | kept same silent =>
    rw [same]
    exact h.kept silent
  | moved tables moves sound keeps selecting answer =>
    exact h.moved tables moves sound keeps selecting fun input result hout =>
      (answer input result hout).1
  | inserted tables moves sound newToken newKey alone silent =>
    exact h.inserted tables moves sound newToken newKey alone silent
  | committed call moves tables answer => exact h.committed call moves tables answer

end Creation

theorem creation_exec (inputs : List CreateStepInput) :
    Creation (trace CreateState.step {} inputs) (exec CreateState.step {} inputs) :=
  run_induction CreateState.step .empty (fun _ _ i h => h.step i) inputs

/-! ## Idempotence -/

/-- What the calls guarantee. -/
structure CreatedOnce (inputs : List CreateStepInput) : Prop where
  /-- A token has one inquiry at most. -/
  tokens : ((exec CreateState.step {} inputs).tables.inquiries.map Inquiry.submissionToken).Nodup
  /-- An inquiry has one received event and one notification. -/
  events : ∀ row ∈ (exec CreateState.step {} inputs).tables.inquiries,
    (exec CreateState.step {} inputs).tables.events.countP
      (fun event => event.inquiryId = row.id && event.eventType = .inquiryReceived) = 1
  jobs : ∀ row ∈ (exec CreateState.step {} inputs).tables.inquiries,
    (exec CreateState.step {} inputs).tables.outbox.countP (fun job => job.inquiryId = row.id) = 1
  /-- Calls with one token and one fingerprint that succeed return one inquiry. -/
  same : ∀ e ∈ trace CreateState.step {} inputs, ∀ e' ∈ trace CreateState.step {} inputs,
    ∀ input input' id id', input.submissionToken = input'.submissionToken →
      input.payloadFingerprint = input'.payloadFingerprint →
      (e.out = some (input, .created id) ∨ e.out = some (input, .idempotent id)) →
      (e'.out = some (input', .created id') ∨ e'.out = some (input', .idempotent id')) → id = id'
  /-- A call that is answered finds an inquiry with its token; if that has another fingerprint, the call
  reports a conflict. -/
  conflict : ∀ e ∈ trace CreateState.step {} inputs, ∀ input result, e.out = some (input, result) →
    ∃ row ∈ e.post.tables.inquiries, row.submissionToken = input.submissionToken ∧
      (row.payloadFingerprint ≠ input.payloadFingerprint ↔ result = .conflict)
  /-- Nothing is written but by the call that has created the inquiry. -/
  written : ∀ e ∈ trace CreateState.step {} inputs,
    (∀ input id, e.out ≠ some (input, .created id)) → e.post.tables = e.pre.tables
  /-- A call that has lost its token finds the inquiry that has it. -/
  visible : ∀ id input, (exec CreateState.step {} inputs).transactions.lookup id =
    some (.selecting input) →
      (priorResult input (exec CreateState.step {} inputs).tables).isSome = true

/-- **The creation of an inquiry is idempotent**, in every order of the statements of its calls. -/
theorem created_once (inputs : List CreateStepInput) : CreatedOnce inputs := by
  have hcreation := creation_exec inputs
  constructor
  · exact hcreation.tokens
  · exact hcreation.events
  · exact hcreation.jobs
  · intro e he e' he' input input' id id' htoken hfingerprint hout hout'
    have hid {e : CreateStep} (he : e ∈ trace CreateState.step {} inputs) {input : CreateInquiryInput}
        {id : String} (hout : e.out = some (input, .created id) ∨ e.out = some (input, .idempotent id)) :
        ∃ row ∈ (exec CreateState.step {} inputs).tables.inquiries,
          row.submissionToken = input.submissionToken ∧ row.id = id := by
      rcases hout with hout | hout
      · exact (hcreation.answers e he input _ hout).exists_row (.inl rfl)
      · exact (hcreation.answers e he input _ hout).exists_row (.inr rfl)
    obtain ⟨row, hrow, hrowToken, rfl⟩ := hid he hout
    obtain ⟨row', hrow', hrowToken', rfl⟩ := hid he' hout'
    have hsame := eq_of_key hcreation.tokens hrow hrow'
      (hrowToken.trans (htoken.trans hrowToken'.symm))
    rw [hsame]
  · intro e he input result hout
    obtain ⟨pre, post, h⟩ := List.append_of_mem he
    obtain ⟨js, i, -, -, -, rfl, -⟩ := trace_eq_append_cons _ h
    have hafter := (creation_exec js).step i
    obtain ⟨row, hrow, htoken, hsame, hother⟩ := hafter.answers _
      (List.mem_append_right _ (List.mem_singleton_self _)) input result hout
    refine ⟨row, hrow, htoken, hother, fun hconflict hfp => ?_⟩
    rcases hsame hfp with h | h <;> rw [hconflict] at h <;> cases h
  · intro e he hcreated
    obtain ⟨pre, post, h⟩ := List.append_of_mem he
    obtain ⟨js, i, -, -, -, rfl, -⟩ := trace_eq_append_cons _ h
    cases step_effect_create (creation_exec js).sound i with
    | kept same => exact congrArg CreateState.tables same
    | moved tables => exact tables
    | inserted tables => exact tables
    | committed _ _ _ answer => exact absurd answer (hcreated _ _)
  · intro id input hlookup
    obtain ⟨row, hrow, htoken⟩ := hcreation.selecting id input hlookup
    unfold priorResult
    split
    · next hnone =>
      have hfind := List.find?_eq_none.1 hnone row hrow
      exact absurd (decide_eq_true htoken) hfind
    · split <;> rfl

end Limitmark.Inquiries
