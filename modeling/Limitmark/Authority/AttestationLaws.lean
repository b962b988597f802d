import Limitmark.Authority.AttestationCodec

/-!
# Tuples are read back

A tuple is parsed exactly when it is the tuple of a valid statement, whose coverage and status may
each stand within any number of arrays of one element (`parseResultStatementTuple_eq_ok`), and it is
the tuple of one statement only (`snapshotStatementTuple_injective`).
-/

namespace Limitmark.Authority

open Limitmark.Foundations Limitmark.Ingress

/-! ## Fields are read back -/

theorem isText_iff {v : Json} {s : String} : isText v s = true ↔ v = .text s := by
  rw [isText, decide_eq_true_eq, Json.text?_eq_some]

theorem Environment.ofJson_eq_some {v : Json} {e : Environment} :
    ofJson v = some e ↔ v = .text e.text := by
  constructor
  · intro h
    unfold ofJson at h
    split_ifs at h with hproduction hstaging
    · obtain rfl := Option.some.inj h
      exact Json.eq_text_of_text? hproduction
    · obtain rfl := Option.some.inj h
      exact Json.eq_text_of_text? hstaging
  · rintro rfl
    rw [ofJson, Json.text?_text]
    cases e <;> decide

theorem Operation.ofJson_eq_some {v : Json} {o : Operation} :
    ofJson v = some o ↔ v = .text o.text := by
  constructor
  · intro h
    unfold ofJson at h
    split_ifs at h with hfirst hrotate
    · obtain rfl := Option.some.inj h
      exact Json.eq_text_of_text? hfirst
    · obtain rfl := Option.some.inj h
      exact Json.eq_text_of_text? hrotate
  · rintro rfl
    rw [ofJson, Json.text?_text]
    cases o <;> decide

theorem timeOrNull?_eq_some {v : Json} {t : Option ℤ} :
    timeOrNull? v = some t ↔ v = timeOrNull t := by
  have hint (w : Json) : w.int?.map some = some t ↔ ∃ n, t = some n ∧ w = .int n := by
    rw [Option.map_eq_some_iff]
    simp only [Json.int?_eq_some]
    exact exists_congr fun n => ⟨fun ⟨h, ht⟩ => ⟨ht.symm, h⟩, fun ⟨ht, h⟩ => ⟨h, ht.symm⟩⟩
  cases v with
  | null =>
    rw [timeOrNull?, Option.some.injEq]
    cases t with
    | none => exact iff_of_true rfl rfl
    | some n => exact iff_of_false (fun h => by cases h) (fun h => by cases h)
  | bool b | num q | str s | arr values | obj members =>
    rw [timeOrNull?, hint]
    · cases t with
      | none =>
        refine iff_of_false ?_ (fun h => by cases h)
        rintro ⟨n, h, -⟩
        cases h
      | some n => simp [timeOrNull]
    · exact fun h => by cases h

theorem readBase_eq_some {version trustEpoch environment authorityId policyEpoch digest observedAtMs
    writerKeyFingerprint : Json} {base : StatementBase} :
    readBase version trustEpoch environment authorityId policyEpoch digest observedAtMs
        writerKeyFingerprint = some base ↔
      version = .int base.version ∧ trustEpoch = .int base.trustEpoch ∧
        environment = .text base.environment.text ∧ authorityId = .text base.authorityId ∧
        policyEpoch = .text base.policyEpoch ∧ digest = .text base.digest ∧
        observedAtMs = .int base.observedAtMs ∧
        writerKeyFingerprint = .text base.writerKeyFingerprint := by
  simp only [readBase, Option.bind_eq_bind, Option.bind_eq_some_iff, Json.nat?_eq_some,
    Json.text?_eq_some, Json.int?_eq_some, Environment.ofJson_eq_some]
  constructor
  · rintro ⟨_, rfl, _, rfl, _, rfl, _, rfl, _, rfl, _, rfl, _, rfl, _, rfl, h⟩
    obtain rfl := Option.some.inj h
    exact ⟨rfl, rfl, rfl, rfl, rfl, rfl, rfl, rfl⟩
  · rintro ⟨rfl, rfl, rfl, rfl, rfl, rfl, rfl, rfl⟩
    exact ⟨_, rfl, _, rfl, _, rfl, _, rfl, _, rfl, _, rfl, _, rfl, _, rfl, rfl⟩

theorem readReceipt_eq_some {values : List Json} {receipt : AttestationReceipt} :
    readReceipt values = some receipt ↔ values = receiptFields receipt := by
  constructor
  · intro h
    unfold readReceipt at h
    split at h
    · obtain ⟨digest, hdigest, h⟩ := Option.bind_eq_some_iff.1 h
      obtain ⟨version, hversion, h⟩ := Option.bind_eq_some_iff.1 h
      obtain ⟨operation, hoperation, h⟩ := Option.bind_eq_some_iff.1 h
      obtain ⟨environment, henvironment, h⟩ := Option.bind_eq_some_iff.1 h
      obtain ⟨authorityId, hauthority, h⟩ := Option.bind_eq_some_iff.1 h
      obtain ⟨policyEpoch, hpolicy, h⟩ := Option.bind_eq_some_iff.1 h
      obtain ⟨fingerprint, hfingerprint, h⟩ := Option.bind_eq_some_iff.1 h
      obtain ⟨number, hnumber, h⟩ := Option.bind_eq_some_iff.1 h
      obtain ⟨appliedMs, happlied, h⟩ := Option.bind_eq_some_iff.1 h
      obtain ⟨current, hcurrent, h⟩ := Option.bind_eq_some_iff.1 h
      obtain ⟨next, hnext, h⟩ := Option.bind_eq_some_iff.1 h
      obtain ⟨nextKey, hnextKey, h⟩ := Option.bind_eq_some_iff.1 h
      obtain ⟨activatesMs, hactivates, h⟩ := Option.bind_eq_some_iff.1 h
      obtain ⟨retiresMs, hretires, h⟩ := Option.bind_eq_some_iff.1 h
      obtain rfl := Option.some.inj h
      simp only [Json.nat?_eq_some, Json.text?_eq_some, Json.int?_eq_some,
        Environment.ofJson_eq_some, Operation.ofJson_eq_some, timeOrNull?_eq_some] at *
      subst_vars
      rfl
    · cases h
  · rintro rfl
    have htime := timeOrNull?_eq_some.2 (rfl : timeOrNull receipt.retiresMs = _)
    have hoperation := Operation.ofJson_eq_some.2 (rfl : Json.text receipt.operation.text = _)
    have henvironment := Environment.ofJson_eq_some.2 (rfl : Json.text receipt.environment.text = _)
    have hnat (n : ℕ) : (Json.int n).nat? = some n := Json.nat?_eq_some.2 rfl
    simp only [receiptFields, readReceipt, Json.text?_text, Json.int?_int, hnat, htime, hoperation,
      henvironment]
    rfl

theorem readReleaseRow_eq_some {values : List Json} {row : ReleaseRow} :
    readReleaseRow values = some row ↔ values = releaseRowFields row := by
  constructor
  · intro h
    unfold readReleaseRow at h
    split at h
    · simp only [Option.bind_eq_bind, Option.bind_eq_some_iff, Json.text?_eq_some,
        Json.int?_eq_some, timeOrNull?_eq_some] at h
      obtain ⟨_, rfl, _, rfl, _, rfl, _, rfl, h⟩ := h
      obtain rfl := Option.some.inj h
      rfl
    · cases h
  · rintro rfl
    have htime := timeOrNull?_eq_some.2 (rfl : timeOrNull row.retiredMs = _)
    simp only [releaseRowFields, readReleaseRow, Json.text?_text, Json.int?_int, htime]
    rfl

/-! ## Checks of the parser -/

theorem typed_eq_ok {α : Type} {value : Option α} {fault : StatementFault} {a : α} :
    typed value fault = .ok a ↔ value = some a := by
  cases value <;> simp [typed]

theorem map_some_eq_ok {α : Type} {x : Except AttestationFault α} {a : Option α} :
    x.map some = .ok a ↔ ∃ b, x = .ok b ∧ a = some b := by
  cases x <;> simp [Except.map, eq_comm]

theorem validated_eq_ok {check : Except StatementFault Unit} {u : Unit} :
    validated check = .ok u ↔ check = .ok () := by
  cases check <;> simp [validated]

theorem recordFromTuple_eq_ok {size : ℕ} {fault : StatementFault} {v : Json} {values : List Json} :
    recordFromTuple size fault v = .ok values ↔ v = .arr values ∧ values.length = size := by
  cases v with
  | arr elements =>
    rw [recordFromTuple]
    split_ifs with hlength
    · simp only [Except.ok.injEq, Json.arr.injEq]
      exact ⟨fun h => ⟨h, h ▸ hlength⟩, fun h => h.1⟩
    · simp only [Json.arr.injEq, false_iff, not_and]
      rintro rfl
      exact hlength
  | null | bool b | num q | str s | obj members => simp [recordFromTuple]

/-- The receipt of a tuple, and its validity. -/
theorem parseReceipt_eq_ok {base : StatementBase} {fields : List Json}
    {receipt : AttestationReceipt} : parseReceipt base fields = .ok receipt ↔
      fields = receiptFields receipt ∧ validateReceipt base receipt = .ok () := by
  rw [parseReceipt, bind_eq_ok]
  simp only [check_bind_eq_ok, typed_eq_ok, readReceipt_eq_some, validated_eq_ok, pure,
    Except.pure, Except.ok.injEq]
  constructor
  · rintro ⟨_, rfl, h, rfl⟩
    exact ⟨rfl, h⟩
  · rintro ⟨rfl, h⟩
    exact ⟨receipt, rfl, h, rfl⟩

theorem mapM_releaseRows_eq_ok {rows : List Json} {fields : List (List Json)} :
    rows.mapM (recordFromTuple 4 .releases) = .ok fields ↔
      rows = fields.map .arr ∧ ∀ row ∈ fields, row.length = 4 := by
  induction rows generalizing fields with
  | nil =>
    simp only [List.mapM_nil, pure, Except.pure, Except.ok.injEq]
    constructor
    · rintro rfl
      exact ⟨rfl, fun row h => by cases h⟩
    · rintro ⟨h, -⟩
      exact (List.map_eq_nil_iff.1 h.symm).symm
  | cons row rows ih =>
    simp only [List.mapM_cons, bind_eq_ok, recordFromTuple_eq_ok, ih, pure, Except.pure,
      Except.ok.injEq]
    constructor
    · rintro ⟨values, ⟨rfl, hlength⟩, rest, ⟨rfl, hrest⟩, rfl⟩
      exact ⟨rfl, List.forall_mem_cons.2 ⟨hlength, hrest⟩⟩
    · rintro ⟨hrows, hall⟩
      cases fields with
      | nil => cases hrows
      | cons values rest =>
        obtain ⟨rfl, rfl⟩ := List.cons.inj hrows
        obtain ⟨hlength, hrest⟩ := List.forall_mem_cons.1 hall
        exact ⟨values, ⟨rfl, hlength⟩, rest, ⟨rfl, hrest⟩, rfl⟩

theorem mapM_readReleaseRow_eq_some {fields : List (List Json)} {rows : List ReleaseRow} :
    fields.mapM readReleaseRow = some rows ↔ fields = rows.map releaseRowFields := by
  induction fields generalizing rows with
  | nil =>
    simp only [List.mapM_nil, pure, Option.some.injEq]
    constructor
    · rintro rfl
      rfl
    · exact fun h => (List.map_eq_nil_iff.1 h.symm).symm
  | cons values fields ih =>
    simp only [List.mapM_cons, Option.bind_eq_bind, Option.bind_eq_some_iff,
      readReleaseRow_eq_some, ih, pure, Option.some.injEq]
    constructor
    · rintro ⟨row, rfl, rest, rfl, rfl⟩
      rfl
    · intro h
      cases rows with
      | nil => cases h
      | cons row rest =>
        obtain ⟨rfl, rfl⟩ := List.cons.inj h
        exact ⟨row, rfl, rest, rfl, rfl⟩

/-! ## The state of a reconciliation statement -/

/-- The text of a state. -/
def stateOf (initialized : Bool) (coverage : ReconciliationCoverage)
    (status : ReconciliationStatus) : JsString :=
  JsString.ofString (if initialized then "true" else "false") ++
    0x2F :: JsString.ofString coverage.text ++ 0x2F :: JsString.ofString status.text

theorem isWord_coverage (c : ReconciliationCoverage) : Json.IsWord (.ofString c.text) := by
  cases c <;> decide

theorem isWord_status (s : ReconciliationStatus) : Json.IsWord (.ofString s.text) := by
  cases s <;> decide

theorem stateOf_mem (i : Bool) (c : ReconciliationCoverage) (s : ReconciliationStatus) :
    stateOf i c s ∈ STATEMENT_STATES ↔ isStatementState i c s = true := by
  cases i <;> cases c <;> cases s <;> decide

theorem stateOf_eq_receipt {i : Bool} {c : ReconciliationCoverage} {s : ReconciliationStatus}
    (h : isStatementState i c s = true) : stateOf i c s = RECEIPT_STATE ↔ s = .exactReceipt := by
  revert h
  cases i <;> cases c <;> cases s <;> decide

theorem exists_stateOf {state : JsString} (h : state ∈ STATEMENT_STATES) :
    ∃ i c s, state = stateOf i c s := by
  simp only [STATEMENT_STATES, List.mem_cons, List.not_mem_nil, or_false] at h
  rcases h with rfl | rfl | rfl | rfl
  · exact ⟨false, .complete, .notFound, by decide⟩
  · exact ⟨true, .complete, .exactReceipt, by decide⟩
  · exact ⟨true, .complete, .notFound, by decide⟩
  · exact ⟨true, .incomplete, .historyIncomplete, by decide⟩

/-- The slashes of a state stand between its parts. -/
theorem stateOf_injective {i i' : Bool} {a b : JsString} {c : ReconciliationCoverage}
    {s : ReconciliationStatus} (h : JsString.ofString (if i then "true" else "false") ++
      0x2F :: a ++ 0x2F :: b = stateOf i' c s) :
    i = i' ∧ a = .ofString c.text ∧ b = .ofString s.text := by
  have hslash : ¬ (0x41 ≤ (0x2F : UInt16).toNat ∧ (0x2F : UInt16).toNat ≤ 0x5A) ∧
      (0x2F : UInt16).toNat ≠ 0x5F := by decide
  have hc := (isWord_coverage c).notMem hslash
  have hs := (isWord_status s).notMem hslash
  rw [stateOf, List.append_assoc, List.append_assoc, List.cons_append, List.cons_append] at h
  obtain rfl : i = i' := by
    have htrue : JsString.ofString "true" = 0x74 :: JsString.ofString "rue" := by decide
    have hfalse : JsString.ofString "false" = 0x66 :: JsString.ofString "alse" := by decide
    cases i <;> cases i' <;> simp [htrue, hfalse] at h ⊢
  have htail := List.tail_eq_of_cons_eq (List.append_cancel_left h)
  obtain ⟨rfl, -, rfl⟩ := (List.append_cons_inj_of_notMem hc hs).1 htail.symm
  exact ⟨rfl, rfl, rfl⟩

/-- **A state is that of one coverage and status, each within any number of arrays.** -/
theorem stateText_eq_ok {i i' : Bool} {coverage status : Json} {c : ReconciliationCoverage}
    {s : ReconciliationStatus} : stateText i coverage status = .ok (stateOf i' c s) ↔
      i = i' ∧ (∃ m, coverage = (Json.text c.text).within m) ∧
        ∃ n, status = (Json.text s.text).within n := by
  have hcoverage := Json.toText_eq_word (isWord_coverage c) coverage
  have hstatus := Json.toText_eq_word (isWord_status s) status
  constructor
  · intro h
    unfold stateText at h
    split at h
    · next a b ha hb =>
      obtain ⟨rfl, rfl, rfl⟩ := stateOf_injective (Except.ok.inj h)
      exact ⟨rfl, hcoverage.1 ha, hstatus.1 hb⟩
    · cases h
  · rintro ⟨rfl, hm, hn⟩
    rw [stateText, hcoverage.2 hm, hstatus.2 hn]
    rfl

/-! ## Statements are read back -/

/-- What a valid reconciliation statement says. -/
theorem validate_reconciliation_eq_ok {s : ReconciliationStatement} :
    validateResultStatement (.reconciliation s) = .ok () ↔
      validateCommon s.toStatementBase = .ok () ∧ isLowerHex 32 s.nonce = true ∧
        isStatementState s.initialized s.coverage s.status = true ∧
        (s.status = .exactReceipt ↔ s.receipt.isSome = true) ∧
        (∀ r ∈ s.receipt, validateReceipt s.toStatementBase r = .ok ()) ∧
        validateReleaseRows s.initialized s.environment s.releases = .ok () ∧
        ∀ r ∈ s.receipt, assertOneRowReceiptCoherence r s.releases = .ok () := by
  simp only [validateResultStatement, check_bind_eq_ok, ensure_eq_ok]
  refine and_congr_right fun _ => and_congr_right fun _ => and_congr_right fun _ => ?_
  cases s.status <;> cases s.receipt <;> simp [check_bind_eq_ok]

theorem parseStateReceipt_eq_ok {base : StatementBase} {i : Bool} {c : ReconciliationCoverage}
    {s : ReconciliationStatus} (hstate : isStatementState i c s = true)
    {fields : Option (List Json)} {receipt : Option AttestationReceipt} :
    parseStateReceipt base (stateOf i c s) fields = .ok receipt ↔
      fields = receipt.map receiptFields ∧ (s = .exactReceipt ↔ receipt.isSome = true) ∧
        ∀ r ∈ receipt, validateReceipt base r = .ok () := by
  have hreceipt := stateOf_eq_receipt hstate
  cases fields with
  | none =>
    rw [parseStateReceipt]
    split_ifs with hs
    · refine iff_of_false (fun h => by cases h) ?_
      rintro ⟨hmap, hiff, -⟩
      rw [eq_comm, Option.map_eq_none_iff] at hmap
      exact absurd (hiff.1 (hreceipt.1 hs)) (by simp [hmap])
    · rw [hreceipt] at hs
      cases receipt with
      | none => simpa using hs
      | some r => simp
  | some fields =>
    rw [parseStateReceipt]
    split_ifs with hs
    · simp only [map_some_eq_ok, parseReceipt_eq_ok]
      constructor
      · rintro ⟨r, ⟨rfl, hvalid⟩, rfl⟩
        exact ⟨rfl, iff_of_true (hreceipt.1 hs) rfl, fun _ h => Option.some.inj h ▸ hvalid⟩
      · rintro ⟨hmap, -, hvalid⟩
        obtain ⟨r, rfl, rfl⟩ := Option.map_eq_some_iff.1 hmap.symm
        exact ⟨r, ⟨rfl, hvalid r rfl⟩, rfl⟩
    · refine iff_of_false (fun h => by cases h) ?_
      rintro ⟨hmap, hiff, -⟩
      obtain ⟨r, rfl, -⟩ := Option.map_eq_some_iff.1 hmap.symm
      exact hs (hreceipt.2 (hiff.2 rfl))

/-- The fields of a receipt, where there is one. -/
theorem receiptTuple_eq_ok {receipt : Json} {fields : Option (List Json)} :
    receiptTuple receipt = .ok fields ↔
      receipt = fields.elim .null .arr ∧ ∀ values ∈ fields, values.length = 14 := by
  rw [receiptTuple]
  cases receipt with
  | null =>
    cases fields <;> simp [Json.isNull]
  | arr elements =>
    simp only [Json.isNull, Bool.false_eq_true, if_false, map_some_eq_ok, recordFromTuple_eq_ok,
      Json.arr.injEq]
    constructor
    · rintro ⟨values, ⟨rfl, hlength⟩, rfl⟩
      exact ⟨rfl, fun _ h => Option.some.inj h ▸ hlength⟩
    · rintro ⟨helements, hlength⟩
      cases fields with
      | none => cases helements
      | some values => exact ⟨values, ⟨Json.arr.inj helements, hlength values rfl⟩, rfl⟩
  | bool b | num q | str s | obj members =>
    cases fields <;> simp [Json.isNull, recordFromTuple, Except.map]

theorem elim_receiptFields (receipt : Option AttestationReceipt) :
    (receipt.map receiptFields).elim Json.null .arr = receiptOrNull receipt := by
  cases receipt <;> rfl

theorem releaseRowTuples_eq_ok {releases : Json} {fields : List (List Json)} :
    releaseRowTuples releases = .ok fields ↔
      releases = .arr (fields.map .arr) ∧ ∀ row ∈ fields, row.length = 4 := by
  cases releases with
  | arr rows => rw [releaseRowTuples, mapM_releaseRows_eq_ok, Json.arr.injEq]
  | null | bool b | num q | str s | obj members => simp [releaseRowTuples]

theorem elim_check_eq_ok {receipt : Option AttestationReceipt}
    {check : AttestationReceipt → Except StatementFault Unit} :
    receipt.elim (.ok ()) check = .ok () ↔ ∀ r ∈ receipt, check r = .ok () := by
  cases receipt <;> simp

/-- **A reconciliation statement is parsed from the tuple of a valid one**, with its coverage and its
status within any number of arrays. -/
theorem parseReconciliation_eq_ok {base : Option StatementBase}
    {nonce initialized coverage status receipt releases : Json} {p : ParsedStatement} :
    parseReconciliation base nonce initialized coverage status receipt releases = .ok p ↔
      ∃ (s : ReconciliationStatement) (m n : ℕ), p = .reconciliation (s.respelled m n) ∧
        validateResultStatement (.reconciliation s) = .ok () ∧ base = some s.toStatementBase ∧
        nonce = .text s.nonce ∧ initialized = .bool s.initialized ∧
        coverage = (Json.text s.coverage.text).within m ∧
        status = (Json.text s.status.text).within n ∧ receipt = receiptOrNull s.receipt ∧
        releases = .arr (s.releases.map fun row => .arr (releaseRowFields row)) := by
  constructor
  · intro h
    rw [parseReconciliation, bind_eq_ok] at h
    obtain ⟨fields, hfields, h⟩ := h
    obtain ⟨rows, hrows, h⟩ := bind_eq_ok.1 h
    obtain ⟨base, hbase, h⟩ := bind_eq_ok.1 h
    obtain ⟨hcommon, h⟩ := check_bind_eq_ok.1 h
    obtain ⟨nonceText, hnonce, h⟩ := bind_eq_ok.1 h
    obtain ⟨hhex, h⟩ := check_bind_eq_ok.1 h
    obtain ⟨i, hinitialized, h⟩ := bind_eq_ok.1 h
    obtain ⟨state, hstate, h⟩ := bind_eq_ok.1 h
    obtain ⟨hmem, h⟩ := check_bind_eq_ok.1 h
    obtain ⟨r, hr, h⟩ := bind_eq_ok.1 h
    obtain ⟨rs, hrs, h⟩ := bind_eq_ok.1 h
    obtain ⟨hvalidRows, h⟩ := check_bind_eq_ok.1 h
    obtain ⟨hcoherent, h⟩ := check_bind_eq_ok.1 h
    obtain rfl := Except.ok.inj h
    rw [typed_eq_ok] at hbase hnonce hinitialized hrs
    rw [ensure_eq_ok] at hhex hmem
    rw [validated_eq_ok] at hcommon hvalidRows hcoherent
    obtain ⟨i', c, s, rfl⟩ := exists_stateOf hmem
    obtain ⟨rfl, ⟨m, rfl⟩, ⟨n, rfl⟩⟩ := stateText_eq_ok.1 hstate
    have hallowed := (stateOf_mem i c s).1 hmem
    obtain ⟨rfl, hiff, hvalidReceipt⟩ := (parseStateReceipt_eq_ok hallowed).1 hr
    obtain ⟨rfl, -⟩ := receiptTuple_eq_ok.1 hfields
    obtain rfl := mapM_readReleaseRow_eq_some.1 hrs
    obtain ⟨rfl, -⟩ := releaseRowTuples_eq_ok.1 hrows
    rw [elim_check_eq_ok] at hcoherent
    refine ⟨⟨base, nonceText, i, c, s, r, rs⟩, m, n, rfl, ?_, hbase, Json.text?_eq_some.1 hnonce,
      Json.bool?_eq_some.1 hinitialized, rfl, rfl, elim_receiptFields r, ?_⟩
    · exact validate_reconciliation_eq_ok.2
        ⟨hcommon, hhex, hallowed, hiff, hvalidReceipt, hvalidRows, hcoherent⟩
    · rw [List.map_map]
      rfl
  · rintro ⟨s, m, n, rfl, hvalid, rfl, rfl, rfl, rfl, rfl, rfl, rfl⟩
    obtain ⟨hcommon, hhex, hallowed, hiff, hvalidReceipt, hvalidRows, hcoherent⟩ :=
      validate_reconciliation_eq_ok.1 hvalid
    have hfields : receiptTuple (receiptOrNull s.receipt) = .ok (s.receipt.map receiptFields) := by
      rw [receiptTuple_eq_ok, elim_receiptFields]
      refine ⟨rfl, fun values h => ?_⟩
      obtain ⟨r, -, rfl⟩ := Option.map_eq_some_iff.1 h
      rfl
    have hrows : releaseRowTuples (.arr (s.releases.map fun row => .arr (releaseRowFields row))) =
        .ok (s.releases.map releaseRowFields) := by
      rw [releaseRowTuples_eq_ok, List.map_map]
      refine ⟨rfl, fun row h => ?_⟩
      obtain ⟨r, -, rfl⟩ := List.mem_map.1 h
      rfl
    have hstate : stateText s.initialized ((Json.text s.coverage.text).within m)
        ((Json.text s.status.text).within n) = .ok (stateOf s.initialized s.coverage s.status) :=
      stateText_eq_ok.2 ⟨rfl, ⟨m, rfl⟩, ⟨n, rfl⟩⟩
    refine bind_eq_ok.2 ⟨_, hfields, bind_eq_ok.2 ⟨_, hrows, bind_eq_ok.2 ⟨_, typed_eq_ok.2 rfl, ?_⟩⟩⟩
    refine check_bind_eq_ok.2 ⟨validated_eq_ok.2 hcommon, ?_⟩
    refine bind_eq_ok.2 ⟨_, typed_eq_ok.2 (Json.text?_text _), ?_⟩
    refine check_bind_eq_ok.2 ⟨(ensure_eq_ok _ _ _).2 hhex, ?_⟩
    refine bind_eq_ok.2 ⟨_, typed_eq_ok.2 (Json.bool?_eq_some.2 rfl), bind_eq_ok.2 ⟨_, hstate, ?_⟩⟩
    refine check_bind_eq_ok.2 ⟨(ensure_eq_ok _ _ _).2 ((stateOf_mem _ _ _).2 hallowed), ?_⟩
    refine bind_eq_ok.2
      ⟨_, (parseStateReceipt_eq_ok hallowed).2 ⟨rfl, hiff, hvalidReceipt⟩, ?_⟩
    refine bind_eq_ok.2 ⟨_, typed_eq_ok.2 (mapM_readReleaseRow_eq_some.2 rfl), ?_⟩
    refine check_bind_eq_ok.2 ⟨validated_eq_ok.2 hvalidRows, ?_⟩
    exact check_bind_eq_ok.2 ⟨validated_eq_ok.2 (elim_check_eq_ok.2 hcoherent), rfl⟩

theorem parseLifecycle_eq_ok {base : Option StatementBase} {outcome receipt : Json}
    {p : ParsedStatement} : parseLifecycle base outcome receipt = .ok p ↔
      ∃ s : LifecycleStatement, p = .lifecycle s ∧ validateResultStatement (.lifecycle s) = .ok () ∧
        base = some s.toStatementBase ∧ outcome = .text "APPLIED" ∧
        receipt = .arr (receiptFields s.receipt) := by
  constructor
  · intro h
    rw [parseLifecycle, bind_eq_ok] at h
    obtain ⟨fields, hfields, h⟩ := h
    obtain ⟨base, hbase, h⟩ := bind_eq_ok.1 h
    obtain ⟨hcommon, h⟩ := check_bind_eq_ok.1 h
    obtain ⟨houtcome, h⟩ := check_bind_eq_ok.1 h
    obtain ⟨r, hr, h⟩ := bind_eq_ok.1 h
    obtain rfl := Except.ok.inj h
    obtain ⟨rfl, hvalid⟩ := parseReceipt_eq_ok.1 hr
    rw [ensure_eq_ok] at houtcome
    exact ⟨⟨base, r⟩, rfl, check_bind_eq_ok.2 ⟨validated_eq_ok.1 hcommon, hvalid⟩,
      typed_eq_ok.1 hbase, isText_iff.1 houtcome, (recordFromTuple_eq_ok.1 hfields).1⟩
  · rintro ⟨s, rfl, hvalid, rfl, rfl, rfl⟩
    obtain ⟨hcommon, hvalid⟩ := check_bind_eq_ok.1 hvalid
    refine bind_eq_ok.2 ⟨_, recordFromTuple_eq_ok.2 ⟨rfl, rfl⟩, bind_eq_ok.2 ⟨_, typed_eq_ok.2 rfl, ?_⟩⟩
    refine check_bind_eq_ok.2 ⟨validated_eq_ok.2 hcommon, ?_⟩
    refine check_bind_eq_ok.2 ⟨(ensure_eq_ok _ _ _).2 (isText_iff.2 rfl), ?_⟩
    exact bind_eq_ok.2 ⟨_, parseReceipt_eq_ok.2 ⟨rfl, hvalid⟩, rfl⟩

/-- A parsed statement that is a valid one, with its coverage and status within any number of
arrays. -/
inductive ParsedStatement.Valid : ParsedStatement → Prop
  | lifecycle {s : LifecycleStatement} (valid : validateResultStatement (.lifecycle s) = .ok ()) :
    Valid (.lifecycle s)
  | reconciliation {s : ReconciliationStatement}
    (valid : validateResultStatement (.reconciliation s) = .ok ()) (m n : ℕ) :
    Valid (.reconciliation (s.respelled m n))

theorem ResultStatement.valid_parsed {s : ResultStatement}
    (h : validateResultStatement s = .ok ()) : s.parsed.Valid := by
  cases s with
  | lifecycle s => exact .lifecycle h
  | reconciliation s => exact .reconciliation h 0 0

/-- **A tuple is parsed exactly when it is that of a valid statement**, and to it. -/
theorem parseResultStatementTuple_eq_ok {tuple : Json} {p : ParsedStatement} :
    parseResultStatementTuple tuple = .ok p ↔ tuple = snapshotStatementTuple p ∧ p.Valid := by
  constructor
  · intro h
    unfold parseResultStatementTuple at h
    split at h
    · split_ifs at h with hkind
      obtain ⟨s, rfl, hvalid, hbase, rfl, rfl⟩ := parseLifecycle_eq_ok.1 h
      obtain ⟨rfl, rfl, rfl, rfl, rfl, rfl, rfl, rfl⟩ := readBase_eq_some.1 hbase
      obtain rfl := isText_iff.1 hkind
      exact ⟨rfl, .lifecycle hvalid⟩
    · split_ifs at h with hkind
      obtain ⟨s, m, n, rfl, hvalid, hbase, rfl, rfl, rfl, rfl, rfl, rfl⟩ :=
        parseReconciliation_eq_ok.1 h
      obtain ⟨rfl, rfl, rfl, rfl, rfl, rfl, rfl, rfl⟩ := readBase_eq_some.1 hbase
      obtain rfl := isText_iff.1 hkind
      exact ⟨rfl, .reconciliation hvalid m n⟩
    · cases h
  · rintro ⟨rfl, hvalid⟩
    have hbase {base : StatementBase} := readBase_eq_some.2
      ⟨(rfl : Json.int base.version = _), (rfl : Json.int base.trustEpoch = _),
        (rfl : Json.text base.environment.text = _), (rfl : Json.text base.authorityId = _),
        (rfl : Json.text base.policyEpoch = _), (rfl : Json.text base.digest = _),
        (rfl : Json.int base.observedAtMs = _), (rfl : Json.text base.writerKeyFingerprint = _)⟩
    cases hvalid with
    | lifecycle hvalid =>
      rw [snapshotStatementTuple, parseResultStatementTuple, if_pos (isText_iff.2 rfl)]
      exact parseLifecycle_eq_ok.2 ⟨_, rfl, hvalid, hbase, rfl, rfl⟩
    | reconciliation hvalid m n =>
      rw [snapshotStatementTuple, parseResultStatementTuple, if_pos (isText_iff.2 rfl)]
      exact parseReconciliation_eq_ok.2
        ⟨_, m, n, rfl, hvalid, hbase, rfl, rfl, rfl, rfl, rfl, rfl⟩

/-! ## A tuple has one statement -/

theorem receiptFields_injective : Function.Injective receiptFields := fun r r' h => by
  have hr : readReceipt (receiptFields r) = some r := readReceipt_eq_some.2 rfl
  exact Option.some.inj (hr.symm.trans (readReceipt_eq_some.2 h))

theorem receiptOrNull_injective : Function.Injective receiptOrNull := by
  intro r r' h
  cases r with
  | none =>
    cases r' with
    | none => rfl
    | some r' => cases h
  | some r =>
    cases r' with
    | none => cases h
    | some r' => exact congrArg some (receiptFields_injective (Json.arr.inj h))

theorem releaseRowFields_injective : Function.Injective releaseRowFields := fun r r' h => by
  have hr : readReleaseRow (releaseRowFields r) = some r := readReleaseRow_eq_some.2 rfl
  exact Option.some.inj (hr.symm.trans (readReleaseRow_eq_some.2 h))

theorem base_eq {a b : StatementBase} (hversion : Json.int a.version = .int b.version)
    (hepoch : Json.int a.trustEpoch = .int b.trustEpoch)
    (henvironment : Json.text a.environment.text = .text b.environment.text)
    (hauthority : Json.text a.authorityId = .text b.authorityId)
    (hpolicy : Json.text a.policyEpoch = .text b.policyEpoch)
    (hdigest : Json.text a.digest = .text b.digest)
    (hobserved : Json.int a.observedAtMs = .int b.observedAtMs)
    (hwriter : Json.text a.writerKeyFingerprint = .text b.writerKeyFingerprint) : a = b := by
  have ha := readBase_eq_some.2 ⟨(rfl : Json.int a.version = _), rfl, rfl, rfl, rfl, rfl, rfl, rfl⟩
  have hb := readBase_eq_some.2
    ⟨hversion, hepoch, henvironment, hauthority, hpolicy, hdigest, hobserved, hwriter⟩
  exact Option.some.inj (ha.symm.trans hb)

theorem snapshotStatementTuple_injective : Function.Injective snapshotStatementTuple := by
  intro p q h
  cases p with
  | lifecycle s =>
    cases q with
    | lifecycle t =>
      simp only [snapshotStatementTuple, Json.arr.injEq, List.cons.injEq, and_true] at h
      obtain ⟨h₀, h₁, h₂, h₃, h₄, -, h₅, -, hreceipt, h₆, h₇⟩ := h
      have hbase := base_eq h₀ h₁ h₂ h₃ h₄ h₅ h₆ h₇
      have hreceipt := receiptFields_injective (Json.arr.inj (congrArg Json.arr hreceipt))
      cases s
      cases t
      simp only at hbase hreceipt
      rw [hbase, hreceipt]
    | reconciliation t => simp [snapshotStatementTuple] at h
  | reconciliation s =>
    cases q with
    | lifecycle t => simp [snapshotStatementTuple] at h
    | reconciliation t =>
      simp only [snapshotStatementTuple, Json.arr.injEq, List.cons.injEq, and_true] at h
      obtain ⟨h₀, h₁, h₂, h₃, h₄, -, h₅, hnonce, hinitialized, hcoverage, hstatus, hreceipt, hrows,
        h₆, h₇⟩ := h
      have hbase := base_eq h₀ h₁ h₂ h₃ h₄ h₅ h₆ h₇
      have hnonce := Json.text_injective hnonce
      have hreceipt := receiptOrNull_injective hreceipt
      have hrows : s.releases = t.releases :=
        List.map_injective_iff.2 (fun a b hab => releaseRowFields_injective (Json.arr.inj hab)) hrows
      cases s
      cases t
      simp only [Json.bool.injEq] at *
      subst_vars
      rfl

end Limitmark.Authority
