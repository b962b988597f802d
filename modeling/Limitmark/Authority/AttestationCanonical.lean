import Limitmark.Authority.AttestationLaws

/-!
# The attestation codec is canonical

The encoding of a valid envelope always fits and is parsed back to it, and valid statements have
different signing bytes. What is parsed is the encoding of a valid envelope, or of one whose coverage
or status is spelled as an array of one element (`Respelled`): the validator takes such an array for
the text within it (`attestation_codec_canonical_iff`).
-/

namespace Limitmark.Authority

open Limitmark.Foundations Limitmark.Ingress

/-! ## The values of a tuple -/

/-- A value that the encoder writes, that is read back if it is not too deep, and that is short. -/
structure TupleValue (v : Json) (length : ℕ) : Prop where
  fits : ∀ depth, depth + v.nesting ≤ STRICT_MAX_DEPTH → v.Fits strict depth
  encoded : encodeTupleJson v = .ok v.write
  narrow : v.Narrow length

theorem within_strict {depth : ℕ} : strict.Within depth ↔ depth ≤ STRICT_MAX_DEPTH :=
  ⟨fun h => h _ rfl, fun h _ hlimit => Option.some.inj hlimit ▸ h⟩

theorem tuple_null : TupleValue .null 4 where
  fits := fun _ h => ⟨within_strict.2 h, reads_strict_null⟩
  encoded := rfl
  narrow := ⟨by decide, forall_mem_of_all (by decide)⟩

theorem tuple_bool (b : Bool) : TupleValue (.bool b) 5 where
  fits := fun _ h => ⟨within_strict.2 h, reads_strict_bool b⟩
  encoded := rfl
  narrow := by
    cases b
    · exact ⟨by decide, forall_mem_of_all (by decide)⟩
    · exact ⟨by decide, forall_mem_of_all (by decide)⟩

theorem tuple_time {n : ℤ} (h : isSafeTime n = true) : TupleValue (.int n) 16 := by
  have hsafe := h
  rw [isSafeTime, Bool.and_eq_true, isSafeInteger_iff, decide_eq_true_eq] at hsafe
  refine ⟨fun depth hdepth => ?_, ?_, Json.narrow_int (by decide) hsafe.2 (by omega)⟩
  · rw [Json.int, Json.Fits]
    exact ⟨within_strict.2 hdepth, Rat.den_intCast n, reads_strict_int hsafe.2 (by omega)⟩
  · rw [Json.int, encodeTupleJson, ← Json.int, Json.int?_int, Option.any_some, if_pos h]

theorem tuple_text {s : String} (h : ∀ c ∈ s.toList, Json.isPlain c = true) {length : ℕ}
    (hlength : s.length ≤ length) : TupleValue (.text s) (length + 2) where
  fits := fun depth hdepth => by
    rw [Json.text, Json.Fits]
    exact within_strict.2 hdepth
  encoded := rfl
  narrow := Json.narrow_text h hlength

theorem encodeElements_eq_ok {values : List Json}
    (h : ∀ v ∈ values, encodeTupleJson v = .ok v.write) :
    encodeElements values = .ok (Json.writeValues values) := by
  induction values with
  | nil => rfl
  | cons v rest ih =>
    obtain ⟨hv, hrest⟩ := List.forall_mem_cons.1 h
    cases rest with
    | nil => exact hv
    | cons w rest =>
      rw [encodeElements, hv, ih hrest]
      rfl

theorem tuple_arr {values : List Json} {lengths : List ℕ}
    (h : List.Forall₂ TupleValue values lengths) :
    TupleValue (.arr values) ((lengths.map fun n => n + 1).sum + 2) := by
  have hall : ∀ v ∈ values, ∃ n, TupleValue v n := by
    intro v hv
    obtain ⟨i, hi, rfl⟩ := List.getElem_of_mem hv
    exact ⟨_, h.get hi (h.length_eq ▸ hi)⟩
  refine ⟨fun depth hdepth => ?_, ?_, Json.narrow_arr (h.imp fun _ _ hv => hv.narrow)⟩
  · rw [Json.nesting] at hdepth
    have hle : Json.nestingAll values ≤ STRICT_MAX_DEPTH - depth := by omega
    rw [Json.Fits, Json.fitsAll_iff]
    refine ⟨within_strict.2 (by omega), fun v hv => ?_⟩
    obtain ⟨n, hvalue⟩ := hall v hv
    have := Json.nestingAll_le.1 hle v hv
    exact hvalue.fits _ (by omega)
  · have helements := encodeElements_eq_ok fun v hv => (hall v hv).choose_spec.encoded
    rw [encodeTupleJson, helements]
    rfl

theorem tuple_within {v : Json} {length : ℕ} (h : TupleValue v length) (n : ℕ) :
    TupleValue (v.within n) (length + 3 * n) := by
  induction n with
  | zero => exact h
  | succ n ih =>
    have harr := tuple_arr (.cons ih .nil)
    have hlength : ([length + 3 * n].map fun k => k + 1).sum + 2 = length + 3 * (n + 1) := by
      rw [List.map_singleton, List.sum_singleton]
      omega
    rwa [hlength] at harr

theorem tuple_mono {v : Json} {m n : ℕ} (h : TupleValue v m) (hle : m ≤ n) : TupleValue v n :=
  ⟨h.fits, h.encoded, ⟨h.narrow.length_le.trans hle, h.narrow.isAscii⟩⟩

/-! ## The fields of a valid statement -/

theorem tuple_hex {n : ℕ} {s : String} (h : isLowerHex n s = true) :
    TupleValue (.text s) (n + 2) := by
  rw [isLowerHex, Bool.and_eq_true, decide_eq_true_eq] at h
  refine tuple_text (fun c hc => ?_) h.1.le
  have hc := List.all_eq_true.1 h.2 c hc
  have hplain : ∀ k < 128, isLowerHexChar (Char.ofNat k) = true →
      Json.isPlain (Char.ofNat k) = true := by decide
  rw [← Char.ofNat_toNat c] at hc ⊢
  refine hplain _ ?_ hc
  rw [Char.ofNat_toNat, isLowerHexChar] at hc
  simp only [Bool.or_eq_true, Bool.and_eq_true, decide_eq_true_eq, Char.le_def] at hc
  rcases hc with hc | hc
  · exact lt_of_le_of_lt (UInt32.le_iff_toNat_le.1 hc.2) (by decide)
  · exact lt_of_le_of_lt (UInt32.le_iff_toNat_le.1 hc.2) (by decide)

theorem tuple_release {s : String} (h : validRelease s = true) : TupleValue (.text s) 130 := by
  simp only [validRelease, Bool.and_eq_true, decide_eq_true_eq] at h
  refine tuple_text (fun c hc => isPlain_of_isNameChar ?_) h.1.2
  exact List.all_eq_true.1 h.2 c hc

theorem tuple_keyId {s : String} (h : validKeyId s = true) : TupleValue (.text s) 66 := by
  simp only [validKeyId, Bool.and_eq_true, decide_eq_true_eq] at h
  exact tuple_text (fun c hc => isPlain_of_isBase64url (List.all_eq_true.1 h.2 c hc)) h.1.2

theorem tuple_timeOrNull {t : Option ℤ} (h : t.all isSafeTime = true) :
    TupleValue (timeOrNull t) 16 := by
  cases t with
  | none => exact tuple_mono tuple_null (by decide)
  | some t => exact tuple_time h

theorem tuple_environment (e : Environment) : TupleValue (.text e.text) 12 := by
  cases e
  · exact tuple_text (forall_mem_of_all (by decide)) (show "production".length ≤ 10 by decide)
  · exact tuple_text (forall_mem_of_all (by decide)) (show "staging".length ≤ 10 by decide)

theorem tuple_operation (o : Operation) : TupleValue (.text o.text) 16 := by
  cases o
  · exact tuple_text (forall_mem_of_all (by decide)) (show "initialize".length ≤ 14 by decide)
  · exact tuple_text (forall_mem_of_all (by decide)) (show "rotate-release".length ≤ 14 by decide)

theorem tuple_authorityId (e : Environment) :
    TupleValue (.text (ATTESTATION_AUTHORITY_IDS e)) 32 := by
  cases e
  · exact tuple_text (forall_mem_of_all (by decide)) (show "production-public-inquiries-v1".length ≤ 30 by decide)
  · exact tuple_text (forall_mem_of_all (by decide)) (show "staging-public-inquiries-v1".length ≤ 30 by decide)

theorem tuple_policyEpoch : TupleValue (.text ATTESTATION_POLICY_EPOCH) 20 :=
  tuple_text (forall_mem_of_all (by decide)) (show "phase5c-i1-epoch-1".length ≤ 18 by decide)

theorem tuple_coverage (c : ReconciliationCoverage) : TupleValue (.text c.text) 12 := by
  cases c
  · exact tuple_text (forall_mem_of_all (by decide)) (show "COMPLETE".length ≤ 10 by decide)
  · exact tuple_text (forall_mem_of_all (by decide)) (show "INCOMPLETE".length ≤ 10 by decide)

theorem tuple_status (s : ReconciliationStatus) : TupleValue (.text s.text) 20 := by
  cases s
  · exact tuple_text (forall_mem_of_all (by decide)) (show "EXACT_RECEIPT".length ≤ 18 by decide)
  · exact tuple_text (forall_mem_of_all (by decide)) (show "NOT_FOUND".length ≤ 18 by decide)
  · exact tuple_text (forall_mem_of_all (by decide)) (show "HISTORY_INCOMPLETE".length ≤ 18 by decide)

theorem tuple_receipt {base : StatementBase} {r : AttestationReceipt}
    (hcommon : validateCommon base = .ok ()) (h : validateReceipt base r = .ok ()) :
    TupleValue (.arr (receiptFields r)) 720 := by
  rw [validateCommon, ensure_eq_ok] at hcommon
  rw [validateReceipt, check_bind_eq_ok, ensure_eq_ok] at h
  obtain ⟨⟨hdigest, -, hversion, henvironment, hauthority, hpolicy, hfingerprint, hsequence, -, -,
    happlied, hactivates, hretires, hcurrent, hnext, hkey⟩, -⟩ := h
  obtain ⟨-, -, hid, -⟩ := hcommon
  rw [hid, ← henvironment] at hauthority
  have hone : TupleValue (.int r.version) 16 := tuple_time (by rw [hversion]; decide)
  have hreceipt := tuple_arr (.cons (tuple_hex hdigest) (.cons hone (.cons (tuple_operation r.operation)
    (.cons (tuple_environment r.environment) (.cons (hauthority ▸ tuple_authorityId r.environment)
    (.cons (hpolicy ▸ tuple_policyEpoch) (.cons (tuple_hex hfingerprint)
    (.cons (tuple_time hsequence) (.cons (tuple_time happlied) (.cons (tuple_release hcurrent)
    (.cons (tuple_release hnext) (.cons (tuple_keyId hkey) (.cons (tuple_time hactivates)
    (.cons (tuple_timeOrNull hretires) .nil))))))))))))))
  exact tuple_mono hreceipt (by decide)

theorem tuple_receiptOrNull {base : StatementBase} {receipt : Option AttestationReceipt}
    (hcommon : validateCommon base = .ok ())
    (h : ∀ r ∈ receipt, validateReceipt base r = .ok ()) : TupleValue (receiptOrNull receipt) 720 := by
  cases receipt with
  | none => exact tuple_mono tuple_null (by decide)
  | some r => exact tuple_receipt hcommon (h r rfl)

theorem tuple_row {row : ReleaseRow} (h : validateReleaseRow row = .ok ()) :
    TupleValue (.arr (releaseRowFields row)) 234 := by
  rw [validateReleaseRow, ensure_eq_ok] at h
  obtain ⟨hrelease, hkey, hactivated, hretired⟩ := h
  exact tuple_arr (.cons (tuple_release hrelease) (.cons (tuple_keyId hkey)
    (.cons (tuple_time hactivated) (.cons (tuple_timeOrNull hretired) .nil))))

theorem tuple_rows {i : Bool} {environment : Environment} {rows : List ReleaseRow}
    (h : validateReleaseRows i environment rows = .ok ()) :
    TupleValue (.arr (rows.map fun row => .arr (releaseRowFields row))) 472 := by
  rw [validateReleaseRows, check_bind_eq_ok, check_bind_eq_ok, ensure_eq_ok, forM_eq_ok] at h
  obtain ⟨hlength, hrows, -⟩ := h
  have hle : rows.length ≤ 2 := by
    split_ifs at hlength <;> omega
  match rows, hrows, hle with
  | [], _, _ => exact tuple_mono (tuple_arr .nil) (by decide)
  | [a], hrows, _ =>
    have ha := tuple_row (hrows a List.mem_cons_self)
    exact tuple_mono (tuple_arr (.cons ha .nil)) (by decide)
  | [a, b], hrows, _ =>
    have ha := tuple_row (hrows a List.mem_cons_self)
    have hb := tuple_row (hrows b (List.mem_cons_of_mem _ List.mem_cons_self))
    exact tuple_arr (.cons ha (.cons hb .nil))

/-- The fields that both kinds of statement have. -/
structure CommonValues (base : StatementBase) : Prop where
  version : TupleValue (.int base.version) 16
  trustEpoch : TupleValue (.int base.trustEpoch) 16
  environment : TupleValue (.text base.environment.text) 12
  authorityId : TupleValue (.text base.authorityId) 32
  policyEpoch : TupleValue (.text base.policyEpoch) 20
  digest : TupleValue (.text base.digest) 66
  observedAtMs : TupleValue (.int base.observedAtMs) 16
  writerKeyFingerprint : TupleValue (.text base.writerKeyFingerprint) 66

theorem commonValues {base : StatementBase} (h : validateCommon base = .ok ()) :
    CommonValues base := by
  rw [validateCommon, ensure_eq_ok] at h
  obtain ⟨hversion, hepoch, hauthority, hpolicy, hdigest, hobserved, hwriter⟩ := h
  exact
    { version := tuple_time (by rw [hversion]; decide)
      trustEpoch := tuple_time (by rw [hepoch]; decide)
      environment := tuple_environment _
      authorityId := hauthority ▸ tuple_authorityId _
      policyEpoch := hpolicy ▸ tuple_policyEpoch
      digest := tuple_hex hdigest
      observedAtMs := tuple_time hobserved
      writerKeyFingerprint := tuple_hex hwriter }

/-- The tuple of a valid statement. -/
theorem tuple_lifecycle {s : LifecycleStatement}
    (h : validateResultStatement (.lifecycle s) = .ok ()) :
    TupleValue (snapshotStatementTuple (.lifecycle s)) 2000 := by
  obtain ⟨hcommon, hreceipt⟩ := check_bind_eq_ok.1 h
  obtain ⟨h₀, h₁, h₂, h₃, h₄, h₅, h₆, h₇⟩ := commonValues hcommon
  have hkind : TupleValue (.text "lifecycle") 11 :=
    tuple_text (forall_mem_of_all (by decide)) (show "lifecycle".length ≤ 9 by decide)
  have houtcome : TupleValue (.text "APPLIED") 9 :=
    tuple_text (forall_mem_of_all (by decide)) (show "APPLIED".length ≤ 7 by decide)
  exact tuple_mono (tuple_arr (.cons h₀ (.cons h₁ (.cons h₂ (.cons h₃ (.cons h₄ (.cons hkind
    (.cons h₅ (.cons houtcome (.cons (tuple_receipt hcommon hreceipt) (.cons h₆
    (.cons h₇ .nil)))))))))))) (by decide)

theorem tuple_reconciliation {s : ReconciliationStatement}
    (h : validateResultStatement (.reconciliation s) = .ok ()) (m n : ℕ) :
    TupleValue (snapshotStatementTuple (.reconciliation (s.respelled m n)))
      (2000 + 3 * m + 3 * n) := by
  obtain ⟨hcommon, hnonce, -, -, hreceipt, hrows, -⟩ := validate_reconciliation_eq_ok.1 h
  obtain ⟨h₀, h₁, h₂, h₃, h₄, h₅, h₆, h₇⟩ := commonValues hcommon
  have hkind : TupleValue (.text "reconciliation") 16 :=
    tuple_text (forall_mem_of_all (by decide)) (show "reconciliation".length ≤ 14 by decide)
  have hcoverage := tuple_within (tuple_coverage s.coverage) m
  have hstatus := tuple_within (tuple_status s.status) n
  refine tuple_mono (tuple_arr (.cons h₀ (.cons h₁ (.cons h₂ (.cons h₃ (.cons h₄ (.cons hkind
    (.cons h₅ (.cons (tuple_hex hnonce) (.cons (tuple_bool s.initialized) (.cons hcoverage
    (.cons hstatus (.cons (tuple_receiptOrNull hcommon hreceipt) (.cons (tuple_rows hrows)
    (.cons h₆ (.cons h₇ .nil)))))))))))))))) ?_
  simp only [List.map_cons, List.map_nil, List.sum_cons, List.sum_nil]
  omega

/-! ## The depth of a statement -/

theorem nesting_text (s : String) : (Json.text s).nesting = 0 := rfl

theorem nesting_int (n : ℤ) : (Json.int n).nesting = 0 := rfl

theorem nesting_bool (b : Bool) : (Json.bool b).nesting = 0 := rfl

theorem nesting_timeOrNull (t : Option ℤ) : (timeOrNull t).nesting = 0 := by
  cases t <;> rfl

theorem nesting_within (s : String) (n : ℕ) : ((Json.text s).within n).nesting = n := by
  induction n with
  | zero => rfl
  | succ n ih => simp [Json.within, Json.nesting, Json.nestingAll, ih]

theorem nesting_receipt (r : AttestationReceipt) : (Json.arr (receiptFields r)).nesting = 1 := by
  simp [receiptFields, Json.nesting, Json.nestingAll, nesting_text, nesting_int, nesting_timeOrNull]

theorem nesting_receiptOrNull (r : Option AttestationReceipt) : (receiptOrNull r).nesting ≤ 1 := by
  cases r with
  | none => exact Nat.zero_le _
  | some r => exact (nesting_receipt r).le

theorem nesting_rows (rows : List ReleaseRow) :
    (Json.arr (rows.map fun row => .arr (releaseRowFields row))).nesting ≤ 2 := by
  rw [Json.nesting, Json.nestingAll_le]
  intro v hv
  obtain ⟨row, -, rfl⟩ := List.mem_map.1 hv
  simp [releaseRowFields, Json.nesting, Json.nestingAll, nesting_text, nesting_int,
    nesting_timeOrNull]

theorem nesting_lifecycle (s : LifecycleStatement) :
    (snapshotStatementTuple (.lifecycle s)).nesting ≤ 2 := by
  rw [snapshotStatementTuple, Json.nesting, Json.nestingAll_le]
  simp [nesting_text, nesting_int, nesting_receipt]

theorem nesting_reconciliation (s : ReconciliationStatement) (m n : ℕ) :
    (snapshotStatementTuple (.reconciliation (s.respelled m n))).nesting < STRICT_MAX_DEPTH ↔
      m ≤ 14 ∧ n ≤ 14 := by
  have hreceipt := nesting_receiptOrNull s.receipt
  have hrows := nesting_rows s.releases
  rw [Nat.lt_iff_le_pred (by decide), snapshotStatementTuple, Json.nesting, Json.nestingAll_le]
  simp only [ReconciliationStatement.respelled, List.forall_mem_cons, nesting_text, nesting_int,
    nesting_bool, nesting_within, STRICT_MAX_DEPTH, List.not_mem_nil, false_imp_iff,
    implies_true, and_true]
  omega

/-! ## Envelopes -/

/-- The record of an envelope. -/
def envelopeJson (e : ParsedEnvelope) : Json :=
  .obj [(.ofString "statement", snapshotStatementTuple e.statement),
    (.ofString "signature", .text e.signature)]

theorem write_envelopeJson (e : ParsedEnvelope) :
    (envelopeJson e).write = '\x7b' :: ("\"statement\"".toList ++
      ':' :: (snapshotStatementTuple e.statement).write ++ ',' :: ("\"signature\"".toList ++
        ':' :: (Json.text e.signature).write)) ++ ['\x7d'] := by
  have hstatement : Json.quote (.ofString "statement") = "\"statement\"".toList := by decide
  have hsignature : Json.quote (.ofString "signature") = "\"signature\"".toList := by decide
  rw [envelopeJson, Json.write, Json.writeMembers, Json.writeMembers, hstatement, hsignature]

theorem envelopeText_stringify (e : ParsedEnvelope) :
    envelopeText (snapshotStatementTuple e.statement).stringify e.signature =
      (envelopeJson e).stringify := by
  apply String.toList_inj.1
  have hwrite := write_envelopeJson e
  have hstart : "\x7b\"statement\":".toList = '\x7b' :: "\"statement\"".toList ++ [':'] := by decide
  have hmiddle : ",\"signature\":".toList = ',' :: "\"signature\"".toList ++ [':'] := by decide
  have hend : "\x7d".toList = ['\x7d'] := by decide
  delta envelopeText
  simp only [Json.stringify, String.toList_append, String.toList_ofList, hwrite, hstart, hmiddle,
    hend, List.cons_append, List.append_assoc, List.nil_append]

/-- A valid statement's tuple, with what it takes. -/
theorem ParsedStatement.Valid.tuple {p : ParsedStatement} (h : p.Valid) :
    ∃ length, TupleValue (snapshotStatementTuple p) length := by
  cases h with
  | lifecycle h => exact ⟨_, tuple_lifecycle h⟩
  | reconciliation h m n => exact ⟨_, tuple_reconciliation h m n⟩

theorem canonicalStatementText_eq_ok {p : ParsedStatement} {text : String} :
    canonicalStatementText p = .ok text ↔
      p.Valid ∧ text = (snapshotStatementTuple p).stringify := by
  constructor
  · intro h
    obtain ⟨tuple, htuple, h⟩ := bind_eq_ok.1 h
    obtain ⟨p', hp', htuple⟩ := bind_eq_ok.1 htuple
    obtain ⟨hsame, hvalid⟩ := parseResultStatementTuple_eq_ok.1 hp'
    obtain rfl := snapshotStatementTuple_injective hsame
    obtain rfl := Except.ok.inj htuple
    obtain ⟨written, hwritten, h⟩ := bind_eq_ok.1 h
    obtain ⟨length, hvalue⟩ := hvalid.tuple
    obtain rfl := Except.ok.inj (hwritten.symm.trans hvalue.encoded)
    exact ⟨hvalid, (Except.ok.inj h).symm⟩
  · rintro ⟨hvalid, rfl⟩
    obtain ⟨length, hvalue⟩ := hvalid.tuple
    have htuple : canonicalTuple p = .ok (snapshotStatementTuple p) :=
      bind_eq_ok.2 ⟨p, parseResultStatementTuple_eq_ok.2 ⟨rfl, hvalid⟩, rfl⟩
    exact bind_eq_ok.2 ⟨_, htuple, bind_eq_ok.2 ⟨_, hvalue.encoded, rfl⟩⟩

/-- **An envelope is encoded exactly when it is valid and short enough.** -/
theorem encodeResultAttestationEnvelope_eq_ok {e : ParsedEnvelope} {bytes : List UInt8} :
    encodeResultAttestationEnvelope e = .ok bytes ↔
      isSignatureText e.signature = true ∧ e.statement.Valid ∧
        utf8 (envelopeJson e).stringify = bytes ∧ bytes.length ≤ ATTESTATION_MAX_ENVELOPE_BYTES := by
  rw [encodeResultAttestationEnvelope, check_bind_eq_ok, ensure_eq_ok]
  refine and_congr_right fun _ => ?_
  constructor
  · intro h
    obtain ⟨text, htext, h⟩ := bind_eq_ok.1 h
    obtain ⟨hvalid, rfl⟩ := canonicalStatementText_eq_ok.1 htext
    obtain ⟨hlength, h⟩ := check_bind_eq_ok.1 h
    obtain rfl := Except.ok.inj h
    rw [envelopeText_stringify] at hlength ⊢
    exact ⟨hvalid, rfl, (ensure_eq_ok _ _ _).1 hlength⟩
  · rintro ⟨hvalid, rfl, hlength⟩
    refine bind_eq_ok.2 ⟨_, canonicalStatementText_eq_ok.2 ⟨hvalid, rfl⟩, ?_⟩
    rw [envelopeText_stringify]
    exact check_bind_eq_ok.2 ⟨(ensure_eq_ok _ _ _).2 hlength, rfl⟩

/-- The record of a valid envelope that is not too deep is read back. -/
theorem parseStrictJsonText_envelope {e : ParsedEnvelope} (hvalid : e.statement.Valid)
    (hdepth : (snapshotStatementTuple e.statement).nesting < STRICT_MAX_DEPTH) :
    parseStrictJsonText (envelopeJson e).stringify = some (envelopeJson e) := by
  obtain ⟨length, hvalue⟩ := hvalid.tuple
  have hkeys : JsString.ofString "signature" ≠ JsString.ofString "statement" :=
    fun h => absurd (JsString.ofString_injective h) (by decide)
  refine Json.read_stringify ?_
  rw [envelopeJson, Json.Fits, Json.FitsMembers, Json.FitsMembers, Json.FitsMembers, Json.text,
    Json.Fits]
  refine ⟨within_strict.2 (by decide), .inr List.not_mem_nil, hvalue.fits 1 (by omega), .inr ?_,
    within_strict.2 (by decide), trivial⟩
  rw [List.mem_singleton]
  exact hkeys

theorem readEnvelope_eq_ok {value statement signature : Json}
    (h : readEnvelope value = .ok (statement, signature)) :
    statement.nesting < value.nesting := by
  unfold readEnvelope at h
  split at h
  · next members =>
    split at h
    · next hstatement _ =>
      split_ifs at h
      cases h
      obtain ⟨m, hm, rfl⟩ := Option.map_eq_some_iff.1 hstatement
      have hmem := List.mem_of_find?_eq_some hm
      rw [Json.nesting]
      exact Json.nestingMembers_le.1 le_rfl m hmem
    · cases h
  · cases h

theorem readEnvelope_envelopeJson (e : ParsedEnvelope) :
    readEnvelope (envelopeJson e) = .ok (snapshotStatementTuple e.statement, .text e.signature) := by
  have hkeys : JsString.ofString "statement" ≠ JsString.ofString "signature" :=
    fun h => absurd (JsString.ofString_injective h) (by decide)
  simp [readEnvelope, envelopeJson, Json.member?, hkeys]

theorem nesting_strictScalar (text : List Char) (v : Json) (rest : List Char)
    (h : strict.scalar text = some (v, rest)) : v.nesting = 0 := by
  have hword {word : String} {w : Json} (hw : w.nesting = 0) {read : Json × List Char}
      (h : Json.readWord word w text = some read) : read.1.nesting = 0 := by
    rw [Json.readWord] at h
    split_ifs at h
    cases h
    exact hw
  change strictScalar text = some (v, rest) at h
  rw [strictScalar, Option.or_eq_some_iff] at h
  rcases h with h | ⟨-, h⟩
  · rw [Json.readLiteral, Option.or_eq_some_iff, Option.or_eq_some_iff] at h
    rcases h with h | ⟨-, h | ⟨-, h⟩⟩
    · exact hword rfl h
    · exact hword rfl h
    · exact hword rfl h
  · split at h
    · cases h
    · split_ifs at h
      cases h
      rfl

/-- **Bytes are parsed exactly when they are the encoding of an envelope that is not too deep**, and
to it. -/
theorem parseResultAttestationEnvelope_eq_ok {bytes : List UInt8} {e : ParsedEnvelope} :
    parseResultAttestationEnvelope bytes = .ok e ↔ encodeResultAttestationEnvelope e = .ok bytes ∧
      (snapshotStatementTuple e.statement).nesting < STRICT_MAX_DEPTH := by
  constructor
  · intro h
    rw [parseResultAttestationEnvelope, check_bind_eq_ok] at h
    obtain ⟨-, h⟩ := h
    split at h
    · cases h
    · obtain ⟨-, h⟩ := check_bind_eq_ok.1 h
      split at h
      · cases h
      · next value hvalue =>
        obtain ⟨⟨statement, signature⟩, henvelope, h⟩ := bind_eq_ok.1 h
        dsimp only at h
        split at h
        · cases h
        · next text _ =>
          obtain ⟨-, h⟩ := check_bind_eq_ok.1 h
          obtain ⟨p, hp, h⟩ := bind_eq_ok.1 h
          obtain ⟨canonical, hcanonical, h⟩ := bind_eq_ok.1 h
          obtain ⟨hsame, h⟩ := check_bind_eq_ok.1 h
          obtain rfl := Except.ok.inj h
          obtain rfl := (ensure_eq_ok _ _ _).1 hsame
          obtain ⟨rfl, -⟩ := parseResultStatementTuple_eq_ok.1 hp
          have hdeep := within_strict.1 (Json.within_nesting_of_read nesting_strictScalar hvalue)
          exact ⟨hcanonical, (readEnvelope_eq_ok henvelope).trans_le hdeep⟩
  · rintro ⟨hencoded, hdepth⟩
    obtain ⟨hsignature, hvalid, hbytes, hlength⟩ :=
      encodeResultAttestationEnvelope_eq_ok.1 hencoded
    have hsource : decodeUtf8 bytes = some (envelopeJson e).stringify :=
      decodeUtf8_eq_some.2 hbytes
    obtain ⟨rest, hwrite⟩ : ∃ rest, (envelopeJson e).write = '\x7b' :: rest := by
      rw [envelopeJson, Json.write]
      exact ⟨_, rfl⟩
    have hhead : (envelopeJson e).stringify.toList.head? = some '\x7b' := by
      rw [Json.stringify, String.toList_ofList, hwrite, List.head?_cons]
    have hpos : 1 ≤ bytes.length := by
      rw [Nat.one_le_iff_ne_zero, Ne, List.length_eq_zero_iff]
      rintro rfl
      have hempty : (envelopeJson e).stringify = "" := utf8_injective (hbytes.trans rfl)
      rw [hempty] at hhead
      cases hhead
    rw [parseResultAttestationEnvelope]
    refine check_bind_eq_ok.2 ⟨(ensure_eq_ok _ _ _).2 ⟨hpos, hlength⟩, ?_⟩
    simp only [hsource, parseStrictJsonText_envelope hvalid hdepth]
    refine check_bind_eq_ok.2 ⟨(ensure_eq_ok _ _ _).2 (by rw [hhead]; decide), ?_⟩
    refine bind_eq_ok.2 ⟨_, readEnvelope_envelopeJson e, ?_⟩
    simp only [Json.text?_text]
    refine check_bind_eq_ok.2 ⟨(ensure_eq_ok _ _ _).2 hsignature, ?_⟩
    refine bind_eq_ok.2 ⟨_, parseResultStatementTuple_eq_ok.2 ⟨rfl, hvalid⟩, ?_⟩
    exact bind_eq_ok.2 ⟨_, hencoded, check_bind_eq_ok.2 ⟨(ensure_eq_ok _ _ _).2 rfl, rfl⟩⟩

/-! ## Valid envelopes -/

structure ResultAttestationEnvelope.Valid (e : ResultAttestationEnvelope) : Prop where
  statement : validateResultStatement e.statement = .ok ()
  signature : isSignatureText e.signature = true

theorem length_envelope_le {e : ParsedEnvelope} {length : ℕ}
    (hvalue : TupleValue (snapshotStatementTuple e.statement) length)
    (hsignature : isSignatureText e.signature = true) :
    (utf8 (envelopeJson e).stringify).length ≤ length + 116 := by
  obtain ⟨bytes, hbytes⟩ := Option.isSome_iff_exists.1 hsignature
  have hsig := narrow_base64url hbytes
  have hascii : ∀ c ∈ (envelopeJson e).write, IsAscii c := by
    rw [write_envelopeJson]
    simp only [List.cons_append, List.forall_mem_cons, List.forall_mem_append, List.append_assoc]
    exact ⟨by decide, forall_mem_of_all (by decide), by decide, hvalue.narrow.isAscii, by decide,
      forall_mem_of_all (by decide), by decide, hsig.isAscii, by decide, by simp⟩
  have hnarrow := hvalue.narrow.length_le
  have hsiglength := hsig.length_le
  rw [Json.stringify, length_utf8_ofList hascii, write_envelopeJson]
  simp
  omega

/-- **Every valid envelope fits, however its coverage and its status are spelled.** -/
theorem length_valid_le {e : ParsedEnvelope} (hvalid : e.statement.Valid)
    (hdepth : (snapshotStatementTuple e.statement).nesting < STRICT_MAX_DEPTH)
    (hsignature : isSignatureText e.signature = true) :
    (utf8 (envelopeJson e).stringify).length ≤ ATTESTATION_MAX_ENVELOPE_BYTES := by
  have hlength {length : ℕ} (hvalue : TupleValue (snapshotStatementTuple e.statement) length)
      (hle : length ≤ 8000) : (utf8 (envelopeJson e).stringify).length ≤
        ATTESTATION_MAX_ENVELOPE_BYTES :=
    (length_envelope_le hvalue hsignature).trans
      ((Nat.add_le_add_right hle 116).trans (by decide))
  obtain ⟨p, signature⟩ := e
  cases hvalid with
  | lifecycle h => exact hlength (tuple_lifecycle h) (by decide)
  | reconciliation h m n =>
    obtain ⟨hm, hn⟩ := (nesting_reconciliation _ m n).1 hdepth
    exact hlength (tuple_reconciliation h m n) (by omega)

theorem ResultStatement.nesting_parsed (s : ResultStatement) :
    (snapshotStatementTuple s.parsed).nesting < STRICT_MAX_DEPTH := by
  cases s with
  | lifecycle s => exact (nesting_lifecycle s).trans_lt (by decide)
  | reconciliation s => exact (nesting_reconciliation s 0 0).2 ⟨by decide, by decide⟩

theorem within_text_injective {s t : String} {m n : ℕ}
    (h : (Json.text s).within m = (Json.text t).within n) : s = t ∧ m = n := by
  have hmn : m = n := by
    have hnesting := congrArg Json.nesting h
    rwa [nesting_within, nesting_within] at hnesting
  subst hmn
  induction m with
  | zero => exact ⟨Json.text_injective h, rfl⟩
  | succ m ih => exact ⟨(ih (List.cons.inj (Json.arr.inj h)).1).1, rfl⟩

theorem ReconciliationCoverage.text_injective : Function.Injective text := by
  intro a b h
  cases a <;> cases b <;> first | rfl | exact absurd h (by decide)

theorem ReconciliationStatus.text_injective : Function.Injective text := by
  intro a b h
  cases a <;> cases b <;> first | rfl | exact absurd h (by decide)

theorem respelled_injective {s t : ReconciliationStatement} {m n m' n' : ℕ}
    (h : s.respelled m n = t.respelled m' n') : s = t ∧ m = m' ∧ n = n' := by
  simp only [ReconciliationStatement.respelled, ParsedReconciliation.mk.injEq] at h
  obtain ⟨hbase, hnonce, hinitialized, hcoverage, hstatus, hreceipt, hreleases⟩ := h
  obtain ⟨hc, rfl⟩ := within_text_injective hcoverage
  obtain ⟨hs, rfl⟩ := within_text_injective hstatus
  have hc := ReconciliationCoverage.text_injective hc
  have hs := ReconciliationStatus.text_injective hs
  refine ⟨?_, rfl, rfl⟩
  cases s
  cases t
  simp only at *
  subst_vars
  rfl

theorem ResultStatement.parsed_injective : Function.Injective parsed := by
  intro s t h
  cases s with
  | lifecycle s =>
    cases t with
    | lifecycle t => exact congrArg _ (ParsedStatement.lifecycle.inj h)
    | reconciliation t => cases h
  | reconciliation s =>
    cases t with
    | lifecycle t => cases h
    | reconciliation t =>
      exact congrArg _ (respelled_injective (ParsedStatement.reconciliation.inj h)).1

/-- The bytes of a valid envelope whose coverage or status is within arrays of one element. -/
def Respelled (bytes : List UInt8) : Prop :=
  ∃ (s : ReconciliationStatement) (signature : String) (m n : ℕ),
    validateResultStatement (.reconciliation s) = .ok () ∧ isSignatureText signature = true ∧
      0 < m + n ∧ m ≤ 14 ∧ n ≤ 14 ∧
      bytes = utf8 (envelopeJson ⟨.reconciliation (s.respelled m n), signature⟩).stringify

/-- What is not too deep is parsed from its encoding. -/
theorem parse_of_valid {e : ParsedEnvelope} (hvalid : e.statement.Valid)
    (hsignature : isSignatureText e.signature = true)
    (hdepth : (snapshotStatementTuple e.statement).nesting < STRICT_MAX_DEPTH) :
    parseResultAttestationEnvelope (utf8 (envelopeJson e).stringify) = .ok e :=
  parseResultAttestationEnvelope_eq_ok.2 ⟨encodeResultAttestationEnvelope_eq_ok.2
    ⟨hsignature, hvalid, rfl, length_valid_le hvalid hdepth hsignature⟩, hdepth⟩

/-- A respelled envelope is parsed, and is the encoding of no valid one. -/
theorem Respelled.accepted {bytes : List UInt8} (h : Respelled bytes) :
    (∃ e, parseResultAttestationEnvelope bytes = .ok e) ∧
      ¬ ∃ e : ResultAttestationEnvelope, e.Valid ∧
        encodeResultAttestationEnvelope e.parsed = .ok bytes := by
  obtain ⟨s, signature, m, n, hvalid, hsignature, hpos, hm, hn, rfl⟩ := h
  have hdepth := (nesting_reconciliation s m n).2 ⟨hm, hn⟩
  have hparse : parseResultAttestationEnvelope _ = .ok
      ⟨.reconciliation (s.respelled m n), signature⟩ :=
    parse_of_valid (.reconciliation hvalid m n) hsignature hdepth
  refine ⟨⟨_, hparse⟩, ?_⟩
  rintro ⟨e, he, hencoded⟩
  have hparsed := parseResultAttestationEnvelope_eq_ok.2 ⟨hencoded, e.statement.nesting_parsed⟩
  have hsame := Except.ok.inj (hparse.symm.trans hparsed)
  have hstatement : ParsedStatement.reconciliation (s.respelled m n) = e.statement.parsed :=
    congrArg ParsedEnvelope.statement hsame
  cases hs : e.statement with
  | lifecycle t =>
    rw [hs] at hstatement
    cases hstatement
  | reconciliation t =>
    rw [hs] at hstatement
    obtain ⟨-, rfl, rfl⟩ := respelled_injective (ParsedStatement.reconciliation.inj hstatement)
    exact absurd hpos (by decide)

/-- What is parsed is the encoding of a valid envelope, or respelled. -/
theorem canonical_or_respelled {bytes : List UInt8} {e : ParsedEnvelope}
    (h : parseResultAttestationEnvelope bytes = .ok e) :
    (∃ e : ResultAttestationEnvelope, e.Valid ∧
      encodeResultAttestationEnvelope e.parsed = .ok bytes) ∨ Respelled bytes := by
  obtain ⟨hencoded, hdepth⟩ := parseResultAttestationEnvelope_eq_ok.1 h
  obtain ⟨hsignature, hvalid, hbytes, -⟩ := encodeResultAttestationEnvelope_eq_ok.1 hencoded
  obtain ⟨p, signature⟩ := e
  cases hvalid with
  | lifecycle hvalid => exact .inl ⟨⟨.lifecycle _, signature⟩, ⟨hvalid, hsignature⟩, hencoded⟩
  | @reconciliation s hvalid m n =>
    obtain ⟨hm, hn⟩ := (nesting_reconciliation s m n).1 hdepth
    rcases Nat.eq_zero_or_pos (m + n) with hzero | hpos
    · obtain ⟨rfl, rfl⟩ := Nat.add_eq_zero_iff.1 hzero
      exact .inl ⟨⟨.reconciliation s, signature⟩, ⟨hvalid, hsignature⟩, hencoded⟩
    · exact .inr ⟨s, signature, m, n, hvalid, hsignature, hpos, hm, hn, hbytes.symm⟩

/-- **Two valid statements have different signing bytes.** -/
theorem attestationSigningBytes_injective {s t : ResultStatement}
    (hs : validateResultStatement s = .ok ()) (ht : validateResultStatement t = .ok ()) :
    ∃ a b, attestationSigningBytes s.parsed = .ok a ∧ attestationSigningBytes t.parsed = .ok b ∧
      (a = b → s = t) := by
  have hread {s : ResultStatement} (h : validateResultStatement s = .ok ()) :
      parseStrictJsonText (snapshotStatementTuple s.parsed).stringify =
        some (snapshotStatementTuple s.parsed) := by
    obtain ⟨length, hvalue⟩ := (ResultStatement.valid_parsed h).tuple
    have hdepth := s.nesting_parsed
    exact Json.read_stringify (hvalue.fits 0 (by omega))
  have hbytes {s : ResultStatement} (h : validateResultStatement s = .ok ()) :
      attestationSigningBytes s.parsed =
        .ok (signingBytesFromText (snapshotStatementTuple s.parsed).stringify) := by
    rw [attestationSigningBytes,
      canonicalStatementText_eq_ok.2 ⟨ResultStatement.valid_parsed h, rfl⟩]
    rfl
  refine ⟨_, _, hbytes hs, hbytes ht, fun h => ?_⟩
  have htext : (snapshotStatementTuple s.parsed).stringify =
      (snapshotStatementTuple t.parsed).stringify :=
    String.append_right_inj _ |>.1 (utf8_injective h)
  have htuple := (hread hs).symm.trans ((congrArg parseStrictJsonText htext).trans (hread ht))
  exact ResultStatement.parsed_injective
    (snapshotStatementTuple_injective (Option.some.inj htuple))

/-- **The attestation codec is canonical**, but for the envelopes that spell a coverage or a status
as an array. -/
theorem attestation_codec_canonical_iff (bytes : List UInt8) (envelope : ResultAttestationEnvelope)
    (s t : ResultStatement) :
    (envelope.Valid → ∃ encoded, encodeResultAttestationEnvelope envelope.parsed = .ok encoded ∧
      encoded.length ≤ ATTESTATION_MAX_ENVELOPE_BYTES ∧
      parseResultAttestationEnvelope encoded = .ok envelope.parsed) ∧
    (((∃ e, parseResultAttestationEnvelope bytes = .ok e) ↔
      ∃ e : ResultAttestationEnvelope, e.Valid ∧
        encodeResultAttestationEnvelope e.parsed = .ok bytes) ↔ ¬ Respelled bytes) ∧
    (validateResultStatement s = .ok () → validateResultStatement t = .ok () →
      ∃ a b, attestationSigningBytes s.parsed = .ok a ∧
        attestationSigningBytes t.parsed = .ok b ∧ (a = b → s = t)) := by
  have hroundTrip {e : ResultAttestationEnvelope} (he : e.Valid) :
      encodeResultAttestationEnvelope e.parsed = .ok (utf8 (envelopeJson e.parsed).stringify) ∧
        parseResultAttestationEnvelope (utf8 (envelopeJson e.parsed).stringify) = .ok e.parsed := by
    have hparse : parseResultAttestationEnvelope _ = .ok e.parsed :=
      parse_of_valid (ResultStatement.valid_parsed he.statement) he.signature
        e.statement.nesting_parsed
    exact ⟨(parseResultAttestationEnvelope_eq_ok.1 hparse).1, hparse⟩
  refine ⟨fun he => ?_, ⟨fun h hrespelled => ?_, fun h => ⟨fun ⟨e, he⟩ => ?_, ?_⟩⟩,
    attestationSigningBytes_injective⟩
  · obtain ⟨hencoded, hparse⟩ := hroundTrip he
    exact ⟨_, hencoded, (encodeResultAttestationEnvelope_eq_ok.1 hencoded).2.2.2, hparse⟩
  · obtain ⟨haccepted, hnot⟩ := hrespelled.accepted
    exact hnot (h.1 haccepted)
  · exact (canonical_or_respelled he).resolve_right h
  · rintro ⟨e, he, hencoded⟩
    obtain ⟨hencoded', hparse⟩ := hroundTrip he
    obtain rfl := Except.ok.inj (hencoded.symm.trans hencoded')
    exact ⟨_, hparse⟩

/-! ## A respelled envelope -/

def sampleStatement : ReconciliationStatement where
  trustEpoch := ATTESTATION_TRUST_EPOCH
  environment := .production
  authorityId := ATTESTATION_AUTHORITY_IDS .production
  policyEpoch := ATTESTATION_POLICY_EPOCH
  digest := String.ofList (List.replicate 64 'a')
  observedAtMs := 1700000000000
  writerKeyFingerprint := String.ofList (List.replicate 64 'b')
  nonce := String.ofList (List.replicate 32 'c')
  initialized := false
  coverage := .complete
  status := .notFound
  receipt := none
  releases := []

def sampleSignature : String := encodeBase64url (List.replicate 64 0)

/-- The coverage of this envelope is the array `["COMPLETE"]`. -/
def sampleRespelled : List UInt8 :=
  utf8 (envelopeJson ⟨.reconciliation (sampleStatement.respelled 1 0), sampleSignature⟩).stringify

theorem validate_sampleStatement :
    validateResultStatement (.reconciliation sampleStatement) = .ok () := by
  decide +kernel

theorem isSignatureText_sample : isSignatureText sampleSignature = true := by
  decide +kernel

theorem respelled_sample : Respelled sampleRespelled :=
  ⟨sampleStatement, sampleSignature, 1, 0, validate_sampleStatement, isSignatureText_sample,
    by decide, by decide, by decide, rfl⟩

/-- It is accepted, and is the encoding of no valid envelope. -/
theorem respelled_sample_accepted :
    (∃ e, parseResultAttestationEnvelope sampleRespelled = .ok e) ∧
      ¬ ∃ e : ResultAttestationEnvelope, e.Valid ∧
        encodeResultAttestationEnvelope e.parsed = .ok sampleRespelled :=
  respelled_sample.accepted

theorem attestation_codec_canonical_sample : ∃ bytes,
    encodeResultAttestationEnvelope
        (ResultAttestationEnvelope.parsed ⟨.reconciliation sampleStatement, sampleSignature⟩) =
      .ok bytes ∧ bytes.length ≤ ATTESTATION_MAX_ENVELOPE_BYTES ∧
    parseResultAttestationEnvelope bytes =
      .ok (ResultAttestationEnvelope.parsed ⟨.reconciliation sampleStatement, sampleSignature⟩) :=
  (attestation_codec_canonical_iff [] ⟨.reconciliation sampleStatement, sampleSignature⟩
    (.reconciliation sampleStatement) (.reconciliation sampleStatement)).1
    ⟨validate_sampleStatement, isSignatureText_sample⟩

end Limitmark.Authority
