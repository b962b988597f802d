import Limitmark.Hop.CallHistory
import Limitmark.Hop.SingleAdmission

/-!
# The hop chain

The plane, the boundary and the app as one system, over a network that belongs to an attacker: any
request may be presented to either verifier at any time, and the calls interleave at their awaits.
The plane signs what it approved, the boundary signs for what it admitted, and a signature that
verifies was made by its owner before (`Unforged`).

Whatever the app admits was approved by the plane and admitted by the boundary, header for header,
and no approval is admitted twice (`chain_agreement`).
-/

namespace Limitmark.Hop

open Limitmark.Defense Limitmark.Plane Limitmark.Foundations

/-! ## The parties -/

/-- The keys and identities of a run, and when the two verifiers started. -/
structure Parties (P : Platform) where
  signer : Signer P
  plane : PbIssuerConfig
  boundary : BaIssuerConfig
  boundaryFenceMs : ℚ
  appFenceMs : ℚ

namespace Parties

variable {P : Platform} (c : Parties P)

def keyOf : HopRole → Key
  | .pb => c.signer.publicKey c.plane.privateKey
  | .ba => c.signer.publicKey c.boundary.privateKey

def boundaryConfig : AdmissionConfig := .pb (c.keyOf .pb) c.plane.kid c.plane.boundaryId

def appConfig : AdmissionConfig :=
  .ba (c.keyOf .ba) c.boundary.kid (c.keyOf .pb) c.plane.kid c.boundary.appId c.plane.boundaryId

end Parties

/-- A request the plane approved and issued a proof for, with well-formed ids. -/
structure PlaneRecord {P : Platform} (c : Parties P) where
  layer : LayerRequest
  approval : Approval
  built : buildApprovedRequest P layer = .ok approval
  hop : ℕ
  corr : String
  iat : ℕ
  random : Vector UInt8 16
  issued : Issued
  signed : issuePb c.signer c.plane ⟨approval.approved, layer, approval, built, rfl⟩ hop corr iat
    random = .ok issued
  wellFormed : (pbClaims c.plane approval.approved hop corr iat (newId random)).WellFormed

namespace PlaneRecord

variable {P : Platform} {c : Parties P}

def claims (record : PlaneRecord c) : Claims :=
  pbClaims c.plane record.approval.approved record.hop record.corr record.iat (newId record.random)

end PlaneRecord

/-! ## The system -/

/-- The plane's approvals, the two verifiers, and the claims the boundary signed for its calls. -/
structure Chain {P : Platform} (c : Parties P) where
  plane : List (PlaneRecord c) := []
  boundary : Verifier
  relayed : List (ℕ × Claims) := []
  app : Verifier

inductive ChainOp {P : Platform} (c : Parties P)
  | approve (record : PlaneRecord c)
  | boundary (op : Verifier.Op)
  | relay (k iat : ℕ) (random : Vector UInt8 16)
  | app (op : Verifier.Op)

namespace Chain

variable {P : Platform} {c : Parties P}

/-- The boundary signs once for a call it admitted. -/
def relay (k iat : ℕ) (random : Vector UInt8 16) (s : Chain c) : Chain c :=
  match s.boundary.admittedAt k with
  | none => s
  | some a =>
    if s.relayed.any fun entry => entry.1 = k then s
    else
      match issueBa c.signer c.boundary a.pb iat random with
      | .error _ => s
      | .ok issued =>
        { s with relayed := s.relayed ++ [(k, baClaims P c.boundary a.pb iat issued.jti)] }

def step (s : Chain c) : ChainOp c → Chain c
  | .approve record => { s with plane := s.plane ++ [record] }
  | .boundary op =>
    { s with boundary := (Verifier.step P c.boundaryConfig c.boundaryFenceMs s.boundary op).1 }
  | .relay k iat random => s.relay k iat random
  | .app op => { s with app := (Verifier.step P c.appConfig c.appFenceMs s.app op).1 }

/-- The claims signed so far under the key of a role. -/
def signed (s : Chain c) : HopRole → List Claims
  | .pb => s.plane.map PlaneRecord.claims
  | .ba => s.relayed.map Prod.snd

/-- Every proof in the headers whose signature verifies was signed before. -/
def Unforged (s : Chain c) (rawHeaders : List (String × String)) : Prop :=
  ∀ header ∈ rawHeaders, ∀ role decoded, decodeProof P header.2 role = .ok decoded →
    verifyProofSignature P role decoded (c.keyOf role) = true →
    ∃ claims ∈ s.signed role, decoded.payload = payloadOf claims

/-- What can happen next: nobody presents a forged signature, and the clock is a safe integer. -/
def Allowed (s : Chain c) : ChainOp c → Prop
  | .boundary (.begin request _) => s.Unforged request.rawHeaders
  | .app (.begin request _) => s.Unforged request.rawHeaders
  | .relay _ iat _ => isKid c.boundary.kid = true ∧ isNonce c.boundary.appId = true ∧
      iat + c.boundary.lifetimeMs ≤ MAX_SAFE_INTEGER
  | _ => True

/-- The system before anything happened. -/
def new (c : Parties P) (boundaryCapacity appCapacity : ℕ) : Chain c where
  boundary := { guard := { capacity := boundaryCapacity } }
  app := { guard := { capacity := appCapacity } }

end Chain

/-- The states of the system after the operations of a run. -/
inductive ChainRun {P : Platform} {c : Parties P} (boundaryCapacity appCapacity : ℕ) :
    List (ChainOp c) → Chain c → Prop
  | nil : ChainRun boundaryCapacity appCapacity [] (Chain.new c boundaryCapacity appCapacity)
  | snoc {ops : List (ChainOp c)} {s : Chain c} (h : ChainRun boundaryCapacity appCapacity ops s)
      (op : ChainOp c) (hop : s.Allowed op) :
      ChainRun boundaryCapacity appCapacity (ops ++ [op]) (s.step op)

/-- The operations of the app in a run. -/
def appOps {P : Platform} {c : Parties P} (ops : List (ChainOp c)) : List Verifier.Op :=
  ops.filterMap fun op =>
    match op with
    | .app op => some op
    | _ => none

/-- The requests an app's operations open, in order. -/
def begun (ops : List Verifier.Op) : List (AdmissionRequest × ℚ) :=
  ops.filterMap fun op =>
    match op with
    | .begin request nowMs => some (request, nowMs)
    | _ => none

/-! ## What verified claims rest on -/

variable {P : Platform}

/-- A payload has one list of claims. -/
theorem payloadOf_injective (hP : ReadsJson P) {claims claims' : Claims} (h : claims.WellFormed)
    (h' : claims'.WellFormed) (heq : payloadOf claims = payloadOf claims') : claims = claims' := by
  have hread := (hP.reads _ _ h.isPlain).2 rfl
  have hread' := (hP.reads _ _ h'.isPlain).2 rfl
  rw [← payloadOf] at hread hread'
  rw [heq, hread', Option.some.injEq] at hread
  have hparsed : readClaims claims.role (claimsPayload claims) = .ok claims :=
    readClaims_eq_ok.2 ⟨rfl, rfl, h⟩
  have hrole : claims'.role = claims.role := by
    rw [claimsPayload, claimsPayload, Json.arr.injEq, List.cons.injEq, Json.str.injEq] at hread
    revert hread
    cases claims.role <;> cases claims'.role <;> simp [ROLE_STRING, PB_ROLE, BA_ROLE]
  have hparsed' : readClaims claims.role (claimsPayload claims) = .ok claims' :=
    readClaims_eq_ok.2 ⟨hread.symm, hrole, h'⟩
  rw [hparsed] at hparsed'
  exact Except.ok.inj hparsed'

/-- The proofs the scan finds are values of the raw headers. -/
theorem proofs_of_scanHeader (scan : HopScan) (header : String × String) :
    (∀ proof ∈ (scan.scanHeader header).pb, proof ∈ scan.pb ∨ proof = header.2) ∧
      ∀ proof ∈ (scan.scanHeader header).ba, proof ∈ scan.ba ∨ proof = header.2 := by
  unfold HopScan.scanHeader
  dsimp only
  split
  · split_ifs
    · exact ⟨fun _ => .inl, fun _ => .inl⟩
    · split <;> exact ⟨fun _ => .inl, fun _ => .inl⟩
  case h_5 =>
    split_ifs
    · exact ⟨fun proof h => (List.mem_append.1 h).imp_right List.mem_singleton.1, fun _ => .inl⟩
    · exact ⟨fun _ => .inl, fun proof h => (List.mem_append.1 h).imp_right List.mem_singleton.1⟩
  all_goals exact ⟨fun _ => .inl, fun _ => .inl⟩

theorem proofs_of_scan (rawHeaders : List (String × String)) (method : String) :
    (∀ proof ∈ (scanHopHeaders rawHeaders method).pb, ∃ header ∈ rawHeaders, header.2 = proof) ∧
      ∀ proof ∈ (scanHopHeaders rawHeaders method).ba, ∃ header ∈ rawHeaders, header.2 = proof := by
  have hfold (scan : HopScan) :
      (∀ proof ∈ (rawHeaders.foldl HopScan.scanHeader scan).pb,
        proof ∈ scan.pb ∨ ∃ header ∈ rawHeaders, header.2 = proof) ∧
      ∀ proof ∈ (rawHeaders.foldl HopScan.scanHeader scan).ba,
        proof ∈ scan.ba ∨ ∃ header ∈ rawHeaders, header.2 = proof := by
    induction rawHeaders generalizing scan with
    | nil => exact ⟨fun _ => .inl, fun _ => .inl⟩
    | cons header rawHeaders ih =>
      obtain ⟨hpb, hba⟩ := ih (scan.scanHeader header)
      obtain ⟨hpb', hba'⟩ := proofs_of_scanHeader scan header
      have hlater {proof : String} (h : ∃ header' ∈ rawHeaders, header'.2 = proof) :
          ∃ header' ∈ header :: rawHeaders, header'.2 = proof :=
        h.imp fun header' h => ⟨List.mem_cons_of_mem header h.1, h.2⟩
      refine ⟨fun proof h => ?_, fun proof h => ?_⟩
      · rcases hpb proof h with h | h
        · exact (hpb' proof h).imp_right fun heq => ⟨header, List.mem_cons_self, heq.symm⟩
        · exact .inr (hlater h)
      · rcases hba proof h with h | h
        · exact (hba' proof h).imp_right fun heq => ⟨header, List.mem_cons_self, heq.symm⟩
        · exact .inr (hlater h)
  exact ⟨fun proof h => ((hfold {}).1 proof h).resolve_left (by simp),
    fun proof h => ((hfold {}).2 proof h).resolve_left (by simp)⟩

theorem theOne_eq_ok {headers : List String} {missing duplicate : Refused} {header : String}
    (h : theOne headers missing duplicate = .ok header) : headers = [header] := by
  unfold theOne at h
  split at h <;> cases h
  rfl

/-- What the checks of a request, which read no key, say of it. -/
structure Presented (P : Platform) (config : AdmissionConfig) (request : AdmissionRequest)
    (c : Checked) : Prop where
  own : ∃ header ∈ request.rawHeaders, header.2 = c.ownHeader
  pb : ∃ header ∈ request.rawHeaders, header.2 = c.pbHeader
  decoded : decodeProof P c.ownHeader config.role = .ok c.decoded
  same : config.role = .pb → c.ownHeader = c.pbHeader
  method : request.method = c.decoded.claims.request.method
  url : request.url = c.decoded.claims.request.target
  headers : ClosedHeaders request.rawHeaders c.decoded.claims.request.pairs

theorem presented_of_precheck {config : AdmissionConfig} {fenceMs nowMs : ℚ}
    {request : AdmissionRequest} {c : Checked}
    (h : precheck P config fenceMs nowMs request = .ok c) : Presented P config request c := by
  simp only [precheck, bind_eq_ok, ensure_eq_ok, noReason_eq_ok, mapError_eq_ok, exists_const] at h
  obtain ⟨own, hown, -, pbHeader, hpb, hviolation, decoded, hdecode, -, hmethod, hurl, hpairs, -, hc⟩ :=
    h
  cases hc
  obtain ⟨hpbs, hbas⟩ := proofs_of_scan request.rawHeaders request.method
  have hone := theOne_eq_ok hown
  have hone' := theOne_eq_ok hpb
  refine ⟨?_, hpbs pbHeader (by rw [hone']; exact List.mem_singleton_self _), hdecode, fun hrole => ?_,
    hmethod, hurl, hpairs ▸ closedHeaders_of_scan hviolation⟩
  · split_ifs at hone
    · exact hpbs own (by rw [hone]; exact List.mem_singleton_self _)
    · exact hbas own (by rw [hone]; exact List.mem_singleton_self _)
  · rw [if_pos hrole, hone', List.singleton_inj] at hone
    exact hone.symm

/-- The claims of a request that was verified, proof by proof. -/
structure Authentic (P : Platform) (own plane : Key) (role : HopRole) (request : AdmissionRequest)
    (verified : Verified) : Prop where
  headers : ClosedHeaders request.rawHeaders verified.claims.request.pairs
  method : request.method = verified.claims.request.method
  url : request.url = verified.claims.request.target
  own : ∃ header ∈ request.rawHeaders, ∃ decoded, decodeProof P header.2 role = .ok decoded ∧
    verifyProofSignature P role decoded own = true ∧ decoded.claims = verified.claims
  plane : ∃ header ∈ request.rawHeaders, ∃ decoded, decodeProof P header.2 .pb = .ok decoded ∧
    verifyProofSignature P .pb decoded plane = true ∧ decoded.claims = verified.pb.claims ∧
    header.2 = verified.pb.header
  lineage : role = .ba →
    verified.claims.parent = some ⟨verified.pb.claims.jti, P.sha256B64 (asciiBytes verified.pb.header)⟩ ∧
      verified.claims.request = verified.pb.claims.request
  same : role = .pb → verified.pb.claims = verified.claims

theorem authentic_of_verifies {config : AdmissionConfig} {fenceMs nowMs : ℚ} {W : ℚ → Prop}
    {request : AdmissionRequest} {verified : Verified}
    (h : Verifies P config fenceMs W nowMs request verified) :
    Authentic P config.ownKey config.keyP config.role request verified := by
  obtain ⟨-, c, hc, ha⟩ := h
  have hp := presented_of_precheck hc
  obtain ⟨header, hmem, hown⟩ := hp.own
  cases config with
  | pb keyP kidP boundaryId =>
    simp only [authenticate, bind_eq_ok, ensure_eq_ok, exists_const] at ha
    obtain ⟨hsignature, ha⟩ := ha
    cases ha
    have hdecode : decodeProof P header.2 .pb = .ok c.decoded := hown ▸ hp.decoded
    exact ⟨hp.headers, hp.method, hp.url, ⟨header, hmem, c.decoded, hdecode, hsignature, rfl⟩,
      ⟨header, hmem, c.decoded, hdecode, hsignature, rfl, hown⟩, fun h => (by cases h), fun _ => rfl⟩
  | ba keyB kidB keyP kidP appId boundaryId =>
    simp only [authenticate, bind_eq_ok, ensure_eq_ok, noReason_eq_ok, mapError_eq_ok,
      exists_const] at ha
    obtain ⟨hsignature, lineage, hlineage, -, ⟨hparent, -, -, hrequest⟩, hpb, ha⟩ := ha
    cases ha
    obtain ⟨header', hmem', hpbHeader⟩ := hp.pb
    exact ⟨hp.headers, hp.method, hp.url,
      ⟨header, hmem, c.decoded, hown ▸ hp.decoded, hsignature, rfl⟩,
      ⟨header', hmem', lineage, hpbHeader ▸ hlineage, hpb, rfl, hpbHeader⟩,
      fun _ => ⟨hparent, hrequest⟩, fun h => by cases h⟩

/-- What a request is admitted with. -/
theorem conclude_eq_ok {role : HopRole} {request : AdmissionRequest} {verified : Verified}
    {body : List UInt8} {a : Admitted}
    (h : Verifier.conclude P role request verified (.complete body) = .ok a) :
    a.claims = verified.claims ∧ a.pb = verified.pb ∧ a.request = verified.claims.request ∧
      a.body = body ∧ (verified.claims.request.bodyLen ≠ 0 →
        P.sha256B64 body = verified.claims.request.bodySha256) := by
  by_cases hdigest : (if verified.claims.request.bodyLen = 0 then EMPTY_BODY_SHA256
      else P.sha256B64 body) ≠ verified.claims.request.bodySha256
  · simp only [Verifier.conclude, if_pos hdigest] at h
    cases h
  simp only [Verifier.conclude, if_neg hdigest] at h
  by_cases hcross : (request.crossCheck.any fun check => !check verified.claims.request) = true
  · rw [if_pos hcross] at h
    cases h
  rw [if_neg hcross] at h
  obtain rfl := Except.ok.inj h
  refine ⟨rfl, rfl, rfl, rfl, fun hne => ?_⟩
  have heq := not_not.1 hdigest
  rwa [if_neg hne] at heq

/-! ## The invariant -/

namespace Chain

variable {c : Parties P} {s : Chain c}

/-- What holds in every state of a run. -/
structure Inv (ops : List (ChainOp c)) (s : Chain c) : Prop where
  boundary : History P c.boundaryConfig c.boundaryFenceMs
    (fun _ request _ => s.Unforged request.rawHeaders) s.boundary
  app : History P c.appConfig c.appFenceMs (fun i request nowMs =>
    s.Unforged request.rawHeaders ∧ (begun (appOps ops))[i]? = some (request, nowMs)) s.app
  opened : (begun (appOps ops)).length = s.app.calls.length
  relayed : ∀ entry ∈ s.relayed, ∃ a iat random, s.boundary.admittedAt entry.1 = some a ∧
    entry.2 = baClaims P c.boundary a.pb iat (newId random) ∧ entry.2.WellFormed
  once : (s.relayed.map Prod.fst).Nodup

theorem Unforged.mono {s' : Chain c} {rawHeaders : List (String × String)}
    (h : s.Unforged rawHeaders) (hsigned : ∀ role, s.signed role ⊆ s'.signed role) :
    s'.Unforged rawHeaders := by
  intro header hmem role decoded hdecode hverify
  obtain ⟨claims, hclaims, hpayload⟩ := h header hmem role decoded hdecode hverify
  exact ⟨claims, hsigned role hclaims, hpayload⟩

/-- What was signed is well-formed. -/
theorem Inv.wellFormed {ops : List (ChainOp c)} (h : Inv ops s) {role : HopRole} {claims : Claims}
    (hmem : claims ∈ s.signed role) : claims.WellFormed := by
  cases role with
  | pb =>
    obtain ⟨record, -, rfl⟩ := List.mem_map.1 hmem
    exact record.wellFormed
  | ba =>
    obtain ⟨entry, hentry, rfl⟩ := List.mem_map.1 hmem
    obtain ⟨a, iat, random, -, -, hwell⟩ := h.relayed entry hentry
    exact hwell

/-- **A proof that is not forged has claims that were signed.** -/
theorem Inv.claims_mem {ops : List (ChainOp c)} (hP : ReadsJson P) (h : Inv ops s)
    {rawHeaders : List (String × String)} (hunforged : s.Unforged rawHeaders)
    {header : String × String} (hmem : header ∈ rawHeaders) {role : HopRole} {decoded : Decoded}
    (hdecode : decodeProof P header.2 role = .ok decoded)
    (hverify : verifyProofSignature P role decoded (c.keyOf role) = true) :
    decoded.claims ∈ s.signed role := by
  obtain ⟨claims, hclaims, hpayload⟩ := hunforged header hmem role decoded hdecode hverify
  obtain ⟨-, -, -, hown, -, hwell⟩ := (decodeProof_eq_ok hP).1 hdecode
  rwa [payloadOf_injective hP hwell (h.wellFormed hclaims) (hown.symm.trans hpayload)]

/-- The boundary admitted what the plane signed. -/
theorem Inv.boundary_admitted {ops : List (ChainOp c)} (hP : ReadsJson P) (h : Inv ops s) {k : ℕ}
    {a : Admitted} (hk : s.boundary.admittedAt k = some a) :
    a.claims ∈ s.signed .pb ∧ a.pb.claims = a.claims ∧ a.claims.WellFormed := by
  obtain ⟨r, hcall⟩ := admittedAt_eq_some.1 hk
  obtain ⟨request, nowMs, hunforged, hverifies, body, -, hconclude⟩ := h.boundary k _ hcall
  obtain ⟨hclaims, hpb, -⟩ := conclude_eq_ok hconclude
  have hauthentic := authentic_of_verifies hverifies
  obtain ⟨header, hmem, decoded, hdecode, hverify, heq⟩ := hauthentic.own
  obtain ⟨-, -, -, -, -, hwell⟩ := (decodeProof_eq_ok hP).1 hdecode
  rw [hclaims, hpb, hauthentic.same rfl, ← heq]
  exact ⟨h.claims_mem hP hunforged hmem hdecode hverify, rfl, hwell⟩

theorem inv_new (boundaryCapacity appCapacity : ℕ) :
    Inv [] (new c boundaryCapacity appCapacity) where
  boundary := history_new boundaryCapacity
  app := history_new appCapacity
  opened := rfl
  relayed _ h := by cases h
  once := List.nodup_nil

theorem appOps_snoc (ops : List (ChainOp c)) (op : ChainOp c) :
    appOps (ops ++ [op]) = appOps ops ++ appOps [op] := by
  rw [appOps, List.filterMap_append]
  rfl

theorem begun_append (ops ops' : List Verifier.Op) : begun (ops ++ ops') = begun ops ++ begun ops' := by
  rw [begun, List.filterMap_append]
  rfl

/-- The relay does nothing, or signs for a call the boundary admitted and has not signed for. -/
theorem relay_cases (s : Chain c) (k iat : ℕ) (random : Vector UInt8 16) :
    s.relay k iat random = s ∨
      ∃ a, s.boundary.admittedAt k = some a ∧ k ∉ s.relayed.map Prod.fst ∧
        s.relay k iat random = { s with relayed :=
          s.relayed ++ [(k, baClaims P c.boundary a.pb iat (newId random))] } := by
  cases hk : s.boundary.admittedAt k with
  | none => exact .inl (by rw [relay, hk])
  | some a =>
    by_cases hdone : (s.relayed.any fun entry => entry.1 = k) = true
    · exact .inl (by simp only [relay, hk, if_pos hdone])
    cases hissue : issueBa c.signer c.boundary a.pb iat random with
    | error => exact .inl (by simp only [relay, hk, if_neg hdone, hissue])
    | ok issued =>
      obtain ⟨-, rfl⟩ := issueBa_eq_ok.1 hissue
      refine .inr ⟨a, rfl, fun hmem => ?_, by simp only [relay, hk, if_neg hdone, hissue]⟩
      obtain ⟨entry, hentry, rfl⟩ := List.mem_map.1 hmem
      exact hdone (List.any_eq_true.2 ⟨entry, hentry, by simp⟩)

/-- What was signed stays signed. -/
theorem signed_step (s : Chain c) (op : ChainOp c) (role : HopRole) :
    s.signed role ⊆ (s.step op).signed role := by
  cases op with
  | approve record =>
    cases role with
    | pb =>
      rw [step, signed, signed, List.map_append]
      exact List.subset_append_left _ _
    | ba => exact List.Subset.refl _
  | relay k iat random =>
    rw [step]
    obtain heq | ⟨a, -, -, heq⟩ := s.relay_cases k iat random
    · rw [heq]
      exact List.Subset.refl _
    · rw [heq]
      cases role with
      | pb => exact List.Subset.refl _
      | ba =>
        rw [signed, signed, List.map_append]
        exact List.subset_append_left _ _
  | boundary | app => cases role <;> exact List.Subset.refl _

/-- A step of another party leaves what the app rests on alone. -/
theorem Inv.appHistory {ops : List (ChainOp c)} (h : Inv ops s) (op : ChainOp c)
    (happ : (s.step op).app = s.app) (hnone : appOps [op] = []) :
    History P c.appConfig c.appFenceMs (fun i request nowMs =>
        (s.step op).Unforged request.rawHeaders ∧
          (begun (appOps (ops ++ [op])))[i]? = some (request, nowMs)) (s.step op).app ∧
      (begun (appOps (ops ++ [op]))).length = (s.step op).app.calls.length := by
  rw [appOps_snoc, hnone, List.append_nil, happ]
  exact ⟨h.app.mono fun i request nowMs hr => ⟨hr.1.mono (s.signed_step op), hr.2⟩, h.opened⟩

theorem calls_length_step {config : AdmissionConfig} {fenceMs : ℚ} (v : Verifier)
    (op : Verifier.Op) :
    (Verifier.step P config fenceMs v op).1.calls.length = v.calls.length + (begun [op]).length := by
  obtain ⟨request, nowMs, rfl, hcalls⟩ | hcalls := calls_step P config fenceMs v op
  · rw [hcalls, List.length_append]
    rfl
  · cases op with
    | begin request nowMs =>
      rw [Verifier.step]
      cases precheck P config fenceMs nowMs request <;> simp [begun]
    | _ =>
      obtain hcalls | ⟨i, old, new, -, -, -, -, hcalls⟩ := hcalls <;> simp [hcalls, begun]

/-- **The invariant is kept** by every step that is allowed. -/
theorem Inv.step {ops : List (ChainOp c)} (hP : ReadsJson P) (h : Inv ops s) {op : ChainOp c}
    (hop : s.Allowed op) : Inv (ops ++ [op]) (s.step op) := by
  have hsigned := s.signed_step op
  cases op with
  | approve record =>
    obtain ⟨happ, hopened⟩ := h.appHistory (.approve record) rfl rfl
    exact ⟨h.boundary.mono fun i request nowMs hr => hr.mono hsigned, happ, hopened, h.relayed, h.once⟩
  | boundary op =>
    obtain ⟨happ, hopened⟩ := h.appHistory (.boundary op) rfl rfl
    refine ⟨h.boundary.step fun request nowMs hbegin => ?_, happ, hopened, fun entry hentry => ?_,
      h.once⟩
    · subst hbegin
      exact hop
    · obtain ⟨a, iat, random, hk, hrest⟩ := h.relayed entry hentry
      exact ⟨a, iat, random, admittedAt_step hk op, hrest⟩
  | relay k iat random =>
    obtain hstep | ⟨a, hk, hnew, hstep⟩ := s.relay_cases k iat random
    · obtain ⟨happ, hopened⟩ := h.appHistory (.relay k iat random) (congrArg Chain.app hstep) rfl
      rw [Chain.step, hstep] at happ hopened ⊢
      exact ⟨h.boundary, happ, hopened, h.relayed, h.once⟩
    obtain ⟨happ, hopened⟩ := h.appHistory (.relay k iat random) (by rw [Chain.step, hstep]) rfl
    rw [Chain.step, hstep] at happ hopened hsigned ⊢
    refine ⟨h.boundary.mono fun i request nowMs hr => hr.mono hsigned, happ, hopened,
      fun entry hentry => ?_, ?_⟩
    · rcases List.mem_append.1 hentry with hentry | hentry
      · exact h.relayed entry hentry
      · obtain ⟨-, hpb, hwell⟩ := h.boundary_admitted hP hk
        rw [List.mem_singleton.1 hentry]
        exact ⟨a, iat, random, hk, rfl,
          wellFormed_baClaims (hpb ▸ hwell) hop.1 hop.2.1 hop.2.2 random⟩
    · rw [List.map_append, List.map_singleton]
      exact h.once.append (List.nodup_singleton _) (List.disjoint_singleton.2 hnew)
  | app op =>
    have hops : appOps (ops ++ [.app op]) = appOps ops ++ [op] := appOps_snoc ops (.app op)
    refine ⟨h.boundary, ?_, ?_, h.relayed, h.once⟩
    · rw [hops, begun_append]
      have hgrown : History P c.appConfig c.appFenceMs (fun i request nowMs =>
          s.Unforged request.rawHeaders ∧
            (begun (appOps ops) ++ begun [op])[i]? = some (request, nowMs)) s.app := by
        refine h.app.mono fun i request nowMs hr => ⟨hr.1, ?_⟩
        rw [List.getElem?_append_left (List.getElem?_eq_some_iff.1 hr.2).1]
        exact hr.2
      refine hgrown.step fun request nowMs hbegin => ?_
      subst hbegin
      refine ⟨hop, ?_⟩
      rw [← h.opened, List.getElem?_append_right le_rfl, Nat.sub_self]
      rfl
    · rw [hops, begun_append, List.length_append, h.opened]
      exact (calls_length_step s.app op).symm

theorem inv_run (hP : ReadsJson P) {boundaryCapacity appCapacity : ℕ} {ops : List (ChainOp c)}
    (h : ChainRun boundaryCapacity appCapacity ops s) : Inv ops s := by
  induction h with
  | nil => exact inv_new boundaryCapacity appCapacity
  | snoc _ op hop ih => exact ih.step hP hop

/-- The app of a run is the app on its own operations. -/
theorem app_run {boundaryCapacity appCapacity : ℕ} {ops : List (ChainOp c)}
    (h : ChainRun boundaryCapacity appCapacity ops s) :
    s.app = exec (Verifier.step P c.appConfig c.appFenceMs) { guard := { capacity := appCapacity } }
      (appOps ops) := by
  induction h with
  | nil => rfl
  | @snoc ops s _ op hop ih =>
    rw [appOps_snoc, exec_append, ← ih]
    cases op with
    | approve | boundary => rfl
    | app op => rfl
    | relay k iat random =>
      obtain hstep | ⟨a, -, -, hstep⟩ := s.relay_cases k iat random
      · exact congrArg Chain.app hstep
      · rw [Chain.step, hstep]
        rfl

/-! ## Agreement -/

/-- What an admission of the app rests on: an approval of the plane, an admission of the boundary, and
the boundary's proof for it. -/
structure Agreed (s : Chain c) (request : AdmissionRequest) (b : Admitted) (record : PlaneRecord c)
    (k : ℕ) (a : Admitted) : Prop where
  recorded : record ∈ s.plane
  headers : ClosedHeaders request.rawHeaders record.approval.approved.pairs
  method : request.method = record.layer.method
  url : request.url = record.layer.target
  approved : b.request = record.approval.approved
  represents : Represents P record.layer b.request
  length : b.body.length = (approvedBody record.layer).length
  digest : b.body ≠ [] → P.sha256B64 b.body = P.sha256B64 (approvedBody record.layer)
  lineage : b.pb.claims = record.claims
  admitted : s.boundary.admittedAt k = some a ∧ a.claims = record.claims
  relayed : (k, b.claims) ∈ s.relayed

/-- Records with one id are one record. -/
theorem record_eq {plane : List (PlaneRecord c)}
    (hids : (plane.map fun record => newId record.random).Nodup) {record record' : PlaneRecord c}
    (h : record ∈ plane) (h' : record' ∈ plane) (hjti : record.claims.jti = record'.claims.jti) :
    record = record' :=
  List.inj_on_of_nodup_map hids h h' hjti

theorem Inv.agreed {ops : List (ChainOp c)} (hP : ReadsJson P) (h : Inv ops s)
    (hids : (s.plane.map fun record => newId record.random).Nodup) {i : ℕ} {b : Admitted}
    (hi : s.app.admittedAt i = some b) :
    ∃ request nowMs record k a, (begun (appOps ops))[i]? = some (request, nowMs) ∧
      Agreed s request b record k a := by
  obtain ⟨r, hcall⟩ := admittedAt_eq_some.1 hi
  obtain ⟨request, nowMs, ⟨hunforged, hbegun⟩, hverifies, body, hlength, hconclude⟩ :=
    h.app i _ hcall
  obtain ⟨hclaims, hpb, hrequest, hbody, hdigest⟩ := conclude_eq_ok hconclude
  have hauthentic := authentic_of_verifies hverifies
  obtain ⟨hparent, hsame⟩ := hauthentic.lineage rfl
  -- the boundary's proof, and the call it was signed for
  obtain ⟨header, hmem, decoded, hdecode, hverify, heq⟩ := hauthentic.own
  have hown := h.claims_mem hP hunforged hmem hdecode hverify
  rw [heq] at hown
  obtain ⟨entry, hentry, hentryClaims⟩ := List.mem_map.1 hown
  obtain ⟨a, iat, random, hk, hba, -⟩ := h.relayed entry hentry
  obtain ⟨haMem, haPb, -⟩ := h.boundary_admitted hP hk
  obtain ⟨record', hrecord', haClaims⟩ := List.mem_map.1 haMem
  -- the plane's proof, and the approval it was signed for
  obtain ⟨header', hmem', decoded', hdecode', hverify', heq', -⟩ := hauthentic.plane
  have hplane := h.claims_mem hP hunforged hmem' hdecode' hverify'
  rw [heq'] at hplane
  obtain ⟨record, hrecord, hrecordClaims⟩ := List.mem_map.1 hplane
  have hjti : record'.claims.jti = record.claims.jti := by
    rw [hentryClaims] at hba
    rw [hba] at hparent
    have hparent := Option.some.inj hparent
    rw [haClaims, hrecordClaims, ← haPb]
    exact congrArg Parent.pbJti hparent
  obtain rfl := record_eq hids hrecord' hrecord hjti
  have happroved : r.verified.claims.request = record'.approval.approved := by
    rw [hsame, ← hrecordClaims]
    rfl
  have hrepresents := (semantic_of_buildApprovedRequest record'.built).2
  refine ⟨request, nowMs, record', entry.1, a, hbegun, hrecord', happroved ▸ hauthentic.headers, ?_, ?_,
    hrequest.trans happroved, ?_, ?_, ?_, hpb ▸ hrecordClaims.symm, ⟨hk, haClaims.symm⟩, ?_⟩
  · rw [hauthentic.method, happroved, hrepresents.method]
  · rw [hauthentic.url, happroved, hrepresents.target]
  · rw [hrequest, happroved]
    exact hrepresents
  · rw [hbody, hlength, happroved, hrepresents.bodyLen]
  · intro hne
    rw [hbody] at hne ⊢
    have hpos : r.verified.claims.request.bodyLen ≠ 0 := by
      rw [← hlength]
      exact fun hzero => hne (List.length_eq_zero_iff.1 hzero)
    rw [hdigest hpos, happroved, hrepresents.digest]
    refine if_pos (not_not.1 fun hget => hpos ?_)
    rw [happroved, hrepresents.bodyLen, approvedBody, if_neg hget]
    rfl
  · rw [hclaims, ← hentryClaims]
    exact hentry

/-- **Agreement.** In every run in which no signature is forged and the plane draws different ids,
whatever the app admits is, header for header, a request the plane approved, which the boundary
admitted and signed once for; its body has the length and the digest of the one approved. And as
long as the app's clocks agree to a second, no approval is admitted twice. -/
theorem chain_agreement (hP : ReadsJson P) {boundaryCapacity appCapacity : ℕ}
    {ops : List (ChainOp c)} (hrun : ChainRun boundaryCapacity appCapacity ops s)
    (hids : (s.plane.map fun record => newId record.random).Nodup) :
    (∀ i b, s.app.admittedAt i = some b →
      ∃ request nowMs record k a, (begun (appOps ops))[i]? = some (request, nowMs) ∧
        Agreed s request b record k a) ∧
    (s.relayed.map Prod.fst).Nodup ∧
    ∀ t, Verifier.Ticking t (appOps ops) → Verifier.Gapped s.app →
      ∀ i j b b', i ≠ j → s.app.admittedAt i = some b → s.app.admittedAt j = some b' →
        b.pb.claims.jti ≠ b'.pb.claims.jti := by
  have hinv := inv_run hP hrun
  refine ⟨fun i b hi => hinv.agreed hP hids hi, hinv.once, ?_⟩
  intro t hticking hgap i j b b' hne hi hj hjti
  obtain ⟨request, nowMs, record, k, a, -, hagreed⟩ := hinv.agreed hP hids hi
  obtain ⟨request', nowMs', record', k', a', -, hagreed'⟩ := hinv.agreed hP hids hj
  have hsame : b.pb.claims = b'.pb.claims := by
    rw [hagreed.lineage, hagreed'.lineage] at hjti ⊢
    rw [record_eq hids hagreed.recorded hagreed'.recorded hjti]
  have hkept := Verifier.kept_exec P c.appConfig c.appFenceMs appCapacity hticking
  rw [← app_run hrun] at hkept
  obtain ⟨r, hr, -, hpb⟩ := Verifier.reservationAt_of_admittedAt hkept.traced hi
  obtain ⟨r', hr', -, hpb'⟩ := Verifier.reservationAt_of_admittedAt hkept.traced hj
  have hgenuine {k : ℕ} {r : Reservation} (hk : s.app.reservationAt k = some r) :
      Genuine P c.appConfig c.appFenceMs r.nowMs r.verified := by
    obtain ⟨call, hcall, hreservation⟩ := Option.bind_eq_some_iff.1 hk
    exact (hkept.traced call (List.mem_of_getElem? hcall)).genuine hreservation
  have hwindow := (hgenuine hr).planeWindow
  have hwindow' := (hgenuine hr').planeWindow
  rw [hpb, hpb'] at hsame
  have hspan := abs_sub_le_of_inWindow hwindow hwindow' (congrArg Claims.iat hsame)
    (congrArg Claims.exp hsame)
  rw [(hgenuine hr).plane.role] at hspan
  refine absurd (hgap r (Verifier.mem_reservations hr) r' (Verifier.mem_reservations hr')) (not_lt.2 ?_)
  refine Verifier.not_gapped_of_want hkept hne hr hr' (parentWant_mem r.verified)
    (parentWant_mem r'.verified) ?_ rfl ?_
  · rw [parentWant, parentWant, hsame]
  · rw [parentWant]
    push_cast at hspan ⊢
    linarith

end Chain

end Limitmark.Hop
