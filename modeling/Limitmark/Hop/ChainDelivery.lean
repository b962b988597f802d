import Limitmark.Hop.HopChain
import Limitmark.Hop.ReplayCounters

/-!
# Delivery along the hop chain

A request the plane approves arrives. What a hop emits passes the checks of the next one while its
proofs are in their windows (`precheck_hop`), whatever other calls do in between
(`admittedAt_delivered`), and the app acts on the facts of the request the plane approved
(`chain_delivers`). The one thing that can be lost is a request whose proof is too long.
-/

namespace Limitmark.Hop

open Limitmark.Defense Limitmark.Plane Limitmark.Foundations

/-! ## The request a hop sends -/

/-- The runtime's merged view of a header that occurs once. -/
def mergedHeader (rawHeaders : List (String × String)) (name : String) : Option String :=
  (rawHeaders.find? fun header => header.1.toLower = name).map Prod.snd

/-- The runtime's view of the bound headers is that of the claims. -/
def crossCheck (rawHeaders : List (String × String)) (claims : RequestClaims) : Bool :=
  (claims.pairs.all fun pair => mergedHeader rawHeaders pair.1 = some pair.2) &&
    BOUND_HEADER_NAMES.all fun name =>
      (mergedHeader rawHeaders name).isNone || claims.pairs.any fun pair => pair.1 = name

/-- A request as a verifier receives it from the hop before. -/
def hopRequest (request : RequestClaims) (ba : Option String) (pb connection : String) :
    AdmissionRequest where
  method := request.method
  url := request.target
  rawHeaders := hopHeaders request ba pb connection
  crossCheck := some (crossCheck (hopHeaders request ba pb connection))

/-- The headers about the bound ones have other names. -/
theorem find?_rest {request : RequestClaims} {ba : Option String} {pb connection name : String}
    (h : BOUND_HEADER_NAMES.contains name = true) :
    ((if request.method = "POST" then [("content-length", toString request.bodyLen)] else []) ++
      (ba.map fun header => (HOP_BA_HEADER, header)).toList ++
      [(HOP_PB_HEADER, pb), ("Connection", connection)]).find?
        (fun header => header.1.toLower = name) = none := by
  have hlength : ¬ "content-length".toLower = name := by
    rintro rfl
    revert h
    decide +kernel
  have hba : ¬ HOP_BA_HEADER.toLower = name := by
    rintro rfl
    revert h
    decide +kernel
  have hpb : ¬ HOP_PB_HEADER.toLower = name := by
    rintro rfl
    revert h
    decide +kernel
  have hconnection : ¬ "Connection".toLower = name := by
    rintro rfl
    revert h
    decide +kernel
  rw [List.find?_eq_none]
  intro header hmem
  rw [decide_eq_true_eq]
  rcases List.mem_append.1 hmem with hmem | hmem
  · rcases List.mem_append.1 hmem with hmem | hmem
    · split_ifs at hmem
      · rwa [List.mem_singleton.1 hmem]
      · cases hmem
    · obtain ⟨proof, -, rfl⟩ := Option.map_eq_some_iff.1 (Option.mem_toList.1 hmem)
      exact hba
  · rcases List.mem_cons.1 hmem with rfl | hmem
    · exact hpb
    · rwa [List.mem_singleton.1 hmem]

/-- The merged view of a bound header is its pair. -/
theorem mergedHeader_hopHeaders {request : RequestClaims} (h : Bound request.pairs)
    (ba : Option String) (pb connection : String) {name : String}
    (hname : BOUND_HEADER_NAMES.contains name = true) :
    mergedHeader (hopHeaders request ba pb connection) name = valueOf request.pairs name := by
  have hpairs : request.pairs.find? (fun header => header.1.toLower = name) =
      request.pairs.find? fun header => header.1 = name := by
    refine List.find?_congr fun pair hpair => ?_
    rw [toLower_of_mem (h.mem pair hpair).1]
  rw [mergedHeader, hopHeaders, semanticWireHeaders, List.append_assoc, List.append_assoc,
    List.find?_append, hpairs, ← List.append_assoc, find?_rest hname, Option.or_none]
  rfl

theorem crossCheck_hopHeaders {request : RequestClaims} (h : Bound request.pairs)
    (ba : Option String) (pb connection : String) :
    crossCheck (hopHeaders request ba pb connection) request = true := by
  rw [crossCheck, Bool.and_eq_true, List.all_eq_true, List.all_eq_true]
  constructor
  · intro pair hpair
    rw [decide_eq_true_eq, mergedHeader_hopHeaders h ba pb connection (h.mem pair hpair).1]
    exact (valueOf_eq_some h.named).2 hpair
  · intro name hname
    rw [mergedHeader_hopHeaders h ba pb connection (List.contains_iff_mem.2 hname), valueOf]
    cases hfind : request.pairs.find? fun pair => pair.1 = name with
    | none => rfl
    | some pair =>
      rw [Bool.or_eq_true, List.any_eq_true]
      exact .inr ⟨pair, List.mem_of_find?_eq_some hfind, by simpa using List.find?_some hfind⟩

/-! ## The checks of the next hop -/

variable {P : Platform}

/-- The proofs a role expects: the plane's alone at the boundary, both at the app. -/
def ownProof (role : HopRole) (ba : Option String) (pb : String) : Option String :=
  match role with
  | .pb => if ba = none then some pb else none
  | .ba => ba

/-- **What a hop emits passes the checks of the next** while its own proof is in its window. -/
theorem precheck_hop {config : AdmissionConfig} {fenceMs nowMs : ℚ} {decoded : Decoded}
    {own pb connection : String} {ba : Option String}
    (hsemantic : decoded.claims.request.Semantic) (hconnection : IsConnection connection)
    (hown : ownProof config.role ba pb = some own)
    (hdecode : decodeProof P own config.role = .ok decoded)
    (hwindow : checkProofWindow decoded.claims (config.ownWindow nowMs fenceMs) = none) :
    precheck P config fenceMs nowMs (hopRequest decoded.claims.request ba pb connection) =
      .ok ⟨none, own, pb, decoded⟩ := by
  have hscan := scanHopHeaders_hopHeaders hsemantic hconnection ba pb
  have hsorted : decoded.claims.request.pairs.insertionSort (fun a b => a.1 ≤ b.1) =
      decoded.claims.request.pairs :=
    ((pairwise_of_ascending hsemantic.pairs).1.imp fun hlt => hlt.le).insertionSort_eq
  simp only [precheck, hopRequest, hscan, bind_eq_ok, ensure_eq_ok, noReason_eq_ok, mapError_eq_ok,
    exists_const]
  refine ⟨own, ?_, ?_, pb, rfl, rfl, decoded, hdecode, hwindow, rfl, rfl, hsorted, ?_, rfl⟩
  · cases hrole : config.role with
    | pb =>
      rw [hrole, ownProof] at hown
      split_ifs at hown
      obtain rfl := Option.some.inj hown
      rfl
    | ba =>
      rw [hrole, ownProof] at hown
      rw [hown]
      rfl
  · intro hrole
    rw [hrole, ownProof] at hown
    split_ifs at hown with hnone
    rw [hnone]
    rfl
  · intro hpost
    rw [lengthsOf, if_pos hpost]
    exact (contentLength?_toString hsemantic.length).2

/-- The boundary verifies what the plane issued. -/
theorem verifies_boundary {keyP : Key} {kidP boundaryId header connection : String}
    {fenceMs nowMs : ℚ} (decoded : Decoded) (hsemantic : decoded.claims.request.Semantic)
    (hconnection : IsConnection connection) (hdecode : decodeProof P header .pb = .ok decoded)
    (hverify : verifyProofSignature P .pb decoded keyP = true)
    (hids : decoded.claims.kid = kidP ∧ decoded.claims.aud = boundaryId)
    (hwindow : InWindow decoded.claims nowMs fenceMs) :
    Verifies P (.pb keyP kidP boundaryId) fenceMs (fun _ => True) nowMs
      (hopRequest decoded.claims.request none header connection)
      ⟨decoded.claims, ⟨decoded.claims, header⟩, decoded.claims.corr⟩ := by
  have hown : ownProof .pb none header = some header := by simp [ownProof]
  refine ⟨trivial, _, precheck_hop hsemantic hconnection hown hdecode
    (checkProofWindow_eq_none.2 ⟨hids.1, hids.2, hwindow⟩), ?_⟩
  simp only [authenticate, bind_eq_ok]
  exact ⟨(), (ensure_eq_ok _ _ _).2 hverify, rfl⟩

/-- The app verifies what the boundary issued for a proof of the plane's. -/
theorem verifies_app {keyB keyP : Key} {kidB kidP appId boundaryId header pbHeader connection : String}
    {fenceMs nowMs : ℚ} (decoded lineage : Decoded)
    (hsemantic : decoded.claims.request.Semantic) (hconnection : IsConnection connection)
    (hdecode : decodeProof P header .ba = .ok decoded)
    (hlineage : decodeProof P pbHeader .pb = .ok lineage)
    (hverify : verifyProofSignature P .ba decoded keyB = true)
    (hverify' : verifyProofSignature P .pb lineage keyP = true)
    (hids : decoded.claims.kid = kidB ∧ decoded.claims.aud = appId)
    (hids' : lineage.claims.kid = kidP ∧ lineage.claims.aud = boundaryId)
    (hparent : decoded.claims.parent =
        some ⟨lineage.claims.jti, P.sha256B64 (asciiBytes pbHeader)⟩ ∧
      decoded.claims.hop = lineage.claims.hop ∧ decoded.claims.corr = lineage.claims.corr ∧
      decoded.claims.request = lineage.claims.request)
    (hwindow : InWindow decoded.claims nowMs fenceMs)
    (hwindow' : InWindow lineage.claims nowMs fenceMs) :
    Verifies P (.ba keyB kidB keyP kidP appId boundaryId) fenceMs (fun _ => True) nowMs
      (hopRequest decoded.claims.request (some header) pbHeader connection)
      ⟨decoded.claims, ⟨lineage.claims, pbHeader⟩, decoded.claims.corr⟩ := by
  refine ⟨trivial, _, precheck_hop hsemantic hconnection rfl hdecode
    (checkProofWindow_eq_none.2 ⟨hids.1, hids.2, hwindow⟩), ?_⟩
  simp only [authenticate, bind_eq_ok, ensure_eq_ok, noReason_eq_ok, mapError_eq_ok, exists_const]
  exact ⟨hverify, lineage, hlineage, checkProofWindow_eq_none.2 ⟨hids'.1, hids'.2, hwindow'⟩, hparent,
    hverify', rfl⟩

/-! ## Delivery at one verifier -/

/-- Ids that a guard has not seen and has room for. -/
structure ReplayGuard.Fresh (g : ReplayGuard) (requests : List ReserveRequest) : Prop where
  absent : ∀ request ∈ requests, g.entries.lookup request.key = none
  room : g.entries.size + requests.length ≤ g.capacity

/-- Fresh ids are reserved. -/
theorem ReplayGuard.Fresh.reserve {g : ReplayGuard} {requests : List ReserveRequest}
    (h : g.Fresh requests) (hnodup : (requests.map ReserveRequest.key).Nodup) (now : ℚ) :
    (g.reserve now requests).2 = .ok { keys := requests.map ReserveRequest.key } := by
  have habsent : ¬ (requests.any fun request =>
      ((g.due now requests.length).entries.lookup request.key).isSome) = true := by
    rw [List.any_eq_true]
    rintro ⟨request, hmem, hsome⟩
    obtain ⟨entry, hentry⟩ := Option.isSome_iff_exists.1 hsome
    have hold := lookup_of_lookup_due hentry
    rw [h.absent request hmem] at hold
    cases hold
  have hroom : ¬ (g.due now requests.length).capacity <
      (g.due now requests.length).entries.size + requests.length := by
    have hsize : (g.due now requests.length).entries.size ≤ g.entries.size := by
      unfold due
      split_ifs
      · exact (Table.size_keep (kept now) g.entries).trans_le (Table.tally_le_size _ _)
      · exact le_rfl
    rw [due_capacity]
    have := h.room
    omega
  unfold due at habsent hroom
  rw [ReplayGuard.reserve]
  dsimp only
  rw [if_neg habsent, if_neg (not_not.2 hnodup), if_neg hroom]

/-- When a request is handled, in what chunks its body arrives, and what other operations there are
before its reservation and before its body has been read. -/
structure Schedule where
  nowMs : ℚ
  mono : ℚ
  before : List Verifier.Op := []
  after : List Verifier.Op := []
  chunks : List (List UInt8) := []

namespace Schedule

/-- The operations up to the reservation. -/
def opening (t : Schedule) (request : AdmissionRequest) : List Verifier.Op :=
  .begin request t.nowMs :: t.before

/-- The operations of a request that becomes call `i`. -/
def ops (t : Schedule) (request : AdmissionRequest) (i : ℕ) : List Verifier.Op :=
  t.opening request ++
    (.verify i t.mono :: (t.after ++ [.body i (t.chunks.map .data ++ [.finished])]))

/-- The other operations are about other calls. -/
def Others (t : Schedule) (i : ℕ) : Prop := ∀ op ∈ t.before ++ t.after, op.call ≠ some i

end Schedule

theorem readBody_chunks {expected : ℕ} {acc : List UInt8} {chunks : List (List UInt8)}
    (h : (acc ++ chunks.flatten).length = expected) :
    readBody expected acc (chunks.map .data ++ [.finished]) = .complete (acc ++ chunks.flatten) := by
  induction chunks generalizing acc with
  | nil =>
    rw [List.flatten_nil, List.append_nil] at h ⊢
    exact if_pos h
  | cons chunk chunks ih =>
    rw [List.flatten_cons, ← List.append_assoc] at h ⊢
    rw [List.map_cons, List.cons_append, readBody, if_neg, ih h]
    rw [List.length_append] at h
    omega

/-- **A verified request is admitted**, whatever other calls do in between, if its ids are fresh when
they are reserved and its body arrives. -/
theorem admittedAt_delivered {config : AdmissionConfig} {fenceMs : ℚ} {v : Verifier}
    {t : Schedule} {request : AdmissionRequest} {verified : Verified} {a : Admitted}
    (hverifies : Verifies P config fenceMs (fun _ => True) t.nowMs request verified)
    (hle : verified.claims.request.bodyLen ≤ MAX_SEMANTIC_BODY)
    (hlength : t.chunks.flatten.length = verified.claims.request.bodyLen)
    (hconclude : Verifier.conclude P config.role request verified (.complete t.chunks.flatten) =
      .ok a)
    (hothers : t.Others v.calls.length)
    (hfresh : (exec (Verifier.step P config fenceMs) v (t.opening request)).guard.Fresh
      (wants config.role verified)) :
    (exec (Verifier.step P config fenceMs) v (t.ops request v.calls.length)).admittedAt
      v.calls.length = some a := by
  obtain ⟨-, c, hc, ha⟩ := hverifies
  have houtcome (r : Reservation) (hr : r.verified = verified) :
      Verifier.outcomeOf P config.role request r (.complete t.chunks.flatten) = .ok a :=
    mapError_eq_ok.2 (by rw [hr]; exact hconclude)
  have hbegin : (Verifier.step P config fenceMs v (.begin request t.nowMs)).1.calls[v.calls.length]? =
      some (.verifying request c t.nowMs) := by
    rw [Verifier.step, hc]
    exact List.getElem?_concat_length
  have hopen : (exec (Verifier.step P config fenceMs) v (t.opening request)).calls[v.calls.length]? =
      some (.verifying request c t.nowMs) := by
    rw [Schedule.opening, exec_cons]
    exact getElem?_exec_of_others hbegin fun op hop => hothers op (List.mem_append_left _ hop)
  have hreserve := hfresh.reserve (Verifier.nodup_wants config.role verified) t.mono
  rw [Schedule.ops, exec_append]
  generalize exec (Verifier.step P config fenceMs) v (t.opening request) = w at hopen hreserve ⊢
  rw [exec_cons, exec_append]
  have hlt : v.calls.length < w.calls.length := (List.getElem?_eq_some_iff.1 hopen).1
  have hafter (u : Verifier) (call : CallState) (hu : u.calls[v.calls.length]? = some call) :
      (exec (Verifier.step P config fenceMs) u t.after).calls[v.calls.length]? = some call :=
    getElem?_exec_of_others hu fun op hop => hothers op (List.mem_append_right _ hop)
  have hverify : (Verifier.step P config fenceMs w (.verify v.calls.length t.mono)).1 =
      w.verify P config fenceMs v.calls.length t.mono request c t.nowMs := by
    rw [Verifier.step]
    simp only [hopen]
  rw [Verifier.verify, ha] at hverify
  dsimp only at hverify
  rw [hreserve] at hverify
  dsimp only at hverify
  rw [if_neg (not_lt.2 hle)] at hverify
  by_cases hempty : verified.claims.request.bodyLen = 0
  · have hnil : t.chunks.flatten = [] := List.length_eq_zero_iff.1 (hlength.trans hempty)
    have hadmitted : (Verifier.step P config fenceMs w (.verify v.calls.length t.mono)).1.calls[
        v.calls.length]? = some (.admitted ⟨verified, t.nowMs, t.mono⟩ a) := by
      have hread := houtcome ⟨verified, t.nowMs, t.mono⟩ rfl
      rw [hnil] at hread
      rw [hverify, if_pos hempty, hread]
      exact List.getElem?_set_self hlt
    have hstays := hafter _ _ hadmitted
    exact admittedAt_eq_some.2 ⟨_, getElem?_step_of_closed hstays (fun h => h) _⟩
  · have hreading : ∃ ticket, (Verifier.step P config fenceMs w
        (.verify v.calls.length t.mono)).1.calls[v.calls.length]? =
          some (.reading request c.tag ⟨verified, t.nowMs, t.mono⟩ ticket) := by
      refine ⟨{ keys := (wants config.role verified).map ReserveRequest.key }, ?_⟩
      rw [hverify, if_neg hempty]
      exact List.getElem?_set_self hlt
    obtain ⟨ticket, hreading⟩ := hreading
    have hstays := hafter _ _ hreading
    have hread : readBody verified.claims.request.bodyLen [] (t.chunks.map .data ++ [.finished]) =
        .complete t.chunks.flatten := readBody_chunks hlength
    rw [exec_cons, exec_nil]
    generalize exec (Verifier.step P config fenceMs)
      (Verifier.step P config fenceMs w (.verify v.calls.length t.mono)).1 t.after = u at hstays ⊢
    have hlt' := (List.getElem?_eq_some_iff.1 hstays).1
    refine admittedAt_eq_some.2 ⟨⟨verified, t.nowMs, t.mono⟩, ?_⟩
    rw [Verifier.step]
    simp only [hstays, hread, houtcome ⟨verified, t.nowMs, t.mono⟩ rfl]
    exact List.getElem?_set_self hlt'

/-! ## Delivery along the chain -/

/-- What the app acts on. -/
structure Facts where
  method : String
  url : String
  contentType : Option String
  origin : Option String
  host : Option String
  body : Option (List UInt8)
  deriving DecidableEq, Repr

/-- The facts of an admission, from the verified claims. -/
def factsOf (a : Admitted) : Facts where
  method := a.claims.request.method
  url := a.claims.request.target
  contentType := valueOf a.claims.request.pairs "content-type"
  origin := valueOf a.claims.request.pairs "origin"
  host := valueOf a.claims.request.pairs "host"
  body := if a.claims.request.method = "POST" then some a.body else none

/-- The facts of a request as the layers of the plane saw it. -/
def layerFacts (layer : LayerRequest) : Facts where
  method := layer.method
  url := layer.target
  contentType := valueOf (layer.headers.filterMap boundPair) "content-type"
  origin := valueOf (layer.headers.filterMap boundPair) "origin"
  host := valueOf (layer.headers.filterMap boundPair) "host"
  body := if layer.method = "POST" then some (approvedBody layer) else none

/-- A verifier handles a request as call `v.calls.length`: the ids it reserves are fresh then, and
this body arrives. -/
structure Schedule.Serves (P : Platform) (config : AdmissionConfig) (fenceMs : ℚ) (v : Verifier)
    (t : Schedule) (request : AdmissionRequest) (ids : List ReserveRequest) (body : List UInt8) :
    Prop where
  others : t.Others v.calls.length
  fresh : (exec (Verifier.step P config fenceMs) v (t.opening request)).guard.Fresh ids
  body : t.chunks.flatten = body

/-- What the call of a request comes to. -/
def Schedule.outcome (P : Platform) (config : AdmissionConfig) (fenceMs : ℚ) (v : Verifier)
    (t : Schedule) (request : AdmissionRequest) : Option Admitted :=
  (exec (Verifier.step P config fenceMs) v (t.ops request v.calls.length)).admittedAt v.calls.length

/-- The body of a request is what its proof says. -/
structure Carries (P : Platform) (request : RequestClaims) (body : List UInt8) : Prop where
  length : body.length = request.bodyLen
  digest : (if request.bodyLen = 0 then EMPTY_BODY_SHA256 else P.sha256B64 body) = request.bodySha256

theorem Represents.carries {layer : LayerRequest} {approved : RequestClaims}
    (h : Represents P layer approved) (hempty : P.sha256B64 [] = EMPTY_BODY_SHA256) :
    Carries P approved (approvedBody layer) := by
  refine ⟨h.bodyLen.symm, ?_⟩
  rw [h.digest, h.bodyLen]
  by_cases hpost : layer.method = "POST"
  · rw [if_pos hpost]
    split_ifs with hzero
    · rw [List.length_eq_zero_iff.1 hzero, hempty]
    · rfl
  · rw [if_neg hpost, approvedBody, if_neg hpost]
    rfl

/-- The admission of a request whose body is what its proof says. -/
theorem outcome_of_verifies {config : AdmissionConfig} {fenceMs : ℚ} {v : Verifier} {t : Schedule}
    {verified : Verified} {ba : Option String} {pb connection : String} {body : List UInt8}
    (hsemantic : verified.claims.request.Semantic)
    (hverifies : Verifies P config fenceMs (fun _ => True) t.nowMs
      (hopRequest verified.claims.request ba pb connection) verified)
    (hserves : t.Serves P config fenceMs v (hopRequest verified.claims.request ba pb connection)
      (wants config.role verified) body) (hcarries : Carries P verified.claims.request body) :
    ∃ a, t.outcome P config fenceMs v (hopRequest verified.claims.request ba pb connection) = some a ∧
      a.claims = verified.claims ∧ a.request = verified.claims.request ∧ a.pb = verified.pb ∧
      a.body = body ∧ a.nonce = verified.claims.corr ∧ a.hop = verified.claims.hop := by
  obtain ⟨hothers, hfresh, rfl⟩ := hserves
  have hcross : ¬ ((hopRequest verified.claims.request ba pb connection).crossCheck.any
      fun check => !check verified.claims.request) = true := by
    simp [hopRequest, crossCheck_hopHeaders hsemantic.pairs.bound]
  have hconclude : Verifier.conclude P config.role
      (hopRequest verified.claims.request ba pb connection) verified (.complete t.chunks.flatten) =
        .ok { role := config.role, nonce := verified.claims.corr, hop := verified.claims.hop
              pbTag := proofTag P "pb" verified.pb.claims.jti
              baTag := if config.role = .ba then some (proofTag P "ba" verified.claims.jti) else none
              claims := verified.claims, request := verified.claims.request
              body := t.chunks.flatten, pb := verified.pb } := by
    simp only [Verifier.conclude, if_neg (not_not.2 hcarries.digest), if_neg hcross]
  exact ⟨_, admittedAt_delivered hverifies hsemantic.length hcarries.length hconclude hothers hfresh,
    rfl, rfl, rfl, rfl, rfl, rfl⟩

theorem verify_decodedOf (S : Signer P) (claims : Claims) (privateKey : Key) :
    verifyProofSignature P claims.role (decodedOf S claims privateKey) (S.publicKey privateKey) =
      true := by
  have hverify := S.edVerify_edSign privateKey (asciiBytes (DOMAIN claims.role) ++ payloadOf claims)
  unfold verifyProofSignature decodedOf
  dsimp only
  assumption

/-- An issued proof that is not too long is decoded and verified. -/
theorem exists_decoded (hP : ReadsJson P) (S : Signer P) {claims : Claims} (h : claims.WellFormed)
    {role : HopRole} (hrole : claims.role = role) (privateKey : Key)
    (hle : (encodeEnvelope S.edSign claims privateKey).length ≤ HEADER_MAX role) :
    ∃ decoded, decodeProof P (encodeEnvelope S.edSign claims privateKey) role = .ok decoded ∧
      decoded.claims = claims ∧ verifyProofSignature P role decoded (S.publicKey privateKey) = true := by
  subst hrole
  refine ⟨decodedOf S claims privateKey, ?_, rfl, verify_decodedOf S claims privateKey⟩
  exact (decodeProof_encodeEnvelope hP S h privateKey).trans (if_neg (not_lt.2 hle))

/-- The app acts on the facts of the request the plane saw. -/
theorem factsOf_eq_layerFacts {a : Admitted} {layer : LayerRequest}
    (hrepresents : Represents P layer a.claims.request) (hsemantic : a.claims.request.Semantic)
    (hbody : a.body = approvedBody layer) : factsOf a = layerFacts layer := by
  have hbound := hsemantic.pairs.bound
  rw [hrepresents.pairs] at hbound
  have hvalue (name : String) : valueOf a.claims.request.pairs name =
      valueOf (layer.headers.filterMap boundPair) name := by
    rw [hrepresents.pairs]
    exact (valueOf_perm hbound.named (sortPairs_perm _).symm name).symm
  rw [factsOf, layerFacts, hvalue, hvalue, hvalue, hrepresents.method, hrepresents.target, hbody]

namespace PlaneRecord

variable {c : Parties P} (record : PlaneRecord c)

theorem semantic : record.claims.request.Semantic :=
  (semantic_of_buildApprovedRequest record.built).1

theorem represents : Represents P record.layer record.claims.request :=
  (semantic_of_buildApprovedRequest record.built).2

/-- The plane's proof as the boundary verified it. -/
def verifiedPb : VerifiedPb := ⟨record.claims, record.issued.header⟩

/-- A plane's proof that is not too long is decoded and verified. -/
theorem decodes (hP : ReadsJson P) (hfits : record.issued.header.length ≤ HEADER_MAX .pb) :
    ∃ decoded, decodeProof P record.issued.header .pb = .ok decoded ∧
      decoded.claims = record.claims ∧
      verifyProofSignature P .pb decoded (c.keyOf .pb) = true := by
  obtain ⟨-, hissued⟩ := issuePb_eq_ok.1 record.signed
  have hheader : record.issued.header =
      encodeEnvelope c.signer.edSign record.claims c.plane.privateKey := by
    rw [hissued]
    rfl
  rw [hheader] at hfits ⊢
  exact exists_decoded hP c.signer record.wellFormed rfl c.plane.privateKey hfits

/-- What the boundary issues for a plane's proof is decoded and verified. -/
theorem decodes_ba (hP : ReadsJson P) (hkid : isKid c.boundary.kid = true)
    (happ : isNonce c.boundary.appId = true)
    (hfits : record.issued.header.length ≤ HEADER_MAX .pb) {iat : ℕ} {random : Vector UInt8 16}
    {issued : Issued} (hsafe : iat + c.boundary.lifetimeMs ≤ MAX_SAFE_INTEGER)
    (hissued : issueBa c.signer c.boundary record.verifiedPb iat random = .ok issued) :
    ∃ decoded, decodeProof P issued.header .ba = .ok decoded ∧
      decoded.claims = baClaims P c.boundary record.verifiedPb iat issued.jti ∧
      verifyProofSignature P .ba decoded (c.keyOf .ba) = true := by
  obtain ⟨decoded, hdecode, hclaims, -⟩ := record.decodes hP hfits
  obtain ⟨hheader, hlength, hsignature, hpayload, -, -⟩ := (decodeProof_eq_ok hP).1 hdecode
  rw [hpayload, hclaims] at hheader
  obtain ⟨-, rfl⟩ := issueBa_eq_ok.1 hissued
  have hwell : (baClaims P c.boundary record.verifiedPb iat (newId random)).WellFormed :=
    wellFormed_baClaims record.wellFormed hkid happ hsafe random
  have hle := length_ba_le c.signer hsignature hheader hlength rfl record.wellFormed hwell
  exact exists_decoded hP c.signer hwell rfl c.boundary.privateKey hle

/-- The boundary admits the request of a plane's proof. -/
theorem outcome_boundary (hP : ReadsJson P) (hempty : P.sha256B64 [] = EMPTY_BODY_SHA256)
    (hfits : record.issued.header.length ≤ HEADER_MAX .pb) {v : Verifier} {t : Schedule}
    {connection : String} (hconnection : IsConnection connection)
    (hwindow : InWindow record.claims t.nowMs c.boundaryFenceMs)
    (hserves : t.Serves P c.boundaryConfig c.boundaryFenceMs v
      (hopRequest record.claims.request none record.issued.header connection)
      [⟨"pb:" ++ record.claims.jti, RETAIN_PB_MS⟩] (approvedBody record.layer)) :
    ∃ a, t.outcome P c.boundaryConfig c.boundaryFenceMs v
        (hopRequest record.claims.request none record.issued.header connection) = some a ∧
      a.pb = record.verifiedPb ∧ a.request = record.claims.request ∧
        a.body = approvedBody record.layer := by
  obtain ⟨decoded, hdecode, hclaims, hverify⟩ := record.decodes hP hfits
  have hids : decoded.claims.kid = c.plane.kid ∧ decoded.claims.aud = c.plane.boundaryId := by
    rw [hclaims]
    exact ⟨rfl, rfl⟩
  have hsemantic : decoded.claims.request.Semantic := by
    rw [hclaims]
    exact record.semantic
  have hwindow' : InWindow decoded.claims t.nowMs c.boundaryFenceMs := by
    rw [hclaims]
    exact hwindow
  have hverifies : Verifies P c.boundaryConfig c.boundaryFenceMs (fun _ => True) t.nowMs
      (hopRequest decoded.claims.request none record.issued.header connection)
      ⟨decoded.claims, ⟨decoded.claims, record.issued.header⟩, decoded.claims.corr⟩ :=
    verifies_boundary decoded hsemantic hconnection hdecode hverify hids hwindow'
  rw [hclaims] at hverifies
  obtain ⟨a, ha, -, hrequest, hpb, hbody, -⟩ := @outcome_of_verifies P c.boundaryConfig
    c.boundaryFenceMs v t ⟨record.claims, ⟨record.claims, record.issued.header⟩, record.claims.corr⟩
    none record.issued.header connection (approvedBody record.layer) record.semantic hverifies hserves
    (record.represents.carries hempty)
  exact ⟨a, ha, hpb, hrequest, hbody⟩

/-- The app admits the request of a boundary's proof for a plane's. -/
theorem outcome_app (hP : ReadsJson P) (hempty : P.sha256B64 [] = EMPTY_BODY_SHA256)
    (hkid : isKid c.boundary.kid = true) (happ : isNonce c.boundary.appId = true)
    (hfits : record.issued.header.length ≤ HEADER_MAX .pb) {iat : ℕ} {random : Vector UInt8 16}
    {issued : Issued} (hsafe : iat + c.boundary.lifetimeMs ≤ MAX_SAFE_INTEGER)
    (hissued : issueBa c.signer c.boundary record.verifiedPb iat random = .ok issued)
    {w : Verifier} {u : Schedule} {connection : String} (hconnection : IsConnection connection)
    (hwindow : InWindow (baClaims P c.boundary record.verifiedPb iat issued.jti) u.nowMs c.appFenceMs)
    (hwindow' : InWindow record.claims u.nowMs c.appFenceMs)
    (hserves : u.Serves P c.appConfig c.appFenceMs w
      (hopRequest record.claims.request (some issued.header) record.issued.header connection)
      [⟨"ba:" ++ issued.jti, RETAIN_BA_MS⟩, ⟨"ln:" ++ record.claims.jti, RETAIN_PB_MS⟩]
      (approvedBody record.layer)) :
    ∃ b, u.outcome P c.appConfig c.appFenceMs w
        (hopRequest record.claims.request (some issued.header) record.issued.header connection) =
          some b ∧
      b.claims = baClaims P c.boundary record.verifiedPb iat issued.jti ∧
        b.pb = record.verifiedPb ∧ b.body = approvedBody record.layer ∧ b.nonce = record.corr ∧
          b.hop = record.hop := by
  obtain ⟨lineage, hlineage, hpb, hverify⟩ := record.decodes hP hfits
  obtain ⟨decoded, hdecode, hba, hverify'⟩ := record.decodes_ba hP hkid happ hfits hsafe hissued
  have hids : decoded.claims.kid = c.boundary.kid ∧ decoded.claims.aud = c.boundary.appId := by
    rw [hba]
    exact ⟨rfl, rfl⟩
  have hids' : lineage.claims.kid = c.plane.kid ∧ lineage.claims.aud = c.plane.boundaryId := by
    rw [hpb]
    exact ⟨rfl, rfl⟩
  have hparent : decoded.claims.parent =
        some ⟨lineage.claims.jti, P.sha256B64 (asciiBytes record.issued.header)⟩ ∧
      decoded.claims.hop = lineage.claims.hop ∧ decoded.claims.corr = lineage.claims.corr ∧
      decoded.claims.request = lineage.claims.request := by
    rw [hba, hpb]
    exact ⟨rfl, rfl, rfl, rfl⟩
  have hsemantic : decoded.claims.request.Semantic := by
    rw [hba]
    exact record.semantic
  have hown : InWindow decoded.claims u.nowMs c.appFenceMs := by
    rw [hba]
    exact hwindow
  have hplane : InWindow lineage.claims u.nowMs c.appFenceMs := by
    rw [hpb]
    exact hwindow'
  have hverifies : Verifies P c.appConfig c.appFenceMs (fun _ => True) u.nowMs
      (hopRequest decoded.claims.request (some issued.header) record.issued.header connection)
      ⟨decoded.claims, ⟨lineage.claims, record.issued.header⟩, decoded.claims.corr⟩ :=
    verifies_app decoded lineage hsemantic hconnection hdecode hlineage hverify' hverify hids hids'
      hparent hown hplane
  rw [hba, hpb] at hverifies
  obtain ⟨b, hb, hclaims, -, hbpb, hbody, hnonce, hhop⟩ := @outcome_of_verifies P c.appConfig
    c.appFenceMs w u ⟨baClaims P c.boundary record.verifiedPb iat issued.jti,
      ⟨record.claims, record.issued.header⟩, record.corr⟩
    (some issued.header) record.issued.header connection (approvedBody record.layer) record.semantic
    hverifies hserves (record.represents.carries hempty)
  exact ⟨b, hb, hclaims, hbpb, hbody, hnonce, hhop⟩

end PlaneRecord

/-- **Delivery.** A request the plane approves, with a proof that is not too long, is admitted by the
boundary and then by the app, if its proofs are in their windows, its ids are fresh and its body
arrives, whatever other calls do. And the app acts on the facts of the request the plane saw. -/
theorem chain_delivers (hP : ReadsJson P) (hempty : P.sha256B64 [] = EMPTY_BODY_SHA256)
    {c : Parties P} (hkid : isKid c.boundary.kid = true) (happ : isNonce c.boundary.appId = true)
    (record : PlaneRecord c) (hfits : record.issued.header.length ≤ HEADER_MAX .pb)
    {v w : Verifier} {t u : Schedule} {connection connection' : String}
    (hconnection : IsConnection connection) (hconnection' : IsConnection connection')
    (hwindow : InWindow record.claims t.nowMs c.boundaryFenceMs)
    (hserves : t.Serves P c.boundaryConfig c.boundaryFenceMs v
      (hopRequest record.claims.request none record.issued.header connection)
      [⟨"pb:" ++ record.claims.jti, RETAIN_PB_MS⟩] (approvedBody record.layer)) :
    ∃ a, t.outcome P c.boundaryConfig c.boundaryFenceMs v
        (hopRequest record.claims.request none record.issued.header connection) = some a ∧
      a.pb = record.verifiedPb ∧ a.request = record.claims.request ∧
      a.body = approvedBody record.layer ∧
      ∀ iat random issued, iat + c.boundary.lifetimeMs ≤ MAX_SAFE_INTEGER →
        issueBa c.signer c.boundary a.pb iat random = .ok issued →
        InWindow (baClaims P c.boundary a.pb iat issued.jti) u.nowMs c.appFenceMs →
        InWindow record.claims u.nowMs c.appFenceMs →
        u.Serves P c.appConfig c.appFenceMs w
          (hopRequest a.request (some issued.header) a.pb.header connection')
          [⟨"ba:" ++ issued.jti, RETAIN_BA_MS⟩, ⟨"ln:" ++ record.claims.jti, RETAIN_PB_MS⟩] a.body →
        ∃ b, u.outcome P c.appConfig c.appFenceMs w
            (hopRequest a.request (some issued.header) a.pb.header connection') = some b ∧
          factsOf b = layerFacts record.layer ∧ b.pb = a.pb ∧ b.nonce = record.corr ∧
          b.hop = record.hop := by
  obtain ⟨a, ha, hpb, hrequest, hbody⟩ :=
    record.outcome_boundary hP hempty hfits hconnection hwindow hserves
  refine ⟨a, ha, hpb, hrequest, hbody, ?_⟩
  rw [hpb, hrequest, hbody]
  intro iat random issued hsafe hissued hbaWindow hpbWindow hserves'
  obtain ⟨b, hb, hclaims, hbpb, hbbody, hnonce, hhop⟩ := record.outcome_app hP hempty hkid happ hfits
    hsafe hissued hconnection' hbaWindow hpbWindow hserves'
  have hbrequest : b.claims.request = record.claims.request := by
    rw [hclaims]
    rfl
  exact ⟨b, hb, factsOf_eq_layerFacts (hbrequest ▸ record.represents) (hbrequest ▸ record.semantic)
    hbbody, hbpb, hnonce, hhop⟩

/-! ## Runs without forgery -/

theorem envelope_injective {a b a' b' : List UInt8} (h : envelope a b = envelope a' b') :
    a = a' ∧ b = b' := by
  have hsplit (a b : List UInt8) :
      (envelope a b).toList.splitOn '.' = [base64urlChars a, base64urlChars b] := by
    have hlist : (envelope a b).toList = base64urlChars a ++ '.' :: base64urlChars b := by
      simp [envelope, base64url]
    rw [hlist, splitOn_dot]
  have hinj {x y : List UInt8} (h : base64urlChars x = base64urlChars y) : x = y := by
    rw [← base64Bytes_base64urlChars x, h, base64Bytes_base64urlChars]
  have hparts : [base64urlChars a, base64urlChars b] = [base64urlChars a', base64urlChars b'] := by
    rw [← hsplit, ← hsplit, h]
  rw [List.cons.injEq, List.cons.injEq] at hparts
  exact ⟨hinj hparts.1, hinj hparts.2.1⟩

/-- What an issuer made is decoded to what it was made of only. -/
theorem payload_of_decodeProof (hP : ReadsJson P) (S : Signer P) {claims : Claims}
    (h : claims.WellFormed) {privateKey : Key} {role : HopRole} {decoded : Decoded}
    (hdecode : decodeProof P (encodeEnvelope S.edSign claims privateKey) role = .ok decoded) :
    claims.role = role ∧ decoded.payload = payloadOf claims := by
  obtain ⟨hheader, -, -, hpayload, hrole, hwell⟩ := (decodeProof_eq_ok hP).1 hdecode
  rw [encodeEnvelope] at hheader
  have heq := (envelope_injective hheader).1
  have hclaims := payloadOf_injective hP hwell h (hpayload.symm.trans heq.symm)
  exact ⟨hclaims ▸ hrole, heq.symm⟩

namespace Chain

variable {c : Parties P} {s : Chain c}

/-- Headers that are too short for a proof, or that an issuer made, hold no forged signature. -/
theorem unforged_of_issued (hP : ReadsJson P) {rawHeaders : List (String × String)}
    (h : ∀ header ∈ rawHeaders, header.2.length < 87 ∨ ∃ claims privateKey, claims.WellFormed ∧
      claims ∈ s.signed claims.role ∧
        header.2 = encodeEnvelope c.signer.edSign claims privateKey) : s.Unforged rawHeaders := by
  intro header hmem role decoded hdecode _
  obtain hshort | ⟨claims, privateKey, hwell, hsigned, heq⟩ := h header hmem
  · obtain ⟨hheader, -, hsignature, -⟩ := (decodeProof_eq_ok hP).1 hdecode
    rw [hheader, length_envelope, hsignature] at hshort
    omega
  · rw [heq] at hdecode
    obtain ⟨rfl, hpayload⟩ := payload_of_decodeProof hP c.signer hwell hdecode
    exact ⟨claims, hsigned, hpayload⟩

end Chain

section Runs

variable {c : Parties P} {m n : ℕ} {ops : List (ChainOp c)} {s : Chain c}

theorem ChainRun.boundaryRun (h : ChainRun m n ops s) {vops : List Verifier.Op}
    (hallowed : ∀ request nowMs, .begin request nowMs ∈ vops → s.Unforged request.rawHeaders) :
    ChainRun m n (ops ++ vops.map .boundary)
      { s with boundary := exec (Verifier.step P c.boundaryConfig c.boundaryFenceMs) s.boundary vops } := by
  induction vops generalizing ops s with
  | nil => simpa using h
  | cons op vops ih =>
    have hop : s.Allowed (.boundary op) := by
      cases op with
      | begin request nowMs => exact hallowed request nowMs List.mem_cons_self
      | _ => trivial
    have hnext := ih (h.snoc (.boundary op) hop) fun request nowMs hmem =>
      hallowed request nowMs (List.mem_cons_of_mem op hmem)
    rw [List.append_assoc] at hnext
    exact hnext

theorem ChainRun.appRun (h : ChainRun m n ops s) {vops : List Verifier.Op}
    (hallowed : ∀ request nowMs, .begin request nowMs ∈ vops → s.Unforged request.rawHeaders) :
    ChainRun m n (ops ++ vops.map .app)
      { s with app := exec (Verifier.step P c.appConfig c.appFenceMs) s.app vops } := by
  induction vops generalizing ops s with
  | nil => simpa using h
  | cons op vops ih =>
    have hop : s.Allowed (.app op) := by
      cases op with
      | begin request nowMs => exact hallowed request nowMs List.mem_cons_self
      | _ => trivial
    have hnext := ih (h.snoc (.app op) hop) fun request nowMs hmem =>
      hallowed request nowMs (List.mem_cons_of_mem op hmem)
    rw [List.append_assoc] at hnext
    exact hnext

end Runs

/-! ### The sample proof, delivered -/

section Sample

open Verifier (sampleId sampleClaims inWindow_sample)

def sampleParties : Parties issuingPlatform where
  signer := sampleSigner
  plane := sampleIssuer
  boundary := { kid := "ba-1", privateKey := List.replicate 32 7, appId := sampleId, lifetimeMs := 1000 }
  boundaryFenceMs := 0
  appFenceMs := 0

def sampleRecord : PlaneRecord sampleParties where
  layer := sampleLayer
  approval := ⟨sampleClaims.request, 0⟩
  built := buildApprovedRequest_sample
  hop := 1
  corr := sampleId
  iat := 1500
  random := Vector.replicate 16 0
  issued := sampleIssued
  signed := issuePb_sample
  wellFormed := @wellFormed_pbClaims issuingPlatform sampleIssuer sampleApproved 1 1500 sampleId
    (by decide) (by decide) (by decide) (by decide) (by decide) _

/-- A request is handled at two seconds, with no other operations. -/
def sampleSchedule : Schedule := { nowMs := 2000, mono := 0 }

/-- A new verifier serves a request without a body. -/
theorem serves_sample {config : AdmissionConfig} {request : AdmissionRequest}
    {ids : List ReserveRequest} (hroom : ids.length ≤ 4) :
    sampleSchedule.Serves issuingPlatform config 0 { guard := { capacity := 4 } } request ids [] where
  others op hop := by simp [sampleSchedule] at hop
  fresh := by
    have hguard : (exec (Verifier.step issuingPlatform config 0) { guard := { capacity := 4 } }
        (sampleSchedule.opening request)).guard = { capacity := 4 } := by
      simp only [Schedule.opening, sampleSchedule, exec_cons, exec_nil, Verifier.step]
      cases precheck issuingPlatform config 0 2000 request <;> rfl
    rw [hguard]
    exact ⟨fun _ _ => rfl, by simpa [Table.size] using hroom⟩
  body := rfl

theorem inWindow_sampleBa (verified : VerifiedPb) (jti : String) :
    InWindow (baClaims issuingPlatform sampleParties.boundary verified 2000 jti) 2000 0 := by
  have hlifetime : 2000 < 2000 + sampleParties.boundary.lifetimeMs ∧
      2000 + sampleParties.boundary.lifetimeMs ≤ 2000 + MAX_LIFETIME .ba := by decide
  refine ⟨hlifetime, ?_, ?_, ?_⟩ <;> simp only [baClaims, sampleParties, HOP_SKEW_MS] <;> norm_num

theorem chain_delivers_sample :
    ∃ a b issued, sampleSchedule.outcome issuingPlatform sampleParties.boundaryConfig 0
        { guard := { capacity := 4 } }
        (hopRequest sampleClaims.request none sampleIssued.header "close") = some a ∧
      issueBa sampleSigner sampleParties.boundary a.pb 2000 (Vector.replicate 16 1) = .ok issued ∧
      sampleSchedule.outcome issuingPlatform sampleParties.appConfig 0 { guard := { capacity := 4 } }
        (hopRequest a.request (some issued.header) a.pb.header "close") = some b ∧
      factsOf b = layerFacts sampleLayer := by
  have hwindow : InWindow sampleRecord.claims 2000 0 :=
    inWindow_sample (by norm_num) (by norm_num) (by norm_num)
  obtain ⟨a, ha, hpb, -, hbody, hnext⟩ := @chain_delivers issuingPlatform (readsJson_parsePayload rfl)
    sha256B64_nil_sample sampleParties (by decide) (by decide) sampleRecord length_sampleIssued
    { guard := { capacity := 4 } } { guard := { capacity := 4 } } sampleSchedule sampleSchedule
    "close" "close" (.inl rfl) (.inl rfl) hwindow (serves_sample (by decide))
  have hissued := (@issueBa_eq_ok issuingPlatform sampleSigner sampleParties.boundary a.pb 2000
    (Vector.replicate 16 1) _).2 ⟨by decide, rfl⟩
  obtain ⟨b, hb, hfacts, -⟩ := hnext 2000 (Vector.replicate 16 1) _ (by decide) hissued
    (inWindow_sampleBa _ _) hwindow (hbody ▸ serves_sample (Nat.le_of_ble_eq_true rfl))
  exact ⟨a, b, _, ha, hissued, hb, hfacts⟩

/-! ### The sample proof, in a chain -/

theorem header_sampleRecord : sampleIssued.header =
    encodeEnvelope sampleSigner.edSign sampleRecord.claims sampleIssuer.privateKey := by
  obtain ⟨-, hissued⟩ := issuePb_eq_ok.1 issuePb_sample
  rw [hissued]
  rfl

theorem headers_sample (ba : Option String) :
    (hopRequest sampleRecord.claims.request ba sampleIssued.header "close").rawHeaders =
      ("host", "h") :: ((ba.map fun header => (HOP_BA_HEADER, header)).toList ++
        [(HOP_PB_HEADER, sampleIssued.header), ("Connection", "close")]) := rfl

/-- The boundary after it handled the sample. -/
def sampleBoundary : Verifier :=
  exec (Verifier.step issuingPlatform sampleParties.boundaryConfig 0) { guard := { capacity := 4 } }
    (sampleSchedule.ops (hopRequest sampleRecord.claims.request none sampleIssued.header "close") 0)

/-- What the boundary signs for the sample. -/
def sampleBaClaims : Claims :=
  baClaims issuingPlatform sampleParties.boundary sampleRecord.verifiedPb 2000
    (newId (Vector.replicate 16 1))

def sampleBa : Issued where
  header := encodeEnvelope sampleSigner.edSign sampleBaClaims sampleParties.boundary.privateKey
  jti := newId (Vector.replicate 16 1)
  tag := proofTag issuingPlatform "ba" (newId (Vector.replicate 16 1))

/-- The boundary signs for the call it admitted. -/
theorem relay_sample {s : Chain sampleParties} {a : Admitted} {iat : ℕ} {random : Vector UInt8 16}
    {issued : Issued} (ha : s.boundary.admittedAt 0 = some a) (hnone : s.relayed = [])
    (hissued : issueBa sampleSigner sampleParties.boundary a.pb iat random = .ok issued) :
    s.step (.relay 0 iat random) = { s with
      relayed := [(0, baClaims issuingPlatform sampleParties.boundary a.pb iat issued.jti)] } := by
  have hissued' : issueBa sampleParties.signer sampleParties.boundary a.pb iat random = .ok issued :=
    hissued
  have hany : ¬ (s.relayed.any fun entry => entry.1 = 0) = true := by simp [hnone]
  rw [Chain.step, Chain.relay, ha]
  dsimp only
  rw [if_neg hany, hissued', hnone]
  rfl

/-- Neither the sample's headers nor those an issuer made hold a forged signature. -/
theorem unforged_sample {s : Chain sampleParties} (hplane : s.plane = [sampleRecord])
    {rawHeaders : List (String × String)}
    (h : ∀ header ∈ rawHeaders, header.2 = "h" ∨ header.2 = "close" ∨
      header.2 = sampleIssued.header ∨ ∃ claims privateKey, claims.WellFormed ∧
        claims ∈ s.signed claims.role ∧
          header.2 = encodeEnvelope sampleSigner.edSign claims privateKey) :
    s.Unforged rawHeaders := by
  refine Chain.unforged_of_issued (readsJson_parsePayload rfl) fun header hmem => ?_
  obtain heq | heq | heq | hissued := h header hmem
  · exact .inl (by rw [heq]; decide)
  · exact .inl (by rw [heq]; decide)
  · refine .inr ⟨sampleRecord.claims, sampleIssuer.privateKey, sampleRecord.wellFormed, ?_, ?_⟩
    · change sampleRecord.claims ∈ s.plane.map PlaneRecord.claims
      rw [hplane]
      exact List.mem_singleton_self _
    · exact heq.trans header_sampleRecord
  · exact .inr hissued

/-- The sample's schedule handles one request. -/
theorem eq_of_begin_mem {request request' : AdmissionRequest} {nowMs : ℚ}
    (h : .begin request nowMs ∈ sampleSchedule.ops request' 0) : request = request' := by
  have hboth : request = request' ∧ nowMs = 2000 := by
    simpa [Schedule.ops, Schedule.opening, sampleSchedule] using h
  exact hboth.1

/-- A chain in which the app admits the sample. -/
theorem exists_chainRun_sample :
    ∃ (ops : List (ChainOp sampleParties)) (s : Chain sampleParties) (b : Admitted),
    ChainRun 4 4 ops s ∧ s.plane = [sampleRecord] ∧ s.app.admittedAt 0 = some b := by
  have hP : ReadsJson issuingPlatform := readsJson_parsePayload rfl
  have hwindow : InWindow sampleRecord.claims 2000 0 :=
    inWindow_sample (by norm_num) (by norm_num) (by norm_num)
  -- the plane approves, and the boundary admits
  have happroved : ChainRun 4 4 [.approve sampleRecord]
      ((Chain.new sampleParties 4 4).step (.approve sampleRecord)) := .snoc .nil _ trivial
  obtain ⟨a, ha, hpb, -, -⟩ := sampleRecord.outcome_boundary hP sha256B64_nil_sample
    length_sampleIssued (.inl rfl) hwindow (serves_sample (Nat.le_of_ble_eq_true rfl))
  have hboundary : ChainRun 4 4 _
      { plane := [sampleRecord], boundary := sampleBoundary, app := { guard := { capacity := 4 } } } :=
    @ChainRun.boundaryRun _ _ 4 4 _ _ happroved (sampleSchedule.ops (hopRequest
      sampleRecord.claims.request none sampleIssued.header "close") 0) fun request nowMs hmem => by
      obtain rfl := eq_of_begin_mem hmem
      refine unforged_sample rfl fun header hmem => ?_
      rw [headers_sample] at hmem
      simp only [Option.map_none, Option.toList_none, List.nil_append, List.mem_cons,
        List.not_mem_nil, or_false] at hmem
      obtain rfl | rfl | rfl := hmem <;> simp
  -- the boundary signs for it
  have hissued : issueBa sampleSigner sampleParties.boundary sampleRecord.verifiedPb 2000
      (Vector.replicate 16 1) = .ok sampleBa := issueBa_eq_ok.2 ⟨by decide, rfl⟩
  have hrelay := hboundary.snoc (.relay 0 2000 (Vector.replicate 16 1)) ⟨by decide, by decide, by decide⟩
  have hstep := @relay_sample { plane := [sampleRecord], boundary := sampleBoundary
                                app := { guard := { capacity := 4 } } } a 2000 (Vector.replicate 16 1)
    _ ha rfl (hpb ▸ hissued)
  rw [hstep, hpb] at hrelay
  -- the app admits
  obtain ⟨b, hb, -⟩ := sampleRecord.outcome_app hP sha256B64_nil_sample (by decide) (by decide)
    length_sampleIssued (by decide) hissued (.inl rfl) (inWindow_sampleBa _ _) hwindow
    (serves_sample (Nat.le_of_ble_eq_true rfl))
  have happ := @ChainRun.appRun _ _ 4 4 _ _ hrelay
    (sampleSchedule.ops (hopRequest sampleRecord.claims.request (some sampleBa.header)
      sampleIssued.header "close") 0)
    fun request nowMs hmem => by
      obtain rfl := eq_of_begin_mem hmem
      refine unforged_sample rfl fun header hmem => ?_
      rw [headers_sample] at hmem
      simp only [Option.map_some, Option.toList_some, List.cons_append, List.nil_append,
        List.mem_cons, List.not_mem_nil, or_false] at hmem
      obtain rfl | rfl | rfl | rfl := hmem
      · simp
      · exact .inr (.inr (.inr ⟨sampleBaClaims, sampleParties.boundary.privateKey,
          wellFormed_baClaims sampleRecord.wellFormed (by decide) (by decide) (by decide) _,
          List.mem_singleton_self _, rfl⟩))
      · simp
      · simp
  exact ⟨_, _, b, happ, rfl, hb⟩

theorem chain_agreement_sample :
    ∃ (s : Chain sampleParties) (b : Admitted), s.plane = [sampleRecord] ∧
      s.app.admittedAt 0 = some b ∧ ∃ request record k a, s.Agreed request b record k a := by
  obtain ⟨ops, s, b, hrun, hplane, hb⟩ := exists_chainRun_sample
  have hids : (s.plane.map fun record => newId record.random).Nodup := by
    rw [hplane]
    exact List.nodup_singleton _
  obtain ⟨request, nowMs, record, k, a, -, hagreed⟩ :=
    (Chain.chain_agreement (readsJson_parsePayload rfl) hrun hids).1 0 b hb
  exact ⟨s, b, hplane, hb, request, record, k, a, hagreed⟩

end Sample

end Limitmark.Hop
