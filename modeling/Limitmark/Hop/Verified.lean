import Limitmark.Hop.Admission

/-!
# What a verifier has verified

The checks of a request as one statement: which proofs it presents, and when they are acceptable.
The clocks and the fence are read by the windows of the proofs alone, so a request that passed once
passes again whenever its proofs are in their windows (`precheck_retime`, `authenticate_retime`).
-/

namespace Limitmark.Hop

open Limitmark.Defense Limitmark.Plane Limitmark.Foundations

variable {P : Platform} {config : AdmissionConfig} {fenceMs nowMs : ℚ} {request : AdmissionRequest}
  {c : Checked} {verified : Verified}

theorem mapError_eq_ok {ε δ α : Type} {x : Except ε α} {f : ε → δ} {a : α} :
    x.mapError f = .ok a ↔ x = .ok a := by
  cases x <;> simp [Except.mapError]

/-- Claims of a proof that decodes, and whose signature verifies under a key. -/
def Signed (P : Platform) (key : Key) (role : HopRole) (claims : Claims) : Prop :=
  ∃ header decoded, decodeProof P header role = .ok decoded ∧
    verifyProofSignature P role decoded key = true ∧ decoded.claims = claims

theorem Signed.role {key : Key} {role : HopRole} {claims : Claims}
    (h : Signed P key role claims) : claims.role = role := by
  obtain ⟨header, decoded, hdecode, -, rfl⟩ := h
  exact role_of_decodeProof hdecode

/-- The own proof of a request that passed the first checks. -/
theorem precheck_own (h : precheck P config fenceMs nowMs request = .ok c) :
    decodeProof P c.ownHeader config.role = .ok c.decoded ∧
      checkProofWindow c.decoded.claims (config.ownWindow nowMs fenceMs) = none := by
  simp only [precheck, bind_eq_ok, ensure_eq_ok, noReason_eq_ok, mapError_eq_ok, exists_const] at h
  obtain ⟨own, -, -, pbHeader, -, -, decoded, hdecode, hwindow, -, -, -, -, hc⟩ := h
  cases hc
  exact ⟨hdecode, hwindow⟩

/-- Only the window of the own proof reads the clock and the fence in the first checks. -/
theorem precheck_retime (h : precheck P config fenceMs nowMs request = .ok c) {nowMs' fenceMs' : ℚ}
    (hwindow : checkProofWindow c.decoded.claims (config.ownWindow nowMs' fenceMs') = none) :
    precheck P config fenceMs' nowMs' request = .ok c := by
  simp only [precheck, bind_eq_ok, ensure_eq_ok, noReason_eq_ok, mapError_eq_ok, exists_const]
    at h ⊢
  obtain ⟨own, hown, hba, pbHeader, hpb, hviolation, decoded, hdecode, -, hwire⟩ := h
  obtain ⟨hmethod, hurl, hpairs, hlength, hc⟩ := hwire
  cases hc
  exact ⟨own, hown, hba, pbHeader, hpb, hviolation, decoded, hdecode, hwindow, hmethod, hurl,
    hpairs, hlength, rfl⟩

/-- What holds of a verified request at the time its freshness was read. -/
structure Genuine (P : Platform) (config : AdmissionConfig) (fenceMs nowMs : ℚ)
    (verified : Verified) : Prop where
  own : Signed P config.ownKey config.role verified.claims
  ownWindow : InWindow verified.claims nowMs fenceMs
  plane : Signed P config.keyP .pb verified.pb.claims
  planeWindow : InWindow verified.pb.claims nowMs fenceMs
  decoded : ∃ decoded, decodeProof P verified.pb.header .pb = .ok decoded ∧
    decoded.claims = verified.pb.claims
  same : config.role = .pb → verified.pb.claims = verified.claims
  parent : config.role = .ba → verified.claims.parent =
    some ⟨verified.pb.claims.jti, P.sha256B64 (asciiBytes verified.pb.header)⟩

theorem genuine_of_authenticate (hc : precheck P config fenceMs nowMs request = .ok c)
    (h : authenticate P config fenceMs nowMs c = .ok verified) :
    Genuine P config fenceMs nowMs verified := by
  obtain ⟨hdecode, hwindow⟩ := precheck_own hc
  have hown := (checkProofWindow_eq_none.1 hwindow).2.2
  cases config with
  | pb keyP kidP boundaryId =>
    simp only [authenticate, bind_eq_ok, ensure_eq_ok, exists_const] at h
    obtain ⟨hsignature, h⟩ := h
    cases h
    have hsigned : Signed P keyP .pb c.decoded.claims := ⟨_, _, hdecode, hsignature, rfl⟩
    exact ⟨hsigned, hown, hsigned, hown, ⟨_, hdecode, rfl⟩, fun _ => rfl, fun h => by cases h⟩
  | ba keyB kidB keyP kidP appId boundaryId =>
    simp only [authenticate, bind_eq_ok, ensure_eq_ok, noReason_eq_ok, mapError_eq_ok,
      exists_const] at h
    obtain ⟨hsignature, lineage, hlineage, hplane, hparent, hpb, h⟩ := h
    cases h
    exact ⟨⟨_, _, hdecode, hsignature, rfl⟩, hown, ⟨_, _, hlineage, hpb, rfl⟩,
      (checkProofWindow_eq_none.1 hplane).2.2, ⟨_, hlineage, rfl⟩, fun h => (by cases h),
      fun _ => hparent.1⟩

/-- A request that was verified once is verified again whenever its proofs are in their windows. -/
theorem verified_retime (hc : precheck P config fenceMs nowMs request = .ok c)
    (h : authenticate P config fenceMs nowMs c = .ok verified) {nowMs' fenceMs' : ℚ}
    (hown : InWindow verified.claims nowMs' fenceMs')
    (hplane : InWindow verified.pb.claims nowMs' fenceMs') :
    precheck P config fenceMs' nowMs' request = .ok c ∧
      authenticate P config fenceMs' nowMs' c = .ok verified := by
  obtain ⟨hkid, haud, -⟩ := checkProofWindow_eq_none.1 (precheck_own hc).2
  cases config with
  | pb keyP kidP boundaryId =>
    simp only [authenticate, bind_eq_ok, ensure_eq_ok, exists_const] at h ⊢
    obtain ⟨hsignature, h⟩ := h
    cases h
    exact ⟨precheck_retime hc (checkProofWindow_eq_none.2 ⟨hkid, haud, hown⟩), hsignature, rfl⟩
  | ba keyB kidB keyP kidP appId boundaryId =>
    simp only [authenticate, bind_eq_ok, ensure_eq_ok, noReason_eq_ok, mapError_eq_ok,
      exists_const] at h ⊢
    obtain ⟨hsignature, lineage, hlineage, hwindow, hparent, hpb, h⟩ := h
    cases h
    obtain ⟨hkidP, haudP, -⟩ := checkProofWindow_eq_none.1 hwindow
    exact ⟨precheck_retime hc (checkProofWindow_eq_none.2 ⟨hkid, haud, hown⟩), hsignature, lineage,
      hlineage, checkProofWindow_eq_none.2 ⟨hkidP, haudP, hplane⟩, hparent, hpb, rfl⟩

/-! ## The ids of a request -/

/-- The id a verified request reserves for its own proof, for the longest it can be accepted. -/
def ownWant (role : HopRole) (verified : Verified) : ReserveRequest :=
  ⟨(match role with | .pb => "pb:" | .ba => "ba:") ++ verified.claims.jti,
    MAX_LIFETIME role + 2 * HOP_SKEW_MS + 1000⟩

/-- The id a request at the app reserves for its parent. -/
def parentWant (verified : Verified) : ReserveRequest :=
  ⟨"ln:" ++ verified.pb.claims.jti, MAX_LIFETIME .pb + 2 * HOP_SKEW_MS + 1000⟩

theorem Genuine.ownWant_mem (h : Genuine P config fenceMs nowMs verified) :
    ownWant config.role verified ∈ wants config.role verified := by
  have hsame := h.same
  cases hrole : config.role with
  | pb =>
    rw [wants, hsame hrole]
    exact List.mem_singleton.2 rfl
  | ba => exact List.mem_cons_self

theorem parentWant_mem (verified : Verified) : parentWant verified ∈ wants .ba verified :=
  List.mem_cons_of_mem _ (List.mem_singleton.2 rfl)

end Limitmark.Hop
