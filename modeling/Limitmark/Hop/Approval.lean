import Mathlib
import Limitmark.Foundations.Checks
import Limitmark.Hop.ProofCodec

/-!
# The approved request

The plane's side of `defense/core/semantic-request.ts`: the one representation of a request that the
plane approves (`buildApprovedRequest`), and the headers a hop emits for it (`semanticWireHeaders`).

What is approved is what a proof can carry (`semantic_of_buildApprovedRequest`), and the scan of a
verifier finds in the emitted headers exactly what was approved (`scanHopHeaders_hopHeaders`).
-/

namespace Limitmark.Hop

open Limitmark.Defense Limitmark.Plane Limitmark.Foundations

/-! ## Approval -/

/-- What the headers of a request come to. -/
structure Collected where
  bound : List HeaderPair := []
  lengths : List String := []
  connections : List String := []
  dropped : ℕ := 0
  deriving DecidableEq, Repr

/-- `bound.get(name)`. -/
def valueOf (pairs : List HeaderPair) (name : String) : Option String :=
  (pairs.find? fun pair => pair.1 = name).map Prod.snd

/-- One header of the request. -/
def collect (found : Collected) (header : String × String) : Except RejectReason Collected :=
  let name := header.1.toLower
  match classifyHeader name with
  | .bound =>
    if found.bound.any fun pair => pair.1 = name then .error .semanticDuplicate
    else
      match canonicalValue header.2 with
      | none => .error .semanticValueInvalid
      | some value => .ok { found with bound := found.bound ++ [(name, value)] }
  | .derived => .ok { found with lengths := found.lengths ++ [trimOws header.2] }
  | .transport => .ok { found with connections := found.connections ++ [(trimOws header.2).toLower] }
  | .refused | .proof | .spoofable | .measurement => .error .semanticRefusedHeader
  | .ingressIndicator | .dropped => .ok { found with dropped := found.dropped + 1 }

def sortPairs (pairs : List HeaderPair) : List HeaderPair :=
  pairs.insertionSort fun a b => a.1 ≤ b.1

structure Approval where
  approved : RequestClaims
  dropped : ℕ
  deriving DecidableEq, Repr

/-- The request as the plane approves it; whatever is ambiguous is refused. -/
def buildApprovedRequest (P : Platform) (request : LayerRequest) : Except RejectReason Approval := do
  ensure (request.method = "GET" ∨ request.method = "POST") .semanticValueInvalid
  ensure (isTarget request.target = true) .semanticValueInvalid
  let found ← request.headers.foldlM collect {}
  ensure (found.connections.length ≤ 1 ∧
    ∀ c ∈ found.connections, c = "close" ∨ c = "keep-alive") .semanticRefusedHeader
  ensure (found.lengths.length ≤ 1) .semanticDuplicate
  ensure (∀ length ∈ found.lengths, (contentLength? length).isSome = true) .semanticValueInvalid
  ensure ((valueOf found.bound "host").isSome = true) .semanticValueInvalid
  let approve (bodyLen : ℕ) (bodySha256 : String) : Approval :=
    ⟨⟨request.method, request.target, sortPairs found.bound, bodyLen, bodySha256⟩, found.dropped⟩
  if request.method = "POST" then
    ensure (valueOf found.bound "content-type" = some FORM_CONTENT_TYPE) .semanticValueInvalid
    ensure (request.bodyStatus = .complete ∧
      (request.body.any fun body => body.length ≤ MAX_SEMANTIC_BODY) = true) .semanticValueInvalid
    let body := request.body.getD []
    ensure (found.lengths.map contentLength? = [some body.length]) .semanticValueInvalid
    return approve body.length (P.sha256B64 body)
  else
    ensure (valueOf found.bound "content-type" = none) .semanticValueInvalid
    ensure (∀ length ∈ found.lengths, length = "0") .semanticValueInvalid
    return approve 0 EMPTY_BODY_SHA256

/-- The headers a hop emits for a request: the bound pairs and a derived length. -/
def semanticWireHeaders (request : RequestClaims) : List (String × String) :=
  request.pairs ++
    if request.method = "POST" then [("content-length", toString request.bodyLen)] else []

/-! ## Canonical values -/

theorem dropWhile_of_head? {p : Char → Bool} {l : List Char} {q : Char → Bool}
    (h : l.head?.any q = true) (hq : ∀ c, q c = true → p c = false) : l.dropWhile p = l := by
  cases l with
  | nil => rfl
  | cons c l =>
    rw [List.dropWhile_cons, hq c (by simpa using h), if_neg Bool.false_ne_true]

theorem isOws_of_isVisible (c : Char) (h : isVisible c = true) : isOws c = false := by
  rw [isVisible, Bool.and_eq_true, decide_eq_true_eq] at h
  rw [isOws, Bool.or_eq_false_iff, decide_eq_false_iff_not, decide_eq_false_iff_not]
  constructor <;> rintro rfl <;> exact absurd h.1 (by decide)

theorem trimOws_of_visible {value : String} (hhead : value.toList.head?.any isVisible = true)
    (hlast : value.toList.getLast?.any isVisible = true) : trimOws value = value := by
  have hreverse : value.toList.reverse.head?.any isVisible = true := by
    rwa [List.head?_reverse]
  rw [trimOws, dropWhile_of_head? hhead isOws_of_isVisible,
    dropWhile_of_head? hreverse isOws_of_isVisible, List.reverse_reverse, String.ofList_toList]

/-- **A canonical value is its own canonical form.** -/
theorem canonicalValue_idem {raw value : String} (h : canonicalValue raw = some value) :
    canonicalValue value = some value := by
  rw [canonicalValue] at h
  split_ifs at h with hvalue
  obtain rfl := Option.some.inj h
  have htrim := trimOws_of_visible hvalue.2.1 hvalue.2.2.1
  rw [canonicalValue]
  simp only [htrim]
  exact if_pos hvalue

/-! ## The bound headers -/

/-- The pairs have different names. -/
def Named (pairs : List HeaderPair) : Prop := (pairs.map Prod.fst).Nodup

/-- Pairs as the canonicaliser keeps them. -/
structure Bound (pairs : List HeaderPair) : Prop where
  named : Named pairs
  mem : ∀ pair ∈ pairs, BOUND_HEADER_NAMES.contains pair.1 = true ∧
    canonicalValue pair.2 = some pair.2

theorem classifyHeader_eq_bound {name : String} :
    classifyHeader name = .bound ↔ BOUND_HEADER_NAMES.contains name = true := by
  unfold classifyHeader
  split_ifs <;> simp_all

theorem Bound.append {pairs : List HeaderPair} (h : Bound pairs) {name raw value : String}
    (hfresh : ¬ (pairs.any fun pair => pair.1 = name) = true)
    (hname : BOUND_HEADER_NAMES.contains name = true) (hvalue : canonicalValue raw = some value) :
    Bound (pairs ++ [(name, value)]) where
  named := by
    rw [Named, List.map_append, List.nodup_append]
    refine ⟨h.named, List.nodup_singleton _, ?_⟩
    intro a ha b hb hab
    obtain ⟨pair, hpair, rfl⟩ := List.mem_map.1 ha
    rw [List.map_singleton, List.mem_singleton] at hb
    exact hfresh (List.any_eq_true.2 ⟨pair, hpair, by simpa using hab.trans hb⟩)
  mem := by
    intro pair hpair
    rcases List.mem_append.1 hpair with hpair | hpair
    · exact h.mem pair hpair
    · rw [List.mem_singleton.1 hpair]
      exact ⟨hname, canonicalValue_idem hvalue⟩

/-- What is collected is bound. -/
theorem bound_collect {found found' : Collected} {header : String × String} (h : Bound found.bound)
    (hc : collect found header = .ok found') : Bound found'.bound := by
  unfold collect at hc
  dsimp only at hc
  split at hc
  · next hclass =>
    split_ifs at hc with hfresh
    split at hc
    · cases hc
    · next value hvalue =>
      obtain rfl := Except.ok.inj hc
      exact h.append hfresh (classifyHeader_eq_bound.1 hclass) hvalue
  all_goals first
    | (obtain rfl := Except.ok.inj hc
       exact h)
    | cases hc

theorem bound_foldlM {found found' : Collected} {headers : List (String × String)}
    (h : Bound found.bound) (hc : headers.foldlM collect found = .ok found') :
    Bound found'.bound := by
  induction headers generalizing found with
  | nil =>
    obtain rfl := Except.ok.inj hc
    exact h
  | cons header headers ih =>
    rw [List.foldlM_cons] at hc
    obtain ⟨next, hnext, hc⟩ := bind_eq_ok.1 hc
    exact ih (bound_collect h hnext) hc

theorem bound_nil : Bound [] := ⟨List.nodup_nil, fun _ h => by cases h⟩

theorem sortPairs_perm (pairs : List HeaderPair) : (sortPairs pairs).Perm pairs :=
  List.perm_insertionSort _ pairs

theorem Bound.perm {pairs pairs' : List HeaderPair} (h : Bound pairs) (hperm : pairs'.Perm pairs) :
    Bound pairs' :=
  ⟨(hperm.map Prod.fst).nodup_iff.2 h.named, fun pair hpair => h.mem pair (hperm.mem_iff.1 hpair)⟩

theorem valueOf_eq_some {pairs : List HeaderPair} (h : Named pairs) {name value : String} :
    valueOf pairs name = some value ↔ (name, value) ∈ pairs := by
  induction pairs with
  | nil => simp [valueOf]
  | cons pair pairs ih =>
    obtain ⟨hpair, hrest⟩ := List.nodup_cons.1 h
    have ih := ih hrest
    obtain ⟨name', value'⟩ := pair
    by_cases hname : name' = name
    · subst hname
      have hnot : (name', value) ∉ pairs := fun hmem =>
        hpair (List.mem_map.2 ⟨(name', value), hmem, rfl⟩)
      simp [valueOf, hnot, eq_comm]
    · rw [valueOf, List.find?_cons_of_neg (by simpa using hname), ← valueOf, ih, List.mem_cons,
        Prod.mk.injEq]
      simp [Ne.symm hname]

/-- The order of the pairs does not matter for their values. -/
theorem valueOf_perm {pairs pairs' : List HeaderPair} (h : Named pairs)
    (hperm : pairs'.Perm pairs) (name : String) : valueOf pairs' name = valueOf pairs name := by
  have h' : Named pairs' := (hperm.map Prod.fst).nodup_iff.2 h
  apply Option.ext
  intro value
  rw [valueOf_eq_some h', valueOf_eq_some h, hperm.mem_iff]

/-- A bound name comes after the empty one. -/
theorem empty_lt_of_mem {name : String} (h : BOUND_HEADER_NAMES.contains name = true) : "" < name := by
  simp only [BOUND_HEADER_NAMES, List.contains_cons, List.contains_nil, Bool.or_false,
    Bool.or_eq_true, beq_iff_eq] at h
  rcases h with rfl | rfl | rfl <;> decide

/-- Sorted bound pairs ascend. -/
theorem ascending_of_pairwise {pairs : List HeaderPair} (h : Bound pairs)
    (hsorted : pairs.Pairwise fun a b => a.1 ≤ b.1) {previous : String}
    (hprevious : ∀ pair ∈ pairs, previous < pair.1) : Ascending previous pairs := by
  induction pairs generalizing previous with
  | nil => trivial
  | cons pair pairs ih =>
    obtain ⟨hpair, hrest⟩ := List.nodup_cons.1 h.named
    obtain ⟨hle, hsorted⟩ := List.pairwise_cons.1 hsorted
    have hmem := h.mem pair List.mem_cons_self
    refine ⟨⟨hmem.1, hprevious pair List.mem_cons_self, hmem.2⟩, ?_⟩
    refine ih ⟨hrest, fun pair' hpair' => h.mem pair' (List.mem_cons_of_mem pair hpair')⟩ hsorted ?_
    intro pair' hpair'
    refine lt_of_le_of_ne (hle pair' hpair') fun heq => hpair ?_
    rw [heq]
    exact List.mem_map_of_mem hpair'

theorem pairwise_of_ascending {pairs : List HeaderPair} {previous : String}
    (h : Ascending previous pairs) :
    pairs.Pairwise (fun a b => a.1 < b.1) ∧ (∀ pair ∈ pairs, previous < pair.1) ∧
      ∀ pair ∈ pairs, BOUND_HEADER_NAMES.contains pair.1 = true ∧
        canonicalValue pair.2 = some pair.2 := by
  induction pairs generalizing previous with
  | nil => exact ⟨List.Pairwise.nil, fun _ h => (by cases h), fun _ h => by cases h⟩
  | cons pair pairs ih =>
    obtain ⟨⟨hname, hlt, hvalue⟩, hrest⟩ := h
    obtain ⟨hpairwise, hafter, hmem⟩ := ih hrest
    refine ⟨List.pairwise_cons.2 ⟨hafter, hpairwise⟩, ?_, ?_⟩
    · rw [List.forall_mem_cons]
      exact ⟨hlt, fun pair' hpair' => hlt.trans (hafter pair' hpair')⟩
    · rw [List.forall_mem_cons]
      exact ⟨⟨hname, hvalue⟩, hmem⟩

theorem Ascending.bound {pairs : List HeaderPair} {previous : String}
    (h : Ascending previous pairs) : Bound pairs := by
  obtain ⟨hpairwise, -, hmem⟩ := pairwise_of_ascending h
  refine ⟨?_, hmem⟩
  rw [Named, List.Nodup, List.pairwise_map]
  exact hpairwise.imp fun hlt => hlt.ne

theorem Bound.length_le {pairs : List HeaderPair} (h : Bound pairs) :
    pairs.length ≤ BOUND_HEADER_NAMES.length := by
  have hsubset : pairs.map Prod.fst ⊆ BOUND_HEADER_NAMES := by
    intro name hname
    obtain ⟨pair, hpair, rfl⟩ := List.mem_map.1 hname
    exact List.contains_iff_mem.1 (h.mem pair hpair).1
  have hle := (List.subperm_of_subset h.named hsubset).length_le
  rwa [List.length_map] at hle

theorem Bound.ascending_sortPairs {pairs : List HeaderPair} (h : Bound pairs) :
    Ascending "" (sortPairs pairs) := by
  have hbound := h.perm (sortPairs_perm pairs)
  refine ascending_of_pairwise hbound ?_ fun pair hpair => empty_lt_of_mem (hbound.mem pair hpair).1
  exact List.pairwise_insertionSort (fun a b : HeaderPair => a.1 ≤ b.1) pairs

/-! ## What is approved -/

/-- The pairs of the bound headers of a request. -/
def boundPair (header : String × String) : Option HeaderPair :=
  if BOUND_HEADER_NAMES.contains header.1.toLower = true then
    (canonicalValue header.2).map fun value => (header.1.toLower, value)
  else none

theorem bound_of_collect {found found' : Collected} {header : String × String}
    (h : collect found header = .ok found') :
    found'.bound = found.bound ++ (boundPair header).toList := by
  unfold collect at h
  dsimp only at h
  split at h
  · next hclass =>
    split_ifs at h
    split at h
    · cases h
    · next value hvalue =>
      obtain rfl := Except.ok.inj h
      rw [boundPair, if_pos (classifyHeader_eq_bound.1 hclass), hvalue]
      rfl
  all_goals first
    | (next hclass =>
        obtain rfl := Except.ok.inj h
        rw [boundPair, if_neg fun hname => ?_]
        · exact (List.append_nil _).symm
        · rw [classifyHeader_eq_bound.2 hname] at hclass
          cases hclass)
    | cases h

theorem bound_of_foldlM {found found' : Collected} {headers : List (String × String)}
    (h : headers.foldlM collect found = .ok found') :
    found'.bound = found.bound ++ headers.filterMap boundPair := by
  induction headers generalizing found with
  | nil =>
    obtain rfl := Except.ok.inj h
    exact (List.append_nil _).symm
  | cons header headers ih =>
    rw [List.foldlM_cons] at h
    obtain ⟨next, hnext, h⟩ := bind_eq_ok.1 h
    rw [ih h, bound_of_collect hnext, List.append_assoc, List.filterMap_cons]
    cases boundPair header <;> rfl

/-- The body a request is approved with. -/
def approvedBody (request : LayerRequest) : List UInt8 :=
  if request.method = "POST" then request.body.getD [] else []

/-- What an approved request is to the request it was made from. -/
structure Represents (P : Platform) (request : LayerRequest) (approved : RequestClaims) : Prop where
  method : approved.method = request.method
  target : approved.target = request.target
  pairs : approved.pairs = sortPairs (request.headers.filterMap boundPair)
  bodyLen : approved.bodyLen = (approvedBody request).length
  digest : approved.bodySha256 =
    if request.method = "POST" then P.sha256B64 (approvedBody request) else EMPTY_BODY_SHA256

theorem isSome_digest (d : Digest) :
    (decodeCanonicalB64Of 32 (digestBase64url d)).isSome = true := by
  have hlength : d.toList.length = 32 := d.length_toList
  have hne : d.toList ≠ [] := by
    intro hnil
    rw [hnil] at hlength
    cases hlength
  rw [digestBase64url, decodeCanonicalB64Of_eq_some.2 ⟨⟨hne, rfl⟩, hlength⟩]
  rfl

theorem isSome_empty_digest : (decodeCanonicalB64Of 32 EMPTY_BODY_SHA256).isSome = true := by
  decide +kernel

/-- **What the plane approves can be carried by a proof**, and represents the request. -/
theorem semantic_of_buildApprovedRequest {P : Platform} {request : LayerRequest}
    {approval : Approval} (h : buildApprovedRequest P request = .ok approval) :
    approval.approved.Semantic ∧ Represents P request approval.approved := by
  simp only [buildApprovedRequest, bind_eq_ok, ensure_eq_ok, exists_const] at h
  obtain ⟨hmethod, htarget, found, hfound, -, -, -, hhost, h⟩ := h
  have hbound := bound_foldlM bound_nil hfound
  have hpairs := bound_of_foldlM hfound
  rw [List.nil_append] at hpairs
  have hvalue (name : String) : valueOf (sortPairs found.bound) name = valueOf found.bound name :=
    valueOf_perm hbound.named (sortPairs_perm found.bound) name
  have hsorted := hbound.ascending_sortPairs
  have hcount := (hbound.perm (sortPairs_perm found.bound)).length_le
  split_ifs at h with hpost
  · simp only [bind_eq_ok, ensure_eq_ok, exists_const] at h
    obtain ⟨htype, ⟨-, hbody⟩, -, h⟩ := h
    obtain rfl := Except.ok.inj h
    obtain ⟨body, hsome, hle⟩ := (Option.any_eq_true _ _).1 hbody
    have hle : body.length ≤ MAX_SEMANTIC_BODY := by simpa using hle
    have hget : (request.method = "GET") = False := by
      rw [hpost]
      decide
    refine ⟨⟨hmethod, htarget, hcount, hsorted, by rwa [hsome], isSome_digest _, ?_⟩, rfl, rfl,
      congrArg sortPairs hpairs, ?_, ?_⟩
    · simp only [RequestClaims.isCoherent, RequestClaims.header, ← valueOf.eq_1, hvalue, hhost,
        hget, if_false, htype]
      decide
    · rw [approvedBody, if_pos hpost]
    · rw [approvedBody, if_pos hpost, if_pos hpost]
  · simp only [bind_eq_ok, ensure_eq_ok, exists_const] at h
    obtain ⟨htype, -, h⟩ := h
    obtain rfl := Except.ok.inj h
    have hget : request.method = "GET" := hmethod.resolve_right hpost
    refine ⟨⟨hmethod, htarget, hcount, hsorted, Nat.zero_le _, isSome_empty_digest, ?_⟩, rfl, rfl,
      congrArg sortPairs hpairs, ?_, ?_⟩
    · simp only [RequestClaims.isCoherent, RequestClaims.header, ← valueOf.eq_1, hvalue, hhost,
        hget, if_true, htype]
      decide
    · rw [approvedBody, if_neg hpost]
      rfl
    · rw [if_neg hpost]

/-! ## The emitted headers -/

/-- The raw headers a hop receives for a request: those emitted for it, the boundary's proof if it
sends one, the plane's, and the header the platform adds. -/
def hopHeaders (request : RequestClaims) (ba : Option String) (pb connection : String) :
    List (String × String) :=
  semanticWireHeaders request ++ (ba.map fun header => (HOP_BA_HEADER, header)).toList ++
    [(HOP_PB_HEADER, pb), ("Connection", connection)]

theorem toLower_of_mem {name : String} (h : BOUND_HEADER_NAMES.contains name = true) :
    name.toLower = name := by
  simp only [BOUND_HEADER_NAMES, List.contains_cons, List.contains_nil, Bool.or_false,
    Bool.or_eq_true, beq_iff_eq] at h
  rcases h with rfl | rfl | rfl <;> decide +kernel

/-- The scan takes bound pairs over as they are. -/
theorem foldl_scanHeader_pairs {pairs : List HeaderPair} {scan : HopScan} (h : Bound pairs)
    (hfresh : ∀ pair ∈ pairs, ∀ seen ∈ scan.bound, seen.1 ≠ pair.1) :
    pairs.foldl HopScan.scanHeader scan = { scan with bound := scan.bound ++ pairs } := by
  induction pairs generalizing scan with
  | nil => rw [List.foldl_nil, List.append_nil]
  | cons pair pairs ih =>
    obtain ⟨hpair, hrest⟩ := List.nodup_cons.1 h.named
    obtain ⟨hname, hvalue⟩ := h.mem pair List.mem_cons_self
    have hnew : ¬ (scan.bound.any fun seen => seen.1 = pair.1) = true := by
      rw [List.any_eq_true]
      rintro ⟨seen, hseen, heq⟩
      exact hfresh pair List.mem_cons_self seen hseen (by simpa using heq)
    have hstep : scan.scanHeader pair = { scan with bound := scan.bound ++ [pair] } := by
      simp only [HopScan.scanHeader, toLower_of_mem hname, classifyHeader_eq_bound.2 hname, hvalue,
        if_neg hnew]
    rw [List.foldl_cons, hstep, ih ⟨hrest, fun p hp => h.mem p (List.mem_cons_of_mem pair hp)⟩ ?_]
    · simp
    · intro p hp seen hseen
      rcases List.mem_append.1 hseen with hseen | hseen
      · exact hfresh p (List.mem_cons_of_mem pair hp) seen hseen
      · rw [List.mem_singleton.1 hseen]
        intro heq
        exact hpair (heq ▸ List.mem_map_of_mem hp)

theorem isDigit_bounds {c : Char} (h : Foundations.Json.isDigit c = true) :
    isVisible c = true ∧ c.isDigit = true := by
  rw [Foundations.Json.isDigit, Bool.and_eq_true, decide_eq_true_eq, decide_eq_true_eq] at h
  have hall : ∀ k < 58, 48 ≤ k →
      isVisible (Char.ofNat k) = true ∧ (Char.ofNat k).isDigit = true := by decide
  rw [← Char.ofNat_toNat c]
  exact hall _ (by omega) h.1

/-- A length is read back from its header. -/
theorem contentLength?_toString {n : ℕ} (h : n ≤ MAX_SEMANTIC_BODY) :
    trimOws (toString n) = toString n ∧ contentLength? (toString n) = some n := by
  have hlist : (toString n).toList = Nat.toDigits 10 n := Nat.toList_repr
  have hdigits : ∀ c ∈ (toString n).toList, isVisible c = true ∧ c.isDigit = true := by
    rw [hlist]
    exact fun c hc => isDigit_bounds (Foundations.Json.all_toDigits n c hc)
  obtain ⟨c, cs, hcons, hzero⟩ := Foundations.Json.toDigits_eq_cons n
  rw [← hlist] at hcons
  have hhead : (toString n).toList.head?.any isVisible = true := by
    rw [hcons]
    exact (hdigits c (by rw [hcons]; exact List.mem_cons_self)).1
  have hlast : (toString n).toList.getLast?.any isVisible = true := by
    obtain ⟨d, hd⟩ := Option.isSome_iff_exists.1
      (List.getLast?_isSome.2 (show (toString n).toList ≠ [] by rw [hcons]; exact List.cons_ne_nil _ _))
    rw [hd]
    exact (hdigits d (List.mem_of_getLast? hd)).1
  refine ⟨trimOws_of_visible hhead hlast, ?_⟩
  have hlength : (toString n).length ≤ 9 := by
    rw [← String.length_toList, hlist, Nat.length_toDigits_le_iff (by decide) (by decide)]
    exact h.trans_lt (by decide)
  have hstart : toString n = "0" ∨ (toString n).toList.head?.any (fun c => c ≠ '0') = true := by
    by_cases hc : c = '0'
    · obtain rfl := hzero hc
      exact .inl rfl
    · refine .inr ?_
      rw [hcons]
      simpa using hc
  rw [contentLength?, if_pos ⟨hlength, List.all_eq_true.2 fun d hd => (hdigits d hd).2, hstart⟩]
  exact Nat.toNat?_repr n

theorem scanHeader_length (scan : HopScan) {n : ℕ} (h : n ≤ MAX_SEMANTIC_BODY) :
    scan.scanHeader ("content-length", toString n) =
      { scan with contentLengths := scan.contentLengths ++ [toString n] } := by
  have hname : "content-length".toLower = "content-length" := by decide +kernel
  have hclass : classifyHeader "content-length" = .derived := by decide
  simp only [HopScan.scanHeader, hname, hclass, (contentLength?_toString h).1]

theorem scanHeader_proof (scan : HopScan) (header : String) :
    scan.scanHeader (HOP_PB_HEADER, header) = { scan with pb := scan.pb ++ [header] } ∧
      scan.scanHeader (HOP_BA_HEADER, header) = { scan with ba := scan.ba ++ [header] } := by
  have hpb : HOP_PB_HEADER.toLower = HOP_PB_HEADER := by decide +kernel
  have hba : HOP_BA_HEADER.toLower = HOP_BA_HEADER := by decide +kernel
  have hclass : classifyHeader HOP_PB_HEADER = .proof := by decide
  have hclass' : classifyHeader HOP_BA_HEADER = .proof := by decide
  have hne : HOP_BA_HEADER ≠ HOP_PB_HEADER := by decide
  constructor
  · simp only [HopScan.scanHeader, hpb, hclass, if_true]
  · simp only [HopScan.scanHeader, hba, hclass', if_neg hne]

/-- The values of a connection header that a hop accepts. -/
def IsConnection (connection : String) : Prop := connection = "close" ∨ connection = "keep-alive"

theorem scanHeader_connection {scan : HopScan} (hnone : scan.connections = 0) {connection : String}
    (h : IsConnection connection) :
    scan.scanHeader ("Connection", connection) = { scan with connections := 1 } := by
  have hname : "Connection".toLower = "connection" := by decide +kernel
  have hclass : classifyHeader "connection" = .transport := by decide
  have hvalue : (trimOws connection).toLower = connection := by
    rcases h with rfl | rfl <;> decide +kernel
  have hnot : ¬ (1 < 0 + 1 ∨ (connection ≠ "close" ∧ connection ≠ "keep-alive")) := by
    rintro (hlt | ⟨hclose, halive⟩)
    · omega
    · exact h.elim hclose halive
  simp only [HopScan.scanHeader, hname, hclass, hvalue, hnone, hnot, decide_false, Bool.or_false]

/-- A request whose length is declared as its method asks has nothing wrong as a whole. -/
theorem close_of_framed {scan : HopScan} {method : String} (hduplicate : scan.duplicate = false)
    (hvalue : scan.value = false) (hnonces : scan.nonces = [])
    (h : (scan.contentLengths = [] ∧ method ≠ "POST") ∨ ∃ length, scan.contentLengths = [length] ∧
      (contentLength? length).isSome = true ∧ method ≠ "GET") :
    scan.close method = scan := by
  obtain ⟨hlengths, hmethod⟩ | ⟨length, hlengths, hsome, hmethod⟩ := h
  · cases scan
    simp_all [HopScan.close]
  · cases scan
    simp_all [HopScan.close]

/-- The declared lengths of the emitted headers. -/
def lengthsOf (request : RequestClaims) : List String :=
  if request.method = "POST" then [toString request.bodyLen] else []

/-- **The scan finds in the emitted headers what was approved**, and no violation. -/
theorem scanHopHeaders_hopHeaders {request : RequestClaims} (h : request.Semantic)
    {connection : String} (hconnection : IsConnection connection) (ba : Option String)
    (pb : String) :
    scanHopHeaders (hopHeaders request ba pb connection) request.method =
      { pb := [pb], ba := ba.toList, bound := request.pairs, contentLengths := lengthsOf request
        connections := 1 } := by
  have hpairs : request.pairs.foldl HopScan.scanHeader {} = { bound := request.pairs } :=
    foldl_scanHeader_pairs h.pairs.bound fun _ _ seen hseen => by cases hseen
  have hlengths : (semanticWireHeaders request).foldl HopScan.scanHeader {} =
      { bound := request.pairs, contentLengths := lengthsOf request } := by
    rw [semanticWireHeaders, List.foldl_append, hpairs, lengthsOf]
    split_ifs with hpost
    · rw [List.foldl_cons, List.foldl_nil, scanHeader_length _ h.length]
      rfl
    · rfl
  have hba : ((ba.map fun header => (HOP_BA_HEADER, header)).toList).foldl HopScan.scanHeader
      { bound := request.pairs, contentLengths := lengthsOf request } =
        { ba := ba.toList, bound := request.pairs, contentLengths := lengthsOf request } := by
    cases ba with
    | none => rfl
    | some header =>
      rw [Option.map_some, Option.toList_some, List.foldl_cons, List.foldl_nil,
        (scanHeader_proof _ header).2]
      rfl
  have hfold : (hopHeaders request ba pb connection).foldl HopScan.scanHeader {} =
      { pb := [pb], ba := ba.toList, bound := request.pairs, contentLengths := lengthsOf request
        connections := 1 } := by
    rw [hopHeaders, List.foldl_append, List.foldl_append, hlengths, hba, List.foldl_cons,
      (scanHeader_proof _ pb).1, List.foldl_cons, scanHeader_connection rfl hconnection]
    rfl
  rw [scanHopHeaders, hfold]
  refine close_of_framed rfl rfl rfl ?_
  rcases h.method with hmethod | hmethod
  · have hpost : request.method ≠ "POST" := by rw [hmethod]; decide
    exact .inl ⟨if_neg hpost, hpost⟩
  · have hget : request.method ≠ "GET" := by rw [hmethod]; decide
    exact .inr ⟨_, if_pos hmethod, (contentLength?_toString h.length).2 ▸ rfl, hget⟩

end Limitmark.Hop
