import Limitmark.Hop.Issuance
import Limitmark.Hop.VerifierRun

/-!
# The history of a call

What one step of a verifier does to its calls (`calls_step`): a new one is opened, or one that is
still open moves on. So every call rests on the request it was opened with (`History`), and what other
calls do leaves it alone (`getElem?_exec_of_others`).

An admitted request has nothing in its raw headers but the closed set, each bound name once, and they
are what its proof says (`ClosedHeaders`).
-/

namespace Limitmark.Hop

open Limitmark.Defense Limitmark.Plane Limitmark.Foundations

/-! ## Steps -/

/-- The call an operation moves. -/
def Verifier.Op.call : Verifier.Op → Option ℕ
  | .begin _ _ => none
  | .verify i _ => some i
  | .body i _ => some i
  | .fail i => some i

/-- A call that has not come to its end. -/
def CallState.IsOpen : CallState → Prop
  | .verifying _ _ _ => True
  | .reading _ _ _ _ => True
  | _ => False

section Steps

variable (P : Platform) (config : AdmissionConfig) (fenceMs : ℚ)

/-- A call at its first suspension. -/
def opened (request : AdmissionRequest) (nowMs : ℚ) : CallState :=
  match precheck P config fenceMs nowMs request with
  | .error refusal => .refused none refusal
  | .ok checked => .verifying request checked nowMs

/-- How an open call moves on. -/
inductive Advances : CallState → CallState → Prop
  | refuse {old : CallState} (hopen : old.IsOpen) (reservation : Option Reservation)
      (refusal : Refused) : Advances old (.refused reservation refusal)
  | read {request : AdmissionRequest} {c : Checked} {r : Reservation} {ticket : ReplayTicket}
      (h : authenticate P config fenceMs r.nowMs c = .ok r.verified) :
      Advances (.verifying request c r.nowMs) (.reading request c.tag r ticket)
  | admitEmpty {request : AdmissionRequest} {c : Checked} {r : Reservation} {a : Admitted}
      (h : authenticate P config fenceMs r.nowMs c = .ok r.verified)
      (hempty : r.verified.claims.request.bodyLen = 0)
      (hconclude : Verifier.conclude P config.role request r.verified (.complete []) = .ok a) :
      Advances (.verifying request c r.nowMs) (.admitted r a)
  | admitRead {request : AdmissionRequest} {tag : Option String} {r : Reservation}
      {ticket : ReplayTicket} {events : List StreamEvent} {a : Admitted}
      (hconclude : Verifier.conclude P config.role request r.verified
        (readBody r.verified.claims.request.bodyLen [] events) = .ok a) :
      Advances (.reading request tag r ticket) (.admitted r a)

variable (v : Verifier) (i : ℕ)

theorem calls_finish {old : CallState} (hopen : old.IsOpen) (r : Reservation)
    (ticket : ReplayTicket) {outcome : Except Refused Admitted}
    (h : ∀ a, outcome = .ok a → Advances P config fenceMs old (.admitted r a)) :
    ∃ new, Advances P config fenceMs old new ∧
      (v.finish i r ticket outcome).calls = v.calls.set i new := by
  cases outcome with
  | ok a => exact ⟨_, h a rfl, rfl⟩
  | error refusal => exact ⟨_, .refuse hopen (some r) refusal, rfl⟩

theorem calls_verify (mono nowMs : ℚ) (request : AdmissionRequest) (c : Checked) :
    ∃ new, Advances P config fenceMs (.verifying request c nowMs) new ∧
      (v.verify P config fenceMs i mono request c nowMs).calls = v.calls.set i new := by
  have hopen : CallState.IsOpen (.verifying request c nowMs) := trivial
  rw [Verifier.verify]
  cases ha : authenticate P config fenceMs nowMs c with
  | error refusal => exact ⟨_, .refuse hopen none refusal, rfl⟩
  | ok verified =>
    dsimp only
    cases (v.guard.reserve mono (wants config.role verified)).2 with
    | error refusal => cases refusal <;> exact ⟨_, .refuse hopen none _, rfl⟩
    | ok ticket =>
      dsimp only
      split_ifs with hlong hempty
      · exact calls_finish P config fenceMs ⟨_, v.calls⟩ i hopen _ ticket fun a h => by cases h
      · refine calls_finish P config fenceMs ⟨_, v.calls⟩ i hopen _ ticket fun a h => ?_
        exact .admitEmpty (r := ⟨verified, nowMs, mono⟩) ha hempty (Verifier.outcomeOf_eq_ok h)
      · exact ⟨_, .read (r := ⟨verified, nowMs, mono⟩) ha, rfl⟩

/-- **What a step does to the calls**: it opens one, or one that is open moves on, or none does. -/
theorem calls_step (op : Verifier.Op) :
    (∃ request nowMs, op = .begin request nowMs ∧ (Verifier.step P config fenceMs v op).1.calls =
        v.calls ++ [opened P config fenceMs request nowMs]) ∨
      (Verifier.step P config fenceMs v op).1.calls = v.calls ∨
      ∃ i old new, op.call = some i ∧ v.calls[i]? = some old ∧ old.IsOpen ∧
        Advances P config fenceMs old new ∧
        (Verifier.step P config fenceMs v op).1.calls = v.calls.set i new := by
  cases op with
  | begin request nowMs =>
    refine .inl ⟨request, nowMs, rfl, ?_⟩
    rw [Verifier.step, opened]
    cases precheck P config fenceMs nowMs request <;> rfl
  | verify i mono =>
    refine .inr ?_
    rw [Verifier.step]
    cases hcall : v.calls[i]? with
    | none => exact .inl rfl
    | some call =>
      cases call with
      | verifying request c nowMs =>
        obtain ⟨new, hadvances, hcalls⟩ := calls_verify P config fenceMs v i mono nowMs request c
        exact .inr ⟨i, _, new, rfl, hcall, trivial, hadvances, hcalls⟩
      | _ => exact .inl rfl
  | body i events =>
    refine .inr ?_
    rw [Verifier.step]
    cases hcall : v.calls[i]? with
    | none => exact .inl rfl
    | some call =>
      cases call with
      | reading request tag r ticket =>
        have hopen : CallState.IsOpen (.reading request tag r ticket) := trivial
        obtain ⟨new, hadvances, hcalls⟩ := calls_finish P config fenceMs v i hopen r ticket
          fun a h => .admitRead (Verifier.outcomeOf_eq_ok h)
        exact .inr ⟨i, _, new, rfl, hcall, trivial, hadvances, hcalls⟩
      | _ => exact .inl rfl
  | fail i =>
    refine .inr ?_
    rw [Verifier.step]
    cases hcall : v.calls[i]? with
    | none => exact .inl rfl
    | some call =>
      cases call with
      | reading request tag r ticket =>
        have hopen : CallState.IsOpen (.reading request tag r ticket) := trivial
        exact .inr ⟨i, _, _, rfl, hcall, hopen, .refuse hopen (some r) _, rfl⟩
      | _ => exact .inl rfl

/-! ## Other calls -/

variable {P config fenceMs v i}

/-- A step about other calls leaves a call alone. -/
theorem getElem?_step_of_other {call : CallState} (hcall : v.calls[i]? = some call)
    {op : Verifier.Op} (hother : op.call ≠ some i) :
    (Verifier.step P config fenceMs v op).1.calls[i]? = some call := by
  have hlt : i < v.calls.length := (List.getElem?_eq_some_iff.1 hcall).1
  obtain ⟨request, nowMs, -, hcalls⟩ | hcalls | ⟨j, old, new, hop, -, -, -, hcalls⟩ :=
    calls_step P config fenceMs v op
  · rw [hcalls, List.getElem?_append_left hlt, hcall]
  · rw [hcalls, hcall]
  · have hne : j ≠ i := by
      rintro rfl
      exact hother hop
    rw [hcalls, List.getElem?_set_ne hne, hcall]

theorem getElem?_exec_of_others {call : CallState} (hcall : v.calls[i]? = some call)
    {ops : List Verifier.Op} (hothers : ∀ op ∈ ops, op.call ≠ some i) :
    (exec (Verifier.step P config fenceMs) v ops).calls[i]? = some call := by
  induction ops generalizing v with
  | nil => exact hcall
  | cons op ops ih =>
    exact ih (getElem?_step_of_other hcall (hothers op List.mem_cons_self))
      fun op' hop' => hothers op' (List.mem_cons_of_mem op hop')

/-- A call that came to its end stays there. -/
theorem getElem?_step_of_closed {call : CallState} (hcall : v.calls[i]? = some call)
    (hclosed : ¬ call.IsOpen) (op : Verifier.Op) :
    (Verifier.step P config fenceMs v op).1.calls[i]? = some call := by
  have hlt : i < v.calls.length := (List.getElem?_eq_some_iff.1 hcall).1
  obtain ⟨request, nowMs, -, hcalls⟩ | hcalls | ⟨j, old, new, -, hold, hopen, -, hcalls⟩ :=
    calls_step P config fenceMs v op
  · rw [hcalls, List.getElem?_append_left hlt, hcall]
  · rw [hcalls, hcall]
  · have hne : j ≠ i := by
      rintro rfl
      rw [hold, Option.some.injEq] at hcall
      exact hclosed (hcall ▸ hopen)
    rw [hcalls, List.getElem?_set_ne hne, hcall]

theorem admittedAt_eq_some {a : Admitted} :
    v.admittedAt i = some a ↔ ∃ r, v.calls[i]? = some (.admitted r a) := by
  rw [Verifier.admittedAt]
  constructor
  · intro h
    split at h
    · next r a' hcall => exact ⟨r, by rw [hcall, Option.some.inj h]⟩
    · cases h
  · rintro ⟨r, hcall⟩
    rw [hcall]

/-- An admission is final. -/
theorem admittedAt_step {a : Admitted} (h : v.admittedAt i = some a) (op : Verifier.Op) :
    (Verifier.step P config fenceMs v op).1.admittedAt i = some a := by
  obtain ⟨r, hcall⟩ := admittedAt_eq_some.1 h
  exact admittedAt_eq_some.2 ⟨r, getElem?_step_of_closed hcall (fun h => h) op⟩

end Steps

/-! ## The request of a call -/

section History

variable (P : Platform) (config : AdmissionConfig) (fenceMs : ℚ)

/-- What a call has come to with the request it was opened with. -/
def CallState.Of (request : AdmissionRequest) (nowMs : ℚ) : CallState → Prop
  | .verifying request' c nowMs' => request' = request ∧ nowMs' = nowMs ∧
      precheck P config fenceMs nowMs request = .ok c
  | .reading request' _ r _ => request' = request ∧
      Verifies P config fenceMs (fun _ => True) nowMs request r.verified
  | .refused _ _ => True
  | .admitted r a => Verifies P config fenceMs (fun _ => True) nowMs request r.verified ∧
      ∃ body, body.length = r.verified.claims.request.bodyLen ∧
        Verifier.conclude P config.role request r.verified (.complete body) = .ok a

/-- Every call rests on a request that had some property when it was opened. -/
def History (R : ℕ → AdmissionRequest → ℚ → Prop) (v : Verifier) : Prop :=
  ∀ i call, v.calls[i]? = some call →
    ∃ request nowMs, R i request nowMs ∧ call.Of P config fenceMs request nowMs

variable {P config fenceMs} {R : ℕ → AdmissionRequest → ℚ → Prop} {v : Verifier}

/-- A body that was read has the length that was expected. -/
theorem length_of_readBody {expected : ℕ} {chunks body : List UInt8} {events : List StreamEvent}
    (h : readBody expected chunks events = .complete body) : body.length = expected := by
  induction events generalizing chunks with
  | nil => cases h
  | cons event events ih =>
    cases event with
    | data chunk =>
      rw [readBody] at h
      split_ifs at h
      exact ih h
    | finished =>
      rw [readBody] at h
      split_ifs at h with hlength
      cases h
      exact hlength
    | closed => cases h

theorem complete_of_conclude {role : HopRole} {request : AdmissionRequest} {verified : Verified}
    {read : BodyResult} {a : Admitted} (h : Verifier.conclude P role request verified read = .ok a) :
    ∃ body, read = .complete body := by
  cases read with
  | complete body => exact ⟨body, rfl⟩
  | _ => cases h

theorem of_opened (request : AdmissionRequest) (nowMs : ℚ) :
    (opened P config fenceMs request nowMs).Of P config fenceMs request nowMs := by
  rw [opened]
  cases h : precheck P config fenceMs nowMs request with
  | error refusal => trivial
  | ok c => exact ⟨rfl, rfl, h⟩

theorem Advances.of {request : AdmissionRequest} {nowMs : ℚ} {old new : CallState}
    (h : Advances P config fenceMs old new) (hold : old.Of P config fenceMs request nowMs) :
    new.Of P config fenceMs request nowMs := by
  cases h with
  | refuse => trivial
  | read ha =>
    obtain ⟨rfl, rfl, hc⟩ := hold
    exact ⟨rfl, trivial, _, hc, ha⟩
  | admitEmpty ha hempty hconclude =>
    obtain ⟨rfl, rfl, hc⟩ := hold
    exact ⟨⟨trivial, _, hc, ha⟩, [], hempty.symm, hconclude⟩
  | admitRead hconclude =>
    obtain ⟨rfl, hverifies⟩ := hold
    obtain ⟨body, hbody⟩ := complete_of_conclude hconclude
    rw [hbody] at hconclude
    exact ⟨hverifies, body, length_of_readBody hbody, hconclude⟩

/-- **Every call keeps resting on its request.** -/
theorem History.step (h : History P config fenceMs R v) {op : Verifier.Op}
    (hop : ∀ request nowMs, op = .begin request nowMs → R v.calls.length request nowMs) :
    History P config fenceMs R (Verifier.step P config fenceMs v op).1 := by
  intro i call hcall
  obtain ⟨request, nowMs, hbegin, hcalls⟩ | hcalls | ⟨j, old, new, -, hold, -, hadvances, hcalls⟩ :=
    calls_step P config fenceMs v op
  · rw [hcalls] at hcall
    by_cases hlt : i < v.calls.length
    · rw [List.getElem?_append_left hlt] at hcall
      exact h i call hcall
    · have heq : i = v.calls.length := by
        have := (List.getElem?_eq_some_iff.1 hcall).1
        rw [List.length_append, List.length_singleton] at this
        omega
      subst heq
      rw [List.getElem?_concat_length, Option.some.injEq] at hcall
      exact ⟨request, nowMs, hop request nowMs hbegin, hcall ▸ of_opened request nowMs⟩
  · rw [hcalls] at hcall
    exact h i call hcall
  · rw [hcalls] at hcall
    by_cases hij : j = i
    · subst hij
      have hlt : j < v.calls.length := (List.getElem?_eq_some_iff.1 hold).1
      rw [List.getElem?_set_self hlt, Option.some.injEq] at hcall
      obtain ⟨request, nowMs, hR, hof⟩ := h j old hold
      exact ⟨request, nowMs, hR, hcall ▸ hadvances.of hof⟩
    · rw [List.getElem?_set_ne hij] at hcall
      exact h i call hcall

theorem History.mono {R' : ℕ → AdmissionRequest → ℚ → Prop} (h : History P config fenceMs R v)
    (hR : ∀ i request nowMs, R i request nowMs → R' i request nowMs) :
    History P config fenceMs R' v := by
  intro i call hcall
  obtain ⟨request, nowMs, hr, hof⟩ := h i call hcall
  exact ⟨request, nowMs, hR i request nowMs hr, hof⟩

theorem history_new (capacity : ℕ) : History P config fenceMs R { guard := { capacity } } := by
  intro i call hcall
  simp at hcall

end History

/-! ## The raw headers of a request -/

/-- The classes of the names a hop accepts. -/
def HeaderClass.IsClosed : HeaderClass → Prop
  | .bound | .derived | .transport | .measurement | .proof => True
  | _ => False

/-- Raw headers in the closed set, each bound name once and with a canonical value: these pairs. -/
structure ClosedHeaders (rawHeaders : List (String × String)) (pairs : List HeaderPair) : Prop where
  closed : ∀ header ∈ rawHeaders, (classifyHeader header.1.toLower).IsClosed
  canonical : ∀ header ∈ rawHeaders, BOUND_HEADER_NAMES.contains header.1.toLower = true →
    (canonicalValue header.2).isSome = true
  once : Named (rawHeaders.filterMap boundPair)
  pairs : sortPairs (rawHeaders.filterMap boundPair) = pairs

/-- A scan without a duplicate, an unbound name or a bad value so far. -/
structure Clean (scan : HopScan) : Prop where
  duplicate : scan.duplicate = false
  unbound : scan.unbound = false
  value : scan.value = false

/-- A clean step: the header is in the closed set, and a bound one is kept. -/
theorem scanHeader_clean {scan : HopScan} {header : String × String}
    (h : Clean (scan.scanHeader header)) :
    Clean scan ∧ (classifyHeader header.1.toLower).IsClosed ∧
      (BOUND_HEADER_NAMES.contains header.1.toLower = true →
        (canonicalValue header.2).isSome = true) ∧
      (scan.scanHeader header).bound = scan.bound ++ (boundPair header).toList ∧
      (Bound scan.bound → Bound (scan.scanHeader header).bound) := by
  have hother (hclass : classifyHeader header.1.toLower ≠ .bound) :
      BOUND_HEADER_NAMES.contains header.1.toLower ≠ true ∧ (boundPair header).toList = [] := by
    have hname : ¬ BOUND_HEADER_NAMES.contains header.1.toLower = true := fun hname =>
      hclass (classifyHeader_eq_bound.2 hname)
    exact ⟨hname, by rw [boundPair, if_neg hname]; rfl⟩
  unfold HopScan.scanHeader at h ⊢
  dsimp only at h ⊢
  split at h
  · next hclass =>
    have hname := classifyHeader_eq_bound.1 hclass
    split_ifs at h with hseen
    · exact absurd h.duplicate (by simp)
    · split at h
      · exact absurd h.value (by simp)
      · next value hvalue =>
        simp only [hclass, if_neg hseen, hvalue]
        refine ⟨⟨h.duplicate, h.unbound, h.value⟩, trivial, fun _ => rfl, ?_, fun hbound =>
          hbound.append hseen hname hvalue⟩
        rw [boundPair, if_pos hname, hvalue]
        rfl
  case h_5 hclass =>
    obtain ⟨hname, hpair⟩ := hother (by rw [hclass]; exact fun hne => by cases hne)
    simp only [hclass]
    split_ifs at h ⊢ <;>
      exact ⟨⟨h.duplicate, h.unbound, h.value⟩, trivial, fun hmem => absurd hmem hname,
        by rw [hpair, List.append_nil], id⟩
  case h_6 => exact absurd h.unbound (by simp)
  all_goals
    next hclass =>
      obtain ⟨hname, hpair⟩ := hother (by rw [hclass]; exact fun hne => by cases hne)
      simp only [hclass]
      exact ⟨⟨h.duplicate, h.unbound, h.value⟩, trivial, fun hmem => absurd hmem hname,
        by rw [hpair, List.append_nil], id⟩

theorem clean_of_foldl {rawHeaders : List (String × String)} {scan : HopScan}
    (h : Clean (rawHeaders.foldl HopScan.scanHeader scan)) : Clean scan := by
  induction rawHeaders generalizing scan with
  | nil => exact h
  | cons header rawHeaders ih => exact (scanHeader_clean (ih h)).1

theorem foldl_scanHeader_clean {rawHeaders : List (String × String)} {scan : HopScan}
    (h : Clean (rawHeaders.foldl HopScan.scanHeader scan)) (hbound : Bound scan.bound) :
    (∀ header ∈ rawHeaders, (classifyHeader header.1.toLower).IsClosed ∧
      (BOUND_HEADER_NAMES.contains header.1.toLower = true →
        (canonicalValue header.2).isSome = true)) ∧
      (rawHeaders.foldl HopScan.scanHeader scan).bound =
        scan.bound ++ rawHeaders.filterMap boundPair ∧
      Bound (rawHeaders.foldl HopScan.scanHeader scan).bound := by
  induction rawHeaders generalizing scan with
  | nil => exact ⟨fun _ h => (by cases h), by simp, hbound⟩
  | cons header rawHeaders ih =>
    rw [List.foldl_cons] at h ⊢
    obtain ⟨-, hclosed, hcanonical, hpair, hkeeps⟩ := scanHeader_clean (clean_of_foldl h)
    obtain ⟨hall, hrest, hfinal⟩ := ih h (hkeeps hbound)
    refine ⟨List.forall_mem_cons.2 ⟨⟨hclosed, hcanonical⟩, hall⟩, ?_, hfinal⟩
    rw [hrest, hpair, List.append_assoc, List.filterMap_cons]
    cases boundPair header <;> rfl

/-- **A scan without a violation** saw nothing but the closed set, each bound name once. -/
theorem closedHeaders_of_scan {rawHeaders : List (String × String)} {method : String}
    (h : (scanHopHeaders rawHeaders method).violation = none) :
    ClosedHeaders rawHeaders (scanHopHeaders rawHeaders method).pairs := by
  rw [HopScan.violation] at h
  split_ifs at h with hduplicate hunbound hframing hvalue
  rw [scanHopHeaders] at hduplicate hunbound hvalue
  simp only [HopScan.close, Bool.or_eq_true, not_or, Bool.not_eq_true] at hduplicate hunbound hvalue
  have hclean : Clean (rawHeaders.foldl HopScan.scanHeader {}) :=
    ⟨hduplicate.1, hunbound, hvalue.1⟩
  obtain ⟨hall, hpairs, hbound⟩ := foldl_scanHeader_clean hclean bound_nil
  rw [show ({} : HopScan).bound = [] from rfl, List.nil_append] at hpairs
  refine ⟨fun header hmem => (hall header hmem).1, fun header hmem => (hall header hmem).2,
    hpairs ▸ hbound.named, ?_⟩
  rw [← hpairs]
  rfl

end Limitmark.Hop
