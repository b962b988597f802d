import Mathlib.Data.List.Chain
import Mathlib.Tactic.Linarith
import Limitmark.Oidc.BoundedJwks

/-!
# Which document a signing key comes from

Runs of a resolver under calls and fetches that settle in any order, with any readings of the clock.
While a fetch is in flight no other is started, so the cache a waiting call has looked into is the
cache still there (`Coherent`). A call that is answered with a key is answered with one of the latest
document, unless the fetch it waited for brought a document without its key id and the key it found
before is not too old (`Superseded`): then it is answered with the old key.
-/

namespace Limitmark.Oidc

open Limitmark.Foundations

namespace JwksResolver

variable {κ : Type} {limits : JwksLimits} {r : JwksResolver κ}

/-- A step of a run. -/
abbrev JwksStep (κ : Type) := Entry (JwksResolver κ) (JwksEvent κ) (List (JwksAnswer κ))

/-- The document a step fetched and validated. -/
def fetched (e : JwksStep κ) : Option (JwksCache κ) :=
  match e.input with
  | .settle fetch (some (keys, fetchedAtMs)) =>
    if e.pre.fetches[fetch]? = some false then some ⟨keys, fetchedAtMs⟩ else none
  | _ => none

/-- The latest of the documents that were fetched. -/
def latest (tr : List (JwksStep κ)) : Option (JwksCache κ) := (tr.filterMap fetched).getLast?

/-- The two readings of a call that started a fetch: the call's, and that of the attempt. -/
def started (e : JwksStep κ) : Option (ℚ × ℚ) :=
  match e.input with
  | .getKey _ nowMs attemptMs =>
    if e.post.fetches.length = e.pre.fetches.length + 1 then some (nowMs, attemptMs) else none
  | _ => none

/-- The key of an answer is in a document, under the key id that was asked for. -/
def Listed (document : Option (JwksCache κ)) (answer : JwksAnswer κ) : Prop :=
  ∀ key, answer.result = .ok key → ∃ kid cache, answer.kid = some kid ∧ document = some cache ∧
    cache.keys.lookup kid = some key

/-- The step answers from the document it fetched, from a fresh cache, or from a stale one when the
refresh failed or was not due. -/
def Sourced (limits : JwksLimits) (e : JwksStep κ) (answer : JwksAnswer κ) : Prop :=
  ∀ key, answer.result = .ok key →
    (∃ cache, fetched e = some cache ∧ ∃ kid, answer.kid = some kid ∧
      cache.keys.lookup kid = some key) ∨
    ∃ nowMs age, answer.ageMs = some age ∧ e.pre.age nowMs = some age ∧
      (age ≤ limits.cacheLifetimeMs ∨ age ≤ limits.cacheLifetimeMs + limits.staleGraceMs ∧
        ((∃ fetch, e.input = .settle fetch none) ∨
          ∃ header attemptMs, e.input = .getKey header nowMs attemptMs ∧ e.pre.refresh = none ∧
            e.pre.mayRefresh limits nowMs = false))

/-- A waiting call has a key that is not too old, and the document that is fetched for it has none
under its key id. -/
def Superseded (limits : JwksLimits) (e : JwksStep κ) : Prop :=
  ∃ cache ∈ fetched e, ∃ w ∈ e.pre.waiting, cache.keys.lookup w.kid = none ∧
    w.cached.isSome = true ∧
      ∃ age ∈ w.ageMs, age ≤ (limits.cacheLifetimeMs + limits.staleGraceMs : ℚ)

instance (e : JwksStep κ) : Decidable (Superseded limits e) := by
  unfold Superseded
  infer_instance

/-- **Cached signing keys honour revocation**, over a run. -/
structure Honoured (limits : JwksLimits) (tr : List (JwksStep κ)) : Prop where
  /-- A key that is returned is in the latest document. -/
  listed : ∀ before e after, tr = before ++ e :: after →
    ∀ answer ∈ e.out, Listed (latest (before ++ [e])) answer
  sourced : ∀ e ∈ tr, ∀ answer ∈ e.out, Sourced limits e answer
  /-- At most one fetch is in flight. -/
  single : ∀ e ∈ tr, e.post.fetches.count false ≤ 1
  /-- A fetch is started no earlier than the cooldown after the one before. -/
  cooldown : (tr.filterMap started).IsChain fun s s' => (limits.refreshCooldownMs : ℚ) ≤ s'.1 - s.2
  /-- Where the clock does not step back within a call, any two fetches are that far apart. -/
  spaced : (∀ s ∈ tr.filterMap started, s.1 ≤ s.2) →
    (tr.filterMap started).Pairwise fun s s' => (limits.refreshCooldownMs : ℚ) ≤ s'.2 - s.2

/-! ## While a fetch is in flight -/

/-- The refresh is the one fetch that is not settled, and a waiting call waits for it with what the
cache still has. -/
structure Coherent (r : JwksResolver κ) : Prop where
  flight : ∀ i, r.fetches[i]? = some false ↔ r.refresh = some i
  waiting : ∀ w ∈ r.waiting, r.refresh = some w.fetch ∧ w.cached = r.found w.kid ∧
    ∃ nowMs, w.ageMs = r.age nowMs

theorem Coherent.single (h : Coherent r) : r.fetches.count false ≤ 1 := by
  refine Cells.countP_le_one fun i j a b hi hj ha hb => ?_
  rw [beq_iff_eq] at ha hb
  rw [ha, h.flight] at hi
  rw [hb, h.flight, hi, Option.some.injEq] at hj
  exact hj

theorem coherent_new : Coherent ({} : JwksResolver κ) :=
  ⟨fun i => by simp, fun w hw => absurd hw List.not_mem_nil⟩

/-- A call that waits leaves the resolver coherent. -/
theorem Coherent.join (h : Coherent r) {r' : JwksResolver κ} {nowMs attemptMs : ℚ} {fetch : ℕ}
    (hjoin : Joins limits r nowMs attemptMs r' fetch) (kid : String) :
    Coherent { r' with waiting := r.waiting ++ [⟨kid, r.found kid, r.age nowMs, fetch⟩] } := by
  cases hjoin with
  | joined hflight =>
    refine ⟨h.flight, ?_⟩
    rw [List.forall_mem_append, List.forall_mem_singleton]
    exact ⟨h.waiting, hflight, rfl, nowMs, rfl⟩
  | started hnone _ =>
    refine ⟨fun i => ?_, ?_⟩
    · dsimp only
      constructor
      · intro hi
        rcases Cells.getElem?_concat_eq_some hi with ⟨rfl, -⟩ | ⟨-, hi⟩
        · rfl
        · rw [h.flight, hnone] at hi
          cases hi
      · intro hi
        obtain rfl := Option.some.inj hi
        exact List.getElem?_concat_length
    · rw [List.forall_mem_append, List.forall_mem_singleton]
      refine ⟨fun w hw => ?_, rfl, rfl, nowMs, rfl⟩
      have hwaits := (h.waiting w hw).1
      rw [hnone] at hwaits
      cases hwaits

/-- A fetch that settles leaves the resolver coherent: no call waits. -/
theorem Coherent.settled (h : Coherent r) {fetch : ℕ} (hfetch : r.fetches[fetch]? = some false)
    (cache : Option (JwksCache κ)) :
    Coherent { r with
      cache
      refresh := none
      fetches := r.fetches.set fetch true
      waiting := r.waiting.filter fun w => w.fetch ≠ fetch } := by
  have hrefresh := (h.flight fetch).1 hfetch
  refine ⟨fun i => ?_, fun w hw => ?_⟩
  · dsimp only
    constructor
    · intro hi
      rcases Cells.getElem?_set_eq_some hi with ⟨-, hi⟩ | ⟨hne, hi⟩
      · cases hi
      · rw [h.flight, hrefresh, Option.some.injEq] at hi
        exact absurd hi.symm hne
    · rintro ⟨⟩
  · obtain ⟨hw, hne⟩ := List.mem_filter.1 hw
    have hwaits := (h.waiting w hw).1
    rw [hrefresh, Option.some.injEq] at hwaits
    simp [hwaits] at hne

/-! ## One step -/

/-- What an answer of a call at once rests on. -/
theorem Coherent.getKey (h : Coherent r) (limits : JwksLimits) (header : JwsHeader) (nowMs attemptMs : ℚ) :
    Coherent (r.getKey limits header nowMs attemptMs).1 ∧
      (r.getKey limits header nowMs attemptMs).1.cache = r.cache ∧
      ∀ answer ∈ (r.getKey limits header nowMs attemptMs).2, Listed r.cache answer ∧
        Sourced limits (entry (step limits) r (.getKey header nowMs attemptMs)) answer := by
  rcases getKey_cases limits r header nowMs attemptMs with
    ⟨answer, heq, hkey⟩ | ⟨kid, r', fetch, hjoin, heq⟩
  · rw [heq]
    refine ⟨h, rfl, ?_⟩
    rw [List.forall_mem_singleton]
    constructor
    · intro key hresult
      obtain ⟨kid, age, hkid, hfound, -⟩ := hkey key hresult
      obtain ⟨cache, hcache, hlookup⟩ := Option.bind_eq_some_iff.1 hfound
      exact ⟨kid, cache, hkid, hcache, hlookup⟩
    · intro key hresult
      obtain ⟨kid, age, -, -, hage, hage', hle⟩ := hkey key hresult
      refine Or.inr ⟨nowMs, age, hage, hage', hle.imp_right fun hstale => ?_⟩
      exact ⟨hstale.1, Or.inr ⟨header, attemptMs, rfl, hstale.2⟩⟩
  · rw [heq]
    refine ⟨h.join hjoin kid, ?_, fun answer hmem => absurd hmem List.not_mem_nil⟩
    cases hjoin <;> rfl

/-- The step of a fetch that settles: what it answers is in the document that is then in the cache,
and comes from where it should, exactly if no call is superseded. -/
theorem Coherent.settle (h : Coherent r) {fetch : ℕ} {outcome : Option (Table String κ × ℚ)}
    (hfetch : r.fetches[fetch]? = some false) (e : JwksStep κ)
    (he : e = entry (step limits) r (.settle fetch outcome)) :
    Coherent e.post ∧ e.post.cache = (fetched e).or r.cache ∧
      (¬ Superseded limits e → ∀ answer ∈ e.out, Listed e.post.cache answer ∧
        Sourced limits e answer) ∧
      (Superseded limits e → ∃ answer ∈ e.out, ¬ Listed e.post.cache answer) := by
  have hstep : r.settle limits fetch outcome = _ := if_pos hfetch
  have hwaits : ∀ w ∈ r.waiting, w.fetch = fetch := by
    intro w hw
    have hw := (h.waiting w hw).1
    rw [(h.flight fetch).1 hfetch, Option.some.injEq] at hw
    exact hw.symm
  have hout : e.out = r.waiting.map (Waiting.answer limits outcome) := by
    rw [he, entry_out]
    simp only [step, hstep]
    rw [List.filter_eq_self.2 fun w hw => decide_eq_true (hwaits w hw)]
  cases outcome with
  | none =>
    have hfetched : fetched e = none := by rw [he]; rfl
    have hcache : e.post.cache = r.cache := by
      rw [he, entry_post]
      simp only [step, hstep]
    refine ⟨?_, by rw [hcache, hfetched]; rfl, fun _ => ?_, ?_⟩
    · rw [he, entry_post]
      simp only [step, hstep]
      exact h.settled hfetch r.cache
    · rw [hout, List.forall_mem_map, hcache]
      intro w hw
      obtain ⟨-, hfound, nowMs, hage⟩ := h.waiting w hw
      constructor
      · intro key hkey
        obtain ⟨hcached, -⟩ := stale_eq_ok.1 hkey
        rw [hfound] at hcached
        obtain ⟨cache, hcache, hlookup⟩ := Option.bind_eq_some_iff.1 hcached
        exact ⟨w.kid, cache, rfl, hcache, hlookup⟩
      · intro key hkey
        obtain ⟨-, age, hage', hle⟩ := stale_eq_ok.1 hkey
        refine Or.inr ⟨nowMs, age, hage', ?_, Or.inr ⟨hle, Or.inl ⟨fetch, by rw [he]; rfl⟩⟩⟩
        rw [he, entry_pre, ← hage]
        exact hage'
    · rintro ⟨cache, hsome, -⟩
      rw [hfetched] at hsome
      cases hsome
  | some document =>
    obtain ⟨keys, fetchedAtMs⟩ := document
    have hfetched : fetched e = some ⟨keys, fetchedAtMs⟩ := by
      rw [he]
      exact if_pos hfetch
    have hcache : e.post.cache = some ⟨keys, fetchedAtMs⟩ := by
      rw [he, entry_post]
      simp only [step, hstep]
    have hpre : e.pre.waiting = r.waiting := by rw [he]; rfl
    refine ⟨?_, by rw [hcache, hfetched]; rfl, fun hnot => ?_, ?_⟩
    · rw [he, entry_post]
      simp only [step, hstep]
      exact h.settled hfetch _
    · rw [hout, List.forall_mem_map, hcache]
      intro w hw
      have hlisted : ∀ key, (Waiting.answer limits (some (keys, fetchedAtMs)) w).result = .ok key →
          keys.lookup w.kid = some key := by
        intro key hkey
        simp only [Waiting.answer] at hkey
        cases hlookup : keys.lookup w.kid with
        | some found =>
          rw [hlookup] at hkey
          exact congrArg some (Except.ok.inj hkey)
        | none =>
          rw [hlookup] at hkey
          obtain ⟨hcached, hage⟩ := stale_eq_ok.1 hkey
          have hsome : w.cached.isSome = true := by rw [hcached]; rfl
          exact absurd ⟨_, hfetched, w, hpre ▸ hw, hlookup, hsome, hage⟩ hnot
      exact ⟨fun key hkey => ⟨w.kid, _, rfl, rfl, hlisted key hkey⟩,
        fun key hkey => Or.inl ⟨_, hfetched, w.kid, rfl, hlisted key hkey⟩⟩
    · rintro ⟨cache, hsome, w, hw, hnone, hcached, hage⟩
      obtain ⟨key, hcached⟩ := Option.isSome_iff_exists.1 hcached
      rw [hfetched, Option.mem_some] at hsome
      subst hsome
      rw [hpre] at hw
      refine ⟨_, by rw [hout]; exact List.mem_map_of_mem hw, fun hlisted => ?_⟩
      have hkey : (Waiting.answer limits (some (keys, fetchedAtMs)) w).result = .ok key := by
        simp only [Waiting.answer, hnone]
        exact stale_eq_ok.2 ⟨hcached, hage⟩
      obtain ⟨kid, document, hkid, hdocument, hlookup⟩ := hlisted key hkey
      rw [hcache, Option.some.injEq] at hdocument
      obtain rfl : w.kid = kid := Option.some.inj hkid
      rw [← hdocument, hnone] at hlookup
      cases hlookup

/-- **Every step.** -/
theorem Coherent.step (h : Coherent r) (event : JwksEvent κ) (e : JwksStep κ)
    (he : e = entry (step limits) r event) :
    Coherent e.post ∧ e.post.cache = (fetched e).or r.cache ∧
      (¬ Superseded limits e → ∀ answer ∈ e.out, Listed e.post.cache answer ∧
        Sourced limits e answer) ∧
      (Superseded limits e → ∃ answer ∈ e.out, ¬ Listed e.post.cache answer) := by
  have hquiet (hfetched : fetched e = none) : ¬ Superseded limits e := by
    rintro ⟨cache, hsome, -⟩
    rw [hfetched] at hsome
    cases hsome
  cases event with
  | getKey header nowMs attemptMs =>
    have hfetched : fetched e = none := by rw [he]; rfl
    obtain ⟨hcoherent, hcache, hanswers⟩ := h.getKey limits header nowMs attemptMs
    refine ⟨by rw [he]; exact hcoherent, ?_, fun _ => ?_, fun hsup => absurd hsup (hquiet hfetched)⟩
    · rw [hfetched, he]
      exact hcache
    · rw [he]
      intro answer hmem
      rw [entry_post]
      change Listed (r.getKey limits header nowMs attemptMs).1.cache answer ∧ _
      rw [hcache]
      exact hanswers answer hmem
  | settle fetch outcome =>
    by_cases hfetch : r.fetches[fetch]? = some false
    · exact h.settle hfetch e he
    · have hstep : r.settle limits fetch outcome = (r, []) := if_neg hfetch
      have hfetched : fetched e = none := by
        rw [he]
        cases outcome with
        | none => rfl
        | some document => exact if_neg hfetch
      have hpost : e.post = r := by
        rw [he, entry_post]
        exact congrArg Prod.fst hstep
      have hout : e.out = [] := by
        rw [he, entry_out]
        exact congrArg Prod.snd hstep
      rw [hpost, hout, hfetched]
      exact ⟨h, rfl, fun _ answer hmem => absurd hmem List.not_mem_nil,
        fun hsup => absurd hsup (hquiet hfetched)⟩

/-- A step starts a fetch only when the cooldown of the last attempt is over. -/
theorem started_step (event : JwksEvent κ) (e : JwksStep κ)
    (he : e = entry (JwksResolver.step limits) r event) :
    e.post.lastRefreshAttemptMs = ((started e).map Prod.snd).or r.lastRefreshAttemptMs ∧
      ∀ s ∈ started e, ∀ last ∈ r.lastRefreshAttemptMs,
        (limits.refreshCooldownMs : ℚ) ≤ s.1 - last := by
  subst he
  cases event with
  | getKey header nowMs attemptMs =>
    have hpost : (entry (JwksResolver.step limits) r (.getKey header nowMs attemptMs)).post =
      (r.getKey limits header nowMs attemptMs).1 := rfl
    have hstarted : started (entry (JwksResolver.step limits) r (.getKey header nowMs attemptMs)) =
      if (r.getKey limits header nowMs attemptMs).1.fetches.length = r.fetches.length + 1
        then some (nowMs, attemptMs) else none := rfl
    rw [hpost, hstarted]
    rcases getKey_cases limits r header nowMs attemptMs with
      ⟨answer, heq, -⟩ | ⟨kid, r', fetch, hjoin, heq⟩
    · rw [heq, if_neg (by simp)]
      exact ⟨rfl, nofun⟩
    · rw [heq]
      cases hjoin with
      | joined hflight =>
        rw [if_neg (by simp)]
        exact ⟨rfl, nofun⟩
      | started hnone hcooldown =>
        rw [if_pos (by simp)]
        refine ⟨rfl, ?_⟩
        rintro _ ⟨⟩ last hlast
        exact hcooldown last hlast
  | settle fetch outcome =>
    refine ⟨?_, nofun⟩
    change (r.settle limits fetch outcome).1.lastRefreshAttemptMs = _
    unfold JwksResolver.settle
    split_ifs <;> rfl

/-! ## Every run -/

theorem getLast?_filterMap_concat {α β : Type*} (f : α → Option β) (l : List α) (a : α) :
    ((l ++ [a]).filterMap f).getLast? = (f a).or (l.filterMap f).getLast? := by
  rw [List.filterMap_append, List.getLast?_append]
  cases h : f a with
  | none => rw [List.filterMap_cons_none h, List.filterMap_nil, List.getLast?_nil]
  | some b => rw [List.filterMap_cons_some h, List.filterMap_nil, List.getLast?_singleton]

/-- What a run leaves: a coherent resolver, with the latest document in its cache, and the fetches
it started apart. -/
theorem coherent_run (limits : JwksLimits) (events : List (JwksEvent κ)) :
    Coherent (exec (step limits) {} events) ∧
      (exec (step limits) {} events).cache = latest (trace (step limits) {} events) ∧
      (exec (step limits) {} events).lastRefreshAttemptMs =
        ((trace (step limits) {} events).filterMap started).getLast?.map Prod.snd ∧
      ((trace (step limits) {} events).filterMap started).IsChain
        fun s s' => (limits.refreshCooldownMs : ℚ) ≤ s'.1 - s.2 := by
  refine run_induction (step limits) (P := fun tr r => Coherent r ∧ r.cache = latest tr ∧
    r.lastRefreshAttemptMs = (tr.filterMap started).getLast?.map Prod.snd ∧
    (tr.filterMap started).IsChain fun s s' => (limits.refreshCooldownMs : ℚ) ≤ s'.1 - s.2)
    ⟨coherent_new, rfl, rfl, List.isChain_nil⟩ ?_ events
  rintro tr r event ⟨hcoherent, hcache, hlast, hchain⟩
  obtain ⟨hpost, hpostCache, -⟩ := hcoherent.step event (entry (step limits) r event) rfl
  obtain ⟨hattempt, hapart⟩ := started_step event (entry (step limits) r event) rfl
  refine ⟨hpost, ?_, ?_, ?_⟩
  · rw [latest, getLast?_filterMap_concat, ← latest, ← hcache]
    exact hpostCache
  · rw [getLast?_filterMap_concat, Option.map_or, ← hlast]
    exact hattempt
  · rw [List.filterMap_append, List.isChain_append]
    refine ⟨hchain, ?_, ?_⟩
    · cases h : started (entry (step limits) r event) with
      | none => rw [List.filterMap_cons_none h]; exact List.isChain_nil
      | some s => rw [List.filterMap_cons_some h]; exact List.isChain_singleton _
    · intro s hs s' hs'
      have hs'' : started (entry (step limits) r event) = some s' := by
        cases h : started (entry (step limits) r event) with
        | none =>
          rw [List.filterMap_cons_none h] at hs'
          cases hs'
        | some s'' =>
          rw [List.filterMap_cons_some h] at hs'
          exact hs'
      exact hapart s' hs'' s.2 (by rw [hlast, Option.mem_def, hs, Option.map_some])

/-- Where a step of a run stands: before it a coherent resolver, and after it the latest document in
the cache. -/
theorem coherent_at {limits : JwksLimits} {events : List (JwksEvent κ)}
    {before after : List (JwksStep κ)} {e : JwksStep κ}
    (h : trace (step limits) {} events = before ++ e :: after) :
    Coherent e.pre ∧ (∃ event, e = entry (step limits) e.pre event) ∧
      latest (before ++ [e]) = e.post.cache := by
  obtain ⟨js, event, ks, -, rfl, rfl, -⟩ := trace_eq_append_cons (step limits) h
  refine ⟨(coherent_run limits js).1, ⟨event, rfl⟩, ?_⟩
  have hcache := (coherent_run limits (js ++ [event])).2.1
  rw [trace_append, exec_append] at hcache
  exact hcache.symm

/-- A step of a run at which a call is superseded breaks what is promised. -/
theorem Honoured.not_superseded {events : List (JwksEvent κ)}
    (h : Honoured limits (trace (step limits) {} events)) :
    ∀ e ∈ trace (step limits) {} events, ¬ Superseded limits e := by
  intro e he hsup
  obtain ⟨before, after, hsplit⟩ := List.append_of_mem he
  obtain ⟨hcoherent, ⟨event, hevent⟩, hlatest⟩ := coherent_at hsplit
  obtain ⟨answer, hmem, hnot⟩ := (hcoherent.step event e hevent).2.2.2 hsup
  have hlisted := h.listed before e after hsplit answer hmem
  rw [hlatest] at hlisted
  exact hnot hlisted

/-- Attempts that are each a cooldown after the one before are pairwise that far apart. -/
theorem spaced_of_chain {cooldown : ℚ} (hpos : 0 ≤ cooldown) {l : List (ℚ × ℚ)}
    (hchain : l.IsChain fun s s' => cooldown ≤ s'.1 - s.2) (h : ∀ s ∈ l, s.1 ≤ s.2) :
    l.Pairwise fun s s' => cooldown ≤ s'.2 - s.2 := by
  have hchain' : l.IsChain fun s s' => cooldown ≤ s'.2 - s.2 := by
    refine List.IsChain.imp_of_mem_imp (fun s s' _ hs' hle => ?_) hchain
    have := h s' hs'
    linarith
  have htrans : IsTrans (ℚ × ℚ) fun s s' => cooldown ≤ s'.2 - s.2 := by
    refine ⟨fun s s' s'' hle hle' => ?_⟩
    linarith
  exact List.isChain_iff_pairwise.1 hchain'

/-- **Cached signing keys honour revocation exactly while no call is superseded.** A run keeps all
that is promised if and only if no fetch of it brings a document that lacks the key id of a call
which waits for it with an older key that is not too old. -/
theorem honoured_iff (limits : JwksLimits) (events : List (JwksEvent κ)) :
    Honoured limits (trace (step limits) {} events) ↔
      ∀ e ∈ trace (step limits) {} events, ¬ Superseded limits e := by
  refine ⟨Honoured.not_superseded, fun hnot => ?_⟩
  have hchain := (coherent_run limits events).2.2.2
  refine ⟨fun before e after hsplit answer hmem => ?_, fun e he answer hmem => ?_, fun e he => ?_,
    hchain, spaced_of_chain (Nat.cast_nonneg _) hchain⟩
  · obtain ⟨hcoherent, ⟨event, hevent⟩, hlatest⟩ := coherent_at hsplit
    have he : e ∈ trace (step limits) {} events := by
      rw [hsplit]
      exact List.mem_append_right _ List.mem_cons_self
    rw [hlatest]
    exact ((hcoherent.step event e hevent).2.2.1 (hnot e he) answer hmem).1
  · obtain ⟨before, after, hsplit⟩ := List.append_of_mem he
    obtain ⟨hcoherent, ⟨event, hevent⟩, -⟩ := coherent_at hsplit
    exact ((hcoherent.step event e hevent).2.2.1 (hnot e he) answer hmem).2
  · obtain ⟨before, after, hsplit⟩ := List.append_of_mem he
    obtain ⟨hcoherent, ⟨event, hevent⟩, -⟩ := coherent_at hsplit
    exact (hcoherent.step event e hevent).1.single

/-- The header of the key id `kid`. -/
def rs256 (kid : String) : JwsHeader := ⟨some "RS256", some kid⟩

/-- A document with one key, and after its lifetime another one without it. -/
def rotated : List (JwksEvent ℕ) :=
  [.getKey (rs256 "primary") 0 0, .settle 0 (some (AList.insert "primary" 1 ∅, 0)),
    .getKey (rs256 "primary") 600001 600001,
    .settle 1 (some (AList.insert "rotated" 2 ∅, 600001))]

/-- The second call is answered with the key that the document it waited for no longer has. -/
theorem rotated_returns_revoked_key :
    (∃ e ∈ trace (step JWKS_DEFAULTS) {} rotated, ∃ answer ∈ e.out, ∃ cache ∈ fetched e,
      answer.kid = some "primary" ∧ answer.result.toOption = some 1 ∧
        cache.keys.lookup "primary" = none) ∧
      ¬ Honoured JWKS_DEFAULTS (trace (step JWKS_DEFAULTS) {} rotated) := by
  refine ⟨by decide +kernel, fun h => ?_⟩
  have hnot : ¬ ∀ e ∈ trace (step JWKS_DEFAULTS) {} rotated, ¬ Superseded JWKS_DEFAULTS e := by
    decide +kernel
  exact hnot h.not_superseded

end JwksResolver

end Limitmark.Oidc
