import Mathlib.Algebra.Order.Field.Rat
import Limitmark.Foundations.Cells
import Limitmark.Foundations.Run
import Limitmark.Foundations.Table

/-!
# The bounded JWKS resolver

`BoundedRs256JwksResolver` of `workers/shared/bounded-jwks.ts`: a cache of the signing keys of one
document, refreshed by fetches that concurrent calls share. `getKey` runs up to its `await` in one
step, and a fetch that settles answers every call that waits for it. What a fetch comes to is an
input: the keys of a document that was fetched and validated, or a failure.

Every reading of the clock is an input of its own; nothing orders them.
-/

namespace Limitmark.Oidc

open Limitmark.Foundations

/-- The limits of a resolver that its cache obeys, each a positive integer. -/
structure JwksLimits where
  cacheLifetimeMs : ℕ
  staleGraceMs : ℕ
  refreshCooldownMs : ℕ
  cacheLifetimeMs_pos : 1 ≤ cacheLifetimeMs
  staleGraceMs_pos : 1 ≤ staleGraceMs
  refreshCooldownMs_pos : 1 ≤ refreshCooldownMs

def JWKS_DEFAULTS : JwksLimits where
  cacheLifetimeMs := 10 * 60000
  staleGraceMs := 5 * 60000
  refreshCooldownMs := 30000
  cacheLifetimeMs_pos := by decide
  staleGraceMs_pos := by decide
  refreshCooldownMs_pos := by decide

/-- The members of a JWS header that are read; one that is no string is `none`. -/
structure JwsHeader where
  alg : Option String
  kid : Option String
  deriving DecidableEq, Repr

inductive JwksError
  | header
  | clock
  | unavailable
  | unknownKey
  deriving DecidableEq, Repr

/-- `jwks-` and the rest. -/
def JwksError.text : JwksError → String
  | .header => "jwks-header"
  | .clock => "jwks-clock"
  | .unavailable => "jwks-unavailable"
  | .unknownKey => "jwks-unknown-key"

/-- `/^[A-Za-z0-9._-]{1,128}$/u`. -/
def isKeyId (kid : String) : Bool :=
  1 ≤ kid.length && kid.length ≤ 128 &&
    kid.toList.all fun c => c.isAlphanum || c = '.' || c = '_' || c = '-'

/-- The key id of a header that a resolver looks at. -/
def JwsHeader.keyId? (header : JwsHeader) : Option String :=
  if header.alg = some "RS256" then header.kid.filter isKeyId else none

section

variable (κ : Type)

structure JwksCache where
  keys : Table String κ
  fetchedAtMs : ℚ

/-- A call that waits: its key id, what it found in the cache when it began, and how old that cache
was; `none` for no cache. -/
structure Waiting where
  kid : String
  cached : Option κ
  ageMs : Option ℚ
  fetch : ℕ

/-- A resolver, with the fetches it has started, in order; a fetch is settled or not. -/
structure JwksResolver where
  cache : Option (JwksCache κ) := none
  refresh : Option ℕ := none
  lastRefreshAttemptMs : Option ℚ := none
  fetches : List Bool := []
  waiting : List (Waiting κ) := []

/-- What happens next. A call comes with the two readings it may take, a fetch that settles with the
keys of its document and the reading at its end, or with none. -/
inductive JwksEvent
  | getKey (header : JwsHeader) (nowMs attemptMs : ℚ)
  | settle (fetch : ℕ) (outcome : Option (Table String κ × ℚ))

/-- The answer of a call: what it asked for, and how old the cache was when it began. -/
structure JwksAnswer where
  kid : Option String
  ageMs : Option ℚ
  result : Except JwksError κ

end

variable {κ : Type}

namespace JwksResolver

/-- The last resort of a call: the key it found when it began, for a while. -/
def stale (limits : JwksLimits) (error : JwksError) (cached : Option κ) (ageMs : Option ℚ) :
    Except JwksError κ :=
  match cached, ageMs with
  | some key, some age =>
    if age ≤ limits.cacheLifetimeMs + limits.staleGraceMs then .ok key else .error error
  | _, _ => .error error

/-- The answer of a call that waited for a fetch. -/
def Waiting.answer (limits : JwksLimits) (outcome : Option (Table String κ × ℚ)) (w : Waiting κ) :
    JwksAnswer κ where
  kid := w.kid
  ageMs := w.ageMs
  result :=
    match outcome with
    | none => stale limits .unavailable w.cached w.ageMs
    | some (keys, _) =>
      match keys.lookup w.kid with
      | some key => .ok key
      | none => stale limits .unknownKey w.cached w.ageMs

/-- A refresh is allowed once the cooldown of the last attempt is over. -/
def mayRefresh (limits : JwksLimits) (nowMs : ℚ) (r : JwksResolver κ) : Bool :=
  match r.lastRefreshAttemptMs with
  | none => true
  | some last => limits.refreshCooldownMs ≤ nowMs - last

/-- `refreshCache`: the fetch in flight, or a new one. -/
def refreshCache (attemptMs : ℚ) (r : JwksResolver κ) : JwksResolver κ × ℕ :=
  match r.refresh with
  | some fetch => (r, fetch)
  | none =>
    ({ r with
        lastRefreshAttemptMs := some attemptMs
        refresh := some r.fetches.length
        fetches := r.fetches ++ [false] }, r.fetches.length)

/-- What the cache has under a key id. -/
def found (r : JwksResolver κ) (kid : String) : Option κ :=
  r.cache.bind fun cache => cache.keys.lookup kid

/-- How old the cache is. -/
def age (r : JwksResolver κ) (nowMs : ℚ) : Option ℚ :=
  r.cache.map fun cache => nowMs - cache.fetchedAtMs

/-- `getKey` up to its `await`: an answer, or a call that waits for a fetch. -/
def getKey (limits : JwksLimits) (header : JwsHeader) (nowMs attemptMs : ℚ) (r : JwksResolver κ) :
    JwksResolver κ × List (JwksAnswer κ) :=
  match header.keyId? with
  | none => (r, [⟨none, none, .error .header⟩])
  | some kid =>
    let cached := r.found kid
    let ageMs := r.age nowMs
    if ageMs.any (· < 0) then (r, [⟨kid, ageMs, .error .clock⟩])
    else
      match cached.filter fun _ => ageMs.any fun age => age ≤ (limits.cacheLifetimeMs : ℚ) with
      | some key => (r, [⟨kid, ageMs, .ok key⟩])
      | none =>
        if r.mayRefresh limits nowMs || r.refresh.isSome then
          let (r, fetch) := r.refreshCache attemptMs
          ({ r with waiting := r.waiting ++ [⟨kid, cached, ageMs, fetch⟩] }, [])
        else (r, [⟨kid, ageMs, stale limits .unknownKey cached ageMs⟩])

/-- A fetch settles: the cache is replaced if it succeeded, the refresh is over, and every call that
waits for it is answered. -/
def settle (limits : JwksLimits) (fetch : ℕ) (outcome : Option (Table String κ × ℚ))
    (r : JwksResolver κ) : JwksResolver κ × List (JwksAnswer κ) :=
  if r.fetches[fetch]? = some false then
    ({ r with
        cache :=
          match outcome with
          | some (keys, fetchedAtMs) => some ⟨keys, fetchedAtMs⟩
          | none => r.cache
        refresh := none
        fetches := r.fetches.set fetch true
        waiting := r.waiting.filter fun w => w.fetch ≠ fetch },
      (r.waiting.filter fun w => w.fetch = fetch).map (Waiting.answer limits outcome))
  else (r, [])

/-- One event. -/
def step (limits : JwksLimits) (r : JwksResolver κ) :
    JwksEvent κ → JwksResolver κ × List (JwksAnswer κ)
  | .getKey header nowMs attemptMs => r.getKey limits header nowMs attemptMs
  | .settle fetch outcome => r.settle limits fetch outcome

/-! ## What a call and a fetch do -/

variable {limits : JwksLimits} {r : JwksResolver κ}

/-- A call that waits joins the fetch in flight, or starts one if there is none. -/
inductive Joins (limits : JwksLimits) (r : JwksResolver κ) (nowMs attemptMs : ℚ) :
    JwksResolver κ → ℕ → Prop
  | joined {fetch : ℕ} : r.refresh = some fetch → Joins limits r nowMs attemptMs r fetch
  | started : r.refresh = none →
      (∀ last, r.lastRefreshAttemptMs = some last → limits.refreshCooldownMs ≤ nowMs - last) →
      Joins limits r nowMs attemptMs
        { r with
          lastRefreshAttemptMs := some attemptMs
          refresh := some r.fetches.length
          fetches := r.fetches ++ [false] } r.fetches.length

/-- The key of an answer at once: one of a fresh cache, or of a stale one inside the cooldown. -/
theorem stale_eq_ok {error : JwksError} {cached : Option κ} {ageMs : Option ℚ} {key : κ} :
    stale limits error cached ageMs = .ok key ↔ cached = some key ∧
      ∃ age, ageMs = some age ∧ age ≤ limits.cacheLifetimeMs + limits.staleGraceMs := by
  unfold stale
  cases cached with
  | none => simp
  | some found =>
    cases ageMs with
    | none => simp
    | some age =>
      dsimp only
      split_ifs with h
      · simp [h]
      · simp [h]

/-- **What a call does**: it is answered at once and changes nothing, with a key only if the cache
has it and is fresh, or is stale inside the cooldown; or it waits for a fetch. -/
theorem getKey_cases (limits : JwksLimits) (r : JwksResolver κ) (header : JwsHeader) (nowMs attemptMs : ℚ) :
    (∃ answer, r.getKey limits header nowMs attemptMs = (r, [answer]) ∧
      ∀ key, answer.result = .ok key → ∃ kid age, answer.kid = some kid ∧
        r.found kid = some key ∧ answer.ageMs = some age ∧ r.age nowMs = some age ∧
          (age ≤ limits.cacheLifetimeMs ∨ age ≤ limits.cacheLifetimeMs + limits.staleGraceMs ∧
            r.refresh = none ∧ r.mayRefresh limits nowMs = false)) ∨
    ∃ kid r' fetch, Joins limits r nowMs attemptMs r' fetch ∧
      r.getKey limits header nowMs attemptMs =
        ({ r' with waiting := r.waiting ++ [⟨kid, r.found kid, r.age nowMs, fetch⟩] }, []) := by
  unfold getKey
  cases header.keyId? with
  | none => exact Or.inl ⟨_, rfl, nofun⟩
  | some kid =>
    dsimp only
    by_cases hclock : (r.age nowMs).any (· < 0) = true
    · rw [if_pos hclock]
      exact Or.inl ⟨_, rfl, nofun⟩
    rw [if_neg hclock]
    cases hfresh : (r.found kid).filter fun _ =>
        (r.age nowMs).any fun age => age ≤ (limits.cacheLifetimeMs : ℚ) with
    | some key =>
      rw [Option.filter_eq_some_iff, Option.any_eq_true] at hfresh
      obtain ⟨hfound, age, hage, hle⟩ := hfresh
      refine Or.inl ⟨_, rfl, ?_⟩
      rintro _ ⟨⟩
      exact ⟨kid, age, rfl, hfound, hage, hage, Or.inl (of_decide_eq_true hle)⟩
    | none =>
      dsimp only
      by_cases hrefresh : (r.mayRefresh limits nowMs || r.refresh.isSome) = true
      · rw [if_pos hrefresh]
        unfold refreshCache
        cases hflight : r.refresh with
        | some fetch => exact Or.inr ⟨kid, r, fetch, .joined hflight, by rw [hflight]⟩
        | none =>
          rw [hflight, Option.isSome_none, Bool.or_false] at hrefresh
          refine Or.inr ⟨kid, _, _, .started hflight fun last hlast => ?_, rfl⟩
          rw [mayRefresh, hlast] at hrefresh
          exact of_decide_eq_true hrefresh
      · rw [if_neg hrefresh]
        refine Or.inl ⟨_, rfl, fun key hkey => ?_⟩
        obtain ⟨hfound, age, hage, hle⟩ := stale_eq_ok.1 hkey
        rw [Bool.or_eq_true, not_or, Bool.not_eq_true, Bool.not_eq_true,
          Option.isSome_eq_false_iff, Option.isNone_iff_eq_none] at hrefresh
        exact ⟨kid, age, rfl, hfound, hage, hage, Or.inr ⟨hle, hrefresh.2, hrefresh.1⟩⟩

end JwksResolver

end Limitmark.Oidc
