import Limitmark.Foundations.JsonTokens

/-!
# Reading characters and reading code units

A dialect reads the characters of a well-formed text, a reader of the grammar its code units. Where they
have the same rules and the same tokens (`Agrees`), they read the same value on the same fuel and leave
the same rest (`reads_agrees`). Their fuels differ, but fuel beyond what was read changes nothing
(`suffices_reads`), and so they accept the same texts with the same values (`read_agrees`).
-/

namespace Limitmark.Foundations.JsonGrammar

/-! ## Readers that agree -/

/-- A dialect and a reader with the same rules and the same tokens. -/
structure Agrees (dialect : Json.Dialect) (r : Reader Json) : Prop where
  algebra : r.algebra = jsonAlgebra
  space : r.space = isSpace
  maxDepth : r.maxDepth = dialect.maxDepth
  repeats : r.repeats = dialect.repeats
  string : ∀ {text s rest}, r.string text = some (s, rest) ↔ Quoted text s rest
  scalar : ∀ text, r.scalar (unitsOf text) = inUnits (dialect.scalar text)
  consumes : ∀ {text v rest}, dialect.scalar text = some (v, rest) → rest.length < text.length

section

variable {dialect : Json.Dialect} {r : Reader Json}

theorem Agrees.skip (h : Agrees dialect r) (text : List Char) :
    r.skip (unitsOf text) = unitsOf (Json.skip text) := by
  rw [Reader.skip, h.space]
  exact skip_unitsOf text

theorem Agrees.string_unitsOf (h : Agrees dialect r) (text : List Char) :
    r.string (unitsOf text) = inUnits (Json.readString text) := by
  rw [← readString_unitsOf]
  refine Option.ext fun ⟨s, rest⟩ => ?_
  rw [h.string, readString_eq_some]

theorem Agrees.scalar_nil (h : Agrees dialect r) : r.scalar [] = none := by
  have hnil := h.scalar []
  cases hscalar : dialect.scalar [] with
  | none =>
    rw [hscalar] at hnil
    exact hnil
  | some found => exact absurd (h.consumes hscalar) (Nat.not_lt_zero _)

end

theorem expect_self_unitsOf {d : Char} (hd : IsAscii d) (rest : List Char) :
    expect (unit d) (unitsOf (d :: rest)) = some (unitsOf rest) := by
  rw [expect_unitsOf hd, Json.expect, if_pos rfl]
  rfl

theorem expect_ne_unitsOf {c d : Char} (hd : IsAscii d) (h : c ≠ d) (rest : List Char) :
    expect (unit d) (unitsOf (c :: rest)) = none := by
  rw [expect_unitsOf hd, Json.expect, if_neg h]
  rfl

theorem toOption_map {α β : Type*} (run : Except Fault α) (f : α → β) :
    (run.map f).toOption = run.toOption.map f := by
  cases run <;> rfl

theorem inUnits_map {α β : Type*} (found : Option (α × List Char)) (f : α → β) :
    inUnits (found.map fun (v, rest) => (f v, rest)) = (inUnits found).map fun (v, rest) => (f v, rest) := by
  cases found <;> rfl

theorem inUnits_eq_none {β : Type*} {found : Option (β × List Char)} (h : inUnits found = none) :
    found = none :=
  Option.map_eq_none_iff.1 h

theorem inUnits_eq_some {β : Type*} {found : Option (β × List Char)} {v : β} {after : JsString}
    (h : inUnits found = some (v, after)) : ∃ rest, after = unitsOf rest ∧ found = some (v, rest) := by
  obtain ⟨⟨v', rest⟩, rfl, heq⟩ := Option.map_eq_some_iff.1 h
  obtain ⟨rfl, rfl⟩ := Prod.mk.inj heq
  exact ⟨rest, rfl, rfl⟩

theorem skip_idem (text : List Char) : Json.skip (Json.skip text) = Json.skip text :=
  List.dropWhile_idempotent _ text

theorem readValues_skip (dialect : Json.Dialect) (fuel depth : ℕ) (text : List Char) :
    Json.readValues dialect fuel depth (Json.skip text) = Json.readValues dialect fuel depth text := by
  match fuel with
  | 0 => rw [Json.readValues, Json.readValues]
  | 1 => rw [Json.readValues, Json.readValues, Json.readValue, Json.readValue]
  | fuel + 2 => rw [Json.readValues, Json.readValues, Json.readValue, Json.readValue, skip_idem]

theorem readMembers_skip (dialect : Json.Dialect) (fuel depth : ℕ) (keys : List JsString)
    (text : List Char) :
    Json.readMembers dialect fuel depth keys (Json.skip text) =
      Json.readMembers dialect fuel depth keys text := by
  match fuel with
  | 0 => rw [Json.readMembers, Json.readMembers]
  | fuel + 1 => rw [Json.readMembers, Json.readMembers, skip_idem]

section

variable {dialect : Json.Dialect} {r : Reader Json} (fuel : ℕ)

/-- One value, given the elements and the members at less fuel. -/
theorem value_agrees_succ (h : Agrees dialect r)
    (helements : ∀ depth text, (r.elements fuel depth (unitsOf text)).toOption =
      inUnits (Json.readValues dialect fuel depth text))
    (hmembers : ∀ depth keys text, (r.members fuel depth keys (unitsOf text)).toOption =
      inUnits (Json.readMembers dialect fuel depth keys text)) (depth : ℕ) (text : List Char) :
    (r.value (fuel + 1) depth (unitsOf text)).toOption =
      inUnits (Json.readValue dialect (fuel + 1) depth text) := by
  rw [Reader.value, Json.readValue, h.maxDepth, h.skip, h.algebra]
  split
  · rfl
  · cases Json.skip text with
    | nil =>
      rw [unitsOf_nil, h.scalar_nil]
      rfl
    | cons c rest =>
      dsimp only
      by_cases hquote : c = '"'
      · subst hquote
        have hstring : r.string (unitsOf ('"' :: rest)) = inUnits (Json.readUnits rest) :=
          h.string_unitsOf ('"' :: rest)
        rw [expect_self_unitsOf (by decide), hstring, if_pos rfl]
        cases Json.readUnits rest <;> rfl
      rw [expect_ne_unitsOf (by decide) hquote, if_neg hquote]
      by_cases hbracket : c = '['
      · subst hbracket
        rw [expect_self_unitsOf (by decide), if_pos rfl]
        dsimp only
        rw [h.skip, expect_unitsOf (by decide)]
        cases Json.expect ']' (Json.skip rest) with
        | some after => rfl
        | none =>
          dsimp only [Option.map_none]
          rw [toOption_map, helements, readValues_skip, inUnits_map]
          rfl
      rw [expect_ne_unitsOf (by decide) hbracket, if_neg hbracket]
      by_cases hbrace : c = '\x7b'
      · subst hbrace
        rw [expect_self_unitsOf (by decide), if_pos rfl]
        dsimp only
        rw [h.skip, expect_unitsOf (by decide)]
        cases Json.expect '\x7d' (Json.skip rest) with
        | some after => rfl
        | none =>
          dsimp only [Option.map_none]
          rw [toOption_map, hmembers, readMembers_skip, inUnits_map]
          rfl
      rw [expect_ne_unitsOf (by decide) hbrace, if_neg hbrace]
      dsimp only
      rw [h.scalar]
      cases dialect.scalar (c :: rest) <;> rfl

/-- The elements of an array, given its values and its elements at less fuel. -/
theorem elements_agrees_succ (h : Agrees dialect r)
    (hvalue : ∀ depth text, (r.value fuel depth (unitsOf text)).toOption =
      inUnits (Json.readValue dialect fuel depth text))
    (helements : ∀ depth text, (r.elements fuel depth (unitsOf text)).toOption =
      inUnits (Json.readValues dialect fuel depth text)) (depth : ℕ) (text : List Char) :
    (r.elements (fuel + 1) depth (unitsOf text)).toOption =
      inUnits (Json.readValues dialect (fuel + 1) depth text) := by
  rw [Reader.elements, Json.readValues]
  have hread := hvalue depth text
  cases hrun : r.value fuel depth (unitsOf text) with
  | error e =>
    rw [hrun] at hread
    rw [inUnits_eq_none hread.symm]
    rfl
  | ok found =>
    rw [hrun] at hread
    obtain ⟨v, after⟩ := found
    obtain ⟨rest, rfl, hfound⟩ := inUnits_eq_some hread.symm
    rw [hfound, Option.bind_some]
    dsimp only
    rw [h.skip]
    cases Json.skip rest with
    | nil => rfl
    | cons c rest =>
      by_cases hend : c = ']'
      · subst hend
        rw [expect_self_unitsOf (by decide)]
        rfl
      rw [expect_ne_unitsOf (by decide) hend, expect_unitsOf (by decide)]
      cases Json.expect ',' (c :: rest) with
      | none =>
        dsimp only [Option.map_none]
        rw [Json.expect, if_neg hend]
        rfl
      | some next =>
        dsimp only [Option.map_some]
        rw [toOption_map, helements, inUnits_map]

/-- The members of an object, given its values and its members at less fuel. -/
theorem members_agrees_succ (h : Agrees dialect r)
    (hvalue : ∀ depth text, (r.value fuel depth (unitsOf text)).toOption =
      inUnits (Json.readValue dialect fuel depth text))
    (hmembers : ∀ depth keys text, (r.members fuel depth keys (unitsOf text)).toOption =
      inUnits (Json.readMembers dialect fuel depth keys text)) (depth : ℕ) (keys : List JsString)
    (text : List Char) :
    (r.members (fuel + 1) depth keys (unitsOf text)).toOption =
      inUnits (Json.readMembers dialect (fuel + 1) depth keys text) := by
  rw [Reader.members, Json.readMembers, h.skip, h.string_unitsOf, h.repeats]
  cases Json.readString (Json.skip text) with
  | none => rfl
  | some found =>
    obtain ⟨key, colon⟩ := found
    dsimp only [inUnits_some, Option.bind_some]
    rw [h.skip, expect_unitsOf (by decide)]
    cases Json.expect ':' (Json.skip colon) with
    | none => rfl
    | some inner =>
      dsimp only [Option.map_some, Option.bind_some]
      split
      · rfl
      have hread := hvalue depth inner
      cases hrun : r.value fuel depth (unitsOf inner) with
      | error e =>
        rw [hrun] at hread
        rw [inUnits_eq_none hread.symm]
        rfl
      | ok found =>
        rw [hrun] at hread
        obtain ⟨v, after⟩ := found
        obtain ⟨rest, rfl, hfound⟩ := inUnits_eq_some hread.symm
        rw [hfound, Option.bind_some]
        dsimp only
        rw [h.skip]
        cases Json.skip rest with
        | nil => rfl
        | cons c rest =>
          by_cases hend : c = '\x7d'
          · subst hend
            rw [expect_self_unitsOf (by decide)]
            rfl
          rw [expect_ne_unitsOf (by decide) hend, expect_unitsOf (by decide)]
          cases Json.expect ',' (c :: rest) with
          | none =>
            dsimp only [Option.map_none]
            rw [Json.expect, if_neg hend]
            rfl
          | some next =>
            dsimp only [Option.map_some]
            rw [toOption_map, hmembers, inUnits_map]

end

/-- **On the same fuel a dialect and a reader that agree read the same**, by induction on the fuel. -/
theorem reads_agrees {dialect : Json.Dialect} {r : Reader Json} (h : Agrees dialect r) (fuel : ℕ) :
    (∀ depth text, (r.value fuel depth (unitsOf text)).toOption =
      inUnits (Json.readValue dialect fuel depth text)) ∧
    (∀ depth text, (r.elements fuel depth (unitsOf text)).toOption =
      inUnits (Json.readValues dialect fuel depth text)) ∧
    ∀ depth keys text, (r.members fuel depth keys (unitsOf text)).toOption =
      inUnits (Json.readMembers dialect fuel depth keys text) := by
  induction fuel with
  | zero =>
    refine ⟨fun depth text => ?_, fun depth text => ?_, fun depth keys text => ?_⟩
    · rw [Reader.value, Json.readValue]
      rfl
    · rw [Reader.elements, Json.readValues]
      rfl
    · rw [Reader.members, Json.readMembers]
      rfl
  | succ fuel ih =>
    obtain ⟨hvalue, helements, hmembers⟩ := ih
    exact ⟨value_agrees_succ fuel h helements hmembers, elements_agrees_succ fuel h hvalue helements,
      members_agrees_succ fuel h hvalue hmembers⟩

/-! ## Fuel -/

theorem length_skip_le (text : List Char) : (Json.skip text).length ≤ text.length :=
  (List.dropWhile_suffix _).length_le

theorem length_of_expect {c : Char} {text rest : List Char} (h : Json.expect c text = some rest) :
    text.length = rest.length + 1 := by
  cases text with
  | nil => cases h
  | cons d text =>
    rw [Json.expect] at h
    split at h
    · obtain rfl := Option.some.inj h
      rfl
    · cases h

theorem length_of_readUnits {text rest : List Char} {s : JsString}
    (h : Json.readUnits text = some (s, rest)) : rest.length < text.length := by
  fun_induction Json.readUnits text generalizing s rest with
  | case1 => cases h
  | case2 text =>
    obtain ⟨-, rfl⟩ : [] = s ∧ text = rest := by simpa using h
    exact Nat.lt_succ_self _
  | case3 => cases h
  | case4 a b c d text _ ih =>
    obtain ⟨u, -, h⟩ := Option.bind_eq_some_iff.1 h
    obtain ⟨⟨s', after⟩, hread, heq⟩ := Option.map_eq_some_iff.1 h
    obtain ⟨-, rfl⟩ : u :: s' = s ∧ after = rest := by simpa using heq
    have hlt := ih hread
    simp only [List.length_cons]
    omega
  | case5 => cases h
  | case6 e text _ _ ih =>
    obtain ⟨u, -, h⟩ := Option.bind_eq_some_iff.1 h
    obtain ⟨⟨s', after⟩, hread, heq⟩ := Option.map_eq_some_iff.1 h
    obtain ⟨-, rfl⟩ : u :: s' = s ∧ after = rest := by simpa using heq
    have hlt := ih hread
    simp only [List.length_cons]
    omega
  | case7 => cases h
  | case8 c text _ _ _ ih =>
    obtain ⟨⟨s', after⟩, hread, heq⟩ := Option.map_eq_some_iff.1 h
    obtain ⟨-, rfl⟩ : Char.units c ++ s' = s ∧ after = rest := by simpa using heq
    exact (ih hread).trans (Nat.lt_succ_self _)

theorem length_of_readString {text rest : List Char} {s : JsString}
    (h : Json.readString text = some (s, rest)) : rest.length < text.length := by
  obtain ⟨inner, hquote, hread⟩ := Option.bind_eq_some_iff.1 h
  have hlt := length_of_readUnits hread
  have hinner := length_of_expect hquote
  omega

/-- What a run has read of a text it reads on any fuel that has a unit for each character read. -/
def Suffices {β : Type*} (run : ℕ → Option (β × List Char)) (text : List Char) (fuel : ℕ) : Prop :=
  ∀ v rest, run fuel = some (v, rest) →
    rest.length < text.length ∧ ∀ m, text.length ≤ rest.length + m → run m = some (v, rest)

theorem suffices_of_succ {β : Type*} {run : ℕ → Option (β × List Char)} {text rest : List Char} {v : β}
    (hlt : rest.length < text.length)
    (h : ∀ m, text.length ≤ rest.length + m + 1 → run (m + 1) = some (v, rest)) :
    rest.length < text.length ∧ ∀ m, text.length ≤ rest.length + m → run m = some (v, rest) := by
  refine ⟨hlt, fun m hm => ?_⟩
  obtain ⟨m, rfl⟩ : ∃ k, m = k + 1 := ⟨m - 1, by omega⟩
  exact h m hm

section

variable {dialect : Json.Dialect} (fuel : ℕ)

theorem suffices_value (hscalar : ∀ {text v rest}, dialect.scalar text = some (v, rest) →
      rest.length < text.length)
    (hvalues : ∀ depth text, Suffices (Json.readValues dialect · depth text) text fuel)
    (hmembers : ∀ depth keys text, Suffices (Json.readMembers dialect · depth keys text) text fuel)
    (depth : ℕ) (text : List Char) :
    Suffices (Json.readValue dialect · depth text) text (fuel + 1) := by
  intro v rest hread
  have hle := length_skip_le text
  dsimp only at hread ⊢
  rw [Json.readValue] at hread
  split at hread
  · cases hread
  next hdepth =>
  cases hskip : Json.skip text with
  | nil =>
    rw [hskip] at hread
    cases hread
  | cons c inner =>
    rw [hskip, List.length_cons] at hle
    rw [hskip] at hread
    dsimp only at hread
    by_cases hquote : c = '"'
    · rw [if_pos hquote] at hread
      obtain ⟨⟨s, after⟩, hunits, heq⟩ := Option.map_eq_some_iff.1 hread
      obtain ⟨rfl, rfl⟩ : .str s = v ∧ after = rest := by simpa using heq
      have hlt := length_of_readUnits hunits
      refine suffices_of_succ (by omega) fun m _ => ?_
      rw [Json.readValue, if_neg hdepth, hskip]
      dsimp only
      rw [if_pos hquote, hunits, Option.map_some]
    rw [if_neg hquote] at hread
    by_cases hbracket : c = '['
    · rw [if_pos hbracket] at hread
      cases hend : Json.expect ']' (Json.skip inner) with
      | some after =>
        rw [hend] at hread
        obtain ⟨rfl, rfl⟩ : .arr [] = v ∧ after = rest := by simpa using hread
        have hlength := length_of_expect hend
        have hinner := length_skip_le inner
        refine suffices_of_succ (by omega) fun m _ => ?_
        rw [Json.readValue, if_neg hdepth, hskip]
        dsimp only
        rw [if_neg hquote, if_pos hbracket, hend]
      | none =>
        rw [hend] at hread
        obtain ⟨⟨vs, after⟩, hrun, heq⟩ := Option.map_eq_some_iff.1 hread
        obtain ⟨rfl, rfl⟩ : .arr vs = v ∧ after = rest := by simpa using heq
        obtain ⟨hlt, hmore⟩ := hvalues _ _ _ _ hrun
        refine suffices_of_succ (by omega) fun m hm => ?_
        rw [Json.readValue, if_neg hdepth, hskip]
        dsimp only
        rw [if_neg hquote, if_pos hbracket, hend]
        dsimp only at hmore ⊢
        rw [hmore m (by omega), Option.map_some]
    rw [if_neg hbracket] at hread
    by_cases hbrace : c = '\x7b'
    · rw [if_pos hbrace] at hread
      cases hend : Json.expect '\x7d' (Json.skip inner) with
      | some after =>
        rw [hend] at hread
        obtain ⟨rfl, rfl⟩ : .obj [] = v ∧ after = rest := by simpa using hread
        have hlength := length_of_expect hend
        have hinner := length_skip_le inner
        refine suffices_of_succ (by omega) fun m _ => ?_
        rw [Json.readValue, if_neg hdepth, hskip]
        dsimp only
        rw [if_neg hquote, if_neg hbracket, if_pos hbrace, hend]
      | none =>
        rw [hend] at hread
        obtain ⟨⟨ms, after⟩, hrun, heq⟩ := Option.map_eq_some_iff.1 hread
        obtain ⟨rfl, rfl⟩ : .obj ms = v ∧ after = rest := by simpa using heq
        obtain ⟨hlt, hmore⟩ := hmembers _ _ _ _ _ hrun
        refine suffices_of_succ (by omega) fun m hm => ?_
        rw [Json.readValue, if_neg hdepth, hskip]
        dsimp only
        rw [if_neg hquote, if_neg hbracket, if_pos hbrace, hend]
        dsimp only at hmore ⊢
        rw [hmore m (by omega), Option.map_some]
    rw [if_neg hbrace] at hread
    have hlt := hscalar hread
    rw [List.length_cons] at hlt
    refine suffices_of_succ (by omega) fun m _ => ?_
    rw [Json.readValue, if_neg hdepth, hskip]
    dsimp only
    rw [if_neg hquote, if_neg hbracket, if_neg hbrace, hread]

theorem suffices_values
    (hvalue : ∀ depth text, Suffices (Json.readValue dialect · depth text) text fuel)
    (hvalues : ∀ depth text, Suffices (Json.readValues dialect · depth text) text fuel)
    (depth : ℕ) (text : List Char) :
    Suffices (Json.readValues dialect · depth text) text (fuel + 1) := by
  intro vs rest hread
  dsimp only at hread ⊢
  rw [Json.readValues] at hread
  obtain ⟨⟨v, after⟩, hrun, hread⟩ := Option.bind_eq_some_iff.1 hread
  obtain ⟨hlt, hmore⟩ := hvalue _ _ _ _ hrun
  have hafter := length_skip_le after
  dsimp only at hread hmore
  cases hcomma : Json.expect ',' (Json.skip after) with
  | some next =>
    rw [hcomma] at hread
    obtain ⟨⟨ws, after'⟩, hrest, heq⟩ := Option.map_eq_some_iff.1 hread
    obtain ⟨rfl, rfl⟩ : v :: ws = vs ∧ after' = rest := by simpa using heq
    obtain ⟨hltrest, hmorerest⟩ := hvalues _ _ _ _ hrest
    have hlength := length_of_expect hcomma
    refine suffices_of_succ (by omega) fun m hm => ?_
    dsimp only at hmorerest
    rw [Json.readValues, hmore m (by omega), Option.bind_some]
    dsimp only
    rw [hcomma]
    dsimp only
    rw [hmorerest m (by omega), Option.map_some]
  | none =>
    rw [hcomma] at hread
    obtain ⟨after', hend, heq⟩ := Option.map_eq_some_iff.1 hread
    obtain ⟨rfl, rfl⟩ : [v] = vs ∧ after' = rest := by simpa using heq
    have hlength := length_of_expect hend
    refine suffices_of_succ (by omega) fun m hm => ?_
    rw [Json.readValues, hmore m (by omega), Option.bind_some]
    dsimp only
    rw [hcomma, hend]
    rfl

theorem suffices_members
    (hvalue : ∀ depth text, Suffices (Json.readValue dialect · depth text) text fuel)
    (hmembers : ∀ depth keys text, Suffices (Json.readMembers dialect · depth keys text) text fuel)
    (depth : ℕ) (keys : List JsString) (text : List Char) :
    Suffices (Json.readMembers dialect · depth keys text) text (fuel + 1) := by
  intro ms rest hread
  have hle := length_skip_le text
  dsimp only at hread ⊢
  rw [Json.readMembers] at hread
  obtain ⟨⟨key, colon⟩, hkey, hread⟩ := Option.bind_eq_some_iff.1 hread
  obtain ⟨inner, hcolon, hread⟩ := Option.bind_eq_some_iff.1 hread
  split at hread
  · cases hread
  next hfresh =>
  obtain ⟨⟨v, after⟩, hrun, hread⟩ := Option.bind_eq_some_iff.1 hread
  obtain ⟨hlt, hmore⟩ := hvalue _ _ _ _ hrun
  have hstring := length_of_readString hkey
  have hskip := length_skip_le colon
  have hinner := length_of_expect hcolon
  have hafter := length_skip_le after
  dsimp only at hread hmore
  cases hcomma : Json.expect ',' (Json.skip after) with
  | some next =>
    rw [hcomma] at hread
    obtain ⟨⟨ns, after'⟩, hrest, heq⟩ := Option.map_eq_some_iff.1 hread
    obtain ⟨rfl, rfl⟩ : (key, v) :: ns = ms ∧ after' = rest := by simpa using heq
    obtain ⟨hltrest, hmorerest⟩ := hmembers _ _ _ _ _ hrest
    have hlength := length_of_expect hcomma
    refine suffices_of_succ (by omega) fun m hm => ?_
    dsimp only at hmorerest
    rw [Json.readMembers, hkey, Option.bind_some]
    dsimp only
    rw [hcolon, Option.bind_some, if_neg hfresh, hmore m (by omega), Option.bind_some]
    dsimp only
    rw [hcomma]
    dsimp only
    rw [hmorerest m (by omega), Option.map_some]
  | none =>
    rw [hcomma] at hread
    obtain ⟨after', hend, heq⟩ := Option.map_eq_some_iff.1 hread
    obtain ⟨rfl, rfl⟩ : [(key, v)] = ms ∧ after' = rest := by simpa using heq
    have hlength := length_of_expect hend
    refine suffices_of_succ (by omega) fun m hm => ?_
    rw [Json.readMembers, hkey, Option.bind_some]
    dsimp only
    rw [hcolon, Option.bind_some, if_neg hfresh, hmore m (by omega), Option.bind_some]
    dsimp only
    rw [hcomma, hend]
    rfl

end

/-- **Fuel beyond what was read changes nothing**, by induction on the fuel. -/
theorem suffices_reads {dialect : Json.Dialect} (hscalar : ∀ {text v rest},
      dialect.scalar text = some (v, rest) → rest.length < text.length) (fuel : ℕ) :
    (∀ depth text, Suffices (Json.readValue dialect · depth text) text fuel) ∧
    (∀ depth text, Suffices (Json.readValues dialect · depth text) text fuel) ∧
    ∀ depth keys text, Suffices (Json.readMembers dialect · depth keys text) text fuel := by
  induction fuel with
  | zero =>
    refine ⟨fun depth text v rest h => ?_, fun depth text v rest h => ?_,
      fun depth keys text v rest h => ?_⟩
    · dsimp only at h
      rw [Json.readValue] at h
      cases h
    · dsimp only at h
      rw [Json.readValues] at h
      cases h
    · dsimp only at h
      rw [Json.readMembers] at h
      cases h
  | succ fuel ih =>
    obtain ⟨hvalue, hvalues, hmembers⟩ := ih
    exact ⟨suffices_value fuel hscalar hvalues hmembers, suffices_values fuel hvalue hvalues,
      suffices_members fuel hvalue hmembers⟩

/-! ## Texts -/

theorem length_le_unitsOf (text : List Char) : text.length ≤ (unitsOf text).length := by
  induction text with
  | nil => exact le_rfl
  | cons c text ih =>
    rcases units_cases c with ⟨-, hunits⟩ | ⟨-, u, v, -, -, hunits⟩
    · rw [hunits]
      simpa using ih
    · rw [hunits]
      simp only [List.length_cons]
      omega

/-- **A dialect and a reader that agree accept the same texts, with the same values.** -/
theorem read_agrees {dialect : Json.Dialect} {r : Reader Json} (h : Agrees dialect r) (text : String) :
    (r.read (.ofString text)).toOption = Json.read dialect text := by
  have hread := (reads_agrees h (2 * (unitsOf text.toList).length + 1)).1 0 text.toList
  have hlength := length_le_unitsOf text.toList
  have hchars : text.toList.length = text.length := String.length_toList
  have hfuel (found : Json × List Char) :
      Json.readValue dialect (2 * (unitsOf text.toList).length + 1) 0 text.toList = some found ↔
        Json.readValue dialect (text.length + 1) 0 text.toList = some found := by
    obtain ⟨v, rest⟩ := found
    constructor
    · intro hfound
      exact ((suffices_reads h.consumes _).1 0 text.toList v rest hfound).2 _ (by omega)
    · intro hfound
      exact ((suffices_reads h.consumes _).1 0 text.toList v rest hfound).2 _ (by omega)
  rw [Reader.read, Json.read, JsString.ofString, ← Option.ext hfuel]
  cases hrun : r.value (2 * (unitsOf text.toList).length + 1) 0 (unitsOf text.toList) with
  | error e =>
    rw [hrun] at hread
    rw [inUnits_eq_none hread.symm]
    rfl
  | ok found =>
    rw [hrun] at hread
    obtain ⟨v, after⟩ := found
    obtain ⟨rest, rfl, hfound⟩ := inUnits_eq_some hread.symm
    rw [hfound]
    dsimp only
    rw [h.skip]
    cases Json.skip rest with
    | nil => rfl
    | cons c rest =>
      rw [if_neg (List.cons_ne_nil c rest)]
      rcases units_cases c with ⟨-, hunits⟩ | ⟨-, u, v, -, -, hunits⟩
      · rw [hunits]
        rfl
      · rw [hunits]
        rfl

end Limitmark.Foundations.JsonGrammar
