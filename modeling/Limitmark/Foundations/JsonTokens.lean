import Limitmark.Foundations.JsonScanners

/-!
# Tokens of characters and of code units

The tokens of JSON, found in the characters of a well-formed text and in its code units. A character is
one unit or a pair of surrogates (`units_cases`), and no surrogate belongs to a token outside a string,
so the two find the same: space (`skip_unitsOf`), signs (`expect_unitsOf`), strings
(`readString_unitsOf`) and the numerals of integers (`matchInteger_take`).
-/

namespace Limitmark.Foundations.JsonGrammar

/-! ## Characters and units -/

/-- What was read, with the rest in units. -/
def inUnits {β : Type*} (found : Option (β × List Char)) : Option (β × JsString) :=
  found.map fun (v, rest) => (v, unitsOf rest)

@[simp] theorem inUnits_none {β : Type*} : inUnits (none : Option (β × List Char)) = none := rfl

@[simp] theorem inUnits_some {β : Type*} (v : β) (rest : List Char) :
    inUnits (some (v, rest)) = some (v, unitsOf rest) := rfl

@[simp] theorem unitsOf_nil : unitsOf [] = [] := rfl

theorem unitsOf_cons (c : Char) (text : List Char) : unitsOf (c :: text) = Char.units c ++ unitsOf text :=
  List.flatMap_cons

/-- A character is one unit, or two surrogates. -/
theorem units_cases (c : Char) :
    c.toNat < 0x10000 ∧ (∀ text, unitsOf (c :: text) = unit c :: unitsOf text) ∨
      0x10000 ≤ c.toNat ∧ ∃ u v, 0xD800 ≤ u.toNat ∧ 0xD800 ≤ v.toNat ∧
        ∀ text, unitsOf (c :: text) = u :: v :: unitsOf text := by
  have hc := toNat_cases c
  by_cases hsmall : c.toNat < 0x10000
  · refine .inl ⟨hsmall, fun text => ?_⟩
    rw [unitsOf_cons, Char.units, if_pos hsmall]
    rfl
  · refine .inr ⟨not_lt.1 hsmall, (0xD800 + (c.toNat - 0x10000) / 0x400).toUInt16,
      (0xDC00 + (c.toNat - 0x10000) % 0x400).toUInt16, ?_, ?_, fun text => ?_⟩
    · rw [toUInt16_toNat (by omega)]
      omega
    · rw [toUInt16_toNat (by omega)]
      omega
    · rw [unitsOf_cons, Char.units, if_neg hsmall]
      rfl

theorem toNat_unit {c : Char} (h : c.toNat < 0x10000) : (unit c).toNat = c.toNat := toUInt16_toNat h

theorem unit_inj {c d : Char} (hc : c.toNat < 0x10000) (hd : d.toNat < 0x10000) :
    unit c = unit d ↔ c = d := by
  constructor
  · intro h
    have htoNat := congrArg UInt16.toNat h
    rw [toNat_unit hc, toNat_unit hd] at htoNat
    rw [← Char.ofNat_toNat c, htoNat, Char.ofNat_toNat]
  · rintro rfl
    rfl

theorem ne_unit_of_large {u : UInt16} {c : Char} (hu : 0xD800 ≤ u.toNat) (hc : IsAscii c) :
    u ≠ unit c := by
  rintro rfl
  have hlt : c.toNat < 0x80 := hc
  rw [toNat_unit (by omega)] at hu
  omega

/-- A text whose first unit is one of ASCII starts with its character. -/
theorem exists_of_unitsOf_cons {text : List Char} {u : UInt16} {us : JsString} (hu : u.toNat < 0x80)
    (h : unitsOf text = u :: us) :
    ∃ c rest, text = c :: rest ∧ c.toNat < 0x80 ∧ u = unit c ∧ us = unitsOf rest := by
  cases text with
  | nil => cases h
  | cons c rest =>
    rcases units_cases c with ⟨hc, hunits⟩ | ⟨-, v, w, hv, -, hunits⟩
    · rw [hunits, List.cons.injEq] at h
      obtain ⟨rfl, rfl⟩ := h
      rw [toNat_unit hc] at hu
      exact ⟨c, rest, rfl, hu, rfl, rfl⟩
    · rw [hunits, List.cons.injEq] at h
      obtain ⟨rfl, -⟩ := h
      omega

/-! ## Tests of characters -/

/-- A test of the units of characters, which no surrogate passes. -/
structure SameTest (p : UInt16 → Bool) (q : Char → Bool) : Prop where
  small : ∀ c : Char, c.toNat < 0x10000 → p (unit c) = q c
  large : ∀ u : UInt16, 0xD800 ≤ u.toNat → p u = false
  astral : ∀ c : Char, 0x10000 ≤ c.toNat → q c = false

section

variable {p : UInt16 → Bool} {q : Char → Bool}

theorem SameTest.dropWhile (h : SameTest p q) (text : List Char) :
    (unitsOf text).dropWhile p = unitsOf (text.dropWhile q) := by
  induction text with
  | nil => rfl
  | cons c text ih =>
    rcases units_cases c with ⟨hc, hunits⟩ | ⟨hc, u, v, hu, -, hunits⟩
    · rw [hunits, List.dropWhile_cons, List.dropWhile_cons, h.small c hc]
      split
      · exact ih
      · exact (hunits text).symm
    · rw [hunits, List.dropWhile_cons_of_neg (by simp [h.large u hu]),
        List.dropWhile_cons_of_neg (by simp [h.astral c hc]), hunits]

/-- What passes a test among the first units is what passes it among the first characters. -/
theorem SameTest.takeWhile_take (h : SameTest p q) (n : ℕ) (text : List Char) :
    ((unitsOf text).take n).takeWhile p = ((text.take n).takeWhile q).map unit := by
  induction text generalizing n with
  | nil => simp
  | cons c text ih =>
    cases n with
    | zero => simp
    | succ n =>
      rcases units_cases c with ⟨hc, hunits⟩ | ⟨hc, u, v, hu, -, hunits⟩
      · rw [hunits, List.take_succ_cons, List.take_succ_cons, List.takeWhile_cons, List.takeWhile_cons,
          h.small c hc]
        split
        · rw [List.map_cons, ih]
        · rfl
      · rw [hunits, List.take_succ_cons, List.take_succ_cons, List.takeWhile_cons, List.takeWhile_cons,
          h.large u hu, h.astral c hc]
        rfl

end

theorem sameTest_isSpace : SameTest isSpace Json.isSpace where
  small := fun c hc => by
    have hspace : isSpace (unit c) = (unit c = unit ' ' || unit c = unit '\x09' ||
        unit c = unit '\x0a' || unit c = unit '\x0d') := by
      rw [isSpace, Bool.eq_iff_iff, List.contains_iff_mem]
      simp [ascii, or_assoc]
    rw [hspace, Json.isSpace]
    simp only [unit_inj hc (show ' '.toNat < 0x10000 by decide),
      unit_inj hc (show '\x09'.toNat < 0x10000 by decide),
      unit_inj hc (show '\x0a'.toNat < 0x10000 by decide),
      unit_inj hc (show '\x0d'.toNat < 0x10000 by decide)]
  large := fun u hu => by
    have hne : ∀ v ∈ ascii " \t\n\r", v.toNat < 0xD800 := forall_mem_of_all (by decide)
    rw [Bool.eq_false_iff]
    intro hmem
    have := hne u (List.contains_iff_mem.1 hmem)
    omega
  astral := fun c hc => by
    rw [Bool.eq_false_iff]
    intro hspace
    simp only [Json.isSpace, Bool.or_eq_true, decide_eq_true_eq] at hspace
    rcases hspace with ((rfl | rfl) | rfl) | rfl <;> exact absurd hc (by decide)

theorem sameTest_isDigit : SameTest isDigit Json.isDigit where
  small := fun c hc => by
    have hzero : (unit '0').toNat = 48 := rfl
    have hnine : (unit '9').toNat = 57 := rfl
    rw [isDigit, Json.isDigit]
    simp only [UInt16.le_iff_toNat_le, toNat_unit hc, hzero, hnine]
  large := fun u hu => by
    have hnine : (unit '9').toNat = 57 := rfl
    rw [isDigit, Bool.and_eq_false_iff]
    right
    rw [decide_eq_false_iff_not, UInt16.le_iff_toNat_le, hnine]
    omega
  astral := fun c hc => by
    rw [Json.isDigit, Bool.and_eq_false_iff]
    right
    rw [decide_eq_false_iff_not]
    omega

/-! ## Tokens -/

theorem skip_unitsOf (text : List Char) :
    (unitsOf text).dropWhile isSpace = unitsOf (Json.skip text) :=
  sameTest_isSpace.dropWhile text

theorem expect_unitsOf {d : Char} (hd : IsAscii d) (text : List Char) :
    expect (unit d) (unitsOf text) = (Json.expect d text).map unitsOf := by
  have hlt : d.toNat < 0x80 := hd
  cases text with
  | nil => rfl
  | cons c text =>
    rw [Json.expect]
    rcases units_cases c with ⟨hc, hunits⟩ | ⟨hc, u, v, hu, -, hunits⟩
    · rw [hunits, expect]
      simp only [unit_inj hc (show d.toNat < 0x10000 by omega)]
      split <;> rfl
    · have hne : c ≠ d := by
        rintro rfl
        omega
      rw [hunits, expect, if_neg (ne_unit_of_large hu hd), if_neg hne]
      rfl

theorem hexValue_unit {c : Char} (hc : c.toNat < 0x10000) : hexValue (unit c) = Json.hexValue c := by
  have hlt : unit c < 0x80 ↔ c.toNat < 0x80 := by
    rw [UInt16.lt_iff_toNat_lt, toNat_unit hc]
    rfl
  rw [hexValue, toNat_unit hc, Char.ofNat_toNat]
  split
  · rfl
  · next h =>
    rw [hlt] at h
    rw [Json.hexValue, if_neg (by omega), if_neg (by omega), if_neg (by omega)]

theorem lt_of_hexValue {u : UInt16} {n : ℕ} (h : hexValue u = some n) : u.toNat < 0x80 := by
  rw [hexValue] at h
  split at h
  · next hlt => exact hlt
  · cases h

theorem unescape_unit {c : Char} (hc : c.toNat < 0x10000) : unescape (unit c) = Json.unescape c := by
  have hlt : unit c < 0x80 ↔ c.toNat < 0x80 := by
    rw [UInt16.lt_iff_toNat_lt, toNat_unit hc]
    rfl
  rw [unescape, toNat_unit hc, Char.ofNat_toNat]
  split
  · rfl
  · next h =>
    rw [hlt] at h
    have hne {d : Char} (hd : d.toNat < 0x80) : c ≠ d := by
      rintro rfl
      exact h hd
    rw [Json.unescape, if_neg (hne (by decide)), if_neg (hne (by decide)), if_neg (hne (by decide)),
      if_neg (hne (by decide)), if_neg (hne (by decide)), if_neg (hne (by decide)),
      if_neg (hne (by decide)), if_neg (hne (by decide))]

theorem lt_of_unescape {u v : UInt16} (h : unescape u = some v) : u.toNat < 0x80 := by
  rw [unescape] at h
  split at h
  · next hlt => exact hlt
  · cases h

/-! ## Strings -/

theorem hexUnit_unit {a b c d : Char} (ha : a.toNat < 0x10000) (hb : b.toNat < 0x10000)
    (hc : c.toNat < 0x10000) (hd : d.toNat < 0x10000) :
    hexUnit (unit a) (unit b) (unit c) (unit d) = Json.hexUnit a b c d := by
  rw [hexUnit, Json.hexUnit, hexValue_unit ha, hexValue_unit hb, hexValue_unit hc, hexValue_unit hd]

theorem hexUnit_eq_some {a b c d u : UInt16} (h : hexUnit a b c d = some u) :
    a.toNat < 0x80 ∧ b.toNat < 0x80 ∧ c.toNat < 0x80 ∧ d.toNat < 0x80 := by
  simp only [hexUnit, Option.bind_eq_bind, Option.bind_eq_some_iff] at h
  obtain ⟨i, hi, j, hj, k, hk, l, hl, -⟩ := h
  exact ⟨lt_of_hexValue hi, lt_of_hexValue hj, lt_of_hexValue hk, lt_of_hexValue hl⟩

theorem small_of_hexUnit {a b c d : Char} {u : UInt16} (h : Json.hexUnit a b c d = some u) :
    a.toNat < 0x80 ∧ b.toNat < 0x80 ∧ c.toNat < 0x80 ∧ d.toNat < 0x80 := by
  have hlt {e : Char} {n : ℕ} (he : Json.hexValue e = some n) : e.toNat < 0x80 := by
    unfold Json.hexValue at he
    split_ifs at he <;> omega
  simp only [Json.hexUnit, Option.bind_eq_bind, Option.bind_eq_some_iff] at h
  obtain ⟨i, hi, j, hj, k, hk, l, hl, -⟩ := h
  exact ⟨hlt hi, hlt hj, hlt hk, hlt hl⟩

theorem small_of_unescape {c : Char} {u : UInt16} (h : Json.unescape c = some u) : c.toNat < 0x80 := by
  unfold Json.unescape at h
  split_ifs at h with h1 h2 h3 h4 h5 h6 h7 h8
  all_goals subst_vars; decide

theorem unitsOf_ascii {c : Char} (h : c.toNat < 0x80) (text : List Char) :
    unitsOf (c :: text) = unit c :: unitsOf text := by
  rcases units_cases c with ⟨-, hunits⟩ | ⟨hc, -⟩
  · exact hunits text
  · omega

theorem readChars_cons {u : UInt16} (hquote : u ≠ unit '"') (hback : u ≠ unit '\\')
    (hcontrol : ¬ u < 0x20) (text : JsString) :
    readChars (u :: text) = (readChars text).map fun (s, rest) => (u :: s, rest) := by
  rw [readChars.eq_def]
  simp only [if_neg hquote, if_neg hback, if_neg hcontrol]

theorem readChars_large {u : UInt16} (hu : 0xD800 ≤ u.toNat) (text : JsString) :
    readChars (u :: text) = (readChars text).map fun (s, rest) => (u :: s, rest) := by
  refine readChars_cons (ne_unit_of_large hu (by decide)) (ne_unit_of_large hu (by decide)) ?_ text
  rw [UInt16.lt_iff_toNat_lt]
  change ¬ u.toNat < 32
  omega

/-- A plain character is passed over, unit by unit. -/
theorem readChars_unitsOf_cons {c : Char} (hquote : c ≠ '"') (hback : c ≠ '\\')
    (hcontrol : ¬ c.toNat < 0x20) (text : List Char) :
    readChars (unitsOf (c :: text)) =
      (readChars (unitsOf text)).map fun (s, rest) => (Char.units c ++ s, rest) := by
  by_cases hc : c.toNat < 0x10000
  · have hunits : Char.units c = [unit c] := if_pos hc
    rw [unitsOf_cons, hunits, List.singleton_append]
    refine readChars_cons (fun h => hquote ((unit_inj hc (by decide)).1 h))
      (fun h => hback ((unit_inj hc (by decide)).1 h)) ?_ _
    rw [UInt16.lt_iff_toNat_lt, toNat_unit hc]
    exact hcontrol
  · rcases units_cases c with ⟨hsmall, -⟩ | ⟨-, u, v, hu, hv, hunits⟩
    · exact absurd hsmall hc
    · have hpair : Char.units c = [u, v] := by
        have hnil := hunits []
        rwa [unitsOf_cons, unitsOf_nil, List.append_nil] at hnil
      rw [hunits, readChars_large hu, readChars_large hv, hpair, Option.map_map]
      rfl

/-- The units of a string are read as its characters are. -/
theorem readChars_of_readUnits {text rest : List Char} {s : JsString}
    (h : Json.readUnits text = some (s, rest)) : readChars (unitsOf text) = some (s, unitsOf rest) := by
  have hback : unit '\\' ≠ unit '"' := by decide
  fun_induction Json.readUnits text generalizing s rest with
  | case1 => cases h
  | case2 text =>
    obtain ⟨rfl, rfl⟩ : [] = s ∧ text = rest := by simpa using h
    rw [unitsOf_ascii (by decide), readChars.eq_def]
    simp only [if_pos]
  | case3 => cases h
  | case4 a b c d text hquote ih =>
    obtain ⟨u, hu, h⟩ := Option.bind_eq_some_iff.1 h
    obtain ⟨⟨s', after⟩, hread, heq⟩ := Option.map_eq_some_iff.1 h
    obtain ⟨rfl, rfl⟩ : u :: s' = s ∧ after = rest := by simpa using heq
    obtain ⟨ha, hb, hc, hd⟩ := small_of_hexUnit hu
    have hhex : hexUnit (unit a) (unit b) (unit c) (unit d) = some u :=
      (hexUnit_unit (by omega) (by omega) (by omega) (by omega)).trans hu
    rw [unitsOf_ascii (by decide), unitsOf_ascii (by decide), unitsOf_ascii ha, unitsOf_ascii hb,
      unitsOf_ascii hc, unitsOf_ascii hd, readChars.eq_def]
    simp only [if_neg hback, if_pos, hhex, ih hread, Option.bind_some, Option.map_some]
  | case5 => cases h
  | case6 e text hu _ ih =>
    obtain ⟨u, hshort, h⟩ := Option.bind_eq_some_iff.1 h
    obtain ⟨⟨s', after⟩, hread, heq⟩ := Option.map_eq_some_iff.1 h
    obtain ⟨rfl, rfl⟩ : u :: s' = s ∧ after = rest := by simpa using heq
    have he := small_of_unescape hshort
    have hne : unit e ≠ unit 'u' := fun h => hu ((unit_inj (by omega) (by decide)).1 h)
    have hshort' : unescape (unit e) = some u := (unescape_unit (by omega)).trans hshort
    rw [unitsOf_ascii (by decide), unitsOf_ascii he, readChars.eq_def]
    simp only [if_neg hback, if_pos, if_neg hne, hshort', ih hread, Option.bind_some, Option.map_some]
  | case7 => cases h
  | case8 c text hquote hslash hcontrol ih =>
    obtain ⟨⟨s', after⟩, hread, heq⟩ := Option.map_eq_some_iff.1 h
    obtain ⟨rfl, rfl⟩ : Char.units c ++ s' = s ∧ after = rest := by simpa using heq
    rw [readChars_unitsOf_cons hquote hslash hcontrol, ih hread]
    rfl

/-- What is read of the units of a text is read of its characters. -/
theorem readUnits_of_readChars {text : List Char} {s after : JsString}
    (h : readChars (unitsOf text) = some (s, after)) :
    ∃ rest, after = unitsOf rest ∧ Json.readUnits text = some (s, rest) := by
  have hback : unit '\\' ≠ unit '"' := by decide
  induction hn : text.length using Nat.strong_induction_on generalizing text s after with
  | _ n ih =>
    subst hn
    cases text with
    | nil => cases h
    | cons c text =>
      rw [Json.readUnits.eq_def]
      dsimp only
      by_cases hquote : c = '"'
      · subst hquote
        rw [unitsOf_ascii (by decide), readChars.eq_def] at h
        simp only [if_pos] at h
        obtain ⟨rfl, rfl⟩ : [] = s ∧ unitsOf text = after := by simpa using h
        exact ⟨text, rfl, if_pos rfl⟩
      by_cases hslash : c = '\\'
      · subst hslash
        rw [unitsOf_ascii (by decide), readChars.eq_def] at h
        simp only [if_neg hback, if_pos] at h
        rw [if_neg (by decide), if_pos rfl]
        cases hunits : unitsOf text with
        | nil =>
          rw [hunits] at h
          cases h
        | cons e us =>
          rw [hunits] at h
          dsimp only at h
          split at h
          · next he =>
            obtain ⟨e, text, rfl, hsmall, rfl, rfl⟩ :=
              exists_of_unitsOf_cons (by rw [he]; decide) hunits
            obtain rfl : e = 'u' := (unit_inj (by omega) (by decide)).1 he
            split at h
            · next a b c d us hfour =>
              obtain ⟨v, hv, h⟩ := Option.bind_eq_some_iff.1 h
              obtain ⟨⟨s', after'⟩, hread, heq⟩ := Option.map_eq_some_iff.1 h
              obtain ⟨rfl, rfl⟩ : v :: s' = s ∧ after' = after := by simpa using heq
              obtain ⟨ha, hb, hc, hd⟩ := hexUnit_eq_some hv
              obtain ⟨a, text, rfl, ha, rfl, hthree⟩ := exists_of_unitsOf_cons ha hfour
              obtain ⟨b, text, rfl, hb, rfl, htwo⟩ := exists_of_unitsOf_cons hb hthree.symm
              obtain ⟨c, text, rfl, hc, rfl, hone⟩ := exists_of_unitsOf_cons hc htwo.symm
              obtain ⟨d, text, rfl, hd, rfl, rfl⟩ := exists_of_unitsOf_cons hd hone.symm
              obtain ⟨rest, rfl, hchars⟩ := ih _ (by simp only [List.length_cons]; omega) hread rfl
              refine ⟨rest, rfl, ?_⟩
              rw [hexUnit_unit (by omega) (by omega) (by omega) (by omega)] at hv
              simp only [if_pos, hv, hchars, Option.bind_some, Option.map_some]
            · cases h
          · next he =>
            obtain ⟨v, hv, h⟩ := Option.bind_eq_some_iff.1 h
            obtain ⟨⟨s', after'⟩, hread, heq⟩ := Option.map_eq_some_iff.1 h
            obtain ⟨rfl, rfl⟩ : v :: s' = s ∧ after' = after := by simpa using heq
            obtain ⟨e, text, rfl, hsmall, rfl, rfl⟩ := exists_of_unitsOf_cons (lt_of_unescape hv) hunits
            obtain ⟨rest, rfl, hchars⟩ := ih _ (by simp only [List.length_cons]; omega) hread rfl
            have hne : e ≠ 'u' := fun h => he (h ▸ rfl)
            rw [unescape_unit (by omega)] at hv
            refine ⟨rest, rfl, ?_⟩
            simp only [if_neg hne, hv, hchars, Option.bind_some, Option.map_some]
      · by_cases hcontrol : c.toNat < 0x20
        · have hsmall : c.toNat < 0x10000 := by omega
          rw [unitsOf_ascii (by omega), readChars.eq_def] at h
          have hu : unit c < 0x20 := by
            rw [UInt16.lt_iff_toNat_lt, toNat_unit hsmall]
            exact hcontrol
          simp only [unit_inj hsmall (show '"'.toNat < 0x10000 by decide), hquote,
            unit_inj hsmall (show '\\'.toNat < 0x10000 by decide), hslash, if_false, if_pos hu] at h
          cases h
        · rw [readChars_unitsOf_cons hquote hslash hcontrol] at h
          obtain ⟨⟨s', after'⟩, hread, heq⟩ := Option.map_eq_some_iff.1 h
          obtain ⟨rfl, rfl⟩ : Char.units c ++ s' = s ∧ after' = after := by simpa using heq
          obtain ⟨rest, rfl, hchars⟩ := ih _ (Nat.lt_succ_self _) hread rfl
          refine ⟨rest, rfl, ?_⟩
          rw [if_neg hquote, if_neg hslash, if_neg hcontrol, hchars]
          rfl

/-- **Strings are read alike.** -/
theorem readString_unitsOf (text : List Char) :
    readString (unitsOf text) = inUnits (Json.readString text) := by
  rw [readString, Json.readString, expect_unitsOf (by decide)]
  cases Json.expect '"' text with
  | none => rfl
  | some inner =>
    rw [Option.map_some, Option.bind_some, Option.bind_some]
    cases hread : Json.readUnits inner with
    | some found => exact readChars_of_readUnits hread
    | none =>
      cases hchars : readChars (unitsOf inner) with
      | none => rfl
      | some found =>
        obtain ⟨rest, -, hfound⟩ := readUnits_of_readChars hchars
        rw [hread] at hfound
        cases hfound

/-! ## Words -/

theorem unitsOf_append (a b : List Char) : unitsOf (a ++ b) = unitsOf a ++ unitsOf b :=
  List.flatMap_append

theorem unitsOf_of_ascii {word : List Char} (h : ∀ c ∈ word, IsAscii c) : unitsOf word = word.map unit := by
  induction word with
  | nil => rfl
  | cons c word ih =>
    rw [unitsOf_ascii (h c List.mem_cons_self), ih fun d hd => h d (List.mem_cons_of_mem c hd),
      List.map_cons]

theorem prefix_unitsOf {word text : List Char} (h : ∀ c ∈ word, IsAscii c) :
    word.map unit <+: unitsOf text ↔ word <+: text := by
  constructor
  · intro hstart
    induction word generalizing text with
    | nil => exact List.nil_prefix
    | cons c word ih =>
      have hc : c.toNat < 0x80 := h c List.mem_cons_self
      obtain ⟨us, hus⟩ := hstart
      rw [List.map_cons, List.cons_append] at hus
      have hunit : (unit c).toNat < 0x80 := by
        rw [toNat_unit (by omega)]
        exact hc
      obtain ⟨d, rest, rfl, hd, hcd, hrest⟩ := exists_of_unitsOf_cons hunit hus.symm
      obtain rfl := (unit_inj (by omega) (by omega)).1 hcd
      exact List.cons_prefix_cons.2
        ⟨rfl, ih (fun e he => h e (List.mem_cons_of_mem c he)) ⟨us, hrest⟩⟩
  · rintro ⟨rest, rfl⟩
    rw [unitsOf_append, unitsOf_of_ascii h]
    exact List.prefix_append _ _

theorem drop_unitsOf {word : List Char} (h : ∀ c ∈ word, IsAscii c) (rest : List Char) :
    (unitsOf (word ++ rest)).drop word.length = unitsOf rest := by
  rw [unitsOf_append, unitsOf_of_ascii h, ← List.length_map unit, List.drop_left]

/-! ## Numbers -/

theorem isAscii_of_isDigit {c : Char} (h : Json.isDigit c = true) : IsAscii c := by
  rw [Json.isDigit, Bool.and_eq_true, decide_eq_true_eq, decide_eq_true_eq] at h
  change c.toNat < 0x80
  omega

theorem ofDigits_map {digits : List Char} (h : ∀ c ∈ digits, Json.isDigit c = true) :
    ofDigits (digits.map unit) = Nat.ofDigitChars 10 digits 0 := by
  rw [ofDigits, Nat.ofDigitChars_eq_foldl]
  generalize 0 = start
  induction digits generalizing start with
  | nil => rfl
  | cons c digits ih =>
    have hc : c.toNat < 0x80 := isAscii_of_isDigit (h c List.mem_cons_self)
    rw [List.map_cons, List.foldl_cons, List.foldl_cons, toNat_unit (by omega)]
    exact ih (fun d hd => h d (List.mem_cons_of_mem c hd)) _

/-- The number of a numeral that is digits only. -/
theorem toNumber_whole {w : JsString} (h : ∀ u ∈ w, isDigit u = true) :
    toNumber w = ofDigits w ∧ toNumber (unit '-' :: w) = -(ofDigits w : ℚ) := by
  have htake : w.takeWhile isDigit = w := List.takeWhile_eq_self_iff.2 h
  have hdrop : w.dropWhile isDigit = [] := List.dropWhile_eq_nil_iff.2 h
  have hpositive : w.head? ≠ some (unit '-') := fun hhead =>
    absurd (h _ (List.mem_of_mem_head? hhead)) (by decide)
  constructor
  · simp [toNumber, hpositive, htake, hdrop, exponentValue]
  · simp [toNumber, htake, hdrop, exponentValue]

theorem toNumber_digits {digits : List Char} (h : ∀ c ∈ digits, Json.isDigit c = true) :
    toNumber (digits.map unit) = Nat.ofDigitChars 10 digits 0 ∧
      toNumber (unit '-' :: digits.map unit) = -(Nat.ofDigitChars 10 digits 0 : ℚ) := by
  rw [← ofDigits_map h]
  refine toNumber_whole fun u hu => ?_
  obtain ⟨c, hc, rfl⟩ := List.mem_map.1 hu
  have hlt : c.toNat < 0x80 := isAscii_of_isDigit (h c hc)
  rw [sameTest_isDigit.small c (by omega)]
  exact h c hc

/-- The digits of a whole number, among the first characters and among the first units. -/
theorem matchWhole_take (n : ℕ) (text : List Char) :
    match Json.readWhole (text.take n) with
    | none => matchWhole ((unitsOf text).take n) = none
    | some (k, rest) => ∃ digits, text.take n = digits ++ rest ∧ digits ≠ [] ∧
        (∀ c ∈ digits, Json.isDigit c = true) ∧ k = Nat.ofDigitChars 10 digits 0 ∧
        matchWhole ((unitsOf text).take n) = some (digits.map unit) ∧ (k = 0 → digits = ['0']) := by
  cases text with
  | nil => simp [Json.readWhole, matchWhole]
  | cons c text =>
    cases n with
    | zero => simp [Json.readWhole, matchWhole]
    | succ n =>
      have hrun := sameTest_isDigit.takeWhile_take (n + 1) (c :: text)
      rw [List.take_succ_cons, Json.readWhole]
      rcases units_cases c with ⟨hc, hunits⟩ | ⟨hc, u, v, hu, -, hunits⟩
      · rw [hunits, List.take_succ_cons, List.take_succ_cons] at hrun
        rw [hunits, List.take_succ_cons, matchWhole]
        by_cases hzero : c = '0'
        · subst hzero
          rw [if_pos rfl, if_pos rfl]
          exact ⟨['0'], rfl, by simp, List.forall_mem_singleton.2 rfl, rfl, rfl, fun _ => rfl⟩
        rw [if_neg hzero, if_neg fun h => hzero ((unit_inj hc (by decide)).1 h),
          sameTest_isDigit.small c hc]
        by_cases hdigit : Json.isDigit c = true
        · rw [if_pos hdigit, if_pos hdigit, hrun]
          refine ⟨(c :: text.take n).takeWhile Json.isDigit, List.takeWhile_append_dropWhile.symm, ?_,
            fun d hd => List.mem_takeWhile_imp hd, rfl, rfl, fun h => ?_⟩
          · rw [List.takeWhile_cons_of_pos hdigit]
            exact List.cons_ne_nil _ _
          · rw [List.takeWhile_cons_of_pos hdigit, Nat.ofDigitChars_cons,
              Nat.ofDigitChars_eq_ofDigitChars_zero] at h
            have hlead : 10 * 0 + (c.toNat - '0'.toNat) = 0 := by
              by_contra hne
              have hpos := Nat.mul_pos (Nat.pow_pos (n := ((text.take n).takeWhile Json.isDigit).length)
                (show 0 < 10 by decide)) (Nat.pos_of_ne_zero hne)
              omega
            have hfirst : '0'.toNat = 48 := rfl
            rw [Json.isDigit, Bool.and_eq_true, decide_eq_true_eq] at hdigit
            have hc0 : c.toNat = '0'.toNat := by omega
            refine absurd ?_ hzero
            rw [← Char.ofNat_toNat c, hc0]
            rfl
        · rw [if_neg hdigit, if_neg hdigit]
      · have hne : c ≠ '0' := by
          rintro rfl
          exact absurd hc (by decide)
        rw [hunits, List.take_succ_cons, matchWhole, if_neg (ne_unit_of_large hu (by decide)),
          if_neg (show ¬ isDigit u = true by simp [sameTest_isDigit.large u hu]), if_neg hne,
          if_neg (show ¬ Json.isDigit c = true by simp [sameTest_isDigit.astral c hc])]

/-- The numeral of an integer, among the first characters and among the first units. -/
theorem matchInteger_take (n : ℕ) (text : List Char) :
    match Json.readInt (text.take n) with
    | none => matchInteger ((unitsOf text).take n) = none
    | some (k, rest) => ∃ word, text.take n = word ++ rest ∧ word ≠ [] ∧ (∀ c ∈ word, IsAscii c) ∧
        matchInteger ((unitsOf text).take n) = some (word.map unit) ∧
        toNumber (word.map unit) = k ∧
        (word.map unit = ascii "-0" ↔ k = 0 ∧ (Json.expect '-' (text.take n)).isSome = true) := by
  by_cases hminus : ∃ text' n', text = '-' :: text' ∧ n = n' + 1
  · obtain ⟨text, n, rfl, rfl⟩ := hminus
    have hwhole := matchWhole_take n text
    rw [unitsOf_ascii (by decide), List.take_succ_cons, List.take_succ_cons, Json.readInt, matchInteger,
      Json.expect, if_pos rfl, Reader.expect_self]
    dsimp only
    cases hread : Json.readWhole (text.take n) with
    | none =>
      rw [hread] at hwhole
      rw [hwhole]
      rfl
    | some found =>
      obtain ⟨k, rest⟩ := found
      rw [hread] at hwhole
      obtain ⟨digits, htext, hne, hdigits, rfl, hmatch, hzero⟩ := hwhole
      rw [hmatch]
      refine ⟨'-' :: digits, by rw [htext]; rfl, List.cons_ne_nil _ _, ?_, rfl, ?_, ?_⟩
      · exact List.forall_mem_cons.2 ⟨by decide, fun c hc => isAscii_of_isDigit (hdigits c hc)⟩
      · rw [List.map_cons, (toNumber_digits hdigits).2]
        push_cast
        rfl
      · have hsign : (some (List.take n text)).isSome = true := rfl
        rw [and_iff_left hsign, neg_eq_zero, Int.natCast_eq_zero]
        constructor
        · intro heq
          have hone : digits.map unit = [unit '0'] := List.tail_eq_of_cons_eq heq
          obtain ⟨c, rfl, hc⟩ := List.map_eq_singleton_iff.1 hone
          have hlt : c.toNat < 0x80 := isAscii_of_isDigit (hdigits c List.mem_cons_self)
          obtain rfl := (unit_inj (by omega) (by decide)).1 hc
          rfl
        · intro hk
          rw [hzero hk]
          rfl
  · have hchars : Json.expect '-' (text.take n) = none := by
      rcases text with _ | ⟨c, text⟩
      · rw [List.take_nil, Json.expect]
      rcases n with _ | n
      · rw [List.take_zero, Json.expect]
      rw [List.take_succ_cons, Json.expect, if_neg]
      rintro rfl
      exact hminus ⟨text, n, rfl, rfl⟩
    have hunits : expect (unit '-') ((unitsOf text).take n) = none := by
      rcases text with _ | ⟨c, text⟩
      · rw [unitsOf_nil, List.take_nil, expect]
      rcases n with _ | n
      · rw [List.take_zero, expect]
      rcases units_cases c with ⟨hc, hcons⟩ | ⟨hc, u, v, hu, -, hcons⟩
      · rw [hcons, List.take_succ_cons, expect, if_neg]
        intro h
        obtain rfl := (unit_inj hc (by decide)).1 h
        exact hminus ⟨text, n, rfl, rfl⟩
      · rw [hcons, List.take_succ_cons, expect, if_neg (ne_unit_of_large hu (by decide))]
    have hwhole := matchWhole_take n text
    rw [Json.readInt, matchInteger, hchars, hunits]
    dsimp only
    cases hread : Json.readWhole (text.take n) with
    | none =>
      rw [hread] at hwhole
      exact hwhole
    | some found =>
      obtain ⟨k, rest⟩ := found
      rw [hread] at hwhole
      obtain ⟨digits, htext, hne, hdigits, rfl, hmatch, -⟩ := hwhole
      refine ⟨digits, htext, hne, fun c hc => isAscii_of_isDigit (hdigits c hc), hmatch, ?_, ?_⟩
      · rw [(toNumber_digits hdigits).1]
        rfl
      · refine iff_of_false (fun heq => ?_) fun h => by cases h.2
        obtain ⟨c, digits, rfl⟩ := List.exists_cons_of_ne_nil hne
        have hc : Json.isDigit c = true := hdigits c List.mem_cons_self
        have hlt : c.toNat < 0x80 := isAscii_of_isDigit hc
        obtain rfl := (unit_inj (by omega) (by decide)).1 (List.head_eq_of_cons_eq heq)
        exact absurd hc (by decide)

end Limitmark.Foundations.JsonGrammar
