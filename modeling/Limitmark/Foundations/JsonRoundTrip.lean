import Mathlib.Tactic.FieldSimp
import Limitmark.Foundations.Json

/-!
# JSON texts are read back

What the serialiser writes is read back to the value it was written from: strings
(`readUnits_quote`), whole numbers (`readInt_intText`), and the values that fit a dialect
(`read_stringify`). In the JSON of the platform these are the values whose numbers are whole.
-/

namespace Limitmark.Foundations.Json

/-! ## Strings -/

theorem hexValue_hexDigit (n : ℕ) : hexValue (hexDigit n) = some (n % 16) := by
  have h : ∀ k < 16, hexValue ("0123456789abcdef".toList.getD k '0') = some k := by decide
  exact h _ (Nat.mod_lt _ (by decide))

theorem hexUnit_hexDigit {n : ℕ} (h : n < 0x10000) :
    hexUnit (hexDigit (n / 4096)) (hexDigit (n / 256)) (hexDigit (n / 16)) (hexDigit n) =
      some n.toUInt16 := by
  have hsum : n / 4096 % 16 * 4096 + n / 256 % 16 * 256 + n / 16 % 16 * 16 + n % 16 = n := by omega
  simp only [hexUnit, hexValue_hexDigit, Option.bind_eq_bind, Option.bind_some, hsum]
  rfl

/-- A unit of a string is read before the rest of it. -/
def prepend (units : JsString) (read : Option (JsString × List Char)) :
    Option (JsString × List Char) :=
  read.map fun (us, rest) => (units ++ us, rest)

theorem readUnits_escapeUnit {n : ℕ} (h : n < 0x10000) (rest : List Char) :
    readUnits (escapeUnit n ++ rest) = prepend [n.toUInt16] (readUnits rest) := by
  simp only [escapeUnit, List.cons_append, List.nil_append]
  rw [readUnits.eq_def]
  simp only [Char.reduceEq, if_false, if_true, hexUnit_hexDigit h, Option.bind_some]
  rfl

theorem readUnits_escape {e : Char} {u : UInt16} (he : e ≠ 'u') (hu : unescape e = some u)
    (rest : List Char) : readUnits ('\\' :: e :: rest) = prepend [u] (readUnits rest) := by
  rw [readUnits.eq_def]
  simp only [Char.reduceEq, if_false, if_true, if_neg he, hu, Option.bind_some]
  rfl

theorem readUnits_char {c : Char} (hquote : c ≠ '"') (hslash : c ≠ '\\') (hc : 0x20 ≤ c.toNat)
    (rest : List Char) : readUnits (c :: rest) = prepend (Char.units c) (readUnits rest) := by
  rw [readUnits.eq_def]
  simp only [if_neg hquote, if_neg hslash, if_neg (show ¬ c.toNat < 0x20 by omega)]
  rfl

/-- A quoted code point is read back. -/
theorem readUnits_quotePoint (p : CodePoint) (rest : List Char) :
    readUnits (quotePoint p ++ rest) = prepend p.units (readUnits rest) := by
  cases p with
  | lone u =>
    rw [quotePoint, readUnits_escapeUnit u.toNat_lt, toNat_toUInt16]
    rfl
  | char c =>
    rw [quotePoint, CodePoint.units]
    split_ifs with hquote hslash hb ht hn hf hr hcontrol
    · subst hquote
      exact readUnits_escape (by decide) rfl rest
    · subst hslash
      exact readUnits_escape (by decide) rfl rest
    · subst hb
      exact readUnits_escape (by decide) rfl rest
    · subst ht
      exact readUnits_escape (by decide) rfl rest
    · subst hn
      exact readUnits_escape (by decide) rfl rest
    · subst hf
      exact readUnits_escape (by decide) rfl rest
    · subst hr
      exact readUnits_escape (by decide) rfl rest
    · rw [readUnits_escapeUnit (by omega), Char.units, if_pos (by omega)]
    · exact readUnits_char hquote hslash (by omega) rest

theorem readUnits_points (points : List CodePoint) (rest : List Char) :
    readUnits (points.flatMap quotePoint ++ '"' :: rest) =
      some (points.flatMap CodePoint.units, rest) := by
  induction points with
  | nil =>
    rw [List.flatMap_nil, List.nil_append, readUnits.eq_def]
    rfl
  | cons p points ih =>
    rw [List.flatMap_cons, List.append_assoc, readUnits_quotePoint, ih]
    rfl

/-- **A quoted string is read back.** -/
theorem readUnits_quote (s : JsString) (rest : List Char) :
    readUnits ((codePoints s).flatMap quotePoint ++ '"' :: rest) = some (s, rest) := by
  rw [readUnits_points, units_codePoints]

@[simp] theorem expect_self (c : Char) (rest : List Char) : expect c (c :: rest) = some rest :=
  if_pos rfl

theorem readString_quote (s : JsString) (rest : List Char) :
    readString (quote s ++ rest) = some (s, rest) := by
  rw [readString, quote, List.cons_append, List.cons_append, expect_self, Option.bind_some,
    List.append_assoc]
  exact readUnits_quote s rest

/-! ## Numbers -/

/-- What may follow a value. -/
def Stops (rest : List Char) : Prop := ∀ c ∈ rest.head?, c = ',' ∨ c = ']' ∨ c = '\x7d'

theorem Stops.nil : Stops [] := fun _ h => by cases h

theorem Stops.cons {c : Char} (h : c = ',' ∨ c = ']' ∨ c = '\x7d') (rest : List Char) :
    Stops (c :: rest) := fun d hd => by
  cases hd
  exact h

theorem Stops.expect {rest : List Char} (h : Stops rest) {c : Char}
    (hc : c ≠ ',' ∧ c ≠ ']' ∧ c ≠ '\x7d') : Json.expect c rest = none := by
  cases rest with
  | nil => rfl
  | cons d rest =>
    refine if_neg fun hd => ?_
    rcases h d rfl with hd' | hd' | hd'
    · exact hc.1 (hd ▸ hd')
    · exact hc.2.1 (hd ▸ hd')
    · exact hc.2.2 (hd ▸ hd')

theorem isDigit_digitChar {d : ℕ} (h : d < 10) : isDigit d.digitChar = true := by
  have hall : ∀ d < 10, isDigit (Nat.digitChar d) = true := by decide
  exact hall d h

theorem all_toDigits (n : ℕ) : ∀ c ∈ Nat.toDigits 10 n, isDigit c = true := by
  induction n using Nat.strong_induction_on with
  | _ n ih =>
    rw [Nat.toDigits_eq_if (by decide)]
    split
    · next h =>
      intro c hc
      rw [List.mem_singleton.1 hc]
      exact isDigit_digitChar h
    · next h =>
      intro c hc
      rcases List.mem_append.1 hc with hc | hc
      · exact ih _ (by omega) c hc
      · rw [List.mem_singleton.1 hc]
        exact isDigit_digitChar (Nat.mod_lt _ (by decide))

/-- A number starts with a zero only if it is zero. -/
theorem toDigits_eq_cons (n : ℕ) : ∃ c cs, Nat.toDigits 10 n = c :: cs ∧
    (c = '0' → n = 0) := by
  induction n using Nat.strong_induction_on with
  | _ n ih =>
    rw [Nat.toDigits_eq_if (by decide)]
    split
    · next h =>
      refine ⟨_, [], rfl, fun hzero => ?_⟩
      have hall : ∀ d < 10, Nat.digitChar d = '0' → d = 0 := by decide
      exact hall n h hzero
    · next h =>
      obtain ⟨c, cs, hcons, hzero⟩ := ih (n / 10) (by omega)
      refine ⟨c, cs ++ [Nat.digitChar (n % 10)], by rw [hcons, List.cons_append], fun hc => ?_⟩
      have := hzero hc
      omega

/-- The text after a number does not continue it. -/
def Ends (rest : List Char) : Prop := ∀ c ∈ rest.head?, isDigit c = false

theorem Stops.ends {rest : List Char} (h : Stops rest) : Ends rest := by
  intro c hc
  rcases h c hc with rfl | rfl | rfl <;> decide

theorem Ends.takeWhile {rest : List Char} (h : Ends rest) : rest.takeWhile isDigit = [] := by
  cases rest with
  | nil => rfl
  | cons c rest => rw [List.takeWhile_cons, h c rfl, if_neg Bool.false_ne_true]

theorem Ends.dropWhile {rest : List Char} (h : Ends rest) : rest.dropWhile isDigit = rest := by
  cases rest with
  | nil => rfl
  | cons c rest => rw [List.dropWhile_cons, h c rfl, if_neg Bool.false_ne_true]

theorem readWhole_toDigits (n : ℕ) {rest : List Char} (h : Ends rest) :
    readWhole (Nat.toDigits 10 n ++ rest) = some (n, rest) := by
  obtain ⟨c, cs, hcons, hzero⟩ := toDigits_eq_cons n
  have hdigits := all_toDigits n
  by_cases hc : c = '0'
  · obtain rfl := hzero hc
    rw [Nat.toDigits_zero, List.singleton_append, readWhole, if_pos rfl]
  · have hvalue := Nat.ofDigitChars_ten_toDigits (n := n)
    rw [hcons] at hdigits hvalue ⊢
    rw [List.cons_append, readWhole, if_neg hc, if_pos (hdigits c List.mem_cons_self),
      ← List.cons_append, List.takeWhile_append_of_pos hdigits, h.takeWhile, List.append_nil,
      List.dropWhile_append_of_pos hdigits, h.dropWhile, hvalue]

theorem expect_minus_toDigits (n : ℕ) (rest : List Char) :
    expect '-' (Nat.toDigits 10 n ++ rest) = none := by
  obtain ⟨c, cs, hcons, -⟩ := toDigits_eq_cons n
  have hc := all_toDigits n c (by rw [hcons]; exact List.mem_cons_self)
  rw [hcons, List.cons_append, expect, if_neg]
  rintro rfl
  exact absurd hc (by decide)

/-- **A whole number is read back.** -/
theorem readInt_intText (n : ℤ) {rest : List Char} (h : Ends rest) :
    readInt (intText n ++ rest) = some (n, rest) := by
  rw [readInt, intText]
  split_ifs with hneg
  · have habs : -(n.natAbs : ℤ) = n := by omega
    simp only [List.cons_append, expect_self, readWhole_toDigits _ h, Option.map_some, habs]
  · have habs : (n.natAbs : ℤ) = n := by omega
    simp only [expect_minus_toDigits, readWhole_toDigits _ h, Option.map_some, habs]

theorem readFraction_of_stops {rest : List Char} (h : Stops rest) :
    readFraction rest = some (0, rest) := by
  rw [readFraction, h.expect (by decide)]

theorem readExponent_of_stops {rest : List Char} (h : Stops rest) :
    readExponent rest = some (1, rest) := by
  rw [readExponent, h.expect (by decide), h.expect (by decide)]
  rfl

theorem readNumber_intText (n : ℤ) {rest : List Char} (h : Stops rest) :
    readNumber (intText n ++ rest) = some (int n, rest) := by
  have hrest (m : ℕ) : readWhole (Nat.toDigits 10 m ++ rest) = some (m, rest) :=
    readWhole_toDigits m h.ends
  rw [intText]
  by_cases hneg : n < 0
  · rw [if_pos hneg]
    simp [readNumber, hrest, readFraction_of_stops h, readExponent_of_stops h, int, abs_of_neg hneg]
  · rw [if_neg hneg]
    simp [readNumber, expect_minus_toDigits, hrest, readFraction_of_stops h,
      readExponent_of_stops h, int, abs_of_nonneg (not_lt.1 hneg)]

/-! ## Values -/

/-- A scalar is read back. -/
def Dialect.Reads (dialect : Dialect) (v : Json) : Prop :=
  ∀ rest, Stops rest → dialect.scalar (write v ++ rest) = some (v, rest)

def Dialect.Within (dialect : Dialect) (depth : ℕ) : Prop :=
  ∀ limit ∈ dialect.maxDepth, depth ≤ limit

theorem Dialect.Within.not_any {dialect : Dialect} {depth : ℕ} (h : dialect.Within depth) :
    ¬ (dialect.maxDepth.any fun limit => limit < depth) = true := by
  simp only [Option.any_eq_true, decide_eq_true_eq, not_exists, not_and, not_lt]
  exact h

mutual

/-- A value that a dialect can express at a depth. -/
def Fits (dialect : Dialect) (depth : ℕ) : Json → Prop
  | .null => dialect.Within depth ∧ dialect.Reads .null
  | .bool b => dialect.Within depth ∧ dialect.Reads (.bool b)
  | .num q => dialect.Within depth ∧ q.den = 1 ∧ dialect.Reads (.num q)
  | .str _ => dialect.Within depth
  | .arr values => dialect.Within depth ∧ FitsAll dialect (depth + 1) values
  | .obj members => dialect.Within depth ∧ FitsMembers dialect (depth + 1) [] members

def FitsAll (dialect : Dialect) (depth : ℕ) : List Json → Prop
  | [] => True
  | v :: rest => Fits dialect depth v ∧ FitsAll dialect depth rest

def FitsMembers (dialect : Dialect) (depth : ℕ) (keys : List JsString) :
    List (JsString × Json) → Prop
  | [] => True
  | (key, v) :: rest => (dialect.repeats = true ∨ key ∉ keys) ∧ Fits dialect depth v ∧
      FitsMembers dialect depth (key :: keys) rest

end

theorem Fits.within {dialect : Dialect} {depth : ℕ} {v : Json} (h : Fits dialect depth v) :
    dialect.Within depth := by
  cases v with
  | str s => exact h
  | null | bool b | num q | arr values | obj members =>
    rw [Fits] at h
    exact h.1

/-- A character that opens a scalar: neither space nor that of a string, an array or an object. -/
def opensScalar (c : Char) : Bool :=
  !isSpace c && c != '"' && c != '[' && c != '\x7b' && c != ']'

theorem opensScalar_of_isDigit {c : Char} (h : isDigit c = true) : opensScalar c = true := by
  have hall : ∀ k < 58, 48 ≤ k → opensScalar (Char.ofNat k) = true := by decide
  rw [isDigit, Bool.and_eq_true, decide_eq_true_eq, decide_eq_true_eq] at h
  rw [← Char.ofNat_toNat c]
  exact hall _ (by omega) h.1

theorem intText_eq_cons (n : ℤ) : ∃ c cs, intText n = c :: cs ∧ opensScalar c = true := by
  unfold intText
  split
  · exact ⟨_, _, rfl, by decide⟩
  · obtain ⟨c, cs, hcons, -⟩ := toDigits_eq_cons n.natAbs
    refine ⟨c, cs, hcons, opensScalar_of_isDigit (all_toDigits n.natAbs c ?_)⟩
    rw [hcons]
    exact List.mem_cons_self

theorem skip_of_not_space {c : Char} (h : isSpace c = false) (rest : List Char) :
    skip (c :: rest) = c :: rest := by
  rw [skip, List.dropWhile_cons, h, if_neg Bool.false_ne_true]

/-- A scalar is read at its place. -/
theorem readValue_scalar {dialect : Dialect} {depth fuel : ℕ} {v : Json} {c : Char} {cs : List Char}
    (hwithin : dialect.Within depth) (hreads : dialect.Reads v) (hcons : write v = c :: cs)
    (hopens : opensScalar c = true) {rest : List Char} (hstops : Stops rest) :
    readValue dialect (fuel + 1) depth (write v ++ rest) = some (v, rest) := by
  have hread := hreads rest hstops
  simp only [opensScalar, Bool.and_eq_true, Bool.not_eq_true', bne_iff_ne] at hopens
  obtain ⟨⟨⟨⟨hspace, hquote⟩, hbracket⟩, hbrace⟩, -⟩ := hopens
  rw [hcons, List.cons_append] at hread ⊢
  rw [readValue, if_neg hwithin.not_any, skip_of_not_space hspace]
  simp only [if_neg hquote, if_neg hbracket, if_neg hbrace, hread]

/-- A value does not start with space or with the end of an array. -/
theorem Fits.write_eq_cons {dialect : Dialect} {depth : ℕ} {v : Json} (h : Fits dialect depth v) :
    ∃ c cs, write v = c :: cs ∧ isSpace c = false ∧ c ≠ ']' := by
  have hscalar {c : Char} (hopens : opensScalar c = true) : isSpace c = false ∧ c ≠ ']' := by
    simp only [opensScalar, Bool.and_eq_true, Bool.not_eq_true', bne_iff_ne] at hopens
    exact ⟨hopens.1.1.1.1, hopens.2⟩
  cases v with
  | null => exact ⟨'n', _, by rw [write]; rfl, by decide, by decide⟩
  | bool b =>
    cases b
    · exact ⟨'f', _, by rw [write]; rfl, by decide, by decide⟩
    · exact ⟨'t', _, by rw [write]; rfl, by decide, by decide⟩
  | num q =>
    rw [Fits] at h
    obtain ⟨c, cs, hcons, hopens⟩ := intText_eq_cons q.num
    exact ⟨c, cs, by rw [write, if_pos h.2.1, hcons], hscalar hopens⟩
  | str s => exact ⟨'"', _, by rw [write, quote, List.cons_append], by decide, by decide⟩
  | arr values => exact ⟨'[', _, by rw [write, List.cons_append], by decide, by decide⟩
  | obj members => exact ⟨'\x7b', _, by rw [write, List.cons_append], by decide, by decide⟩

theorem writeValues_cons (v : Json) (rest : List Json) (after : List Char) :
    writeValues (v :: rest) ++ after =
      write v ++ match rest with
        | [] => after
        | w :: rest => ',' :: (writeValues (w :: rest) ++ after) := by
  cases rest with
  | nil => rw [writeValues]
  | cons w rest => rw [writeValues, List.append_assoc, List.cons_append]

theorem writeMembers_cons (key : JsString) (v : Json) (rest : List (JsString × Json))
    (after : List Char) :
    writeMembers ((key, v) :: rest) ++ after =
      quote key ++ ':' :: (write v ++ match rest with
        | [] => after
        | member :: rest => ',' :: (writeMembers (member :: rest) ++ after)) := by
  cases rest with
  | nil => rw [writeMembers, List.append_assoc, List.cons_append]
  | cons member rest =>
    rw [writeMembers]
    simp only [List.append_assoc, List.cons_append]

theorem Fits.expect_writeValues {dialect : Dialect} {depth : ℕ} {v : Json}
    (h : Fits dialect depth v) (rest : List Json) (after : List Char) :
    expect ']' (skip (writeValues (v :: rest) ++ after)) = none := by
  obtain ⟨c, cs, hcons, hspace, hbracket⟩ := h.write_eq_cons
  rw [writeValues_cons, hcons, List.cons_append, skip_of_not_space hspace]
  exact if_neg hbracket

theorem expect_writeMembers (key : JsString) (v : Json) (rest : List (JsString × Json))
    (after : List Char) :
    expect '\x7d' (skip (writeMembers ((key, v) :: rest) ++ after)) = none := by
  rw [writeMembers_cons, quote, List.cons_append, List.cons_append,
    skip_of_not_space (by decide)]
  rfl

mutual

/-- **A value that fits is read back**, and the text after it is left. -/
theorem readValue_write {dialect : Dialect} {depth fuel : ℕ} (v : Json) (h : Fits dialect depth v)
    (hfuel : (write v).length ≤ fuel) {rest : List Char} (hstops : Stops rest) :
    readValue dialect fuel depth (write v ++ rest) = some (v, rest) := by
  obtain ⟨c, cs, hcons, -⟩ := h.write_eq_cons
  have hpos : 0 < (write v).length := by rw [hcons, List.length_cons]; omega
  obtain ⟨fuel, rfl⟩ : ∃ n, fuel = n + 1 := ⟨fuel - 1, by omega⟩
  match v with
  | .null =>
    rw [Fits] at h
    exact readValue_scalar h.1 h.2 (c := 'n') (by rw [write]; rfl) (by decide) hstops
  | .bool true =>
    rw [Fits] at h
    exact readValue_scalar h.1 h.2 (c := 't') (by rw [write]; rfl) (by decide) hstops
  | .bool false =>
    rw [Fits] at h
    exact readValue_scalar h.1 h.2 (c := 'f') (by rw [write]; rfl) (by decide) hstops
  | .num q =>
    rw [Fits] at h
    obtain ⟨c, cs, hint, hopens⟩ := intText_eq_cons q.num
    exact readValue_scalar h.1 h.2.2 (by rw [write, if_pos h.2.1, hint]) hopens hstops
  | .str s =>
    rw [readValue, if_neg h.within.not_any, write, quote, List.cons_append, List.cons_append,
      skip_of_not_space (by decide), List.append_assoc, List.singleton_append]
    simp only [if_true, readUnits_quote, Option.map_some]
  | .arr values =>
    have hwithin := h.within
    rw [Fits] at h
    rw [write] at hfuel ⊢
    rw [readValue, if_neg hwithin.not_any, List.cons_append, List.cons_append,
      skip_of_not_space (by decide), List.append_assoc, List.singleton_append]
    simp only [Char.reduceEq, if_false, if_true]
    match values with
    | [] =>
      rw [writeValues, List.nil_append, skip_of_not_space (by decide), expect_self]
    | w :: values =>
      have hw := h.2
      rw [FitsAll] at hw
      simp only [List.length_append, List.length_cons, List.length_nil] at hfuel
      rw [hw.1.expect_writeValues, readValues_write (w :: values) h.2 (by omega) rest
        (List.cons_ne_nil w values)]
      rfl
  | .obj members =>
    have hwithin := h.within
    rw [Fits] at h
    rw [write] at hfuel ⊢
    rw [readValue, if_neg hwithin.not_any, List.cons_append, List.cons_append,
      skip_of_not_space (by decide), List.append_assoc, List.singleton_append]
    simp only [Char.reduceEq, if_false, if_true]
    match members with
    | [] =>
      rw [writeMembers, List.nil_append, skip_of_not_space (by decide), expect_self]
    | (key, w) :: members =>
      simp only [List.length_append, List.length_cons, List.length_nil] at hfuel
      rw [expect_writeMembers, readMembers_write ((key, w) :: members) h.2 (by omega) rest
        (List.cons_ne_nil _ members)]
      rfl

theorem readValues_write {dialect : Dialect} {depth fuel : ℕ} (values : List Json)
    (h : FitsAll dialect depth values) (hfuel : (writeValues values).length < fuel)
    (rest : List Char) (hne : values ≠ []) :
    readValues dialect fuel depth (writeValues values ++ ']' :: rest) = some (values, rest) := by
  obtain ⟨fuel, rfl⟩ : ∃ n, fuel = n + 1 := ⟨fuel - 1, by omega⟩
  match values with
  | [] => exact absurd rfl hne
  | [v] =>
    rw [FitsAll] at h
    rw [writeValues] at hfuel ⊢
    rw [readValues, readValue_write v h.1 (by omega) (Stops.cons (by decide) rest), Option.bind_some]
    simp only [skip_of_not_space (c := ']') (by decide)]
    rw [expect, if_neg (by decide)]
    rfl
  | v :: w :: values =>
    rw [FitsAll] at h
    rw [writeValues, List.length_append, List.length_cons] at hfuel
    rw [writeValues, List.append_assoc, List.cons_append, readValues,
      readValue_write v h.1 (by omega) (Stops.cons (by decide) _), Option.bind_some]
    simp only [skip_of_not_space (c := ',') (by decide), expect_self]
    rw [readValues_write (w :: values) h.2 (by omega) rest (List.cons_ne_nil w values)]
    rfl

theorem readMembers_write {dialect : Dialect} {depth fuel : ℕ} {keys : List JsString}
    (members : List (JsString × Json)) (h : FitsMembers dialect depth keys members)
    (hfuel : (writeMembers members).length < fuel) (rest : List Char) (hne : members ≠ []) :
    readMembers dialect fuel depth keys (writeMembers members ++ '\x7d' :: rest) =
      some (members, rest) := by
  obtain ⟨fuel, rfl⟩ : ∃ n, fuel = n + 1 := ⟨fuel - 1, by omega⟩
  match members with
  | [] => exact absurd rfl hne
  | (key, v) :: members =>
    rw [FitsMembers] at h
    obtain ⟨hkey, hv, hmembers⟩ := h
    have hrepeats : ¬ (¬ dialect.repeats = true ∧ key ∈ keys) := by
      rintro ⟨hrepeats, hmem⟩
      exact hkey.elim hrepeats fun hnot => hnot hmem
    have hskip (after : List Char) : skip (quote key ++ after) = quote key ++ after := by
      rw [quote, List.cons_append, List.cons_append, skip_of_not_space (by decide)]
    rw [writeMembers_cons, readMembers, hskip, readString_quote, Option.bind_some]
    simp only [skip_of_not_space (c := ':') (by decide), expect_self, Option.bind_some,
      if_neg hrepeats]
    match members with
    | [] =>
      rw [writeMembers, List.length_append, List.length_cons] at hfuel
      rw [readValue_write v hv (by omega) (Stops.cons (by decide) rest), Option.bind_some]
      simp only [skip_of_not_space (c := '\x7d') (by decide)]
      rw [expect, if_neg (by decide)]
      rfl
    | member :: members =>
      rw [writeMembers, List.length_append, List.length_cons, List.length_append,
        List.length_cons] at hfuel
      rw [readValue_write v hv (by omega) (Stops.cons (by decide) _), Option.bind_some]
      simp only [skip_of_not_space (c := ',') (by decide), expect_self]
      rw [readMembers_write (member :: members) hmembers (by omega) rest
        (List.cons_ne_nil member members)]
      rfl

end

/-- **What is serialised is read back**, if it fits the dialect. -/
theorem read_stringify {dialect : Dialect} {v : Json} (h : Fits dialect 0 v) :
    read dialect (stringify v) = some v := by
  have hlength : (stringify v).length = (write v).length := String.length_ofList
  have hread := readValue_write v h (Nat.le_succ (write v).length) Stops.nil
  rw [List.append_nil] at hread
  rw [read, hlength, stringify, String.toList_ofList, hread]
  rfl

/-! ## The dialect of the platform -/

theorem within_standard (depth : ℕ) : standard.Within depth := fun _ h => by cases h

theorem readWord_of_ne {word : String} {value : Json} {c d : Char} {ds rest : List Char}
    (hword : word.toList = d :: ds) (h : d ≠ c) : readWord word value (c :: rest) = none := by
  rw [readWord, if_neg]
  rw [hword, List.isPrefixOf_iff_prefix]
  rintro ⟨t, ht⟩
  exact h (List.cons.inj ht).1

theorem readLiteral_intText (n : ℤ) (rest : List Char) : readLiteral (intText n ++ rest) = none := by
  obtain ⟨c, cs, hcons, hc⟩ : ∃ c cs, intText n = c :: cs ∧ (c = '-' ∨ isDigit c = true) := by
    unfold intText
    split
    · exact ⟨_, _, rfl, .inl rfl⟩
    · obtain ⟨c, cs, hcons, -⟩ := toDigits_eq_cons n.natAbs
      refine ⟨c, cs, hcons, .inr (all_toDigits n.natAbs c ?_)⟩
      rw [hcons]
      exact List.mem_cons_self
  have hne (d : Char) (hd : isDigit d = false) (hminus : d ≠ '-') : d ≠ c := by
    rintro rfl
    exact hc.elim hminus fun hdigit => absurd (hd.symm.trans hdigit) Bool.false_ne_true
  have htrue : "true".toList = 't' :: ['r', 'u', 'e'] := rfl
  have hfalse : "false".toList = 'f' :: ['a', 'l', 's', 'e'] := rfl
  have hnull : "null".toList = 'n' :: ['u', 'l', 'l'] := rfl
  rw [readLiteral, hcons, List.cons_append, readWord_of_ne htrue (hne 't' (by decide) (by decide)),
    readWord_of_ne hfalse (hne 'f' (by decide) (by decide)),
    readWord_of_ne hnull (hne 'n' (by decide) (by decide))]
  rfl

theorem write_int (n : ℤ) : write (int n) = intText n := by
  rw [int, write, if_pos (Rat.den_intCast n), Rat.num_intCast]

theorem reads_standard_int (n : ℤ) : standard.Reads (int n) := by
  intro rest hstops
  have hscalar (t : List Char) : standard.scalar t = (readLiteral t).or (readNumber t) := rfl
  rw [write_int, hscalar, readLiteral_intText, readNumber_intText n hstops]
  rfl

theorem fits_standard_int (n : ℤ) (depth : ℕ) : Fits standard depth (int n) := by
  rw [int, Fits]
  exact ⟨within_standard depth, Rat.den_intCast n, reads_standard_int n⟩

theorem fitsAll_iff {dialect : Dialect} {depth : ℕ} {values : List Json} :
    FitsAll dialect depth values ↔ ∀ v ∈ values, Fits dialect depth v := by
  induction values with
  | nil => simp [FitsAll]
  | cons v values ih => simp [FitsAll, ih]

theorem fitsMembers_of_repeats {dialect : Dialect} (hrepeats : dialect.repeats = true) {depth : ℕ}
    {keys : List JsString} {members : List (JsString × Json)}
    (h : ∀ m ∈ members, Fits dialect depth m.2) : FitsMembers dialect depth keys members := by
  induction members generalizing keys with
  | nil => simp [FitsMembers]
  | cons m members ih =>
    rw [FitsMembers]
    exact ⟨.inl hrepeats, h m List.mem_cons_self, ih fun m' hm' => h m' (List.mem_cons_of_mem m hm')⟩

/-- A string or a whole number. -/
def IsAtom (value : Json) : Prop := (∃ s, value = .str s) ∨ ∃ n, value = int n

theorem isAtom_text (s : String) : IsAtom (text s) := .inl ⟨_, rfl⟩

theorem isAtom_int (n : ℤ) : IsAtom (int n) := .inr ⟨n, rfl⟩

theorem IsAtom.fits {v : Json} (h : IsAtom v) (depth : ℕ) : Fits standard depth v := by
  obtain ⟨s, rfl⟩ | ⟨n, rfl⟩ := h
  · rw [Fits]
    exact within_standard depth
  · exact fits_standard_int n depth

/-- **A list of strings and whole numbers is read back.** -/
theorem parse_stringify_arr {values : List Json} (h : ∀ v ∈ values, IsAtom v) :
    parse (stringify (.arr values)) = some (.arr values) := by
  refine read_stringify ?_
  rw [Fits, fitsAll_iff]
  exact ⟨within_standard 0, fun v hv => (h v hv).fits 1⟩

/-- **An object of strings and whole numbers is read back.** -/
theorem parse_stringify_obj {members : List (JsString × Json)} (h : ∀ m ∈ members, IsAtom m.2) :
    parse (stringify (.obj members)) = some (.obj members) := by
  refine read_stringify ?_
  rw [Fits]
  exact ⟨within_standard 0, fitsMembers_of_repeats rfl fun m hm => (h m hm).fits 1⟩

/-! ## Plain texts -/

/-- A character that is written as itself. -/
def isPlain (c : Char) : Bool := 0x20 ≤ c.toNat && c.toNat < 0x7F && c ≠ '"' && c ≠ '\\'

theorem isAscii_of_isPlain {c : Char} (h : isPlain c = true) : IsAscii c := by
  simp only [isPlain, Bool.and_eq_true, decide_eq_true_eq] at h
  exact h.1.1.2.trans (by decide)

theorem quotePoint_of_isPlain {c : Char} (h : isPlain c = true) : quotePoint (.char c) = [c] := by
  simp only [isPlain, Bool.and_eq_true, decide_eq_true_eq] at h
  obtain ⟨⟨⟨hspace, -⟩, hquote⟩, hslash⟩ := h
  have hcontrol : ∀ d : Char, d.toNat < 0x20 → c ≠ d := by
    rintro d hd rfl
    omega
  rw [quotePoint, if_neg hquote, if_neg hslash, if_neg (hcontrol '\x08' (by decide)),
    if_neg (hcontrol '\x09' (by decide)), if_neg (hcontrol '\x0a' (by decide)),
    if_neg (hcontrol '\x0c' (by decide)), if_neg (hcontrol '\x0d' (by decide)),
    if_neg (by omega)]

theorem flatMap_quotePoint_of_isPlain {text : List Char} (h : ∀ c ∈ text, isPlain c = true) :
    (text.map CodePoint.char).flatMap quotePoint = text := by
  induction text with
  | nil => rfl
  | cons c text ih =>
    rw [List.map_cons, List.flatMap_cons, quotePoint_of_isPlain (h c List.mem_cons_self),
      ih fun d hd => h d (List.mem_cons_of_mem c hd)]
    rfl

/-- **A plain text is written between quotes.** -/
theorem write_text {s : String} (h : ∀ c ∈ s.toList, isPlain c = true) :
    write (text s) = '"' :: s.toList ++ ['"'] := by
  rw [text, write, quote, JsString.ofString, codePoints_unitsOf, flatMap_quotePoint_of_isPlain h]

theorem length_write_text {s : String} (h : ∀ c ∈ s.toList, isPlain c = true) :
    (write (text s)).length = s.length + 2 := by
  rw [write_text h]
  simp [String.length_toList]

theorem isAscii_write_text {s : String} (h : ∀ c ∈ s.toList, isPlain c = true) :
    ∀ c ∈ write (text s), IsAscii c := by
  intro c hc
  rw [write_text h, List.cons_append, List.mem_cons, List.mem_append, List.mem_singleton] at hc
  rcases hc with rfl | hc | rfl
  · decide
  · exact isAscii_of_isPlain (h c hc)
  · decide

theorem isAscii_write_int (n : ℤ) : ∀ c ∈ write (int n), IsAscii c := by
  have hdigit {c : Char} (hc : isDigit c = true) : IsAscii c := by
    rw [isDigit, Bool.and_eq_true, decide_eq_true_eq, decide_eq_true_eq] at hc
    exact hc.2.trans_lt (by decide)
  intro c hc
  rw [write_int, intText] at hc
  split at hc
  · rcases List.mem_cons.1 hc with rfl | hc
    · decide
    · exact hdigit (all_toDigits _ c hc)
  · exact hdigit (all_toDigits _ c hc)

/-- A natural number below `10 ^ k` is written with at most `k` digits. -/
theorem length_write_int {n : ℤ} {k : ℕ} (hk : 0 < k) (h : 0 ≤ n) (hlt : n < 10 ^ k) :
    (write (int n)).length ≤ k := by
  rw [write_int, intText, if_neg (not_lt.2 h), Nat.length_toDigits_le_iff (by decide) hk]
  have hnat : (n.natAbs : ℤ) < (10 ^ k : ℕ) := by
    rw [Int.natAbs_of_nonneg h]
    exact_mod_cast hlt
  exact_mod_cast hnat

theorem mem_writeValues {values : List Json} {c : Char} (h : c ∈ writeValues values) :
    c = ',' ∨ ∃ v ∈ values, c ∈ write v := by
  induction values with
  | nil => cases h
  | cons v rest ih =>
    cases rest with
    | nil =>
      rw [writeValues] at h
      exact .inr ⟨v, List.mem_singleton_self v, h⟩
    | cons w rest =>
      rw [writeValues, List.mem_append, List.mem_cons] at h
      rcases h with h | rfl | h
      · exact .inr ⟨v, List.mem_cons_self, h⟩
      · exact .inl rfl
      · obtain rfl | ⟨v', hv', hc⟩ := ih h
        · exact .inl rfl
        · exact .inr ⟨v', List.mem_cons_of_mem v hv', hc⟩

theorem isAscii_write_arr {values : List Json} (h : ∀ v ∈ values, ∀ c ∈ write v, IsAscii c) :
    ∀ c ∈ write (.arr values), IsAscii c := by
  intro c hc
  rw [write, List.cons_append, List.mem_cons, List.mem_append, List.mem_singleton] at hc
  rcases hc with rfl | hc | rfl
  · decide
  · obtain rfl | ⟨v, hv, hc⟩ := mem_writeValues hc
    · decide
    · exact h v hv c hc
  · decide

theorem length_writeValues_le (values : List Json) :
    (writeValues values).length ≤ (values.map fun v => (write v).length + 1).sum := by
  induction values with
  | nil => exact le_of_eq rfl
  | cons v rest ih =>
    rw [List.map_cons, List.sum_cons]
    cases rest with
    | nil =>
      rw [writeValues]
      omega
    | cons w rest =>
      rw [writeValues, List.length_append, List.length_cons]
      omega

theorem length_write_arr_le (values : List Json) :
    (write (.arr values)).length ≤ (values.map fun v => (write v).length + 1).sum + 2 := by
  have hvalues := length_writeValues_le values
  rw [write, List.length_append, List.length_cons, List.length_singleton]
  omega

/-! ## Bounded texts -/

/-- A value whose text has at most so many characters, all of them ASCII. -/
structure Narrow (v : Json) (length : ℕ) : Prop where
  length_le : (write v).length ≤ length
  isAscii : ∀ c ∈ write v, IsAscii c

theorem narrow_text {s : String} (h : ∀ c ∈ s.toList, isPlain c = true) {length : ℕ}
    (hlength : s.length ≤ length) : Narrow (text s) (length + 2) :=
  ⟨by rw [length_write_text h]; omega, isAscii_write_text h⟩

theorem narrow_int {n : ℤ} {k : ℕ} (hk : 0 < k) (h : 0 ≤ n) (hlt : n < 10 ^ k) :
    Narrow (int n) k :=
  ⟨length_write_int hk h hlt, isAscii_write_int n⟩

theorem narrow_arr {values : List Json} {lengths : List ℕ}
    (h : List.Forall₂ Narrow values lengths) :
    Narrow (.arr values) ((lengths.map fun n => n + 1).sum + 2) := by
  have hvalues : (values.map fun v => (write v).length + 1).sum ≤
      (lengths.map fun n => n + 1).sum ∧ ∀ v ∈ values, ∀ c ∈ write v, IsAscii c := by
    induction h with
    | nil => exact ⟨le_of_eq rfl, fun v hv => by cases hv⟩
    | cons hv _ ih =>
      simp only [List.map_cons, List.sum_cons]
      exact ⟨Nat.add_le_add (Nat.succ_le_succ hv.length_le) ih.1,
        List.forall_mem_cons.2 ⟨hv.isAscii, ih.2⟩⟩
  exact ⟨(length_write_arr_le values).trans (Nat.add_le_add_right hvalues.1 2),
    isAscii_write_arr hvalues.2⟩

/-! ## Nesting -/

mutual

/-- How many arrays and objects are about a value's innermost one. -/
def nesting : Json → ℕ
  | .arr values => nestingAll values
  | .obj members => nestingMembers members
  | _ => 0

def nestingAll : List Json → ℕ
  | [] => 0
  | v :: rest => max (nesting v + 1) (nestingAll rest)

def nestingMembers : List (JsString × Json) → ℕ
  | [] => 0
  | (_, v) :: rest => max (nesting v + 1) (nestingMembers rest)

end

theorem nestingAll_le {values : List Json} {n : ℕ} :
    nestingAll values ≤ n ↔ ∀ v ∈ values, nesting v + 1 ≤ n := by
  induction values with
  | nil => simp [nestingAll]
  | cons v rest ih => rw [nestingAll, max_le_iff, ih, List.forall_mem_cons]

theorem nestingMembers_le {members : List (JsString × Json)} {n : ℕ} :
    nestingMembers members ≤ n ↔ ∀ m ∈ members, nesting m.2 + 1 ≤ n := by
  induction members with
  | nil => simp [nestingMembers]
  | cons m rest ih => rw [nestingMembers, max_le_iff, ih, List.forall_mem_cons]

theorem within_of_readValue {dialect : Dialect} {fuel depth : ℕ} {text : List Char}
    {read : Json × List Char} (h : readValue dialect fuel depth text = some read) :
    dialect.Within depth := by
  cases fuel with
  | zero => cases h
  | succ fuel =>
    rw [readValue] at h
    split at h
    · cases h
    · next hany => 
      intro limit hlimit
      rw [Option.mem_def] at hlimit
      rw [hlimit, Option.any_some, decide_eq_true_eq] at hany
      omega

/-- What is read is no deeper than the dialect allows. -/
theorem nesting_read {dialect : Dialect}
    (hscalar : ∀ text v rest, dialect.scalar text = some (v, rest) → nesting v = 0) (fuel : ℕ) :
    (∀ depth text v rest, readValue dialect fuel depth text = some (v, rest) →
      dialect.Within (depth + nesting v)) ∧
    (∀ depth text vs rest, readValues dialect fuel depth text = some (vs, rest) →
      ∀ v ∈ vs, dialect.Within (depth + nesting v)) ∧
    ∀ depth keys text ms rest, readMembers dialect fuel depth keys text = some (ms, rest) →
      ∀ m ∈ ms, dialect.Within (depth + nesting m.2) := by
  induction fuel with
  | zero =>
    refine ⟨fun depth text v rest h => ?_, fun depth text vs rest h => ?_,
      fun depth keys text ms rest h => ?_⟩ <;> cases h
  | succ fuel ih =>
    obtain ⟨ihvalue, ihvalues, ihmembers⟩ := ih
    refine ⟨fun depth text v rest h => ?_, fun depth text vs rest h => ?_,
      fun depth keys text ms rest h => ?_⟩
    · have hwithin := within_of_readValue h
      rw [readValue] at h
      split at h
      · cases h
      · split at h
        · cases h
        · next c cs _ =>
          split_ifs at h
          · obtain ⟨_, _, h⟩ := Option.map_eq_some_iff.1 h
            cases h
            exact hwithin
          · split at h
            · cases h
              exact hwithin
            · obtain ⟨⟨vs, rest'⟩, hvs, h⟩ := Option.map_eq_some_iff.1 h
              cases h
              intro limit hlimit
              have hdepth := hwithin limit hlimit
              have hall : nestingAll vs ≤ limit - depth := nestingAll_le.2 fun v hv => by
                have := ihvalues _ _ _ _ hvs v hv limit hlimit
                omega
              rw [nesting]
              omega
          · split at h
            · cases h
              exact hwithin
            · obtain ⟨⟨ms, rest'⟩, hms, h⟩ := Option.map_eq_some_iff.1 h
              cases h
              intro limit hlimit
              have hdepth := hwithin limit hlimit
              have hall : nestingMembers ms ≤ limit - depth := nestingMembers_le.2 fun m hm => by
                have := ihmembers _ _ _ _ _ hms m hm limit hlimit
                omega
              rw [nesting]
              omega
          · rw [hscalar _ _ _ h]
            exact hwithin
    · rw [readValues] at h
      obtain ⟨⟨v, after⟩, hv, h⟩ := Option.bind_eq_some_iff.1 h
      dsimp only at h
      split at h
      · obtain ⟨⟨vs', rest'⟩, hvs, h⟩ := Option.map_eq_some_iff.1 h
        cases h
        exact List.forall_mem_cons.2 ⟨ihvalue _ _ _ _ hv, ihvalues _ _ _ _ hvs⟩
      · obtain ⟨_, _, h⟩ := Option.map_eq_some_iff.1 h
        cases h
        exact List.forall_mem_singleton.2 (ihvalue _ _ _ _ hv)
    · rw [readMembers] at h
      obtain ⟨⟨key, after⟩, -, h⟩ := Option.bind_eq_some_iff.1 h
      obtain ⟨after, -, h⟩ := Option.bind_eq_some_iff.1 h
      split at h
      · cases h
      · obtain ⟨⟨v, after⟩, hv, h⟩ := Option.bind_eq_some_iff.1 h
        dsimp only at h
        split at h
        · obtain ⟨⟨ms', rest'⟩, hms, h⟩ := Option.map_eq_some_iff.1 h
          cases h
          exact List.forall_mem_cons.2 ⟨ihvalue _ _ _ _ hv, ihmembers _ _ _ _ _ hms⟩
        · obtain ⟨_, _, h⟩ := Option.map_eq_some_iff.1 h
          cases h
          exact List.forall_mem_singleton.2 (ihvalue _ _ _ _ hv)

theorem within_nesting_of_read {dialect : Dialect}
    (hscalar : ∀ text v rest, dialect.scalar text = some (v, rest) → nesting v = 0) {text : String}
    {v : Json} (h : read dialect text = some v) : dialect.Within (nesting v) := by
  unfold read at h
  split at h
  · next hread =>
    split at h
    · cases h
      have := (nesting_read hscalar _).1 _ _ _ _ hread
      rwa [Nat.zero_add] at this
    · cases h
  · cases h

end Limitmark.Foundations.Json
