import Limitmark.Foundations.JsonReader

/-!
# Scanners of JSON and the parser of the platform

The scanners the readers are made of: of numerals and literals, as a regular expression finds them at
the start of a text, and of strings, whose value the platform reads. `parse` is `JSON.parse` over code
units; it reads exactly the texts of the grammar (`parse_eq_some`).
-/

namespace Limitmark.Foundations.JsonGrammar

/-! ## Numerals and literals -/

/-- `(?:0|[1-9][0-9]*)` -/
def matchWhole : JsString → Option JsString
  | [] => none
  | u :: rest =>
    if u = unit '0' then some [u]
    else if isDigit u then some ((u :: rest).takeWhile isDigit)
    else none

/-- `-?(?:0|[1-9][0-9]*)` -/
def matchInteger (text : JsString) : Option JsString :=
  match expect (unit '-') text with
  | some body => (matchWhole body).map (unit '-' :: ·)
  | none => matchWhole text

/-- `(?:\.[0-9]+)?` -/
def matchFraction (text : JsString) : JsString :=
  match expect (unit '.') text with
  | none => []
  | some rest => if rest.takeWhile isDigit = [] then [] else unit '.' :: rest.takeWhile isDigit

/-- `[+-]?` -/
def matchSign : JsString → JsString
  | [] => []
  | u :: _ => if u = unit '+' ∨ u = unit '-' then [u] else []

/-- `(?:[eE][+-]?[0-9]+)?` -/
def matchExponent : JsString → JsString
  | [] => []
  | mark :: rest =>
    let digits := (rest.drop (matchSign rest).length).takeWhile isDigit
    if (mark = unit 'e' ∨ mark = unit 'E') ∧ digits ≠ [] then mark :: (matchSign rest ++ digits)
    else []

/-- `-?(?:0|[1-9][0-9]*)(?:\.[0-9]+)?(?:[eE][+-]?[0-9]+)?` -/
def matchNumeral (text : JsString) : Option JsString :=
  (matchInteger text).map fun integer =>
    let rest := text.drop integer.length
    let fraction := matchFraction rest
    integer ++ fraction ++ matchExponent (rest.drop fraction.length)

/-- `^(?:true|false|null|…)`, with the numerals last. -/
def matchScalar (numeral : JsString → Option JsString) (text : JsString) : Option JsString :=
  if (ascii "true").isPrefixOf text then some (ascii "true")
  else if (ascii "false").isPrefixOf text then some (ascii "false")
  else if (ascii "null").isPrefixOf text then some (ascii "null")
  else numeral text

/-- What is made of the text of a scalar. -/
def Algebra.scalar {α : Type*} (alg : Algebra α) (lexeme : JsString) : α :=
  if lexeme = ascii "true" then alg.bool true
  else if lexeme = ascii "false" then alg.bool false
  else if lexeme = ascii "null" then alg.null
  else alg.num lexeme

/-! ## Strings -/

/-- The rest of a string, up to its closing quote. -/
def readChars : JsString → Option (JsString × JsString)
  | [] => none
  | u :: rest =>
    if u = unit '"' then some ([], rest)
    else if u = unit '\\' then
      match rest with
      | [] => none
      | e :: rest =>
        if e = unit 'u' then
          match rest with
          | a :: b :: c :: d :: rest =>
            (hexUnit a b c d).bind fun v => (readChars rest).map fun (s, rest) => (v :: s, rest)
          | _ => none
        else (unescape e).bind fun v => (readChars rest).map fun (s, rest) => (v :: s, rest)
    else if u < 0x20 then none
    else (readChars rest).map fun (s, rest) => (u :: s, rest)

def readString (text : JsString) : Option (JsString × JsString) :=
  (expect (unit '"') text).bind readChars

/-- The body of a string and the text after its closing quote; an escape is passed over unread. -/
def scanBody : JsString → Option (JsString × JsString)
  | [] => none
  | u :: rest =>
    if u = unit '"' then some ([], rest)
    else if u = unit '\\' then
      match rest with
      | [] => none
      | e :: rest => (scanBody rest).map fun (body, rest) => (u :: e :: body, rest)
    else if u < 0x20 then none
    else (scanBody rest).map fun (body, rest) => (u :: body, rest)

/-! ## The platform -/

section

variable {α : Type*}

/-- The reader of the platform, with a space and an algebra of one's own. -/
def platform (algebra : Algebra α) (space : UInt16 → Bool) : Reader α where
  algebra := algebra
  space := space
  string := readString
  scalar := fun text => (matchScalar matchNumeral text).map fun lexeme =>
    (algebra.scalar lexeme, text.drop lexeme.length)
  maxDepth := none
  repeats := true

end

/-- `JSON.parse` -/
def parse (text : JsString) : Option Json := ((platform jsonAlgebra isSpace).read text).toOption

/-- A string whose body a scanner delimits, up to the closing quote, and the platform reads. -/
def quotedBy (scan : JsString → Option (JsString × JsString)) (text : JsString) :
    Option (JsString × JsString) :=
  (expect (unit '"') text).bind fun inner => (scan inner).bind fun (body, rest) =>
    match parse (unit '"' :: (body ++ [unit '"'])) with
    | some (.str s) => some (s, rest)
    | _ => none

/-! ## Numerals are found as the grammar has them -/

theorem takeWhile_append_of_stops {p : UInt16 → Bool} {word rest : JsString}
    (hword : ∀ u ∈ word, p u = true) (hrest : ∀ u, rest.head? = some u → p u = false) :
    (word ++ rest).takeWhile p = word := by
  rw [List.takeWhile_append_of_pos hword]
  cases rest with
  | nil => simp
  | cons u rest => rw [List.takeWhile_cons_of_neg (by simp [hrest u rfl]), List.append_nil]

theorem digits_takeWhile {text : JsString} (h : text.takeWhile isDigit ≠ []) :
    Digits (text.takeWhile isDigit) :=
  ⟨h, fun _ hu => List.mem_takeWhile_imp hu⟩

theorem Whole.cases {whole : JsString} (h : Whole whole) :
    whole = [unit '0'] ∨ ∃ u tail, whole = u :: tail ∧ u ≠ unit '0' := by
  obtain ⟨⟨hne, -⟩, hzero⟩ := h
  obtain ⟨u, tail, rfl⟩ := List.exists_cons_of_ne_nil hne
  by_cases hu : u = unit '0'
  · subst hu
    have := hzero rfl
    exact .inl (by simpa using this)
  · exact .inr ⟨u, tail, rfl, hu⟩

theorem matchWhole_sound {text n : JsString} (h : matchWhole text = some n) :
    n <+: text ∧ Whole n := by
  cases text with
  | nil => cases h
  | cons u rest =>
    rw [matchWhole] at h
    split at h
    · next hzero =>
      obtain rfl := Option.some.inj h
      subst hzero
      exact ⟨⟨rest, rfl⟩, ⟨List.cons_ne_nil _ _, forall_mem_of_all (by decide)⟩, fun _ => rfl⟩
    · next hzero =>
      split at h
      · next hdigit =>
        obtain rfl := Option.some.inj h
        have hcons : (u :: rest).takeWhile isDigit = u :: rest.takeWhile isDigit :=
          List.takeWhile_cons_of_pos hdigit
        refine ⟨List.takeWhile_prefix _, digits_takeWhile (hcons ▸ List.cons_ne_nil _ _), fun hhead => ?_⟩
        rw [hcons, List.head?_cons, Option.some.injEq] at hhead
        exact absurd hhead hzero
      · cases h

theorem matchWhole_complete {n rest : JsString} (h : Whole n)
    (hrest : ∀ u, rest.head? = some u → isDigit u = false) : matchWhole (n ++ rest) = some n := by
  rcases h.cases with rfl | ⟨u, tail, rfl, hu⟩
  · rfl
  · have htake := takeWhile_append_of_stops (p := isDigit) h.1.2 hrest
    rw [List.cons_append] at htake ⊢
    rw [matchWhole, if_neg hu, if_pos (h.1.2 u List.mem_cons_self), htake]

theorem matchInteger_sound {text n : JsString} (h : matchInteger text = some n) :
    n <+: text ∧ IsInteger n := by
  rw [matchInteger] at h
  split at h
  · next body hminus =>
    obtain ⟨whole, hwhole, rfl⟩ := Option.map_eq_some_iff.1 h
    obtain ⟨hstart, hwhole⟩ := matchWhole_sound hwhole
    rw [expect_eq_some.1 hminus]
    exact ⟨List.cons_prefix_cons.2 ⟨rfl, hstart⟩, [unit '-'], whole, .inr rfl, hwhole, rfl⟩
  · obtain ⟨hstart, hwhole⟩ := matchWhole_sound h
    exact ⟨hstart, [], n, .inl rfl, hwhole, rfl⟩

theorem matchInteger_complete {n rest : JsString} (h : IsInteger n)
    (hrest : ∀ u, rest.head? = some u → isDigit u = false) : matchInteger (n ++ rest) = some n := by
  obtain ⟨sign, whole, hsign, hwhole, rfl⟩ := h
  have hmatch := matchWhole_complete hwhole hrest
  rcases hsign with rfl | rfl
  · obtain ⟨u, tail, rfl⟩ := List.exists_cons_of_ne_nil hwhole.1.1
    have hdigit := hwhole.1.2 u List.mem_cons_self
    have hminus : u ≠ unit '-' := by
      rintro rfl
      exact absurd hdigit (by decide)
    rw [List.nil_append, matchInteger, List.cons_append, expect, if_neg hminus]
    exact hmatch
  · rw [matchInteger, List.singleton_append, List.cons_append, expect, if_pos rfl]
    simp only [hmatch, Option.map_some]

theorem IsInteger.numeral {n : JsString} (h : IsInteger n) : IsNumeral n :=
  ⟨n, [], [], h, .inl rfl, .inl rfl, by rw [List.append_nil, List.append_nil]⟩

theorem matchFraction_sound (text : JsString) :
    matchFraction text <+: text ∧ Fraction (matchFraction text) := by
  rw [matchFraction]
  split
  · exact ⟨List.nil_prefix, .inl rfl⟩
  · next rest hdot =>
    rw [expect_eq_some.1 hdot]
    split
    · exact ⟨List.nil_prefix, .inl rfl⟩
    · next hdigits =>
      exact ⟨List.cons_prefix_cons.2 ⟨rfl, List.takeWhile_prefix _⟩,
        .inr ⟨_, digits_takeWhile hdigits, rfl⟩⟩

theorem matchFraction_complete {fraction rest : JsString} (h : Fraction fraction)
    (hrest : ∀ u, rest.head? = some u → isDigit u = false ∧ u ≠ unit '.') :
    matchFraction (fraction ++ rest) = fraction := by
  rcases h with rfl | ⟨digits, hdigits, rfl⟩
  · rw [List.nil_append, matchFraction]
    cases rest with
    | nil => rfl
    | cons u rest => rw [expect, if_neg (hrest u rfl).2]
  · have htake := takeWhile_append_of_stops (p := isDigit) hdigits.2 fun u hu => (hrest u hu).1
    rw [matchFraction, List.cons_append, expect, if_pos rfl]
    simp only [htake, if_neg hdigits.1]

theorem matchSign_sound (text : JsString) :
    matchSign text <+: text ∧ (Sign (matchSign text) ∨ matchSign text = [unit '+']) := by
  cases text with
  | nil => exact ⟨List.nil_prefix, .inl (.inl rfl)⟩
  | cons u rest =>
    rw [matchSign]
    split
    · next hsign =>
      refine ⟨⟨rest, rfl⟩, ?_⟩
      rcases hsign with rfl | rfl
      · exact .inr rfl
      · exact .inl (.inr rfl)
    · exact ⟨List.nil_prefix, .inl (.inl rfl)⟩

theorem prefixed_append {a b text : JsString} (ha : a <+: text) (hb : b <+: text.drop a.length) :
    a ++ b <+: text := by
  obtain ⟨rest, rfl⟩ := ha
  rw [List.drop_left] at hb
  exact (List.prefix_append_right_inj a).2 hb

theorem matchExponent_sound (text : JsString) :
    matchExponent text <+: text ∧ Exponent (matchExponent text) := by
  cases text with
  | nil => exact ⟨List.nil_prefix, .inl rfl⟩
  | cons mark rest =>
    rw [matchExponent]
    split
    · next hmark =>
      obtain ⟨hsigned, hsign⟩ := matchSign_sound rest
      exact ⟨List.cons_prefix_cons.2 ⟨rfl, prefixed_append hsigned (List.takeWhile_prefix _)⟩,
        .inr ⟨mark, _, _, hmark.1, hsign, digits_takeWhile hmark.2, rfl⟩⟩
    · exact ⟨List.nil_prefix, .inl rfl⟩

theorem matchSign_append {sign digits : JsString} (hsign : Sign sign ∨ sign = [unit '+'])
    (hdigits : Digits digits) (rest : JsString) : matchSign (sign ++ (digits ++ rest)) = sign := by
  rcases hsign with (rfl | rfl) | rfl
  · obtain ⟨u, tail, rfl⟩ := List.exists_cons_of_ne_nil hdigits.1
    have hdigit := hdigits.2 u List.mem_cons_self
    rw [List.nil_append, List.cons_append, matchSign, if_neg]
    rintro (rfl | rfl)
    · exact absurd hdigit (by decide)
    · exact absurd hdigit (by decide)
  · rfl
  · rfl

theorem matchExponent_complete {exponent rest : JsString} (h : Exponent exponent)
    (hrest : Reader.Ends rest) : matchExponent (exponent ++ rest) = exponent := by
  rcases h with rfl | ⟨mark, sign, digits, hmark, hsign, hdigits, rfl⟩
  · rw [List.nil_append]
    cases rest with
    | nil => rfl
    | cons u rest =>
      have hletter : ¬ (u = unit 'e' ∨ u = unit 'E') := by
        rintro (rfl | rfl)
        · exact (hrest _ rfl).2 (by decide)
        · exact (hrest _ rfl).2 (by decide)
      rw [matchExponent, if_neg fun hmark => hletter hmark.1]
  · have htake := takeWhile_append_of_stops (p := isDigit) hdigits.2 fun u hu => (hrest u hu).1
    rw [List.cons_append, List.append_assoc, matchExponent, matchSign_append hsign hdigits,
      List.drop_left, htake, if_pos ⟨hmark, hdigits.1⟩]

theorem matchNumeral_sound {text n : JsString} (h : matchNumeral text = some n) :
    n <+: text ∧ IsNumeral n := by
  obtain ⟨integer, hinteger, rfl⟩ := Option.map_eq_some_iff.1 h
  obtain ⟨hstart, hinteger⟩ := matchInteger_sound hinteger
  obtain ⟨hfraction, hisFraction⟩ := matchFraction_sound (text.drop integer.length)
  obtain ⟨hexponent, hisExponent⟩ := matchExponent_sound
    ((text.drop integer.length).drop (matchFraction (text.drop integer.length)).length)
  refine ⟨?_, integer, _, _, hinteger, hisFraction, hisExponent, rfl⟩
  refine prefixed_append (prefixed_append hstart hfraction) ?_
  rw [List.length_append, ← List.drop_drop]
  exact hexponent

theorem matchNumeral_complete {n rest : JsString} (h : IsNumeral n) (hrest : Reader.Ends rest) :
    matchNumeral (n ++ rest) = some n := by
  obtain ⟨integer, fraction, exponent, hinteger, hfraction, hexponent, rfl⟩ := h
  have hafterFraction (u : UInt16) (hu : (exponent ++ rest).head? = some u) :
      isDigit u = false ∧ u ≠ unit '.' := by
    rcases hexponent with rfl | ⟨mark, sign, digits, hmark, -, -, rfl⟩
    · obtain ⟨hdigit, hplain⟩ := hrest u hu
      exact ⟨hdigit, fun hdot => hplain (hdot ▸ by decide)⟩
    · obtain rfl := Option.some.inj hu
      rcases hmark with rfl | rfl <;> exact ⟨by decide, by decide⟩
  have hafterInteger (u : UInt16) (hu : (fraction ++ (exponent ++ rest)).head? = some u) :
      isDigit u = false := by
    rcases hfraction with rfl | ⟨digits, -, rfl⟩
    · exact (hafterFraction u hu).1
    · obtain rfl := Option.some.inj hu
      decide
  rw [List.append_assoc, List.append_assoc, matchNumeral,
    matchInteger_complete hinteger hafterInteger, Option.map_some, List.drop_left]
  dsimp only
  rw [matchFraction_complete hfraction hafterFraction, List.drop_left,
    matchExponent_complete hexponent hrest]

/-! ## Scalars are found as the grammar has them -/

/-- The text of a scalar. -/
def IsLexeme (lexeme : JsString) : Prop :=
  lexeme = ascii "true" ∨ lexeme = ascii "false" ∨ lexeme = ascii "null" ∨ IsNumeral lexeme

/-- A numeral does not start as a literal does. -/
theorem IsNumeral.not_prefix {n : JsString} (h : IsNumeral n) {u : UInt16} {tail rest : JsString}
    (hu : u ≠ unit '-' ∧ isDigit u = false) : ¬ (u :: tail).isPrefixOf (n ++ rest) = true := by
  obtain ⟨v, vs, rfl, hv⟩ := h.head
  rw [List.isPrefixOf_iff_prefix, List.cons_append, List.cons_prefix_cons]
  rintro ⟨rfl, -⟩
  rcases hv with hv | hv
  · exact hu.1 hv
  · rw [hu.2] at hv
    cases hv

theorem IsNumeral.ne_literal {n : JsString} (h : IsNumeral n) :
    n ≠ ascii "true" ∧ n ≠ ascii "false" ∧ n ≠ ascii "null" := by
  obtain ⟨u, tail, rfl, hu⟩ := h.head
  have hne {v : UInt16} {word : JsString} (hv : v ≠ unit '-' ∧ isDigit v = false) :
      u :: tail ≠ v :: word := by
    rintro ⟨⟩
    rcases hu with rfl | hu
    · exact hv.1 rfl
    · rw [hv.2] at hu
      cases hu
  exact ⟨hne (by decide), hne (by decide), hne (by decide)⟩

theorem scalar_numeral {α : Type*} (alg : Algebra α) {n : JsString} (h : IsNumeral n) :
    alg.scalar n = alg.num n := by
  obtain ⟨htrue, hfalse, hnull⟩ := h.ne_literal
  rw [Algebra.scalar, if_neg htrue, if_neg hfalse, if_neg hnull]

theorem fold_scalar {α : Type*} (alg : Algebra α) (lexeme : JsString) :
    (docAlgebra.scalar lexeme).fold alg = alg.scalar lexeme := by
  unfold Algebra.scalar docAlgebra
  split
  · rw [Doc.fold]
  · split
    · rw [Doc.fold]
    · split
      · rw [Doc.fold]
      · rw [Doc.fold]

theorem scalar_iff {text rest : JsString} {d : Doc} :
    Scalar text d rest ↔
      ∃ lexeme, IsLexeme lexeme ∧ text = lexeme ++ rest ∧ d = docAlgebra.scalar lexeme := by
  constructor
  · rintro (_ | b | hnumeral)
    · exact ⟨ascii "null", .inr (.inr (.inl rfl)), rfl, rfl⟩
    · cases b
      · exact ⟨ascii "false", .inr (.inl rfl), rfl, rfl⟩
      · exact ⟨ascii "true", .inl rfl, rfl, rfl⟩
    · exact ⟨_, .inr (.inr (.inr hnumeral)), rfl, (scalar_numeral docAlgebra hnumeral).symm⟩
  · rintro ⟨lexeme, rfl | rfl | rfl | hnumeral, rfl, rfl⟩
    · exact .bool true rest
    · exact .bool false rest
    · exact .null rest
    · rw [scalar_numeral docAlgebra hnumeral]
      exact .num hnumeral rest

theorem mem_numbers_scalar {lexeme digits : JsString} (h : IsLexeme lexeme) :
    digits ∈ (docAlgebra.scalar lexeme).numbers ↔ digits = lexeme ∧ IsNumeral lexeme := by
  have hliteral {d : Doc} (hd : d.numbers = []) (hne : ¬ IsNumeral lexeme) :
      digits ∈ d.numbers ↔ digits = lexeme ∧ IsNumeral lexeme := by
    rw [hd]
    exact iff_of_false List.not_mem_nil fun hnumeral => hne hnumeral.2
  rcases h with rfl | rfl | rfl | hnumeral
  · exact hliteral (d := .bool true) (by rw [Doc.numbers]) fun h => h.ne_literal.1 rfl
  · exact hliteral (d := .bool false) (by rw [Doc.numbers]) fun h => h.ne_literal.2.1 rfl
  · exact hliteral (d := .null) (by rw [Doc.numbers]) fun h => h.ne_literal.2.2 rfl
  · rw [scalar_numeral docAlgebra hnumeral]
    show digits ∈ (Doc.num lexeme).numbers ↔ _
    rw [Doc.numbers, List.mem_singleton]
    exact ⟨fun h => ⟨h, hnumeral⟩, And.left⟩

section

variable {numeral : JsString → Option JsString} {text lexeme rest : JsString}

theorem matchScalar_sound (hnumeral : ∀ {n}, numeral text = some n → n <+: text ∧ IsNumeral n)
    (h : matchScalar numeral text = some lexeme) :
    lexeme <+: text ∧ IsLexeme lexeme ∧ (IsNumeral lexeme → numeral text = some lexeme) := by
  unfold matchScalar at h
  split at h
  · next hword =>
    obtain rfl := Option.some.inj h
    exact ⟨List.isPrefixOf_iff_prefix.1 hword, .inl rfl, fun h => absurd rfl h.ne_literal.1⟩
  · split at h
    · next hword =>
      obtain rfl := Option.some.inj h
      exact ⟨List.isPrefixOf_iff_prefix.1 hword, .inr (.inl rfl),
        fun h => absurd rfl h.ne_literal.2.1⟩
    · split at h
      · next hword =>
        obtain rfl := Option.some.inj h
        exact ⟨List.isPrefixOf_iff_prefix.1 hword, .inr (.inr (.inl rfl)),
          fun h => absurd rfl h.ne_literal.2.2⟩
      · exact ⟨(hnumeral h).1, .inr (.inr (.inr (hnumeral h).2)), fun _ => h⟩

theorem matchScalar_complete (h : IsLexeme lexeme)
    (hnumeral : IsNumeral lexeme → numeral (lexeme ++ rest) = some lexeme) :
    matchScalar numeral (lexeme ++ rest) = some lexeme := by
  rcases h with rfl | rfl | rfl | h
  · rfl
  · rfl
  · rfl
  · have htrue : ¬ (unit 't' :: ascii "rue").isPrefixOf (lexeme ++ rest) = true :=
      h.not_prefix (by decide)
    have hfalse : ¬ (unit 'f' :: ascii "alse").isPrefixOf (lexeme ++ rest) = true :=
      h.not_prefix (by decide)
    have hnull : ¬ (unit 'n' :: ascii "ull").isPrefixOf (lexeme ++ rest) = true :=
      h.not_prefix (by decide)
    rw [matchScalar]
    exact (if_neg htrue).trans ((if_neg hfalse).trans ((if_neg hnull).trans (hnumeral h)))

end

/-! ## Strings are read as the grammar has them -/

theorem readChars_sound {text s rest : JsString} (h : readChars text = some (s, rest)) :
    ∃ body, Chars body s ∧ text = body ++ unit '"' :: rest := by
  induction hn : text.length using Nat.strong_induction_on generalizing text s rest with
  | _ n ih =>
    subst hn
    cases text with
    | nil => cases h
    | cons u text =>
      rw [readChars.eq_def] at h
      dsimp only at h
      split_ifs at h with hquote hback hcontrol
      · obtain ⟨rfl, rfl⟩ : [] = s ∧ text = rest := by simpa using h
        exact ⟨[], .nil, hquote ▸ rfl⟩
      · rcases text with _ | ⟨e, text⟩
        · cases h
        dsimp only at h
        split_ifs at h with hescape
        · rcases text with _ | ⟨a, _ | ⟨b, _ | ⟨c, _ | ⟨d, text⟩⟩⟩⟩
          · cases h
          · cases h
          · cases h
          · cases h
          obtain ⟨v, hv, h⟩ := Option.bind_eq_some_iff.1 h
          obtain ⟨⟨s', after⟩, hread, heq⟩ := Option.map_eq_some_iff.1 h
          obtain ⟨rfl, rfl⟩ : v :: s' = s ∧ after = rest := by simpa using heq
          obtain ⟨body, hbody, rfl⟩ := ih _ (by simp only [List.length_cons]; omega) hread rfl
          rw [hback, hescape]
          exact ⟨_, .hex hv hbody, rfl⟩
        · obtain ⟨v, hv, h⟩ := Option.bind_eq_some_iff.1 h
          obtain ⟨⟨s', after⟩, hread, heq⟩ := Option.map_eq_some_iff.1 h
          obtain ⟨rfl, rfl⟩ : v :: s' = s ∧ after = rest := by simpa using heq
          obtain ⟨body, hbody, rfl⟩ := ih _ (by simp only [List.length_cons]; omega) hread rfl
          rw [hback]
          exact ⟨_, .short hv hbody, rfl⟩
      · obtain ⟨⟨s', after⟩, hread, heq⟩ := Option.map_eq_some_iff.1 h
        obtain ⟨rfl, rfl⟩ : u :: s' = s ∧ after = rest := by simpa using heq
        obtain ⟨body, hbody, rfl⟩ := ih _ (by simp only [List.length_cons]; omega) hread rfl
        exact ⟨_, .plain hquote hback hcontrol hbody, rfl⟩

theorem readChars_complete {body s : JsString} (h : Chars body s) (rest : JsString) :
    readChars (body ++ unit '"' :: rest) = some (s, rest) := by
  have hback : unit '\\' ≠ unit '"' := by decide
  induction h with
  | nil =>
    rw [List.nil_append, readChars.eq_def]
    simp only [if_pos]
  | plain hquote hplain hcontrol _ ih =>
    rw [List.cons_append, readChars.eq_def]
    simp only [if_neg hquote, if_neg hplain, if_neg hcontrol, ih, Option.map_some]
  | @short e u body s hshort _ ih =>
    have hu : e ≠ unit 'u' := by
      rintro rfl
      have hnone : unescape (unit 'u') = none := by decide
      rw [hnone] at hshort
      cases hshort
    rw [List.cons_append, List.cons_append, readChars.eq_def]
    simp only [if_neg hback, if_pos, if_neg hu, hshort, ih, Option.bind_some, Option.map_some]
  | hex hhex _ ih =>
    simp only [List.cons_append]
    rw [readChars.eq_def]
    simp only [if_neg hback, if_pos, hhex, ih, Option.bind_some, Option.map_some]

theorem readString_eq_some {text s rest : JsString} :
    readString text = some (s, rest) ↔ Quoted text s rest := by
  rw [readString, Option.bind_eq_some_iff]
  constructor
  · rintro ⟨inner, hquote, hread⟩
    obtain ⟨body, hbody, rfl⟩ := readChars_sound hread
    exact ⟨body, hbody, expect_eq_some.1 hquote⟩
  · rintro ⟨body, hbody, rfl⟩
    exact ⟨_, expect_eq_some.2 rfl, readChars_complete hbody rest⟩

/-! ## The platform reads the grammar -/

section

variable {α : Type*} {space : UInt16 → Bool}

theorem platform_lawful (algebra : Algebra α)
    (hspace : ∀ u, space u = true → u ∉ ascii "\"[]\x7b\x7d:,-.eEtfn" ∧ isDigit u = false) :
    (platform algebra space).Lawful fun _ => True where
  space := hspace
  string := readString_eq_some
  scalar_sound := fun {text v rest} h => by
    obtain ⟨lexeme, hlexeme, heq⟩ := Option.map_eq_some_iff.1 h
    obtain ⟨⟨after, rfl⟩, hlexeme, -⟩ := matchScalar_sound matchNumeral_sound hlexeme
    rw [List.drop_left] at heq
    obtain ⟨rfl, rfl⟩ : algebra.scalar lexeme = v ∧ after = rest := by simpa using heq
    exact ⟨_, scalar_iff.2 ⟨lexeme, hlexeme, rfl, rfl⟩, fun _ _ => trivial,
      (fold_scalar algebra lexeme).symm⟩
  scalar_complete := fun {text d rest} h hends _ => by
    obtain ⟨lexeme, hlexeme, rfl, rfl⟩ := scalar_iff.1 h
    have hmatch := matchScalar_complete hlexeme fun hnumeral =>
      matchNumeral_complete hnumeral hends
    simp only [platform, hmatch, Option.map_some, List.drop_left, fold_scalar]

theorem platform_admits (algebra : Algebra α) (d : Doc) :
    (platform algebra space).Admits (fun _ => True) 0 d :=
  ⟨nofun, nofun, fun _ _ => trivial⟩

theorem platform_read (algebra : Algebra α)
    (hspace : ∀ u, space u = true → u ∉ ascii "\"[]\x7b\x7d:,-.eEtfn" ∧ isDigit u = false)
    {text : JsString} {v : α} :
    (platform algebra space).read text = .ok v ↔ ∃ d, Spells space text d ∧ v = d.fold algebra := by
  rw [Reader.read_eq_ok (platform_lawful algebra hspace)]
  exact exists_congr fun d => ⟨fun h => ⟨h.1, h.2.2⟩, fun h => ⟨h.1, platform_admits algebra d, h.2⟩⟩

/-- **A text spells one document.** -/
theorem spells_unique
    (hspace : ∀ u, space u = true → u ∉ ascii "\"[]\x7b\x7d:,-.eEtfn" ∧ isDigit u = false)
    {text : JsString} {d d' : Doc} (h : Spells space text d) (h' : Spells space text d') : d = d' := by
  have hread := (platform_read docAlgebra hspace).2 ⟨d, h, rfl⟩
  rw [(platform_read docAlgebra hspace).2 ⟨d', h', rfl⟩, fold_doc, fold_doc] at hread
  exact (Except.ok.inj hread).symm

end

theorem isSpace_plain (u : UInt16) (h : isSpace u = true) :
    u ∉ ascii "\"[]\x7b\x7d:,-.eEtfn" ∧ isDigit u = false :=
  forall_mem_of_all (p := fun u => u ∉ ascii "\"[]\x7b\x7d:,-.eEtfn" ∧ isDigit u = false) (by decide)
    u (List.contains_iff_mem.1 h)

/-- **`JSON.parse` reads the grammar.** -/
theorem parse_eq_some {text : JsString} {v : Json} :
    parse text = some v ↔ ∃ d, Spells isSpace text d ∧ v = d.value := by
  refine Iff.trans ?_ (platform_read jsonAlgebra isSpace_plain)
  rw [parse]
  cases (platform jsonAlgebra isSpace).read text <;> simp [Except.toOption]

/-- A quoted string, as the platform reads it. -/
theorem parse_quoted {body s : JsString} :
    parse (unit '"' :: (body ++ [unit '"'])) = some (.str s) ↔ Chars body s := by
  rw [parse_eq_some]
  constructor
  · rintro ⟨d, ⟨start, after, ⟨ws, hws, htext⟩, hvalue, hafter⟩, hd⟩
    have hquote : isSpace (unit '"') = false := by decide
    obtain rfl : ws = [] := by
      cases ws with
      | nil => rfl
      | cons w ws =>
        obtain ⟨rfl, -⟩ := List.cons.inj htext
        rw [hws _ List.mem_cons_self] at hquote
        cases hquote
    rw [List.nil_append] at htext
    obtain rfl : d = .str s := by
      cases d with
      | str s' =>
        rw [Doc.value, Doc.fold] at hd
        exact congrArg Doc.str (Json.str.inj hd).symm
      | null | bool b | num n | arr ds | obj ms =>
        rw [Doc.value, Doc.fold] at hd
        cases hd
    rw [← htext] at hvalue
    cases hvalue with
    | scalar hscalar =>
      obtain ⟨u, tail, heq, hu⟩ := hscalar.head
      obtain ⟨rfl, -⟩ := List.cons.inj heq
      exact absurd hu (by decide)
    | str hquoted =>
      obtain ⟨body', hbody', heq⟩ := hquoted
      obtain ⟨-, heq⟩ := List.cons.inj heq
      obtain ⟨ws, hws, rfl⟩ := hafter
      rw [List.append_nil] at heq
      obtain rfl | ⟨ws', w, rfl⟩ := ws.eq_nil_or_concat'
      · rwa [List.append_cancel_right heq]
      · have hlast := congrArg List.getLast? heq
        rw [List.getLast?_concat, ← List.cons_append, ← List.append_assoc, List.getLast?_concat,
          Option.some.injEq] at hlast
        rw [hlast, hws w (by simp)] at hquote
        cases hquote
  · intro h
    exact ⟨.str s, ⟨_, [], ⟨[], nofun, rfl⟩, .str ⟨body, h, rfl⟩, ⟨[], nofun, rfl⟩⟩,
      by rw [Doc.value, Doc.fold, jsonAlgebra]⟩

/-- **A string a scanner delimits is read as the grammar has it.** -/
theorem quotedBy_eq_some {scan : JsString → Option (JsString × JsString)}
    (hsound : ∀ {text body rest}, scan text = some (body, rest) → text = body ++ unit '"' :: rest)
    (hcomplete : ∀ {body s rest}, Chars body s → scan (body ++ unit '"' :: rest) = some (body, rest))
    {text s rest : JsString} : quotedBy scan text = some (s, rest) ↔ Quoted text s rest := by
  rw [quotedBy, Option.bind_eq_some_iff]
  constructor
  · rintro ⟨inner, hquote, h⟩
    obtain ⟨⟨body, after⟩, hscan, h⟩ := Option.bind_eq_some_iff.1 h
    dsimp only at h
    split at h
    · next s' hparse =>
      obtain ⟨rfl, rfl⟩ : s' = s ∧ after = rest := by simpa using h
      exact ⟨body, parse_quoted.1 hparse, by rw [expect_eq_some.1 hquote, hsound hscan]⟩
    · cases h
  · rintro ⟨body, hbody, rfl⟩
    refine ⟨_, expect_eq_some.2 rfl, ?_⟩
    rw [hcomplete hbody, Option.bind_some]
    simp only [parse_quoted.2 hbody]

theorem scanBody_sound {text body rest : JsString} (h : scanBody text = some (body, rest)) :
    text = body ++ unit '"' :: rest := by
  fun_induction scanBody text generalizing body rest with
  | case1 => cases h
  | case2 rest' =>
    obtain ⟨rfl, rfl⟩ : [] = body ∧ rest' = rest := by simpa using h
    rfl
  | case3 => cases h
  | case4 e rest' _ ih =>
    obtain ⟨⟨body', after⟩, hscan, heq⟩ := Option.map_eq_some_iff.1 h
    obtain ⟨rfl, rfl⟩ : unit '\\' :: e :: body' = body ∧ after = rest := by simpa using heq
    rw [ih hscan]
    rfl
  | case5 => cases h
  | case6 u rest' _ _ _ ih =>
    obtain ⟨⟨body', after⟩, hscan, heq⟩ := Option.map_eq_some_iff.1 h
    obtain ⟨rfl, rfl⟩ : u :: body' = body ∧ after = rest := by simpa using heq
    rw [ih hscan]
    rfl

/-- A hexadecimal digit is scanned as any other character. -/
theorem scanBody_hex {u : UInt16} {n : ℕ} (h : hexValue u = some n) (rest : JsString) :
    scanBody (u :: rest) = (scanBody rest).map fun (body, rest) => (u :: body, rest) := by
  have hrange : 48 ≤ u.toNat ∧ u.toNat ≤ 102 ∧ u.toNat ≠ 92 := by
    rw [hexValue] at h
    split at h
    · next hlt =>
      have hlt : u.toNat < 128 := UInt16.lt_iff_toNat_lt.1 hlt
      rw [Json.hexValue, toNat_ofNat (by omega)] at h
      split_ifs at h <;> omega
    · cases h
  have hquote : u ≠ unit '"' := by
    rintro rfl
    exact absurd hrange (by decide)
  have hback : u ≠ unit '\\' := by
    rintro rfl
    exact absurd hrange (by decide)
  have hcontrol : ¬ u < 0x20 := by
    rw [UInt16.lt_iff_toNat_lt]
    exact fun hlt => absurd hrange.1 (by change u.toNat < 32 at hlt; omega)
  rw [scanBody.eq_def]
  simp only [if_neg hquote, if_neg hback, if_neg hcontrol]

theorem scanBody_complete {body s rest : JsString} (h : Chars body s) :
    scanBody (body ++ unit '"' :: rest) = some (body, rest) := by
  have hback : unit '\\' ≠ unit '"' := by decide
  induction h with
  | nil =>
    rw [List.nil_append, scanBody.eq_def]
    simp only [if_pos]
  | plain hquote hplain hcontrol _ ih =>
    rw [List.cons_append, scanBody.eq_def]
    simp only [if_neg hquote, if_neg hplain, if_neg hcontrol, ih, Option.map_some]
  | short _ _ ih =>
    rw [List.cons_append, List.cons_append, scanBody.eq_def]
    simp only [if_neg hback, if_pos, ih, Option.map_some]
  | @hex a b c d u body s hhex _ ih =>
    obtain ⟨na, ha, hhex⟩ := Option.bind_eq_some_iff.1 hhex
    obtain ⟨nb, hb, hhex⟩ := Option.bind_eq_some_iff.1 hhex
    obtain ⟨nc, hc, hhex⟩ := Option.bind_eq_some_iff.1 hhex
    obtain ⟨nd, hd, -⟩ := Option.bind_eq_some_iff.1 hhex
    simp only [List.cons_append]
    rw [scanBody.eq_def]
    simp only [if_neg hback, if_pos, scanBody_hex ha, scanBody_hex hb, scanBody_hex hc,
      scanBody_hex hd, ih, Option.map_some]

/-! ## More space -/

section

variable {space space' : UInt16 → Bool} (hspaces : ∀ u, space u = true → space' u = true)
include hspaces

theorem Spaces.mono {text rest : JsString} (h : Spaces space text rest) : Spaces space' text rest :=
  h.imp fun _ hws => ⟨fun u hu => hspaces u (hws.1 u hu), hws.2⟩

mutual

theorem Value.mono {text rest : JsString} {d : Doc} :
    Value space text d rest → Value space' text d rest
  | .scalar h => .scalar h
  | .str h => .str h
  | .noElements h => .noElements (h.mono hspaces)
  | .arr h => .arr h.mono
  | .noMembers h => .noMembers (h.mono hspaces)
  | .obj h => .obj h.mono

theorem Elements.mono {text rest : JsString} {ds : List Doc} :
    Elements space text ds rest → Elements space' text ds rest
  | .last hstart hvalue hend => .last (hstart.mono hspaces) hvalue.mono (hend.mono hspaces)
  | .cons hstart hvalue hend hrest =>
    .cons (hstart.mono hspaces) hvalue.mono (hend.mono hspaces) hrest.mono

theorem Members.mono {text rest : JsString} {ms : List (JsString × Doc)} :
    Members space text ms rest → Members space' text ms rest
  | .last hstart hkey hcolon hinner hvalue hend =>
    .last (hstart.mono hspaces) hkey (hcolon.mono hspaces) (hinner.mono hspaces) hvalue.mono
      (hend.mono hspaces)
  | .cons hstart hkey hcolon hinner hvalue hend hrest =>
    .cons (hstart.mono hspaces) hkey (hcolon.mono hspaces) (hinner.mono hspaces) hvalue.mono
      (hend.mono hspaces) hrest.mono

end

theorem Spells.mono {text : JsString} {d : Doc} (h : Spells space text d) : Spells space' text d :=
  let ⟨start, after, hstart, hvalue, hend⟩ := h
  ⟨start, after, hstart.mono hspaces, hvalue.mono hspaces, hend.mono hspaces⟩

end

end Limitmark.Foundations.JsonGrammar
