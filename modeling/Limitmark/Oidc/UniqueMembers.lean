import Limitmark.Foundations.JsonScanners

/-!
# JSON without repeated members

Two readers that refuse what `JSON.parse` would settle by the last member of a name:
`parseJsonWithoutDuplicateMembers` of `workers/shared/bounded-jwks.ts`, which scans the text and leaves
the reading to the platform, and `parseStrictJson` of `operator/lifecycle-submitter.ts`, which builds the
value itself. The first skips every space of `\s` and looks at the escapes. Both accept exactly the
texts of JSON in which no object repeats a name (`readers_accept`).
-/

namespace Limitmark.Oidc.UniqueMembers

open Limitmark.Foundations Limitmark.Foundations.JsonGrammar

/-! ## The scanner of tokens and key sets -/

/-- `/\s/u` -/
def regexSpace (u : UInt16) : Bool :=
  (ascii "\t\n\x0b\x0c\r " ++ [0xA0, 0x1680, 0x2000, 0x2001, 0x2002, 0x2003, 0x2004, 0x2005, 0x2006,
    0x2007, 0x2008, 0x2009, 0x200A, 0x2028, 0x2029, 0x202F, 0x205F, 0x3000, 0xFEFF]).contains u

/-- `/^[0-9a-fA-F]{4}$/` -/
def isHexQuad (a b c d : UInt16) : Bool := [a, b, c, d].all fun u => (hexValue u).isSome

/-- The body of a string and the text after its closing quote, with every escape looked at. -/
def scanEscapes : JsString → Option (JsString × JsString)
  | [] => none
  | u :: rest =>
    if u = unit '"' then some ([], rest)
    else if u = unit '\\' then
      match rest with
      | [] => none
      | escape :: rest =>
        if escape = unit 'u' then
          match rest with
          | a :: b :: c :: d :: rest =>
            if isHexQuad a b c d then
              (scanEscapes rest).map fun (body, rest) => (u :: escape :: a :: b :: c :: d :: body, rest)
            else none
          | _ => none
        else if escape ∈ ascii "\"\\/bfnrt" then
          (scanEscapes rest).map fun (body, rest) => (u :: escape :: body, rest)
        else none
    else if u < 0x20 then none
    else (scanEscapes rest).map fun (body, rest) => (u :: body, rest)

/-- The scan makes nothing of what it passes over. -/
def scanAlgebra : Algebra Unit := ⟨(), fun _ => (), fun _ => (), fun _ => (), fun _ => (), fun _ => ()⟩

def scanner : Reader Unit where
  algebra := scanAlgebra
  space := regexSpace
  string := quotedBy scanEscapes
  scalar := fun text => (matchScalar matchNumeral text).map fun found => ((), text.drop found.length)
  maxDepth := none
  repeats := false

def parseJsonWithoutDuplicateMembers (text : JsString) : Except Fault Json :=
  match scanner.read text with
  | .error fault => .error fault
  | .ok () =>
    match JsonGrammar.parse text with
    | some v => .ok v
    | none => .error .refused

/-! ## The reader of the operator -/

def sealedReader : Reader Json where
  algebra := jsonAlgebra
  space := isSpace
  string := quotedBy scanBody
  scalar := fun text => (matchScalar matchNumeral text).bind fun found =>
    (JsonGrammar.parse found).map fun v => (v, text.drop found.length)
  maxDepth := none
  repeats := false

def parseStrictJson (source : JsString) : Except Fault Json := sealedReader.read source

/-! ## The scanners are right -/

theorem scanEscapes_sound {text body rest : JsString} (h : scanEscapes text = some (body, rest)) :
    text = body ++ unit '"' :: rest := by
  induction hn : text.length using Nat.strong_induction_on generalizing text body rest with
  | _ n ih =>
    subst hn
    cases text with
    | nil => cases h
    | cons u text =>
      rw [scanEscapes.eq_def] at h
      dsimp only at h
      split_ifs at h with hquote hback hcontrol
      · obtain ⟨rfl, rfl⟩ : [] = body ∧ text = rest := by simpa using h
        rw [hquote, List.nil_append]
      · rcases text with _ | ⟨escape, text⟩
        · cases h
        dsimp only at h
        split_ifs at h with hescape hknown
        · rcases text with _ | ⟨a, _ | ⟨b, _ | ⟨c, _ | ⟨d, text⟩⟩⟩⟩
          · cases h
          · cases h
          · cases h
          · cases h
          dsimp only at h
          split_ifs at h with hhex
          obtain ⟨⟨body', after⟩, hscan, heq⟩ := Option.map_eq_some_iff.1 h
          obtain ⟨rfl, rfl⟩ : u :: escape :: a :: b :: c :: d :: body' = body ∧ after = rest := by
            simpa using heq
          have htail := ih _ (by simp only [List.length_cons]; omega) hscan rfl
          rw [htail]
          rfl
        · obtain ⟨⟨body', after⟩, hscan, heq⟩ := Option.map_eq_some_iff.1 h
          obtain ⟨rfl, rfl⟩ : u :: escape :: body' = body ∧ after = rest := by simpa using heq
          have htail := ih _ (by simp only [List.length_cons]; omega) hscan rfl
          rw [htail]
          rfl
      · obtain ⟨⟨body', after⟩, hscan, heq⟩ := Option.map_eq_some_iff.1 h
        obtain ⟨rfl, rfl⟩ : u :: body' = body ∧ after = rest := by simpa using heq
        have htail := ih _ (by simp only [List.length_cons]; omega) hscan rfl
        rw [htail]
        rfl

/-- A short escape is one of the letters the scanner knows. -/
theorem mem_escapes {e u : UInt16} (h : unescape e = some u) :
    e ∈ ascii "\"\\/bfnrt" ∧ e ≠ unit 'u' := by
  have hmem : e ∈ ascii "\"\\/bfnrt" := by
    rw [unescape] at h
    split at h
    · next hlt =>
      have hunit (c : Char) (hc : Char.ofNat e.toNat = c) : e = unit c := by
        have hnat : e.toNat < 128 := UInt16.lt_iff_toNat_lt.1 hlt
        rw [← hc, unit, toNat_ofNat (by omega), toNat_toUInt16]
      rw [Json.unescape] at h
      split_ifs at h with h₁ h₂ h₃ h₄ h₅ h₆ h₇ h₈
      · exact hunit _ h₁ ▸ by decide
      · exact hunit _ h₂ ▸ by decide
      · exact hunit _ h₃ ▸ by decide
      · exact hunit _ h₄ ▸ by decide
      · exact hunit _ h₅ ▸ by decide
      · exact hunit _ h₆ ▸ by decide
      · exact hunit _ h₇ ▸ by decide
      · exact hunit _ h₈ ▸ by decide
    · cases h
  exact ⟨hmem, forall_mem_of_all (p := fun e => e ≠ unit 'u') (by decide) e hmem⟩

theorem isHexQuad_of_hexUnit {a b c d u : UInt16} (h : hexUnit a b c d = some u) :
    isHexQuad a b c d = true := by
  obtain ⟨na, ha, h⟩ := Option.bind_eq_some_iff.1 h
  obtain ⟨nb, hb, h⟩ := Option.bind_eq_some_iff.1 h
  obtain ⟨nc, hc, h⟩ := Option.bind_eq_some_iff.1 h
  obtain ⟨nd, hd, -⟩ := Option.bind_eq_some_iff.1 h
  simp [isHexQuad, ha, hb, hc, hd]

theorem scanEscapes_complete {body s rest : JsString} (h : Chars body s) :
    scanEscapes (body ++ unit '"' :: rest) = some (body, rest) := by
  have hback : unit '\\' ≠ unit '"' := by decide
  induction h with
  | nil =>
    rw [List.nil_append, scanEscapes.eq_def]
    simp only [if_pos]
  | plain hquote hplain hcontrol _ ih =>
    rw [List.cons_append, scanEscapes.eq_def]
    simp only [if_neg hquote, if_neg hplain, if_neg hcontrol, ih, Option.map_some]
  | short hshort _ ih =>
    obtain ⟨hmem, hu⟩ := mem_escapes hshort
    rw [List.cons_append, List.cons_append, scanEscapes.eq_def]
    simp only [if_neg hback, if_pos, if_neg hu, hmem, ih, Option.map_some]
  | hex hhex _ ih =>
    simp only [List.cons_append]
    rw [scanEscapes.eq_def]
    simp only [if_neg hback, if_pos, isHexQuad_of_hexUnit hhex, ih, Option.map_some]

theorem regexSpace_plain (u : UInt16) (h : regexSpace u = true) :
    u ∉ ascii "\"[]\x7b\x7d:,-.eEtfn" ∧ isDigit u = false :=
  forall_mem_of_all (p := fun u => u ∉ ascii "\"[]\x7b\x7d:,-.eEtfn" ∧ isDigit u = false) (by decide)
    u (List.contains_iff_mem.1 h)

theorem regexSpace_of_isSpace (u : UInt16) (h : isSpace u = true) : regexSpace u = true :=
  forall_mem_of_all (p := fun u => regexSpace u = true) (by decide) u (List.contains_iff_mem.1 h)

theorem scanner_lawful : scanner.Lawful fun _ => True where
  space := regexSpace_plain
  string := quotedBy_eq_some scanEscapes_sound scanEscapes_complete
  scalar_sound := fun h => (platform_lawful scanAlgebra regexSpace_plain).scalar_sound h
  scalar_complete := (platform_lawful scanAlgebra regexSpace_plain).scalar_complete

theorem parse_lexeme {found : JsString} (h : IsLexeme found) :
    JsonGrammar.parse found = some (jsonAlgebra.scalar found) := by
  refine parse_eq_some.2 ⟨docAlgebra.scalar found, ⟨found, [], ⟨[], nofun, rfl⟩, ?_, ⟨[], nofun, rfl⟩⟩,
    (fold_scalar jsonAlgebra found).symm⟩
  exact .scalar (scalar_iff.2 ⟨found, h, (List.append_nil found).symm, rfl⟩)

theorem sealedReader_scalar (text : JsString) :
    sealedReader.scalar text = (platform jsonAlgebra isSpace).scalar text := by
  change ((matchScalar matchNumeral text).bind fun found => _) =
    (matchScalar matchNumeral text).map fun found => _
  cases hfound : matchScalar matchNumeral text with
  | none => rfl
  | some found =>
    rw [Option.bind_some, parse_lexeme (matchScalar_sound matchNumeral_sound hfound).2.1]
    rfl

theorem sealedReader_lawful : sealedReader.Lawful fun _ => True where
  space := isSpace_plain
  string := quotedBy_eq_some scanBody_sound scanBody_complete
  scalar_sound := fun h =>
    (platform_lawful jsonAlgebra isSpace_plain).scalar_sound ((sealedReader_scalar _).symm.trans h)
  scalar_complete := fun h hends hnumber => (sealedReader_scalar _).trans
    ((platform_lawful jsonAlgebra isSpace_plain).scalar_complete h hends hnumber)

/-! ## What the readers accept -/

theorem admits_iff {α : Type*} {r : Reader α} (hdepth : r.maxDepth = none) (hrepeats : r.repeats = false)
    (d : Doc) : r.Admits (fun _ => True) 0 d ↔ d.Distinct := by
  rw [Reader.Admits, hdepth]
  refine ⟨fun h => h.2.1 hrepeats, fun h => ⟨fun limit hlimit => ?_, fun _ => h, fun _ _ => trivial⟩⟩
  cases hlimit

theorem parseStrictJson_eq_ok {source : JsString} {v : Json} :
    parseStrictJson source = .ok v ↔
      (∃ d, Spells isSpace source d ∧ d.Distinct) ∧ JsonGrammar.parse source = some v := by
  rw [parseStrictJson, Reader.read_eq_ok sealedReader_lawful, parse_eq_some]
  constructor
  · rintro ⟨d, hspells, hadmits, rfl⟩
    exact ⟨⟨d, hspells, (admits_iff rfl rfl d).1 hadmits⟩, d, hspells, rfl⟩
  · rintro ⟨⟨d, hspells, hdistinct⟩, d', hspells', rfl⟩
    obtain rfl := spells_unique isSpace_plain hspells hspells'
    exact ⟨d, hspells, (admits_iff rfl rfl d).2 hdistinct, rfl⟩

theorem scanner_eq_ok {text : JsString} :
    scanner.read text = .ok () ↔ ∃ d, Spells regexSpace text d ∧ d.Distinct := by
  rw [Reader.read_eq_ok scanner_lawful]
  refine exists_congr fun d => and_congr_right fun _ => ?_
  rw [admits_iff rfl rfl]
  exact and_iff_left rfl

/-- A text the scanner has passed is a text of JSON only if the platform reads it. -/
theorem parseJsonWithoutDuplicateMembers_eq_ok {text : JsString} {v : Json} :
    parseJsonWithoutDuplicateMembers text = .ok v ↔
      (∃ d, Spells isSpace text d ∧ d.Distinct) ∧ JsonGrammar.parse text = some v := by
  have hread : parseJsonWithoutDuplicateMembers text = .ok v ↔
      scanner.read text = .ok () ∧ JsonGrammar.parse text = some v := by
    unfold parseJsonWithoutDuplicateMembers
    cases hscan : scanner.read text with
    | error fault => exact iff_of_false nofun fun h => absurd h.1 nofun
    | ok u => cases hparse : JsonGrammar.parse text <;> simp
  rw [hread, scanner_eq_ok]
  refine and_congr_left fun hparse => ?_
  obtain ⟨d, hspells, -⟩ := parse_eq_some.1 hparse
  have hwide := hspells.mono regexSpace_of_isSpace
  constructor
  · rintro ⟨d', hspells', hdistinct⟩
    obtain rfl := spells_unique regexSpace_plain hwide hspells'
    exact ⟨d, hspells, hdistinct⟩
  · rintro ⟨d', hspells', hdistinct⟩
    exact ⟨d', hspells'.mono regexSpace_of_isSpace, hdistinct⟩

/-- **Both readers end on every string, and accept exactly the texts of JSON whose objects do not repeat
a name**, with the value of `JSON.parse`. -/
theorem readers_accept (text : JsString) :
    parseJsonWithoutDuplicateMembers text ≠ .error .exhausted ∧
    parseStrictJson text ≠ .error .exhausted ∧
    ∀ v, (parseJsonWithoutDuplicateMembers text = .ok v ↔
        (∃ d, Spells isSpace text d ∧ d.Distinct) ∧ JsonGrammar.parse text = some v) ∧
      (parseStrictJson text = .ok v ↔
        (∃ d, Spells isSpace text d ∧ d.Distinct) ∧ JsonGrammar.parse text = some v) := by
  refine ⟨?_, Reader.read_ne_exhausted sealedReader_lawful text, fun v =>
    ⟨parseJsonWithoutDuplicateMembers_eq_ok, parseStrictJson_eq_ok⟩⟩
  have hscan := Reader.read_ne_exhausted scanner_lawful text
  unfold parseJsonWithoutDuplicateMembers
  split
  · next fault hfault =>
    rintro ⟨⟩
    exact hscan hfault
  · split <;> nofun

end Limitmark.Oidc.UniqueMembers
