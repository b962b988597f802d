import Limitmark.Foundations.JsonRoundTrip
import Limitmark.Foundations.Lists

/-!
# Texts of internet addresses

The dotted quad of an IPv4 address, without leading zeros, and the texts of an IPv6 address: eight
groups of hexadecimal digits, of which the last two may be a dotted quad and some, at least one, may be
left out for a `::`. A text is split at its colons in one way only, so that what follows the last colon
is a quad exactly when its two groups could stand there (`V6Text.last_cases`, `HexText.quad`).
-/

namespace Limitmark.Foundations

open Json

/-! ## The grammar -/

/-- An octet in decimal, without leading zeros. -/
def DecimalOctet (text : List Char) (octet : UInt8) : Prop := text = Nat.toDigits 10 octet.toNat

/-- Four octets, with dots between them. -/
def Quad (text : List Char) (octets : List UInt8) : Prop :=
  octets.length = 4 ∧ ∃ parts, text = ['.'].intercalate parts ∧ List.Forall₂ DecimalOctet parts octets

/-- The number some digits stand for. -/
def positional (base : ℕ) (digits : List ℕ) : ℕ := digits.foldl (fun n d => base * n + d) 0

/-- A group: one to four hexadecimal digits, of either case. -/
structure HexGroup (text : List Char) (word : ℕ) : Prop where
  nonempty : text ≠ []
  short : text.length ≤ 4
  digits : (text.mapM hexValue).map (positional 16) = some word

/-- The word of two octets. -/
def wordOf (high low : UInt8) : ℕ := 256 * high.toNat + low.toNat

/-- Groups, of which the last two may be a quad. -/
inductive Groups : List (List Char) → List ℕ → Prop
  | hex {parts : List (List Char)} {words : List ℕ} (groups : List.Forall₂ HexGroup parts words) :
    Groups parts words
  | quad {parts : List (List Char)} {words : List ℕ} {text : List Char} {a b c d : UInt8}
    (groups : List.Forall₂ HexGroup parts words) (quad : Quad text [a, b, c, d]) :
    Groups (parts ++ [text]) (words ++ [wordOf a b, wordOf c d])

/-- A text of an IPv6 address, of eight words. -/
inductive V6Text : List Char → List ℕ → Prop
  | full {parts : List (List Char)} {words : List ℕ} (groups : Groups parts words)
    (length : words.length = 8) : V6Text ([':'].intercalate parts) words
  | compressed {left right : List (List Char)} {before after : List ℕ}
    (left_groups : List.Forall₂ HexGroup left before) (right_groups : Groups right after)
    (length : before.length + after.length < 8) :
    V6Text ([':'].intercalate left ++ ':' :: ':' :: [':'].intercalate right)
      (before ++ List.replicate (8 - before.length - after.length) 0 ++ after)

/-- A text of an IPv6 address without a quad. -/
inductive HexText : List Char → List ℕ → Prop
  | full {parts : List (List Char)} {words : List ℕ} (groups : List.Forall₂ HexGroup parts words)
    (length : words.length = 8) : HexText ([':'].intercalate parts) words
  | compressed {left right : List (List Char)} {before after : List ℕ}
    (left_groups : List.Forall₂ HexGroup left before)
    (right_groups : List.Forall₂ HexGroup right after) (length : before.length + after.length < 8) :
    HexText ([':'].intercalate left ++ ':' :: ':' :: [':'].intercalate right)
      (before ++ List.replicate (8 - before.length - after.length) 0 ++ after)

/-! ## Groups -/

theorem HexGroup.word_eq {text : List Char} {word word' : ℕ} (h : HexGroup text word)
    (h' : HexGroup text word') : word = word' :=
  Option.some.inj (h.digits.symm.trans h'.digits)

theorem mapM_toDigits (n : ℕ) : ((Nat.toDigits 16 n).mapM hexValue).map (positional 16) = some n := by
  induction n using Nat.strong_induction_on with
  | _ n ih =>
    have hdigit : ∀ d < 16, hexValue (Nat.digitChar d) = some d := by decide
    rw [Nat.toDigits_eq_if (by decide)]
    split
    · next h => simp [hdigit n h, positional]
    · next h =>
      obtain ⟨digits, hdigits, hn⟩ := Option.map_eq_some_iff.1 (ih (n / 16) (by omega))
      have hlast := hdigit (n % 16) (Nat.mod_lt _ (by decide))
      simp only [List.mapM_append, hdigits, List.mapM_cons, List.mapM_nil, hlast,
        Option.pure_def, Option.bind_eq_bind, Option.bind_some, Option.map_some]
      rw [positional, List.foldl_append, ← positional, hn]
      exact congrArg some (Nat.div_add_mod n 16)

/-- A word is written as a group. -/
theorem hexGroup_toDigits {n : ℕ} (h : n < 65536) : HexGroup (Nat.toDigits 16 n) n :=
  ⟨Nat.toDigits_ne_nil, (Nat.length_toDigits_le_iff (by decide) (by decide)).2 h, mapM_toDigits n⟩

theorem wordOf_lt (a b : UInt8) : wordOf a b < 65536 := by
  have ha := a.toNat_lt
  have hb := b.toNat_lt
  unfold wordOf
  omega

def isHex (c : Char) : Bool := (hexValue c).isSome

theorem HexGroup.hex {text : List Char} {word : ℕ} (h : HexGroup text word) :
    ∀ c ∈ text, isHex c = true := by
  obtain ⟨digits, hdigits, -⟩ := Option.map_eq_some_iff.1 h.digits
  clear h
  induction text generalizing digits with
  | nil => exact fun c hc => absurd hc List.not_mem_nil
  | cons c text ih =>
    rw [List.mapM_cons] at hdigits
    obtain ⟨d, hd, hrest⟩ := Option.bind_eq_some_iff.1 hdigits
    obtain ⟨ds, hds, -⟩ := Option.bind_eq_some_iff.1 hrest
    rintro e (_ | ⟨_, he⟩)
    · rw [isHex, hd]
      rfl
    · exact ih ds hds e he

theorem HexGroup.notMem {text : List Char} {word : ℕ} (h : HexGroup text word) {c : Char}
    (hc : isHex c = false) : c ∉ text := by
  intro hmem
  rw [h.hex c hmem] at hc
  cases hc

theorem notMem_of_forall₂ {parts : List (List Char)} {words : List ℕ}
    (h : List.Forall₂ HexGroup parts words) {c : Char} (hc : isHex c = false) :
    ∀ part ∈ parts, c ∉ part := by
  intro part hpart
  obtain ⟨word, -, hgroup⟩ := exists_of_forall₂ h hpart
  exact hgroup.notMem hc

theorem isHex_colon : isHex ':' = false := by decide

theorem isHex_dot : isHex '.' = false := by decide

/-! ## Quads -/

theorem isDigit_of_decimal {text : List Char} {octet : UInt8} (h : DecimalOctet text octet) :
    ∀ c ∈ text, isDigit c = true := by
  rw [h]
  exact all_toDigits _

theorem decimalOctet_unique {text : List Char} {octet octet' : UInt8} (h : DecimalOctet text octet)
    (h' : DecimalOctet text octet') : octet = octet' := by
  have heq : Nat.toDigits 10 octet.toNat = Nat.toDigits 10 octet'.toNat := h.symm.trans h'
  have hnat := congrArg (fun digits => Nat.ofDigitChars 10 digits 0) heq
  simp only [Nat.ofDigitChars_ten_toDigits] at hnat
  exact UInt8.toNat_inj.1 hnat

theorem dot_notMem_of_forall₂ {parts : List (List Char)} {octets : List UInt8}
    (h : List.Forall₂ DecimalOctet parts octets) : ∀ part ∈ parts, '.' ∉ part := by
  intro part hpart hdot
  obtain ⟨octet, -, hoctet⟩ := exists_of_forall₂ h hpart
  exact absurd (isDigit_of_decimal hoctet _ hdot) (by decide)

theorem quad_unique {text : List Char} {octets octets' : List UInt8} (h : Quad text octets)
    (h' : Quad text octets') : octets = octets' := by
  obtain ⟨hlen, parts, htext, hparts⟩ := h
  obtain ⟨hlen', parts', htext', hparts'⟩ := h'
  have hne {parts : List (List Char)} {octets : List UInt8} (hlen : octets.length = 4)
      (h : List.Forall₂ DecimalOctet parts octets) : parts ≠ [] := by
    rintro rfl
    rw [← h.length_eq] at hlen
    cases hlen
  have hsame : parts = parts' := by
    rw [← List.splitOn_intercalate '.' (dot_notMem_of_forall₂ hparts) (hne hlen hparts), ← htext, htext',
      List.splitOn_intercalate '.' (dot_notMem_of_forall₂ hparts') (hne hlen' hparts')]
  subst hsame
  clear htext htext' hlen hlen'
  induction hparts generalizing octets' with
  | nil =>
    cases hparts'
    rfl
  | cons hoctet _ ih =>
    obtain _ | ⟨hoctet', hrest'⟩ := hparts'
    rw [decimalOctet_unique hoctet hoctet', ih hrest']

/-! ## Characters of a text -/

/-- The characters of a quad. -/
theorem Quad.chars {text : List Char} {octets : List UInt8} (h : Quad text octets) :
    ∀ c ∈ text, c = '.' ∨ isDigit c = true := by
  obtain ⟨-, parts, rfl, hparts⟩ := h
  intro c hc
  refine (mem_intercalate hc).imp_right fun ⟨part, hpart, hmem⟩ => ?_
  obtain ⟨octet, -, hoctet⟩ := exists_of_forall₂ hparts hpart
  exact isDigit_of_decimal hoctet c hmem

theorem Quad.colon {text : List Char} {octets : List UInt8} (h : Quad text octets) : ':' ∉ text := by
  intro hmem
  rcases h.chars _ hmem with hdot | hdigit
  · cases hdot
  · cases hdigit

theorem Quad.dot {text : List Char} {octets : List UInt8} (h : Quad text octets) : '.' ∈ text := by
  obtain ⟨hlen, parts, rfl, hparts⟩ := h
  rw [← hparts.length_eq] at hlen
  match parts, hlen with
  | part :: next :: rest, _ =>
    rw [List.intercalate_cons_cons]
    simp

theorem HexText.chars {text : List Char} {words : List ℕ} (h : HexText text words) :
    ∀ c ∈ text, c = ':' ∨ isHex c = true := by
  have hgroups {parts : List (List Char)} {words : List ℕ}
      (h : List.Forall₂ HexGroup parts words) {c : Char} (hc : c ∈ [':'].intercalate parts) :
      c = ':' ∨ isHex c = true :=
    (mem_intercalate hc).imp_right fun ⟨part, hpart, hmem⟩ =>
      (exists_of_forall₂ h hpart).elim fun _ hgroup => hgroup.2.hex c hmem
  intro c hc
  cases h with
  | full groups => exact hgroups groups hc
  | compressed left_groups right_groups =>
    rw [List.mem_append, List.mem_cons, List.mem_cons] at hc
    rcases hc with hleft | hcolon | hcolon | hright
    · exact hgroups left_groups hleft
    · exact .inl hcolon
    · exact .inl hcolon
    · exact hgroups right_groups hright

/-! ## The last group -/

theorem intercalate_concat (parts : List (List Char)) (last : List Char) :
    [':'].intercalate (parts ++ [last]) = parts.flatMap (fun part => part ++ [':']) ++ last := by
  induction parts with
  | nil => simp
  | cons part parts ih =>
    rw [List.cons_append, List.intercalate_cons_of_ne_nil (by simp), ih, List.flatMap_cons]
    simp only [List.append_assoc]

theorem flatMap_colon {parts : List (List Char)} (h : parts ≠ []) :
    parts.flatMap (fun part => part ++ [':']) = [':'].intercalate parts ++ [':'] := by
  obtain ⟨before, last, rfl⟩ := List.eq_nil_or_concat parts |>.resolve_left h
  rw [List.concat_eq_append, intercalate_concat, List.flatMap_append, List.flatMap_singleton,
    List.append_assoc]

/-- A text with a colon has a last one. -/
theorem exists_last_colon {input : List Char} (h : ':' ∈ input) :
    ∃ before last, input = before ++ ':' :: last ∧ ':' ∉ last := by
  induction input with
  | nil => cases h
  | cons c rest ih =>
    by_cases hrest : ':' ∈ rest
    · obtain ⟨before, last, rfl, hlast⟩ := ih hrest
      exact ⟨c :: before, last, rfl, hlast⟩
    · rcases List.mem_cons.1 h with rfl | hmem
      · exact ⟨[], rest, rfl, hrest⟩
      · exact absurd hmem hrest

/-- A text has one last group. -/
theorem last_group_unique {before before' last last' : List Char} (hlast : ':' ∉ last)
    (hlast' : ':' ∉ last') (h : before ++ ':' :: last = before' ++ ':' :: last') :
    before = before' ∧ last = last' := by
  have hafter {before last : List Char} (hlast : ':' ∉ last) :
      (before ++ ':' :: last).reverse.takeWhile (· ≠ ':') = last.reverse := by
    rw [List.reverse_append, List.reverse_cons, List.append_assoc, List.singleton_append,
      List.takeWhile_append_of_pos fun c hc => ?_]
    · simp
    · rw [decide_eq_true_eq]
      rintro rfl
      exact hlast (List.mem_reverse.1 hc)
  have heq : (before ++ ':' :: last).reverse.takeWhile (· ≠ ':') = last.reverse := hafter hlast
  rw [h, hafter hlast', List.reverse_inj] at heq
  subst heq
  exact ⟨List.append_cancel_right h, rfl⟩

/-- Colon-free parts that end a text split at its colons. -/
theorem splitOn_of_parts {before a b : List Char} {parts : List (List Char)}
    (hparts : ∀ part ∈ parts, ':' ∉ part) (ha : ':' ∉ a) (hb : ':' ∉ b)
    (h : [':'].intercalate parts = before ++ ':' :: a ++ ':' :: b) :
    parts = before.splitOn ':' ++ [a, b] := by
  have hne : parts ≠ [] := by
    rintro rfl
    simp at h
  rw [← List.splitOn_intercalate ':' hparts hne, h, List.append_assoc,
    List.cons_append, List.splitOn_append_cons_self, List.splitOn_append_cons_self,
    List.splitOn_eq_singleton ha, List.splitOn_eq_singleton hb]
  rfl

theorem intercalate_concat_pair (parts : List (List Char)) (a b : List Char) :
    [':'].intercalate (parts ++ [a, b]) =
      parts.flatMap (fun part => part ++ [':']) ++ (a ++ ':' :: b) := by
  rw [List.append_cons parts a [b], intercalate_concat, List.flatMap_append]
  simp

/-- The last two of the groups after a compression. -/
theorem concat_pair_of_split {before left right : List (List Char)} {a b : List Char} (ha : a ≠ [])
    (h : before ++ [a, b] = left ++ [] :: right) (hb : b ≠ []) :
    ∃ rest, right = rest ++ [a, b] ∧ before = left ++ [] :: rest := by
  rw [List.append_cons before a [b]] at h
  rcases List.eq_nil_or_concat right with rfl | ⟨right, d, rfl⟩
  · obtain ⟨-, hlast⟩ := List.append_inj' h rfl
    exact absurd (List.cons.inj hlast).1 hb
  · rw [List.concat_eq_append, ← List.cons_append, ← List.append_assoc] at h
    obtain ⟨hinit, hlast⟩ := List.append_inj' h rfl
    rw [List.concat_eq_append, ← (List.cons.inj hlast).1]
    rcases List.eq_nil_or_concat right with rfl | ⟨rest, c, rfl⟩
    · obtain ⟨-, hempty⟩ := List.append_inj' hinit rfl
      exact absurd (List.cons.inj hempty).1 ha
    · rw [List.concat_eq_append, ← List.cons_append, ← List.append_assoc] at hinit
      obtain ⟨hbefore, hcons⟩ := List.append_inj' hinit rfl
      rw [List.concat_eq_append, ← (List.cons.inj hcons).1]
      exact ⟨rest, by simp, hbefore⟩

theorem forall₂_concat_pair {parts : List (List Char)} {words : List ℕ} {a b : List Char} {m n : ℕ}
    (h : List.Forall₂ HexGroup (parts ++ [a, b]) words) (ha : HexGroup a m) (hb : HexGroup b n) :
    ∃ rest, words = rest ++ [m, n] ∧ List.Forall₂ HexGroup parts rest := by
  induction parts generalizing words with
  | nil =>
    obtain _ | ⟨ha', _ | ⟨hb', _ | _⟩⟩ := h
    exact ⟨[], by rw [ha'.word_eq ha, hb'.word_eq hb]; rfl, .nil⟩
  | cons part parts ih =>
    obtain _ | ⟨hpart, hrest⟩ := h
    obtain ⟨rest, rfl, hparts⟩ := ih hrest
    exact ⟨_ :: rest, rfl, .cons hpart hparts⟩

theorem forall₂_concat_pair' {parts : List (List Char)} {words : List ℕ} {a b : List Char} {m n : ℕ}
    (h : List.Forall₂ HexGroup parts words) (ha : HexGroup a m) (hb : HexGroup b n) :
    List.Forall₂ HexGroup (parts ++ [a, b]) (words ++ [m, n]) :=
  List.rel_append h (.cons ha (.cons hb .nil))

theorem compression_colon (left parts : List (List Char)) :
    ∃ before, ∀ rest, [':'].intercalate left ++ ':' :: ':' ::
      (parts.flatMap (fun part => part ++ [':']) ++ rest) = before ++ ':' :: rest := by
  by_cases hne : parts = []
  · exact ⟨[':'].intercalate left ++ [':'], fun rest => by simp [hne]⟩
  · exact ⟨[':'].intercalate left ++ ':' :: ':' :: [':'].intercalate parts,
      fun rest => by simp [flatMap_colon hne]⟩

/-- The two groups a quad stands for. -/
def quadGroups (a b c d : UInt8) : List Char :=
  Nat.toDigits 16 (wordOf a b) ++ ':' :: Nat.toDigits 16 (wordOf c d)

/-- An address has a colon. -/
theorem V6Text.colon {text : List Char} {words : List ℕ} (h : V6Text text words) : ':' ∈ text := by
  cases h with
  | @full parts words groups length =>
    have hlong : 2 ≤ parts.length := by
      cases groups with
      | hex groups => rw [groups.length_eq, length]; decide
      | quad groups =>
        have hlen := groups.length_eq
        simp only [List.length_append, List.length_cons, List.length_nil] at length ⊢
        omega
    match parts, hlong with
    | first :: next :: rest, _ =>
      rw [List.intercalate_cons_cons]
      simp
  | compressed => simp

theorem dot_notMem_intercalate {parts : List (List Char)} {words : List ℕ}
    (h : List.Forall₂ HexGroup parts words) : '.' ∉ [':'].intercalate parts := by
  intro hmem
  rcases mem_intercalate hmem with hcolon | ⟨part, hpart, hmem⟩
  · cases hcolon
  · exact notMem_of_forall₂ h isHex_dot part hpart hmem

/-- The last two words of an address are those of these octets. -/
def EndsIn (words : List ℕ) (a b c d : UInt8) : Prop :=
  ∃ rest, rest.length = 6 ∧ words = rest ++ [wordOf a b, wordOf c d]

/-- What follows the last colon of an address: a group or nothing, or a quad that its two groups could
stand for. -/
theorem V6Text.last_cases {before last : List Char} {words : List ℕ}
    (h : V6Text (before ++ ':' :: last) words) (hlast : ':' ∉ last) :
    '.' ∉ last ∧ HexText (before ++ ':' :: last) words ∨
    ∃ a b c d, Quad last [a, b, c, d] ∧ EndsIn words a b c d ∧
      HexText (before ++ ':' :: quadGroups a b c d) words := by
  generalize htext : before ++ ':' :: last = text at h
  have hdot (h : '.' ∉ text) : '.' ∉ last := by
    rw [← htext] at h
    simpa using fun hmem => h (by simp [hmem])
  cases h with
  | @full parts words groups length =>
    cases groups with
    | hex groups => exact .inl ⟨hdot (dot_notMem_intercalate groups), .full groups length⟩
    | @quad parts words text a b c d groups hquad =>
      have hne : parts ≠ [] := by
        rintro rfl
        cases groups
        cases length
      rw [intercalate_concat, flatMap_colon hne, List.append_assoc, List.singleton_append] at htext
      obtain ⟨rfl, rfl⟩ := last_group_unique hlast hquad.colon htext
      have hfull := HexText.full (forall₂_concat_pair' groups (hexGroup_toDigits (wordOf_lt a b))
        (hexGroup_toDigits (wordOf_lt c d))) length
      rw [intercalate_concat_pair, flatMap_colon hne, List.append_assoc,
        List.singleton_append] at hfull
      exact .inr ⟨a, b, c, d, hquad, ⟨words, by simpa using length, rfl⟩, hfull⟩
  | @compressed left right first after left_groups right_groups length =>
    cases right_groups with
    | hex groups =>
      refine .inl ⟨hdot fun hmem => ?_, .compressed left_groups groups length⟩
      simp only [List.mem_append, List.mem_cons] at hmem
      rcases hmem with hmem | hmem | hmem | hmem
      · exact dot_notMem_intercalate left_groups hmem
      · cases hmem
      · cases hmem
      · exact dot_notMem_intercalate groups hmem
    | @quad parts words text a b c d groups hquad =>
      have hpairs := forall₂_concat_pair' groups (hexGroup_toDigits (wordOf_lt a b))
        (hexGroup_toDigits (wordOf_lt c d))
      have hcompressed := HexText.compressed left_groups hpairs (by simpa using length)
      obtain ⟨pre, hsplit⟩ := compression_colon left parts
      rw [intercalate_concat, hsplit] at htext
      rw [intercalate_concat_pair, hsplit] at hcompressed
      obtain ⟨rfl, rfl⟩ := last_group_unique hlast hquad.colon htext
      refine .inr ⟨a, b, c, d, hquad, ⟨_, ?_, (List.append_assoc _ _ _).symm⟩, hcompressed⟩
      simp only [List.length_append, List.length_replicate, List.length_cons, List.length_nil]
        at length ⊢
      omega

theorem isHex_of_isDigit {c : Char} (h : isDigit c = true) : isHex c = true := by
  rw [isDigit, Bool.and_eq_true, decide_eq_true_eq, decide_eq_true_eq] at h
  rw [isHex, hexValue, if_pos h]
  rfl

/-- The characters of an address. -/
theorem V6Text.chars {text : List Char} {words : List ℕ} (h : V6Text text words) :
    ∀ c ∈ text, c = ':' ∨ c = '.' ∨ isHex c = true := by
  obtain ⟨before, last, rfl, hlast⟩ := exists_last_colon h.colon
  intro c hc
  obtain ⟨-, hhex⟩ | ⟨a, b, c', d, hquad, -, hhex⟩ := h.last_cases hlast
  · exact (hhex.chars c hc).imp_right .inr
  · rw [List.mem_append, List.mem_cons] at hc
    rcases hc with hc | hc | hc
    · exact (hhex.chars c (List.mem_append_left _ hc)).imp_right .inr
    · exact .inl hc
    · exact .inr ((hquad.chars c hc).imp_right isHex_of_isDigit)

/-- A quad ends an address when its two groups could. -/
theorem HexText.quad {before last : List Char} {words : List ℕ} {a b c d : UInt8}
    (h : HexText (before ++ ':' :: quadGroups a b c d) words) (hquad : Quad last [a, b, c, d]) :
    V6Text (before ++ ':' :: last) words := by
  have hhigh := hexGroup_toDigits (wordOf_lt a b)
  have hlow := hexGroup_toDigits (wordOf_lt c d)
  generalize htext : before ++ ':' :: quadGroups a b c d = text at h
  rw [quadGroups, ← List.cons_append, ← List.append_assoc] at htext
  cases h with
  | full groups length =>
    obtain rfl := splitOn_of_parts (notMem_of_forall₂ groups isHex_colon)
      (hhigh.notMem isHex_colon) (hlow.notMem isHex_colon) htext.symm
    obtain ⟨rest, rfl, hparts⟩ := forall₂_concat_pair groups hhigh hlow
    have hfull := V6Text.full (.quad hparts hquad) length
    rwa [intercalate_concat, flatMap_colon (List.splitOn_ne_nil _ _), List.intercalate_splitOn,
      List.append_assoc, List.singleton_append] at hfull
  | @compressed left right first after left_groups right_groups length =>
    have hsplit := congrArg (fun text => text.splitOn ':') htext
    simp only [List.append_assoc, List.cons_append, List.splitOn_append_cons_self,
      List.splitOn_eq_singleton (hhigh.notMem isHex_colon),
      List.splitOn_eq_singleton (hlow.notMem isHex_colon)] at hsplit
    have hempty : (':' :: [':'].intercalate right).splitOn ':' =
        [] :: ([':'].intercalate right).splitOn ':' := by
      simpa using List.splitOn_append_cons_self [] ([':'].intercalate right)
    rw [hempty] at hsplit
    obtain ⟨rest, hright, hbefore⟩ := concat_pair_of_split hhigh.nonempty hsplit hlow.nonempty
    have hne : right ≠ [] := by
      rintro rfl
      rw [List.intercalate_nil] at hright
      have hlength := congrArg List.length hright
      simp at hlength
    rw [List.splitOn_intercalate ':' (notMem_of_forall₂ right_groups isHex_colon) hne] at hright
    subst hright
    obtain ⟨words, rfl, hparts⟩ := forall₂_concat_pair right_groups hhigh hlow
    have hcompressed := V6Text.compressed left_groups (.quad hparts hquad) (by simpa using length)
    obtain ⟨pre, hpre⟩ := compression_colon left rest
    rw [intercalate_concat, hpre] at hcompressed
    rw [intercalate_concat_pair, hpre, List.append_assoc, List.cons_append] at htext
    rw [List.append_cancel_right htext]
    simpa using hcompressed

theorem HexText.v6Text {text : List Char} {words : List ℕ} (h : HexText text words) :
    V6Text text words := by
  cases h with
  | full groups length => exact .full (.hex groups) length
  | compressed left_groups right_groups length =>
    exact .compressed left_groups (.hex right_groups) length

/-! ## Digits -/

theorem digitChar_of_isDigit {c : Char} (h : isDigit c = true) :
    c.toNat - '0'.toNat < 10 ∧ Nat.digitChar (c.toNat - '0'.toNat) = c := by
  rw [isDigit, Bool.and_eq_true, decide_eq_true_eq, decide_eq_true_eq] at h
  have hsub : c.toNat - '0'.toNat = c.toNat - 48 := rfl
  have hall : ∀ d < 10, Nat.digitChar d = Char.ofNat (d + 48) := by decide
  refine ⟨by omega, ?_⟩
  rw [hsub, hall _ (by omega), Nat.sub_add_cancel h.1, Char.ofNat_toNat]

/-- A number without leading zeros is written back. -/
theorem toDigits_ofDigitChars {c : Char} {rest : List Char} (hzero : c ≠ '0')
    (h : ∀ d ∈ c :: rest, isDigit d = true) :
    0 < Nat.ofDigitChars 10 (c :: rest) 0 ∧
      Nat.toDigits 10 (Nat.ofDigitChars 10 (c :: rest) 0) = c :: rest := by
  induction rest using List.reverseRecOn with
  | nil =>
    obtain ⟨hlt, hchar⟩ := digitChar_of_isDigit (h c List.mem_cons_self)
    rw [Nat.ofDigitChars_cons, Nat.ofDigitChars_nil, mul_zero, zero_add,
      Nat.toDigits_of_lt_base hlt, hchar]
    refine ⟨Nat.pos_of_ne_zero fun hnil => hzero ?_, rfl⟩
    rw [← hchar, hnil]
    rfl
  | append_singleton rest d ih =>
    obtain ⟨hpos, hdigits⟩ := ih fun e he => h e (by
      rw [← List.cons_append]
      exact List.mem_append_left _ he)
    obtain ⟨hlt, hchar⟩ := digitChar_of_isDigit (h d (by simp))
    rw [← List.cons_append, Nat.ofDigitChars_append, Nat.ofDigitChars_cons, Nat.ofDigitChars_nil]
    refine ⟨by omega, ?_⟩
    rw [← Nat.toDigits_append_toDigits (by decide) hpos hlt, hdigits, Nat.toDigits_of_lt_base hlt,
      hchar]

end Limitmark.Foundations
