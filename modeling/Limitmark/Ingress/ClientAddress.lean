import Mathlib.Data.List.Chain
import Limitmark.Foundations.AddressText

/-!
# The client address

`parseCloudflareClientAddress` of `workers/ingress-signer/identity.ts`, which turns the header of a
client into the canonical bytes its pseudonym is derived from. A header is a text.

The readers of the two families answer as the grammar of addresses says (`parseIpv4_eq_some`,
`words_eq_some`). A reserved octet is looked for where a quad is read and nowhere else, so that the
answer depends on the address alone exactly when no quad hides one (`address_faithful_iff`).
-/

namespace Limitmark.Ingress

open Limitmark.Foundations Limitmark.Foundations.Json

inductive Family
  | v4
  | v6
  deriving DecidableEq, Repr

structure CanonicalAddress where
  family : Family
  bytes : List UInt8
  deriving DecidableEq, Repr

/-! ## IPv4 -/

/-- `^(?:0|[1-9][0-9]{0,2})$` -/
def isDecimal : List Char → Bool
  | [] => false
  | c :: rest => (c = '0' && rest = []) || (c ≠ '0' && isDigit c && rest.length ≤ 2 && rest.all isDigit)

def octet? (part : List Char) : Option UInt8 :=
  if ¬ isDecimal part then none
  else if 255 < Nat.ofDigitChars 10 part 0 then none
  else some (Nat.ofDigitChars 10 part 0).toUInt8

def octets? (value : List Char) : Option (List UInt8) :=
  let parts := value.splitOn '.'
  if parts.length ≠ 4 then none else parts.mapM octet?

/-- Class E is never an identity. -/
def isReserved (octets : List UInt8) : Bool := 240 ≤ octets.headD 0

def parseIpv4 (value : List Char) : Option (List UInt8) :=
  (octets? value).bind fun bytes => if isReserved bytes then none else some bytes

/-! ## IPv6 -/

/-- What stands before the last colon, the colon included, and what stands after it. -/
def splitLast (input : List Char) : List Char × List Char :=
  ((input.reverse.dropWhile (· ≠ ':')).reverse, (input.reverse.takeWhile (· ≠ ':')).reverse)

/-- A quad at the end is rewritten as two groups. -/
def expandDotted (input : List Char) : Option (List Char) :=
  let (before, dotted) := splitLast input
  if '.' ∈ dotted then
    match parseIpv4 dotted with
    | some [a, b, c, d] => some (before ++ quadGroups a b c d)
    | _ => none
  else some input

/-- `input.split("::")` -/
def splitCompressions : List Char → List (List Char)
  | [] => [[]]
  | [c] => [[c]]
  | c :: d :: rest =>
    if c = ':' ∧ d = ':' then [] :: splitCompressions rest
    else (splitCompressions (d :: rest)).modifyHead (c :: ·)

def groupsOf (side : List Char) : List (List Char) := if side = [] then [] else side.splitOn ':'

/-- `^[0-9a-f]{1,4}$` -/
def isGroup (part : List Char) : Bool :=
  part ≠ [] && part.length ≤ 4 && part.all fun c => isHex c && !c.isUpper

/-- `Number.parseInt(part, 16)` -/
def parseGroup (part : List Char) : ℕ := positional 16 (part.filterMap hexValue)

/-- The words of the groups before and after a compression, or of all groups when there is none. -/
def assemble (compressed : Bool) (left right : List (List Char)) : Option (List ℕ) :=
  if ¬ (left ++ right).all isGroup then none
  else
    let missing : ℤ := 8 - left.length - right.length
    if (if compressed then missing < 1 else missing ≠ 0) then none
    else some (left.map parseGroup ++ List.replicate missing.toNat 0 ++ right.map parseGroup)

def words? (input : List Char) : Option (List ℕ) :=
  match splitCompressions input with
  | [] => none
  | [side] => assemble false (groupsOf side) []
  | [left, right] => assemble true (groupsOf left) (groupsOf right)
  | _ => none

def wordBytes (word : ℕ) : List UInt8 := [(word / 256).toUInt8, (word % 256).toUInt8]

def parseIpv6 (value : List Char) : Option (List UInt8) :=
  if ':' ∉ value then none
  else
    (expandDotted (value.map Char.toLower)).bind fun input =>
      (words? input).map fun words => words.flatMap wordBytes

/-! ## The header -/

/-- The characters `trim` removes. -/
def whitespace : List Char :=
  [9, 10, 11, 12, 13, 32, 0xA0, 0x1680, 0x2000, 0x2001, 0x2002, 0x2003, 0x2004, 0x2005, 0x2006, 0x2007,
    0x2008, 0x2009, 0x200A, 0x2028, 0x2029, 0x202F, 0x205F, 0x3000, 0xFEFF].map Char.ofNat

def trim (value : List Char) : List Char :=
  ((value.dropWhile (· ∈ whitespace)).reverse.dropWhile (· ∈ whitespace)).reverse

/-- `2a06:98c0:3600::103` -/
def CLOUDFLARE_CROSS_ZONE : List UInt8 :=
  [0x2a, 0x06, 0x98, 0xc0, 0x36, 0, 0, 0, 0, 0, 0, 0, 0, 0, 1, 3]

def isMapped (v6 : List UInt8) : Bool := v6.take 12 = List.replicate 10 0 ++ [0xff, 0xff]

def parseCloudflareClientAddress (value : List Char) : Option CanonicalAddress :=
  if value = [] ∨ value ≠ trim value ∨ ',' ∈ value ∨ '%' ∈ value ∨ '[' ∈ value ∨ ']' ∈ value then none
  else
    match parseIpv4 value with
    | some v4 => some ⟨.v4, v4⟩
    | none =>
      (parseIpv6 value).bind fun v6 =>
        if v6 = CLOUDFLARE_CROSS_ZONE then none
        else if isMapped v6 then some ⟨.v4, v6.drop 12⟩
        else some ⟨.v6, v6⟩

example : parseCloudflareClientAddress "::ffff:192.0.2.1".toList =
    parseCloudflareClientAddress "192.0.2.1".toList := by decide

/-! ## Reading IPv4 -/

theorem octet?_eq_some {part : List Char} {octet : UInt8} :
    octet? part = some octet ↔ DecimalOctet part octet := by
  constructor
  · intro h
    unfold octet? at h
    split at h
    · cases h
    · next hdecimal =>
      split at h
      · cases h
      · next hsmall =>
        obtain rfl := Option.some.inj h
        have htoNat : (Nat.ofDigitChars 10 part 0).toUInt8.toNat = Nat.ofDigitChars 10 part 0 :=
          Nat.mod_eq_of_lt (by omega)
        rw [DecimalOctet, htoNat]
        match part, hdecimal with
        | c :: rest, hdecimal =>
          simp only [isDecimal, Bool.or_eq_true, Bool.and_eq_true, decide_eq_true_eq, not_not,
            List.all_eq_true] at hdecimal
          rcases hdecimal with ⟨rfl, rfl⟩ | ⟨⟨⟨hzero, hdigit⟩, -⟩, hrest⟩
          · decide
          · exact (toDigits_ofDigitChars hzero (List.forall_mem_cons.2 ⟨hdigit, hrest⟩)).2.symm
  · intro h
    have hall : ∀ n < 256, octet? (Nat.toDigits 10 n) = some n.toUInt8 := by decide +kernel
    rw [h, hall octet.toNat octet.toNat_lt]
    exact congrArg some (by simp)

theorem octets?_eq_some {value : List Char} {octets : List UInt8} :
    octets? value = some octets ↔ Quad value octets := by
  have hparts {parts : List (List Char)} {octets : List UInt8} :
      parts.mapM octet? = some octets ↔ List.Forall₂ DecimalOctet parts octets := by
    rw [mapM_eq_some_iff]
    simp only [octet?_eq_some]
  constructor
  · intro h
    unfold octets? at h
    dsimp only at h
    split at h
    · cases h
    · next hlen =>
      have hforall := hparts.1 h
      exact ⟨hforall.length_eq ▸ not_not.1 hlen, _, (List.intercalate_splitOn '.').symm, hforall⟩
  · rintro ⟨hlen, parts, rfl, hforall⟩
    have hne : parts ≠ [] := by
      rintro rfl
      cases hforall
      cases hlen
    unfold octets?
    dsimp only
    rw [List.splitOn_intercalate '.' (dot_notMem_of_forall₂ hforall) hne, if_neg (not_not.2 (hforall.length_eq.trans hlen)), hparts.2 hforall]

theorem parseIpv4_eq_some {value : List Char} {octets : List UInt8} :
    parseIpv4 value = some octets ↔ Quad value octets ∧ isReserved octets = false := by
  rw [parseIpv4, Option.bind_eq_some_iff]
  constructor
  · rintro ⟨bytes, hbytes, h⟩
    split at h
    · cases h
    · next hreserved =>
      obtain rfl := Option.some.inj h
      exact ⟨octets?_eq_some.1 hbytes, Bool.not_eq_true _ ▸ hreserved⟩
  · rintro ⟨hquad, hreserved⟩
    exact ⟨octets, octets?_eq_some.2 hquad, by rw [hreserved]; rfl⟩

/-! ## Reading IPv6 -/

theorem splitLast_append {before last : List Char} (h : ':' ∉ last) :
    splitLast (before ++ ':' :: last) = (before ++ [':'], last) := by
  have hlast : ∀ c ∈ last.reverse, decide (c ≠ ':') = true := by
    intro c hc
    rw [decide_eq_true_eq]
    rintro rfl
    exact h (List.mem_reverse.1 hc)
  rw [splitLast, List.reverse_append, List.reverse_cons, List.append_assoc, List.singleton_append,
    List.takeWhile_append_of_pos hlast, List.dropWhile_append_of_pos hlast]
  simp

/-- No two colons in a row. -/
abbrev Unpaired (text : List Char) : Prop := text.IsChain fun a b => ¬ (a = ':' ∧ b = ':')

theorem splitCompressions_ne_nil (input : List Char) : splitCompressions input ≠ [] := by
  induction input using splitCompressions.induct with
  | case1 => simp [splitCompressions]
  | case2 c => simp [splitCompressions]
  | case3 c d rest h ih => simp [splitCompressions, h]
  | case4 c d rest h ih =>
    rw [splitCompressions, if_neg h]
    cases hsides : splitCompressions (d :: rest) with
    | nil => exact absurd hsides ih
    | cons side sides => simp

/-- The sides of a text, with the compressions between them, are the text. -/
theorem intercalate_splitCompressions (input : List Char) :
    [':', ':'].intercalate (splitCompressions input) = input := by
  induction input using splitCompressions.induct with
  | case1 => simp [splitCompressions]
  | case2 c => simp [splitCompressions]
  | case3 c d rest h ih =>
    rw [splitCompressions, if_pos h, List.intercalate_cons_of_ne_nil (splitCompressions_ne_nil rest),
      ih, h.1, h.2]
    rfl
  | case4 c d rest h ih =>
    rw [splitCompressions, if_neg h]
    cases hsides : splitCompressions (d :: rest) with
    | nil => exact absurd hsides (splitCompressions_ne_nil _)
    | cons side sides =>
      rw [hsides] at ih
      rw [List.modifyHead_cons]
      cases sides with
      | nil => simpa using ih
      | cons next sides =>
        rw [List.intercalate_cons_cons] at ih ⊢
        rw [List.cons_append, List.cons_append, ih]

theorem splitCompressions_of_unpaired {side : List Char} (h : Unpaired side) :
    splitCompressions side = [side] := by
  induction side using splitCompressions.induct with
  | case1 => rfl
  | case2 c => rfl
  | case3 c d rest hpair ih => exact absurd hpair (List.isChain_cons_cons.1 h).1
  | case4 c d rest hpair ih =>
    rw [splitCompressions, if_neg hpair, ih (List.isChain_cons_cons.1 h).2]
    rfl

theorem splitCompressions_append {side rest : List Char} (h : Unpaired (side ++ [':'])) :
    splitCompressions (side ++ ':' :: ':' :: rest) = side :: splitCompressions rest := by
  induction side with
  | nil => simp [splitCompressions]
  | cons c side ih =>
    cases side with
    | nil =>
      have hc : ¬ (c = ':' ∧ ':' = ':') := (List.isChain_cons_cons.1 h).1
      rw [List.cons_append, List.nil_append, splitCompressions, if_neg hc]
      simp [splitCompressions]
    | cons d side =>
      obtain ⟨hpair, htail⟩ := List.isChain_cons_cons.1 h
      have hrest := ih htail
      rw [List.cons_append] at hrest
      rw [List.cons_append, List.cons_append, splitCompressions, if_neg hpair, hrest]
      rfl

theorem unpaired_intercalate {parts : List (List Char)} (hcolon : ∀ part ∈ parts, ':' ∉ part)
    (hne : ∀ part ∈ parts, part ≠ []) : Unpaired ([':'].intercalate parts ++ [':']) := by
  induction parts with
  | nil => simp
  | cons part parts ih =>
    have hpart := hcolon part List.mem_cons_self
    have hstep {text : List Char} (htext : Unpaired (':' :: text)) :
        Unpaired (part ++ ':' :: text) := by
      clear hne hcolon ih
      induction part with
      | nil => exact htext
      | cons c part ih =>
        have hc : c ≠ ':' := fun h => hpart (h ▸ List.mem_cons_self)
        have hrest := ih fun h => hpart (List.mem_cons_of_mem _ h)
        cases part with
        | nil => exact List.isChain_cons_cons.2 ⟨fun h => hc h.1, hrest⟩
        | cons d part => exact List.isChain_cons_cons.2 ⟨fun h => hc h.1, hrest⟩
    cases parts with
    | nil =>
      rw [List.intercalate_singleton]
      exact hstep (by simp)
    | cons next parts =>
      have htail := ih (fun p hp => hcolon p (List.mem_cons_of_mem _ hp))
        fun p hp => hne p (List.mem_cons_of_mem _ hp)
      rw [List.intercalate_cons_cons, List.append_assoc, List.append_assoc]
      refine hstep ?_
      obtain ⟨c, next', hcons⟩ := List.exists_cons_of_ne_nil (hne next (by simp))
      have hc : c ≠ ':' := fun h => hcolon next (by simp) (by simp [hcons, h])
      have hhead : ∃ tail, [':'].intercalate (next :: parts) ++ [':'] = c :: tail := by
        subst hcons
        cases parts <;> simp [List.intercalate_cons_cons]
      obtain ⟨tail, htail'⟩ := hhead
      rw [htail'] at htail ⊢
      exact List.isChain_cons_cons.2 ⟨fun h => hc h.2, htail⟩

/-! ### Groups -/

theorem groupsOf_intercalate {parts : List (List Char)} (hcolon : ∀ part ∈ parts, ':' ∉ part)
    (hne : ∀ part ∈ parts, part ≠ []) : groupsOf ([':'].intercalate parts) = parts := by
  cases parts with
  | nil => simp [groupsOf]
  | cons part parts =>
    have hjoined : [':'].intercalate (part :: parts) ≠ [] := by
      intro hnil
      have hpart := hne part List.mem_cons_self
      cases parts <;> simp_all [List.intercalate_cons_cons]
    rw [groupsOf, if_neg hjoined, List.splitOn_intercalate ':' hcolon (by simp)]

theorem intercalate_groupsOf (side : List Char) : [':'].intercalate (groupsOf side) = side := by
  unfold groupsOf
  split
  · next h => rw [h, List.intercalate_nil]
  · exact List.intercalate_splitOn ':'

theorem mapM_hexValue {part : List Char} (h : ∀ c ∈ part, isHex c = true) :
    part.mapM hexValue = some (part.filterMap hexValue) := by
  induction part with
  | nil => rfl
  | cons c part ih =>
    obtain ⟨d, hd⟩ := Option.isSome_iff_exists.1 (h c List.mem_cons_self)
    rw [List.mapM_cons, hd, ih fun e he => h e (List.mem_cons_of_mem _ he), List.filterMap_cons, hd]
    rfl

theorem hexGroup_of_isGroup {part : List Char} (h : isGroup part = true) :
    HexGroup part (parseGroup part) := by
  simp only [isGroup, Bool.and_eq_true, decide_eq_true_eq, List.all_eq_true, Bool.not_eq_true'] at h
  obtain ⟨⟨hne, hshort⟩, hhex⟩ := h
  exact ⟨hne, hshort, by rw [mapM_hexValue fun c hc => (hhex c hc).1]; rfl⟩

/-- A text without capital letters. -/
abbrev Lower (text : List Char) : Prop := ∀ c ∈ text, c.isUpper = false

theorem isGroup_of_hexGroup {part : List Char} {word : ℕ} (h : HexGroup part word)
    (hlower : Lower part) : isGroup part = true ∧ parseGroup part = word := by
  have hdigits := h.digits
  rw [mapM_hexValue h.hex] at hdigits
  refine ⟨?_, Option.some.inj hdigits⟩
  simp only [isGroup, Bool.and_eq_true, decide_eq_true_eq, List.all_eq_true, Bool.not_eq_true']
  exact ⟨⟨h.nonempty, h.short⟩, fun c hc => ⟨h.hex c hc, hlower c hc⟩⟩

theorem forall₂_of_isGroup {parts : List (List Char)} (h : ∀ part ∈ parts, isGroup part = true) :
    List.Forall₂ HexGroup parts (parts.map parseGroup) := by
  rw [List.forall₂_map_right_iff, List.forall₂_same]
  exact fun part hpart => hexGroup_of_isGroup (h part hpart)

theorem groups_of_forall₂ {parts : List (List Char)} {words : List ℕ}
    (h : List.Forall₂ HexGroup parts words) (hlower : Lower ([':'].intercalate parts)) :
    (∀ part ∈ parts, isGroup part = true) ∧ parts.map parseGroup = words := by
  have hparts : ∀ part ∈ parts, Lower part := fun part hpart c hc =>
    hlower c (mem_intercalate_of_mem hpart hc)
  clear hlower
  induction h with
  | nil => exact ⟨fun part hpart => absurd hpart List.not_mem_nil, rfl⟩
  | cons hgroup _ ih =>
    obtain ⟨hfirst, hword⟩ := isGroup_of_hexGroup hgroup (hparts _ List.mem_cons_self)
    obtain ⟨hrest, hwords⟩ := ih fun part hpart => hparts part (List.mem_cons_of_mem _ hpart)
    exact ⟨List.forall_mem_cons.2 ⟨hfirst, hrest⟩, by rw [List.map_cons, hword, hwords]⟩

theorem nonempty_of_forall₂ {parts : List (List Char)} {words : List ℕ}
    (h : List.Forall₂ HexGroup parts words) : ∀ part ∈ parts, part ≠ [] := fun _ hpart =>
  (exists_of_forall₂ h hpart).elim fun _ hgroup => hgroup.2.nonempty

theorem assemble_eq_some {compressed : Bool} {left right : List (List Char)} {words : List ℕ} :
    assemble compressed left right = some words ↔
      (∀ part ∈ left ++ right, isGroup part = true) ∧
      (if compressed then left.length + right.length < 8 else left.length + right.length = 8) ∧
      words = left.map parseGroup ++ List.replicate (8 - left.length - right.length) 0 ++
        right.map parseGroup := by
  unfold assemble
  dsimp only
  have hmissing : (8 - (left.length : ℤ) - right.length).toNat = 8 - left.length - right.length := by
    omega
  rw [hmissing]
  split
  · next hgroups =>
    simp only [reduceCtorEq, false_iff]
    exact fun h => hgroups (List.all_eq_true.2 h.1)
  · next hgroups =>
    rw [not_not, List.all_eq_true] at hgroups
    rw [Option.ite_none_left_eq_some, Option.some.injEq, eq_comm (b := words)]
    refine ⟨fun h => ⟨hgroups, ?_, h.2⟩, fun h => ⟨?_, h.2.2⟩⟩
    · obtain ⟨h, -⟩ := h
      split at h <;> split <;> first | omega | contradiction
    · obtain ⟨-, h, -⟩ := h
      split at h <;> split <;> first | omega | contradiction

/-- **The words of a text are those the grammar gives it.** -/
theorem words?_eq_some {input : List Char} (hlower : Lower input) {words : List ℕ} :
    words? input = some words ↔ HexText input words := by
  constructor
  · intro h
    have hjoin := intercalate_splitCompressions input
    unfold words? at h
    split at h
    · cases h
    · next side hsides =>
      rw [hsides, List.intercalate_singleton] at hjoin
      subst hjoin
      obtain ⟨hgroups, hlen, rfl⟩ := assemble_eq_some.1 h
      rw [List.append_nil] at hgroups
      have hforall := forall₂_of_isGroup hgroups
      have height : (groupsOf side).length = 8 := by simpa using hlen
      have hfull := HexText.full hforall (by simpa using height)
      rw [intercalate_groupsOf] at hfull
      simpa [height] using hfull
    · next left right hsides =>
      rw [hsides, List.intercalate_cons_cons, List.intercalate_singleton] at hjoin
      obtain ⟨hgroups, hlen, rfl⟩ := assemble_eq_some.1 h
      rw [List.forall_mem_append] at hgroups
      have hcompressed := HexText.compressed (forall₂_of_isGroup hgroups.1)
        (forall₂_of_isGroup hgroups.2) (by simpa using hlen)
      rw [intercalate_groupsOf, intercalate_groupsOf] at hcompressed
      rw [← hjoin]
      simpa using hcompressed
    · cases h
  · intro h
    cases h with
    | @full parts words groups length =>
      have hcolon := notMem_of_forall₂ groups isHex_colon
      have hne := nonempty_of_forall₂ groups
      obtain ⟨hgroups, rfl⟩ := groups_of_forall₂ groups hlower
      have hunpaired := (unpaired_intercalate hcolon hne).left_of_append
      unfold words?
      rw [splitCompressions_of_unpaired hunpaired]
      dsimp only
      rw [groupsOf_intercalate hcolon hne, assemble_eq_some]
      rw [List.length_map] at length
      exact ⟨by simpa using hgroups, by simpa using length, by simp [length]⟩
    | @compressed left right before after left_groups right_groups length =>
      have hcolonL := notMem_of_forall₂ left_groups isHex_colon
      have hneL := nonempty_of_forall₂ left_groups
      have hcolonR := notMem_of_forall₂ right_groups isHex_colon
      have hneR := nonempty_of_forall₂ right_groups
      obtain ⟨hgroupsL, rfl⟩ := groups_of_forall₂ left_groups fun c hc =>
        hlower c (List.mem_append_left _ hc)
      obtain ⟨hgroupsR, rfl⟩ := groups_of_forall₂ right_groups fun c hc =>
        hlower c (List.mem_append_right _ (by simp [hc]))
      unfold words?
      rw [splitCompressions_append (unpaired_intercalate hcolonL hneL),
        splitCompressions_of_unpaired (unpaired_intercalate hcolonR hneR).left_of_append]
      dsimp only
      rw [groupsOf_intercalate hcolonL hneL, groupsOf_intercalate hcolonR hneR, assemble_eq_some]
      rw [List.length_map, List.length_map] at length
      exact ⟨List.forall_mem_append.2 ⟨hgroupsL, hgroupsR⟩, by simpa using length, by simp⟩

/-! ### Addresses -/

/-- A character is its lower case, or its lower case is a letter. -/
theorem toLower_cases (c : Char) : c.toLower = c ∨ 97 ≤ c.toLower.toNat := by
  unfold Char.toLower
  split
  · next h =>
    have hlow : 65 ≤ c.val.toNat := UInt32.le_iff_toNat_le.1 h.1
    have hhigh : c.val.toNat ≤ 90 := UInt32.le_iff_toNat_le.1 h.2
    have hsum : (c.val + ('a'.val - 'A'.val)).toNat = c.val.toNat + 32 := by
      rw [UInt32.toNat_add, show ('a'.val - 'A'.val).toNat = 32 from rfl]
      omega
    right
    change 97 ≤ (c.val + ('a'.val - 'A'.val)).toNat
    omega
  · exact .inl rfl

/-- What is no letter has no other case. -/
theorem mem_map_toLower {c : Char} (hc : c.toNat < 65) {text : List Char} :
    c ∈ text.map Char.toLower ↔ c ∈ text := by
  rw [List.mem_map]
  constructor
  · rintro ⟨d, hd, rfl⟩
    rcases toLower_cases d with hsame | hletter
    · exact hsame.symm ▸ hd
    · omega
  · intro hmem
    refine ⟨c, hmem, ?_⟩
    unfold Char.toLower
    split
    · next h =>
      have hlow : 65 ≤ c.val.toNat := UInt32.le_iff_toNat_le.1 h.1
      exact absurd hlow (not_le.2 hc)
    · rfl

theorem lower_toLower (text : List Char) : Lower (text.map Char.toLower) := by
  intro c hc
  obtain ⟨d, -, rfl⟩ := List.mem_map.1 hc
  unfold Char.toLower Char.isUpper
  split <;> grind

theorem lower_quadGroups (a b c d : UInt8) : Lower (quadGroups a b c d) := by
  have hdigits (n : ℕ) : Lower (Nat.toDigits 16 n) := by
    have hdigit : ∀ d < 16, (Nat.digitChar d).isUpper = false := by decide
    induction n using Nat.strong_induction_on with
    | _ n ih =>
      rw [Nat.toDigits_eq_if (by decide)]
      split
      · next h => exact List.forall_mem_singleton.2 (hdigit n h)
      · next h =>
        exact List.forall_mem_append.2 ⟨ih (n / 16) (by omega),
          List.forall_mem_singleton.2 (hdigit _ (Nat.mod_lt _ (by decide)))⟩
  intro e he
  rw [quadGroups, List.mem_append, List.mem_cons] at he
  rcases he with he | rfl | he
  · exact hdigits _ e he
  · rfl
  · exact hdigits _ e he

theorem lower_append_quadGroups {before last : List Char} (h : Lower (before ++ ':' :: last))
    (a b c d : UInt8) : Lower (before ++ ':' :: quadGroups a b c d) :=
  List.forall_mem_append.2 ⟨fun e he => h e (List.mem_append_left _ he),
    List.forall_mem_cons.2 ⟨rfl, lower_quadGroups a b c d⟩⟩

theorem wordBytes_wordOf (a b : UInt8) : wordBytes (wordOf a b) = [a, b] := by
  have hb := b.toNat_lt
  have hhigh : wordOf a b / 256 = a.toNat := by unfold wordOf; omega
  have hlow : wordOf a b % 256 = b.toNat := by unfold wordOf; omega
  rw [wordBytes, hhigh, hlow]
  simp

theorem length_flatMap_wordBytes (words : List ℕ) :
    (words.flatMap wordBytes).length = 2 * words.length := by
  induction words with
  | nil => rfl
  | cons word words ih =>
    rw [List.flatMap_cons, List.length_append, ih, List.length_cons]
    simp only [wordBytes, List.length_cons, List.length_nil]
    omega

theorem drop_of_endsIn {words : List ℕ} {a b c d : UInt8} (h : EndsIn words a b c d) :
    (words.flatMap wordBytes).drop 12 = [a, b, c, d] := by
  obtain ⟨rest, hlen, rfl⟩ := h
  rw [List.flatMap_append, List.drop_left' (by rw [length_flatMap_wordBytes, hlen])]
  simp [wordBytes_wordOf]

/-- **The bytes of an IPv6 text are those the grammar gives it**, unless a quad ends it whose first
octet is reserved. -/
theorem parseIpv6_eq_some {value : List Char} {bytes : List UInt8} :
    parseIpv6 value = some bytes ↔ ∃ words, V6Text (value.map Char.toLower) words ∧
      bytes = words.flatMap wordBytes ∧ ('.' ∈ value → isReserved (bytes.drop 12) = false) := by
  rw [← mem_map_toLower (c := '.') (by decide)]
  unfold parseIpv6
  rw [Option.ite_none_left_eq_some, not_not, ← mem_map_toLower (c := ':') (by decide)]
  have hlower := lower_toLower value
  generalize value.map Char.toLower = input at hlower
  constructor
  · rintro ⟨hcolon, h⟩
    obtain ⟨before, last, rfl, hlast⟩ := exists_last_colon hcolon
    obtain ⟨input, hinput, hread⟩ := Option.bind_eq_some_iff.1 h
    obtain ⟨words, hwords, rfl⟩ := Option.map_eq_some_iff.1 hread
    unfold expandDotted at hinput
    rw [splitLast_append hlast] at hinput
    dsimp only at hinput
    split at hinput
    · next hdot =>
      split at hinput
      · next a b c d hquad =>
        obtain rfl := Option.some.inj hinput
        obtain ⟨hquad, hfree⟩ := parseIpv4_eq_some.1 hquad
        rw [List.append_assoc, List.singleton_append] at hwords
        have htext := ((words?_eq_some (lower_append_quadGroups hlower a b c d)).1 hwords).quad hquad
        refine ⟨words, htext, rfl, fun _ => ?_⟩
        obtain ⟨hplain, -⟩ | ⟨a', b', c', d', hquad', hends, -⟩ := htext.last_cases hlast
        · exact absurd hdot hplain
        · obtain ⟨rfl, rfl, rfl, rfl⟩ : a' = a ∧ b' = b ∧ c' = c ∧ d' = d := by
            simpa using quad_unique hquad' hquad
          rwa [drop_of_endsIn hends]
      · cases hinput
    · obtain rfl := Option.some.inj hinput
      have hhex := (words?_eq_some hlower).1 hwords
      refine ⟨words, hhex.v6Text, rfl, fun hdot => ?_⟩
      rcases hhex.chars _ hdot with hcolon | hhex
      · cases hcolon
      · cases hhex
  · rintro ⟨words, htext, rfl, hfree⟩
    refine ⟨htext.colon, ?_⟩
    obtain ⟨before, last, rfl, hlast⟩ := exists_last_colon htext.colon
    unfold expandDotted
    rw [splitLast_append hlast]
    dsimp only
    obtain ⟨hplain, hhex⟩ | ⟨a, b, c, d, hquad, hends, hhex⟩ := htext.last_cases hlast
    · rw [if_neg hplain, Option.bind_some, (words?_eq_some hlower).2 hhex, Option.map_some]
    · have hfree' := hfree (by simp [hquad.dot])
      rw [drop_of_endsIn hends] at hfree'
      rw [if_pos hquad.dot, parseIpv4_eq_some.2 ⟨hquad, hfree'⟩]
      dsimp only
      rw [List.append_assoc, List.singleton_append, Option.bind_some,
        (words?_eq_some (lower_append_quadGroups hlower a b c d)).2 hhex, Option.map_some]

/-! ## What a header denotes -/

inductive Address
  | v4 (octets : List UInt8)
  | v6 (bytes : List UInt8)
  deriving DecidableEq, Repr

/-- A text of an address, in any letter case. -/
inductive Denotes (value : List Char) : Address → Prop
  | v4 {octets : List UInt8} (quad : Quad value octets) : Denotes value (.v4 octets)
  | v6 {words : List ℕ} (text : V6Text (value.map Char.toLower) words) :
    Denotes value (.v6 (words.flatMap wordBytes))

/-- The identity of an IPv4 address. -/
def identityV4 (octets : List UInt8) : Option CanonicalAddress :=
  if isReserved octets then none else some ⟨.v4, octets⟩

/-- The identity of an address: a mapped address has that of its IPv4 address, and a reserved address
and the one that stands for other zones have none. -/
def Address.canonical : Address → Option CanonicalAddress
  | .v4 octets => identityV4 octets
  | .v6 bytes =>
    if bytes = CLOUDFLARE_CROSS_ZONE then none
    else if isMapped bytes then identityV4 (bytes.drop 12)
    else some ⟨.v6, bytes⟩

/-- The answer for a header depends on the address it denotes and on nothing else. -/
structure Faithful (value : List Char) : Prop where
  denoted : ∀ address, Denotes value address → parseCloudflareClientAddress value = address.canonical
  refused : (¬ ∃ address, Denotes value address) → parseCloudflareClientAddress value = none

/-- An IPv6 text whose last four bytes are a reserved IPv4 address, and which hides that address in two
groups if it is mapped or shows it as a quad if it is not. -/
def Misjudged (value : List Char) : Prop :=
  ∃ words, V6Text (value.map Char.toLower) words ∧
    isReserved ((words.flatMap wordBytes).drop 12) = true ∧
    (isMapped (words.flatMap wordBytes) = true ↔ '.' ∉ value)

theorem v6Text_unique {text : List Char} (hlower : Lower text) {words words' : List ℕ}
    (h : V6Text text words) (h' : V6Text text words') : words = words' := by
  obtain ⟨before, last, rfl, hlast⟩ := exists_last_colon h.colon
  have hunique {input : List Char} (hinput : Lower input) (h : HexText input words)
      (h' : HexText input words') : words = words' :=
    Option.some.inj (((words?_eq_some hinput).2 h).symm.trans ((words?_eq_some hinput).2 h'))
  obtain ⟨hplain, hhex⟩ | ⟨a, b, c, d, hquad, -, hhex⟩ := h.last_cases hlast <;>
    obtain ⟨hplain', hhex'⟩ | ⟨a', b', c', d', hquad', -, hhex'⟩ := h'.last_cases hlast
  · exact hunique hlower hhex hhex'
  · exact absurd hquad'.dot hplain
  · exact absurd hquad.dot hplain'
  · obtain ⟨rfl, rfl, rfl, rfl⟩ : a' = a ∧ b' = b ∧ c' = c ∧ d' = d := by
      simpa using quad_unique hquad' hquad
    exact hunique (lower_append_quadGroups hlower _ _ _ _) hhex hhex'

/-- What `trim` removes and what is refused outright. -/
def refused : List Char := whitespace ++ [',', '%', '[', ']']

theorem Denotes.clean {value : List Char} {address : Address} (h : Denotes value address) :
    value ≠ [] ∧ ∀ c ∈ value, c ∉ refused := by
  have hnone : ∀ c ∈ refused, (c ≠ '.' ∧ isDigit c = false) ∧
      c.toLower ≠ ':' ∧ c.toLower ≠ '.' ∧ isHex c.toLower = false :=
    forall_mem_of_all (by decide)
  cases h with
  | v4 quad =>
    refine ⟨List.ne_nil_of_mem quad.dot, fun c hc hrefused => ?_⟩
    obtain ⟨⟨hdot, hdigit⟩, -⟩ := hnone c hrefused
    rcases quad.chars c hc with h | h
    · exact hdot h
    · rw [hdigit] at h
      cases h
  | v6 text =>
    refine ⟨?_, fun c hc hrefused => ?_⟩
    · rintro rfl
      exact absurd text.colon List.not_mem_nil
    · obtain ⟨-, hcolon, hdot, hhex⟩ := hnone c hrefused
      rcases text.chars _ (List.mem_map_of_mem hc) with h | h | h
      · exact hcolon h
      · exact hdot h
      · rw [hhex] at h
        cases h

theorem trim_of_clean {value : List Char} (h : ∀ c ∈ value, c ∉ whitespace) : trim value = value := by
  have hdrop {text : List Char} (h : ∀ c ∈ text, c ∉ whitespace) :
      text.dropWhile (· ∈ whitespace) = text := by
    cases text with
    | nil => rfl
    | cons c text => simp [h c List.mem_cons_self]
  rw [trim, hdrop h, hdrop fun c hc => h c (List.mem_reverse.1 hc), List.reverse_reverse]

/-- The answer for a header that denotes an address. -/
theorem parse_of_denotes {value : List Char} {address : Address} (h : Denotes value address) :
    parseCloudflareClientAddress value =
      match parseIpv4 value with
      | some v4 => some ⟨.v4, v4⟩
      | none =>
        (parseIpv6 value).bind fun v6 =>
          if v6 = CLOUDFLARE_CROSS_ZONE then none
          else if isMapped v6 then some ⟨.v4, v6.drop 12⟩
          else some ⟨.v6, v6⟩ := by
  obtain ⟨hne, hclean⟩ := h.clean
  have htrim : trim value = value := trim_of_clean fun c hc hmem =>
    hclean c hc (List.mem_append_left _ hmem)
  have hchar {c : Char} (hc : c ∈ [',', '%', '[', ']']) : c ∉ value := fun hmem =>
    hclean c hmem (List.mem_append_right _ hc)
  rw [parseCloudflareClientAddress, if_neg]
  rw [htrim]
  simp only [ne_eq, not_true, false_or, not_or]
  exact ⟨hne, hchar (by simp), hchar (by simp), hchar (by simp), hchar (by simp)⟩

/-- A header that is answered denotes an address. -/
theorem denotes_of_parse {value : List Char} {identity : CanonicalAddress}
    (h : parseCloudflareClientAddress value = some identity) : ∃ address, Denotes value address := by
  unfold parseCloudflareClientAddress at h
  split at h
  · cases h
  · split at h
    · next v4 hv4 => exact ⟨_, .v4 (parseIpv4_eq_some.1 hv4).1⟩
    · obtain ⟨v6, hv6, -⟩ := Option.bind_eq_some_iff.1 h
      obtain ⟨words, htext, -⟩ := parseIpv6_eq_some.1 hv6
      exact ⟨_, .v6 htext⟩

theorem parse_v4 {value : List Char} {octets : List UInt8} (h : Quad value octets) :
    parseCloudflareClientAddress value = identityV4 octets := by
  rw [parse_of_denotes (.v4 h), identityV4]
  cases hreserved : isReserved octets with
  | false =>
    rw [parseIpv4_eq_some.2 ⟨h, hreserved⟩]
    rfl
  | true =>
    have hnone : parseIpv4 value = none := by
      rw [parseIpv4, octets?_eq_some.2 h, Option.bind_some, hreserved]
      rfl
    rw [hnone, parseIpv6, if_pos h.colon]
    rfl

theorem parse_v6 {value : List Char} {words : List ℕ} (h : V6Text (value.map Char.toLower) words) :
    parseCloudflareClientAddress value =
      if '.' ∈ value ∧ isReserved ((words.flatMap wordBytes).drop 12) = true then none
      else if words.flatMap wordBytes = CLOUDFLARE_CROSS_ZONE then none
      else if isMapped (words.flatMap wordBytes) then some ⟨.v4, (words.flatMap wordBytes).drop 12⟩
      else some ⟨.v6, words.flatMap wordBytes⟩ := by
  have hcolon : ':' ∈ value := (mem_map_toLower (by decide)).1 h.colon
  have hv4 : parseIpv4 value = none := by
    rw [Option.eq_none_iff_forall_ne_some]
    exact fun octets hoctets => (parseIpv4_eq_some.1 hoctets).1.colon hcolon
  rw [parse_of_denotes (.v6 h), hv4]
  dsimp only
  split
  · next hhidden =>
    have hnone : parseIpv6 value = none := by
      rw [Option.eq_none_iff_forall_ne_some]
      intro bytes hbytes
      obtain ⟨words', h', rfl, hfree⟩ := parseIpv6_eq_some.1 hbytes
      rw [v6Text_unique (lower_toLower value) h' h, hhidden.2] at hfree
      exact absurd (hfree hhidden.1) (by decide)
    rw [hnone, Option.bind_none]
  · next hfree =>
    rw [parseIpv6_eq_some.2 ⟨words, h, rfl, fun hdot => ?_⟩, Option.bind_some]
    rw [Bool.eq_false_iff]
    exact fun hreserved => hfree ⟨hdot, hreserved⟩

theorem denotes_unique {value : List Char} {address address' : Address} (h : Denotes value address)
    (h' : Denotes value address') : address = address' := by
  cases h with
  | v4 quad =>
    cases h' with
    | v4 quad' => rw [quad_unique quad quad']
    | v6 text' => exact absurd ((mem_map_toLower (by decide)).1 text'.colon) quad.colon
  | v6 text =>
    cases h' with
    | v4 quad' => exact absurd ((mem_map_toLower (by decide)).1 text.colon) quad'.colon
    | v6 text' => rw [v6Text_unique (lower_toLower value) text text']

theorem faithful_v4 {value : List Char} {octets : List UInt8} (h : Quad value octets) :
    Faithful value where
  denoted address haddress := by
    rw [denotes_unique haddress (.v4 h)]
    exact parse_v4 h
  refused hnone := absurd ⟨_, .v4 h⟩ hnone

/-- An IPv6 text is answered faithfully unless it is misjudged. -/
theorem faithful_v6_iff {value : List Char} {words : List ℕ}
    (h : V6Text (value.map Char.toLower) words) :
    Faithful value ↔ ¬ (isReserved ((words.flatMap wordBytes).drop 12) = true ∧
      (isMapped (words.flatMap wordBytes) = true ↔ '.' ∉ value)) := by
  have hparse := parse_v6 h
  have hzone : isReserved (CLOUDFLARE_CROSS_ZONE.drop 12) = false := by decide
  have hiff : Faithful value ↔ parseCloudflareClientAddress value =
      (Address.v6 (words.flatMap wordBytes)).canonical := by
    refine ⟨fun hfaithful => hfaithful.denoted _ (.v6 h), fun heq => ⟨fun address haddress => ?_, ?_⟩⟩
    · rw [denotes_unique haddress (.v6 h), heq]
    · exact fun hnone => absurd ⟨_, .v6 h⟩ hnone
  rw [hiff, hparse, Address.canonical, identityV4]
  generalize words.flatMap wordBytes = bytes
  by_cases hcross : bytes = CLOUDFLARE_CROSS_ZONE
  · subst hcross
    simp [hzone]
  · by_cases hdot : '.' ∈ value <;> cases hreserved : isReserved (bytes.drop 12) <;>
      cases hmapped : isMapped bytes <;> simp [hcross, hdot]

/-- The address a mapped address stands for. -/
def Address.unmapped : Address → Address
  | .v4 octets => .v4 octets
  | .v6 bytes => if isMapped bytes then .v4 (bytes.drop 12) else .v6 bytes

theorem canonical_of_unmapped {address : Address} {identity : CanonicalAddress}
    (h : address.canonical = some identity) :
    (address.unmapped = match identity.family with
      | .v4 => .v4 identity.bytes
      | .v6 => .v6 identity.bytes) ∧
    identity ≠ ⟨.v6, CLOUDFLARE_CROSS_ZONE⟩ ∧
    (identity.family = .v4 → isReserved identity.bytes = false) := by
  have hv4 {octets : List UInt8} (h : identityV4 octets = some identity) :
      identity = ⟨.v4, octets⟩ ∧ isReserved octets = false := by
    rw [identityV4, Option.ite_none_left_eq_some, Option.some.injEq] at h
    exact ⟨h.2.symm, Bool.eq_false_iff.2 h.1⟩
  cases address with
  | v4 octets =>
    obtain ⟨rfl, hfree⟩ := hv4 h
    exact ⟨rfl, by simp, fun _ => hfree⟩
  | v6 bytes =>
    rw [Address.canonical, Option.ite_none_left_eq_some] at h
    obtain ⟨hcross, h⟩ := h
    split at h
    · next hmapped =>
      obtain ⟨rfl, hfree⟩ := hv4 h
      exact ⟨if_pos hmapped, by simp, fun _ => hfree⟩
    · next hmapped =>
      obtain rfl := Option.some.inj h
      exact ⟨if_neg hmapped, by simpa using hcross, fun hfamily => by cases hfamily⟩

/-- **The answer for a header depends on the address it denotes alone exactly when it is not
misjudged.** Addresses share an identity only if one is the mapped form of the other, and no identity is
reserved or that of other zones. -/
theorem address_faithful_iff (value : List Char) (address address' : Address)
    (identity : CanonicalAddress) :
    (Faithful value ↔ ¬ Misjudged value) ∧
    (address.canonical = some identity →
      (address'.canonical = some identity → address.unmapped = address'.unmapped) ∧
      identity ≠ ⟨.v6, CLOUDFLARE_CROSS_ZONE⟩ ∧
      (identity.family = .v4 → isReserved identity.bytes = false)) := by
  refine ⟨?_, fun h => ⟨fun h' => ?_, (canonical_of_unmapped h).2⟩⟩
  · by_cases hv6 : ∃ words, V6Text (value.map Char.toLower) words
    · obtain ⟨words, htext⟩ := hv6
      rw [faithful_v6_iff htext, not_iff_not]
      refine ⟨fun hmisjudged => ⟨words, htext, hmisjudged⟩, ?_⟩
      rintro ⟨words', htext', hmisjudged⟩
      rwa [v6Text_unique (lower_toLower value) htext htext']
    · refine iff_of_true ?_ fun ⟨words, htext, _⟩ => hv6 ⟨words, htext⟩
      by_cases hv4 : ∃ octets, Quad value octets
      · exact faithful_v4 hv4.choose_spec
      · have hnone : ¬ ∃ address, Denotes value address := by
          rintro ⟨_, quad | text⟩
          · exact hv4 ⟨_, quad⟩
          · exact hv6 ⟨_, text⟩
        refine ⟨fun address haddress => absurd ⟨address, haddress⟩ hnone, fun _ => ?_⟩
        rw [Option.eq_none_iff_forall_ne_some]
        exact fun identity hidentity => hnone (denotes_of_parse hidentity)
  · rw [(canonical_of_unmapped h).1, (canonical_of_unmapped h').1]

theorem address_faithful_iff_loopback :
    (Address.v4 [127, 0, 0, 1]).unmapped =
      (Address.v6 [0, 0, 0, 0, 0, 0, 0, 0, 0, 0, 0xff, 0xff, 127, 0, 0, 1]).unmapped :=
  ((address_faithful_iff [] (.v4 [127, 0, 0, 1])
    (.v6 [0, 0, 0, 0, 0, 0, 0, 0, 0, 0, 0xff, 0xff, 127, 0, 0, 1]) ⟨.v4, [127, 0, 0, 1]⟩).2
      (by decide)).1 (by decide)

/-- A mapped reserved address is an identity when it is spelled in groups, and none as a quad. -/
theorem reserved_identity :
    parseCloudflareClientAddress "::ffff:f000:1".toList = some ⟨.v4, [240, 0, 0, 1]⟩ ∧
    parseCloudflareClientAddress "::ffff:240.0.0.1".toList = none := by
  constructor <;> decide

end Limitmark.Ingress
