import Limitmark.Foundations.AddressText
import Limitmark.Foundations.JsonRoundTrip

/-!
# The TCP tables of the kernel

`lab/defense/proc-net.ts`: reading `/proc/net/tcp` and `/proc/net/tcp6`, the class of an address, and
the sockets a process holds open, through a reader of files.

A well-formed row is one the kernel prints (`IsRow`). A table of such rows is read row by row
(`parseTcpTable_eq`), and an address is of the class of loopback exactly when its bytes are
(`addressClass_loopback`).
-/

namespace Limitmark.Field

open Limitmark.Foundations Limitmark.Foundations.Json

/-! ## Reading -/

/-- What is read of the files of the kernel, all at one moment. -/
structure ProcReader where
  readText : String → Option String
  listDir : String → Option (List String)
  readLink : String → Option String

inductive Family
  | v4 | v6
  deriving DecidableEq, Repr

structure TcpEntry where
  family : Family
  ip : String
  port : ℕ
  state : String
  uid : Option ℕ
  inode : ℕ
  deriving DecidableEq, Repr

def LISTEN : String := "0A"

/-- `\s` -/
def isWhite (c : Char) : Bool :=
  "\t\n\x0b\x0c\r \u00a0\u1680\u2000\u2001\u2002\u2003\u2004\u2005\u2006\u2007\u2008\u2009\u200a\u2028\u2029\u202f\u205f\u3000\ufeff".toList.contains c

/-- `line.trim().split(/\s+/)` -/
def columns (line : List Char) : List (List Char) := (line.splitOnP isWhite).filter (· ≠ [])

/-- The bytes of pairs of hexadecimal digits. -/
def hexBytes : List Char → Option (List ℕ)
  | [] => some []
  | [_] => none
  | a :: b :: rest => do
    let a ← hexValue a
    let b ← hexValue b
    let bytes ← hexBytes rest
    return (16 * a + b) :: bytes

def dotted (bytes : List ℕ) : List Char := ['.'].intercalate (bytes.map (Nat.toDigits 10))

/-- The bytes of an address are printed as words of four, the last byte of each first. -/
def swapWords : List ℕ → List ℕ
  | a :: b :: c :: d :: rest => d :: c :: b :: a :: swapWords rest
  | _ => []

def ipv4FromWord (word : List Char) : Option (List Char) :=
  match hexBytes word with
  | some [a, b, c, d] => some (dotted [d, c, b, a])
  | _ => none

def groupsOf : List ℕ → List ℕ
  | a :: b :: rest => (256 * a + b) :: groupsOf rest
  | _ => []

/-- The canonical text of sixteen bytes. -/
def ipv6Text (bytes : List ℕ) : List Char :=
  if bytes.take 12 = List.replicate 10 0 ++ [0xFF, 0xFF] then "::ffff:".toList ++ dotted (bytes.drop 12)
  else
    let groups := groupsOf bytes
    if groups = List.replicate 8 0 then "::".toList
    else if groups = List.replicate 7 0 ++ [1] then "::1".toList
    else [':'].intercalate (groups.map (Nat.toDigits 16))

def ipv6FromWords (hex : List Char) : Option (List Char) :=
  (hexBytes hex).bind fun bytes =>
    if bytes.length = 16 then some (ipv6Text (swapWords bytes)) else none

/-- `Number` of the decimal digits the kernel prints. It reads other texts too (`0x10`, `-5`, `1e3`), which
stand in no table and are no numbers here. -/
def decimal (text : List Char) : Option ℕ :=
  if text ≠ [] ∧ text.all isDigit then some (Nat.ofDigitChars 10 text 0) else none

/-- `Number.isSafeInteger` -/
def safeInteger (n : ℕ) : Option ℕ := if n < 2 ^ 53 then some n else none

/-- `/^[0-9A-Fa-f]{4}$/` and its number. -/
def portNumber (text : List Char) : Option ℕ :=
  match hexBytes text with
  | some [a, b] => some (256 * a + b)
  | _ => none

def parseRow (family : Family) (line : List Char) : Option TcpEntry :=
  let tokens := columns line
  if tokens.length < 10 then none
  else
    let parts := (tokens.getD 1 []).splitOn ':'
    let address := parts.getD 0 []
    let ip := match family with
      | .v4 => ipv4FromWord address
      | .v6 => ipv6FromWords address
    match ip, portNumber (parts.getD 1 []), (decimal (tokens.getD 9 [])).bind safeInteger with
    | some ip, some port, some inode =>
      some {
        family, ip := String.ofList ip, port, state := String.ofList (tokens.getD 3 [])
        uid := decimal (tokens.getD 7 []), inode }
    | _, _, _ => none

/-- The rows of a table after its header; a malformed one is skipped. -/
def parseTcpTable (text : String) (family : Family) : List TcpEntry :=
  ((text.toList.splitOn '\n').drop 1).filterMap (parseRow family)

def listeningOnly (entries : List TcpEntry) : List TcpEntry :=
  entries.filter fun entry => entry.state = LISTEN

inductive AddressClass
  | loopback | wildcard | other
  deriving DecidableEq, Repr

def addressClass (entry : TcpEntry) : AddressClass :=
  let text := entry.ip.toList
  let ip := if "::ffff:".toList.isPrefixOf text then text.drop 7 else text
  if ip = "0.0.0.0".toList ∨ ip = "::".toList then .wildcard
  else if ip = "::1".toList ∨ "127.".toList.isPrefixOf ip then .loopback
  else .other

/-- `/^socket:\[(\d+)\]$/` -/
def socketInode (link : String) : Option ℕ :=
  (link.toList.dropPrefix? "socket:[".toList).bind fun rest =>
    if rest.getLast? = some ']' then decimal rest.dropLast else none

/-- The sockets a process holds open, if its table of descriptors can be read. -/
def socketInodesOf (reader : ProcReader) (pid : ℕ) : Option (List ℕ) :=
  (reader.listDir s!"/proc/{pid}/fd").map fun names =>
    (names.filterMap fun name => (reader.readLink s!"/proc/{pid}/fd/{name}").bind socketInode).dedup

/-- Every numeric directory of `/proc`. -/
def listPids (reader : ProcReader) : List ℕ :=
  ((reader.listDir "/proc").getD []).filterMap fun name =>
    if name.toList.head? = some '0' then none else decimal name.toList

/-! ## The rows of the kernel -/

/-- A socket, as the kernel tabulates it; the bytes of its address are in network order. -/
structure Row where
  family : Family
  address : List UInt8
  port : UInt16
  state : String
  uid : ℕ
  inode : ℕ
  length : address.length = match family with
    | .v4 => 4
    | .v6 => 16
  safe : inode < 2 ^ 53

def hexDigits (b : UInt8) : List Char :=
  [Nat.digitChar (b.toNat / 16), Nat.digitChar (b.toNat % 16)].map Char.toUpper

/-- The words of an address, as they are printed. -/
def hexWords : List UInt8 → List Char
  | a :: b :: c :: d :: rest => hexDigits d ++ hexDigits c ++ hexDigits b ++ hexDigits a ++ hexWords rest
  | _ => []

/-- A line with a row in its columns. -/
structure IsRow (line : List Char) (row : Row) : Prop where
  length : 10 ≤ (columns line).length
  address : (columns line).getD 1 [] =
    hexWords row.address ++ ':' :: (hexDigits (row.port.toNat / 256).toUInt8 ++
      hexDigits (row.port.toNat % 256).toUInt8)
  state : (columns line).getD 3 [] = row.state.toList
  uid : (columns line).getD 7 [] = Nat.toDigits 10 row.uid
  inode : (columns line).getD 9 [] = Nat.toDigits 10 row.inode

instance (line : List Char) (row : Row) : Decidable (IsRow line row) :=
  decidable_of_iff (10 ≤ (columns line).length ∧
      (columns line).getD 1 [] = hexWords row.address ++ ':' ::
        (hexDigits (row.port.toNat / 256).toUInt8 ++ hexDigits (row.port.toNat % 256).toUInt8) ∧
      (columns line).getD 3 [] = row.state.toList ∧
      (columns line).getD 7 [] = Nat.toDigits 10 row.uid ∧
      (columns line).getD 9 [] = Nat.toDigits 10 row.inode)
    ⟨fun ⟨hlength, haddress, hstate, huid, hinode⟩ => ⟨hlength, haddress, hstate, huid, hinode⟩,
      fun ⟨hlength, haddress, hstate, huid, hinode⟩ => ⟨hlength, haddress, hstate, huid, hinode⟩⟩

/-- A table: a header, and a line for every row; other lines are blank. -/
def IsTable (family : Family) (text : String) (rows : List Row) : Prop :=
  ∃ header lines, text.toList.splitOn '\n' = header :: lines ∧
    List.Forall₂ IsRow (lines.filter fun line => columns line ≠ []) rows ∧
    ∀ row ∈ rows, row.family = family

/-- The text of an address. -/
def Row.ip (row : Row) : String :=
  let bytes := row.address.map UInt8.toNat
  match row.family with
  | .v4 => String.ofList (dotted bytes)
  | .v6 => String.ofList (ipv6Text bytes)

def Row.entry (row : Row) : TcpEntry where
  family := row.family
  ip := row.ip
  port := row.port.toNat
  state := row.state
  uid := some row.uid
  inode := row.inode

/-! ## A row is read -/

theorem hexBytes_hexDigits (b : UInt8) (rest : List Char) :
    hexBytes (hexDigits b ++ rest) = (hexBytes rest).map (b.toNat :: ·) := by
  have hdigit : ∀ d < 16, hexValue (Nat.digitChar d).toUpper = some d := by decide
  have hb := b.toNat_lt
  have hhigh := hdigit (b.toNat / 16) (by omega)
  have hlow := hdigit (b.toNat % 16) (by omega)
  simp only [hexDigits, List.map_cons, List.map_nil, List.cons_append, List.nil_append, hexBytes,
    hhigh, hlow, Option.bind_eq_bind, Option.bind_some, Nat.div_add_mod]
  cases hexBytes rest <;> rfl

theorem hexBytes_hexWords (address : List UInt8) :
    hexBytes (hexWords address) = some (swapWords (address.map UInt8.toNat)) := by
  fun_induction hexWords address with
  | case1 a b c d rest ih =>
    simp only [List.append_assoc, hexBytes_hexDigits, ih, Option.map_some, List.map_cons, swapWords]
  | case2 address hshort =>
    match address, hshort with
    | [], _ | [_], _ | [_, _], _ | [_, _, _], _ => rfl
    | a :: b :: c :: d :: rest, hshort => exact (hshort a b c d rest rfl).elim

theorem colon_notMem_hexDigits (b : UInt8) : ':' ∉ hexDigits b := by
  have hdigit : ∀ d < 16, ':' ≠ (Nat.digitChar d).toUpper := by decide
  have hb := b.toNat_lt
  simp [hexDigits, hdigit (b.toNat / 16) (by omega), hdigit (b.toNat % 16) (by omega)]

theorem colon_notMem_hexWords (address : List UInt8) : ':' ∉ hexWords address := by
  fun_induction hexWords address with
  | case1 a b c d rest ih => simp [colon_notMem_hexDigits, ih]
  | case2 => exact List.not_mem_nil

theorem portNumber_hexDigits (port : UInt16) :
    portNumber (hexDigits (port.toNat / 256).toUInt8 ++ hexDigits (port.toNat % 256).toUInt8) =
      some port.toNat := by
  have hport := port.toNat_lt
  have hnat (n : ℕ) (h : n < 256) : n.toUInt8.toNat = n := by
    rw [Nat.toUInt8_eq, UInt8.toNat_ofNat', Nat.mod_eq_of_lt (by omega)]
  have hlow := hexBytes_hexDigits (port.toNat % 256).toUInt8 []
  rw [List.append_nil] at hlow
  rw [portNumber, hexBytes_hexDigits, hlow, hexBytes, hnat _ (by omega), hnat _ (by omega)]
  simp only [Option.map_some, Option.some.injEq]
  omega

theorem decimal_toDigits (n : ℕ) : decimal (Nat.toDigits 10 n) = some n := by
  rw [decimal, if_pos ⟨Nat.toDigits_ne_nil, List.all_eq_true.2 (all_toDigits n)⟩,
    Nat.ofDigitChars_ten_toDigits]

theorem swapWords_swapWords {bytes : List ℕ} (h : 4 ∣ bytes.length) :
    swapWords (swapWords bytes) = bytes ∧ (swapWords bytes).length = bytes.length := by
  fun_induction swapWords bytes with
  | case1 a b c d rest ih =>
    obtain ⟨hswap, hlength⟩ := ih (by simpa [Nat.dvd_add_left] using h)
    exact ⟨by rw [swapWords, hswap], by simp [hlength]⟩
  | case2 bytes hshort =>
    match bytes, hshort with
    | [], _ => exact ⟨rfl, rfl⟩
    | [_], _ | [_, _], _ | [_, _, _], _ => simp at h
    | a :: b :: c :: d :: rest, hshort => exact (hshort a b c d rest rfl).elim

theorem ip_of_row (row : Row) :
    (match row.family with
      | .v4 => ipv4FromWord (hexWords row.address)
      | .v6 => ipv6FromWords (hexWords row.address)) = some row.ip.toList := by
  have hlength := row.length
  unfold Row.ip
  split <;> rename_i hfamily <;> rw [hfamily] at hlength
  · obtain ⟨a, b, c, d, haddress⟩ : ∃ a b c d, row.address = [a, b, c, d] :=
      List.length_eq_four.1 hlength
    rw [ipv4FromWord, hexBytes_hexWords, haddress]
    simp only [List.map_cons, List.map_nil, swapWords, String.toList_ofList]
  · have hfour : 4 ∣ (row.address.map UInt8.toNat).length := by
      rw [List.length_map, hlength]
      decide
    obtain ⟨hswap, hswapped⟩ := swapWords_swapWords hfour
    rw [List.length_map, hlength] at hswapped
    rw [ipv6FromWords, hexBytes_hexWords, Option.bind_some, if_pos hswapped, hswap]
    simp only [String.toList_ofList]

theorem parseRow_of_isRow {line : List Char} {row : Row} (h : IsRow line row) :
    parseRow row.family line = some row.entry := by
  have hport := colon_notMem_hexDigits (row.port.toNat / 256).toUInt8
  have hport' := colon_notMem_hexDigits (row.port.toNat % 256).toUInt8
  have hsplit : ((columns line).getD 1 []).splitOn ':' = [hexWords row.address,
      hexDigits (row.port.toNat / 256).toUInt8 ++ hexDigits (row.port.toNat % 256).toUInt8] := by
    rw [h.address]
    have hparts : ∀ part ∈ [hexWords row.address, hexDigits (row.port.toNat / 256).toUInt8 ++
        hexDigits (row.port.toNat % 256).toUInt8], ':' ∉ part := by
      simp [colon_notMem_hexWords, hport, hport']
    refine Eq.trans ?_ (List.splitOn_intercalate ':' hparts (by simp))
    simp [List.intercalate]
  have hip := ip_of_row row
  have hlength := h.length
  unfold parseRow
  dsimp only
  rw [if_neg (by omega), hsplit]
  simp only [List.getD_cons_zero, List.getD_cons_succ, hip, portNumber_hexDigits, h.inode, h.uid,
    h.state, decimal_toDigits, Option.bind_some, safeInteger, if_pos row.safe, String.ofList_toList]
  rfl

/-- **A table of well-formed rows is read row by row.** -/
theorem parseTcpTable_eq {family : Family} {text : String} {rows : List Row}
    (h : IsTable family text rows) : parseTcpTable text family = rows.map Row.entry := by
  obtain ⟨header, lines, hsplit, hlines, hfamily⟩ := h
  rw [parseTcpTable, hsplit, List.drop_one, List.tail_cons]
  have hblank : lines.filterMap (parseRow family) =
      (lines.filter fun line => columns line ≠ []).filterMap (parseRow family) := by
    rw [List.filterMap_filter]
    refine List.filterMap_congr fun line _ => ?_
    split
    · rfl
    · next hblank =>
      have hnil : columns line = [] := by simpa using hblank
      rw [parseRow, hnil]
      rfl
  rw [hblank]
  clear hblank hsplit
  generalize lines.filter (fun line => columns line ≠ []) = rowLines at hlines ⊢
  induction hlines with
  | nil => rfl
  | @cons line row lines rows hrow _ ih =>
    rw [List.forall_mem_cons] at hfamily
    have hread := parseRow_of_isRow hrow
    rw [hfamily.1] at hread
    rw [List.filterMap_cons_some hread, List.map_cons, ih hfamily.2]

/-! ## The class of an address -/

/-- The address of the row is of `127.0.0.0/8`, or is `::1`, or is mapped from one of the first. -/
def Row.Loopback (row : Row) : Prop :=
  match row.family with
  | .v4 => row.address.head? = some 127
  | .v6 => row.address = List.replicate 15 0 ++ [1] ∨
      ∃ quad : List UInt8, quad.head? = some 127 ∧
        row.address = List.replicate 10 0 ++ [0xFF, 0xFF] ++ quad

theorem dot_notMem_toDigits (n : ℕ) : '.' ∉ Nat.toDigits 10 n := fun hmem =>
  absurd (all_toDigits n '.' hmem) (by decide)

/-- What a dotted text starts with, up to its first dot. -/
theorem prefix_dotted (word : List Char) (hword : '.' ∉ word) (a b : ℕ) (rest : List ℕ) :
    word ++ ['.'] <+: dotted (a :: b :: rest) ↔ word = Nat.toDigits 10 a := by
  have hdotted : dotted (a :: b :: rest) = Nat.toDigits 10 a ++ '.' :: dotted (b :: rest) := by
    simp [dotted, List.intercalate_cons_cons]
  rw [hdotted]
  constructor
  · rintro ⟨tail, htail⟩
    rw [List.append_assoc, List.singleton_append] at htail
    have htake := congrArg (List.takeWhile (· ≠ '.')) htail
    have hstop (w tail : List Char) (hw : '.' ∉ w) : (w ++ '.' :: tail).takeWhile (· ≠ '.') = w := by
      have hall : ∀ c ∈ w, decide (c ≠ '.') = true := fun c hc =>
        decide_eq_true fun hdot => hw (hdot ▸ hc)
      rw [List.takeWhile_append_of_pos hall]
      simp
    rwa [hstop _ _ hword, hstop _ _ (dot_notMem_toDigits a)] at htake
  · rintro rfl
    exact ⟨dotted (b :: rest), by simp⟩

theorem toDigits_eq_iff {n : ℕ} {word : List Char} {m : ℕ} (hm : Nat.toDigits 10 m = word) :
    word = Nat.toDigits 10 n ↔ n = m := by
  subst hm
  constructor
  · intro h
    have hread := congrArg (fun digits => Nat.ofDigitChars 10 digits 0) h
    simpa [Nat.ofDigitChars_ten_toDigits] using hread.symm
  · rintro rfl
    rfl

/-- The class of a text without a mapping. -/
def textClass (ip : List Char) : AddressClass :=
  if ip = "0.0.0.0".toList ∨ ip = "::".toList then .wildcard
  else if ip = "::1".toList ∨ "127.".toList.isPrefixOf ip then .loopback
  else .other

theorem addressClass_eq {entry : TcpEntry} {text : List Char} (h : entry.ip = String.ofList text) :
    addressClass entry =
      textClass (if "::ffff:".toList.isPrefixOf text then text.drop 7 else text) := by
  have htext : entry.ip.toList = text := by rw [h, String.toList_ofList]
  rw [← htext]
  rfl

theorem textClass_dotted (a b : ℕ) (rest : List ℕ) :
    textClass (dotted (a :: b :: rest)) = .loopback ↔ a = 127 := by
  have hloopback : "127.".toList.isPrefixOf (dotted (a :: b :: rest)) = true ↔ a = 127 := by
    rw [List.isPrefixOf_iff_prefix]
    exact (prefix_dotted "127".toList (by decide) a b rest).trans (toDigits_eq_iff (by decide))
  have hzero (h : dotted (a :: b :: rest) = "0.0.0.0".toList) : a = 0 := by
    have hdigits : Nat.toDigits 10 0 = "0".toList := by decide
    refine (toDigits_eq_iff hdigits).1 ((prefix_dotted "0".toList (by decide) a b rest).1 ?_)
    rw [h]
    exact ⟨".0.0".toList.tail ++ ".0".toList, by decide⟩
  have hdot : '.' ∈ dotted (a :: b :: rest) := by
    simp [dotted, List.intercalate_cons_cons]
  have hplain (word : List Char) (hword : '.' ∉ word) : dotted (a :: b :: rest) ≠ word :=
    fun h => hword (h ▸ hdot)
  unfold textClass
  split
  · next h =>
    refine iff_of_false nofun fun hone => ?_
    rw [hzero (h.resolve_right (hplain _ (by decide)))] at hone
    cases hone
  · split
    · next h => exact iff_of_true rfl (hloopback.1 (h.resolve_left (hplain _ (by decide))))
    · next h => exact iff_of_false nofun fun hone => h (.inr (hloopback.2 hone))

theorem dotted_head (a b : ℕ) (rest : List ℕ) : ¬ "::ffff:".toList <+: dotted (a :: b :: rest) := by
  rintro ⟨tail, htail⟩
  obtain ⟨c, cs, hcons, -⟩ := toDigits_eq_cons a
  have hdigit := all_toDigits a c (by rw [hcons]; exact List.mem_cons_self)
  have hdotted : dotted (a :: b :: rest) = Nat.toDigits 10 a ++ '.' :: dotted (b :: rest) := by
    simp [dotted, List.intercalate_cons_cons]
  rw [hdotted, hcons] at htail
  obtain ⟨rfl, -⟩ := List.cons.inj htail
  exact absurd hdigit (by decide)

theorem isHex_toDigits (n : ℕ) : ∀ c ∈ Nat.toDigits 16 n, isHex c = true := by
  intro c hc
  obtain ⟨digits, hdigits, -⟩ := Option.map_eq_some_iff.1 (mapM_toDigits n)
  obtain ⟨d, -, hd⟩ := exists_of_forall₂ (mapM_eq_some_iff.1 hdigits) hc
  rw [isHex, hd]
  rfl

/-- A text of groups starts with a digit and has no dot. -/
theorem intercalate_groups (group : ℕ) (groups : List ℕ) :
    (∃ c cs, [':'].intercalate ((group :: groups).map (Nat.toDigits 16)) = c :: cs ∧ c ≠ ':') ∧
      '.' ∉ [':'].intercalate ((group :: groups).map (Nat.toDigits 16)) := by
  constructor
  · obtain ⟨c, cs, hcons⟩ := List.exists_cons_of_ne_nil (Nat.toDigits_ne_nil (n := group) (b := 16))
    have hhex := isHex_toDigits group c (by rw [hcons]; exact List.mem_cons_self)
    have hcolon : c ≠ ':' := by
      rintro rfl
      exact absurd hhex (by decide)
    cases groups with
    | nil => exact ⟨c, cs, by simp [hcons], hcolon⟩
    | cons next groups =>
      rw [List.map_cons, List.map_cons, List.intercalate_cons_cons, hcons]
      exact ⟨c, _, rfl, hcolon⟩
  · intro hdot
    rcases mem_intercalate hdot with hcolon | ⟨part, hpart, hdot⟩
    · exact absurd hcolon (by decide)
    · obtain ⟨n, -, rfl⟩ := List.mem_map.1 hpart
      exact absurd (isHex_toDigits n '.' hdot) (by decide)

theorem addressClass_v4 {a b c d : ℕ} {entry : TcpEntry}
    (h : entry.ip = String.ofList (dotted [a, b, c, d])) :
    addressClass entry = .loopback ↔ a = 127 := by
  rw [addressClass_eq h,
    if_neg fun hmapped => dotted_head a b [c, d] (List.isPrefixOf_iff_prefix.1 hmapped)]
  exact textClass_dotted a b [c, d]

theorem textClass_groups {group : ℕ} {groups : List ℕ} {text : List Char}
    (h : text = [':'].intercalate ((group :: groups).map (Nat.toDigits 16))) :
    ¬ "::ffff:".toList <+: text ∧ textClass text = .other := by
  obtain ⟨⟨c, cs, hcons, hcolon⟩, hdot⟩ := intercalate_groups group groups
  rw [← h] at hcons hdot
  have hhead (word : List Char) (hword : word.head? = some ':') : text ≠ word := by
    rintro rfl
    rw [hcons] at hword
    exact hcolon (Option.some.inj hword)
  refine ⟨fun hstart => ?_, ?_⟩
  · obtain ⟨tail, htail⟩ := hstart
    exact hhead _ rfl htail.symm
  · have hplain : ¬ ("127.".toList.isPrefixOf text = true) := fun hstart =>
      hdot ((List.isPrefixOf_iff_prefix.1 hstart).subset (by decide))
    have hzero : text ≠ "0.0.0.0".toList := by
      rintro rfl
      exact hdot (by decide)
    unfold textClass
    rw [if_neg (not_or.2 ⟨hzero, hhead _ rfl⟩), if_neg (not_or.2 ⟨hhead _ rfl, hplain⟩)]

theorem addressClass_v6 {bytes : List ℕ} (hlength : bytes.length = 16) {entry : TcpEntry}
    (h : entry.ip = String.ofList (ipv6Text bytes)) :
    addressClass entry = .loopback ↔ bytes = List.replicate 15 0 ++ [1] ∨
      bytes.take 12 = List.replicate 10 0 ++ [0xFF, 0xFF] ∧ (bytes.drop 12).head? = some 127 := by
  rw [addressClass_eq h, ipv6Text]
  match bytes, hlength with
  | [b₀, b₁, b₂, b₃, b₄, b₅, b₆, b₇, b₈, b₉, b₁₀, b₁₁, b₁₂, b₁₃, b₁₄, b₁₅], _ =>
    simp only [List.take_succ_cons, List.take_zero, List.drop_succ_cons, List.drop_zero]
    split
    · next hmapped =>
      have hstart : "::ffff:".toList.isPrefixOf ("::ffff:".toList ++ dotted [b₁₂, b₁₃, b₁₄, b₁₅]) =
          true := List.isPrefixOf_iff_prefix.2 (List.prefix_append _ _)
      have hdrop : ("::ffff:".toList ++ dotted [b₁₂, b₁₃, b₁₄, b₁₅]).drop 7 =
          dotted [b₁₂, b₁₃, b₁₄, b₁₅] := rfl
      rw [if_pos hstart, hdrop, textClass_dotted]
      have hone : ¬ [b₀, b₁, b₂, b₃, b₄, b₅, b₆, b₇, b₈, b₉, b₁₀, b₁₁, b₁₂, b₁₃, b₁₄, b₁₅] =
          List.replicate 15 0 ++ [1] := by
        intro hone
        have htake := congrArg (List.take 12) hone
        simp only [List.take_succ_cons, List.take_zero] at htake
        rw [hmapped] at htake
        exact absurd htake (by decide)
      rw [or_iff_right hone]
      simp [hmapped]
    · next hmapped =>
      rw [or_iff_left fun h => hmapped h.1]
      split
      · next hzero =>
        refine iff_of_false (by decide) fun hone => ?_
        rw [hone] at hzero
        exact absurd hzero (by decide)
      · split
        · next hone =>
          refine iff_of_true (by decide) ?_
          simp only [groupsOf, List.replicate, List.cons_append, List.nil_append, List.cons.injEq,
            and_true] at hone ⊢
          omega
        · next hone =>
          obtain ⟨hstart, hclass⟩ := @textClass_groups (256 * b₀ + b₁) _ _ rfl
          rw [groupsOf, if_neg fun h => hstart (List.isPrefixOf_iff_prefix.1 h), hclass]
          refine iff_of_false nofun fun hbytes => hone ?_
          rw [hbytes]
          decide

/-- **An entry is of the class of loopback exactly when its address is.** -/
theorem addressClass_loopback (row : Row) : addressClass row.entry = .loopback ↔ row.Loopback := by
  have hlength := row.length
  have hip : row.entry.ip = row.ip := rfl
  rw [Row.Loopback]
  unfold Row.ip at hip
  split <;> rename_i hfamily <;> rw [hfamily] at hlength hip
  · obtain ⟨a, b, c, d, haddress⟩ : ∃ a b c d, row.address = [a, b, c, d] :=
      List.length_eq_four.1 hlength
    rw [haddress] at hip ⊢
    rw [addressClass_v4 hip, List.head?_cons, Option.some.injEq, ← UInt8.toNat_inj]
    rfl
  · have hbytes : (row.address.map UInt8.toNat).length = 16 := (List.length_map _).trans hlength
    have hinj : Function.Injective (List.map UInt8.toNat) :=
      List.map_injective_iff.2 fun _ _ h => UInt8.toNat_inj.1 h
    rw [addressClass_v6 hbytes hip]
    refine or_congr ?_ ?_
    · rw [← hinj.eq_iff]
      rfl
    · rw [← List.map_take, ← List.map_drop]
      constructor
      · rintro ⟨hmapped, hhead⟩
        refine ⟨row.address.drop 12, ?_, ?_⟩
        · rw [List.head?_map, Option.map_eq_some_iff] at hhead
          obtain ⟨b, hb, htoNat⟩ := hhead
          rw [hb]
          exact congrArg some (UInt8.toNat_inj.1 htoNat)
        · have htake : row.address.take 12 = List.replicate 10 0 ++ [0xFF, 0xFF] := hinj hmapped
          rw [← htake, List.take_append_drop]
      · rintro ⟨quad, hquad, haddress⟩
        rw [haddress]
        have htake : (List.replicate 10 0 ++ [0xFF, 0xFF] ++ quad : List UInt8).take 12 =
            List.replicate 10 0 ++ [0xFF, 0xFF] := List.take_left' rfl
        have hdrop : (List.replicate 10 0 ++ [0xFF, 0xFF] ++ quad : List UInt8).drop 12 = quad :=
          List.drop_left' rfl
        rw [htake, hdrop, List.head?_map, hquad]
        exact ⟨rfl, rfl⟩

end Limitmark.Field
