import Mathlib.Data.List.DropRight
import Limitmark.Foundations.JsonGrammar

/-!
# Readers of JSON by recursive descent

A reader has its own space, its own scanners of strings and of scalars, a bound on the depth and a rule
for repeated members; what it makes of a document is up to its algebra. It runs on fuel, and a run on
twice the length of the text is not exhausted (`Reader.read_ne_exhausted`).

A reader whose scanners are right accepts exactly the texts of the grammar that keep its rules, and
makes of each what its algebra makes of the document (`Reader.read_eq_ok`). A text spells one document
(`spells_unique`).
-/

namespace Limitmark.Foundations.JsonGrammar

inductive Fault
  | exhausted | refused
  deriving DecidableEq, Repr

/-- What has been read from the start of a text, and the rest. -/
abbrev Reading (α : Type*) := Except Fault (α × JsString)

structure Reader (α : Type*) where
  algebra : Algebra α
  space : UInt16 → Bool
  string : JsString → Option (JsString × JsString)
  scalar : JsString → Option (α × JsString)
  maxDepth : Option ℕ
  repeats : Bool

/-- The text after a unit it has to start with. -/
def expect (u : UInt16) : JsString → Option JsString
  | [] => none
  | v :: rest => if v = u then some rest else none

theorem expect_eq_some {u : UInt16} {text rest : JsString} :
    expect u text = some rest ↔ text = u :: rest := by
  cases text with
  | nil => simp [expect]
  | cons v text =>
    rw [expect]
    split
    · next h => simp [h]
    · next h => simp [h]

namespace Reader

variable {α : Type*} (r : Reader α)

def skip (text : JsString) : JsString := text.dropWhile r.space

/-! ## Reading -/

mutual

def value : ℕ → ℕ → JsString → Reading α
  | 0, _, _ => .error .exhausted
  | fuel + 1, depth, text =>
    if r.maxDepth.any fun limit => limit < depth then .error .refused
    else
      match expect (unit '"') (r.skip text) with
      | some _ =>
        match r.string (r.skip text) with
        | some (s, rest) => .ok (r.algebra.str s, rest)
        | none => .error .refused
      | none =>
        match expect (unit '[') (r.skip text) with
        | some inner =>
          match expect (unit ']') (r.skip inner) with
          | some rest => .ok (r.algebra.arr [], rest)
          | none => (elements fuel (depth + 1) (r.skip inner)).map fun (vs, rest) =>
              (r.algebra.arr vs, rest)
        | none =>
          match expect (unit '\x7b') (r.skip text) with
          | some inner =>
            match expect (unit '\x7d') (r.skip inner) with
            | some rest => .ok (r.algebra.obj [], rest)
            | none => (members fuel (depth + 1) [] (r.skip inner)).map fun (ms, rest) =>
                (r.algebra.obj ms, rest)
          | none =>
            match r.scalar (r.skip text) with
            | some (v, rest) => .ok (v, rest)
            | none => .error .refused

/-- The elements of an array, up to its end. -/
def elements : ℕ → ℕ → JsString → Reading (List α)
  | 0, _, _ => .error .exhausted
  | fuel + 1, depth, text =>
    match value fuel depth text with
    | .error e => .error e
    | .ok (v, after) =>
      match expect (unit ']') (r.skip after) with
      | some rest => .ok ([v], rest)
      | none =>
        match expect (unit ',') (r.skip after) with
        | some next => (elements fuel depth next).map fun (vs, rest) => (v :: vs, rest)
        | none => .error .refused

/-- The members of an object, up to its end; the names before them are given. -/
def members : ℕ → ℕ → List JsString → JsString → Reading (List (JsString × α))
  | 0, _, _, _ => .error .exhausted
  | fuel + 1, depth, keys, text =>
    match r.string (r.skip text) with
    | none => .error .refused
    | some (key, colon) =>
      match expect (unit ':') (r.skip colon) with
      | none => .error .refused
      | some inner =>
        if ¬ r.repeats ∧ key ∈ keys then .error .refused
        else
          match value fuel depth inner with
          | .error e => .error e
          | .ok (v, after) =>
            match expect (unit '\x7d') (r.skip after) with
            | some rest => .ok ([(key, v)], rest)
            | none =>
              match expect (unit ',') (r.skip after) with
              | some next => (members fuel depth (key :: keys) next).map fun (ms, rest) =>
                  ((key, v) :: ms, rest)
              | none => .error .refused

end

/-- A text that is one value, with nothing but space around it. -/
def read (text : JsString) : Except Fault α :=
  match r.value (2 * text.length + 1) 0 text with
  | .error e => .error e
  | .ok (v, rest) => if r.skip rest = [] then .ok v else .error .refused

/-! ## What a reader asks of a document -/

/-- The rules of a reader, from a certain depth on; `number` is the form of its numbers. -/
def Admits (number : JsString → Prop) (depth : ℕ) (d : Doc) : Prop :=
  (∀ limit, r.maxDepth = some limit → depth + d.depth ≤ limit) ∧
    (r.repeats = false → d.Distinct) ∧ ∀ digits ∈ d.numbers, number digits

/-- A text whose start a numeral does not go on with. -/
def Ends (rest : JsString) : Prop :=
  ∀ u, rest.head? = some u → isDigit u = false ∧ u ∉ ascii ".eE"

/-- The scanners of a reader are right. -/
structure Lawful (number : JsString → Prop) : Prop where
  space : ∀ u, r.space u = true → u ∉ ascii "\"[]\x7b\x7d:,-.eEtfn" ∧ isDigit u = false
  string : ∀ {text s rest}, r.string text = some (s, rest) ↔ Quoted text s rest
  scalar_sound : ∀ {text v rest}, r.scalar text = some (v, rest) →
    ∃ d, Scalar text d rest ∧ (∀ digits ∈ d.numbers, number digits) ∧ v = d.fold r.algebra
  scalar_complete : ∀ {text d rest}, Scalar text d rest → Ends rest →
    (∀ digits ∈ d.numbers, number digits) → r.scalar text = some (d.fold r.algebra, rest)

def AdmitsElements (number : JsString → Prop) (depth : ℕ) (ds : List Doc) : Prop :=
  (∀ limit, r.maxDepth = some limit → depth + Doc.elementDepth ds ≤ limit + 1) ∧
    (r.repeats = false → Doc.DistinctElements ds) ∧ ∀ digits ∈ Doc.elementNumbers ds, number digits

def AdmitsMembers (number : JsString → Prop) (depth : ℕ) (keys : List JsString)
    (ms : List (JsString × Doc)) : Prop :=
  (∀ limit, r.maxDepth = some limit → depth + Doc.memberDepth ms ≤ limit + 1) ∧
    (r.repeats = false → (∀ m ∈ ms, m.1 ∉ keys) ∧ (ms.map Prod.fst).Nodup ∧ Doc.DistinctMembers ms) ∧
    ∀ digits ∈ Doc.memberNumbers ms, number digits

section

variable {r} {number : JsString → Prop} {depth : ℕ}

theorem admits_arr {ds : List Doc} :
    r.Admits number depth (.arr ds) ↔ r.AdmitsElements number (depth + 1) ds := by
  rw [Admits, AdmitsElements, Doc.depth, Doc.Distinct, Doc.numbers]
  refine and_congr_left fun _ => forall₂_congr fun limit hlimit => ?_
  omega

theorem admits_obj {ms : List (JsString × Doc)} :
    r.Admits number depth (.obj ms) ↔ r.AdmitsMembers number (depth + 1) [] ms := by
  rw [Admits, AdmitsMembers, Doc.depth, Doc.Distinct, Doc.numbers]
  refine and_congr (forall₂_congr fun limit hlimit => ?_)
    (and_congr_left fun _ => forall_congr' fun _ => ?_)
  · omega
  · exact ⟨fun h => ⟨fun _ _ => List.not_mem_nil, h⟩, And.right⟩

theorem admitsElements_singleton {d : Doc} :
    r.AdmitsElements number depth [d] ↔ r.Admits number depth d := by
  rw [Admits, AdmitsElements]
  simp only [Doc.elementDepth, Doc.DistinctElements, Doc.elementNumbers, List.append_nil, and_true]
  refine and_congr_left fun _ => forall₂_congr fun limit hlimit => ?_
  omega

theorem admitsElements_cons {d : Doc} {ds : List Doc} :
    r.AdmitsElements number depth (d :: ds) ↔
      r.Admits number depth d ∧ r.AdmitsElements number depth ds := by
  rw [Admits, AdmitsElements, AdmitsElements]
  simp only [Doc.elementDepth, Doc.DistinctElements, Doc.elementNumbers, List.forall_mem_append]
  constructor
  · rintro ⟨hdepth, hdistinct, hd, hds⟩
    refine ⟨⟨fun limit hlimit => ?_, fun h => (hdistinct h).1, hd⟩, fun limit hlimit => ?_,
      fun h => (hdistinct h).2, hds⟩
    · have := hdepth limit hlimit
      omega
    · have := hdepth limit hlimit
      omega
  · rintro ⟨⟨hdepth, hdistinct, hd⟩, hdepths, hdistincts, hds⟩
    refine ⟨fun limit hlimit => ?_, fun h => ⟨hdistinct h, hdistincts h⟩, hd, hds⟩
    have hone := hdepth limit hlimit
    have hall := hdepths limit hlimit
    omega

theorem admitsMembers_singleton {keys : List JsString} {key : JsString} {d : Doc} :
    r.AdmitsMembers number depth keys [(key, d)] ↔
      (r.repeats = false → key ∉ keys) ∧ r.Admits number depth d := by
  rw [Admits, AdmitsMembers]
  simp only [Doc.memberDepth, Doc.DistinctMembers, Doc.memberNumbers, List.append_nil, and_true,
    List.map_cons, List.map_nil, List.nodup_singleton, List.forall_mem_singleton, true_and]
  have hlimits : (∀ limit, r.maxDepth = some limit → depth + max (d.depth + 1) 0 ≤ limit + 1) ↔
      ∀ limit, r.maxDepth = some limit → depth + d.depth ≤ limit :=
    forall₂_congr fun limit hlimit => by omega
  rw [hlimits, imp_and]
  tauto

theorem admitsMembers_cons {keys : List JsString} {key : JsString} {d : Doc}
    {ms : List (JsString × Doc)} :
    r.AdmitsMembers number depth keys ((key, d) :: ms) ↔
      (r.repeats = false → key ∉ keys) ∧ r.Admits number depth d ∧
        r.AdmitsMembers number depth (key :: keys) ms := by
  rw [Admits, AdmitsMembers, AdmitsMembers]
  simp only [Doc.memberDepth, Doc.DistinctMembers, Doc.memberNumbers, List.forall_mem_append,
    List.map_cons, List.nodup_cons, List.forall_mem_cons]
  constructor
  · rintro ⟨hdepth, hdistinct, hd, hds⟩
    refine ⟨fun h => (hdistinct h).1.1, ⟨fun limit hlimit => ?_, fun h => (hdistinct h).2.2.1, hd⟩,
      fun limit hlimit => ?_, fun h => ?_, hds⟩
    · have := hdepth limit hlimit
      omega
    · have := hdepth limit hlimit
      omega
    · obtain ⟨⟨hkey, hkeys⟩, ⟨hfresh, hnodup⟩, -, hall⟩ := hdistinct h
      refine ⟨fun m hm hmem => ?_, hnodup, hall⟩
      rcases List.mem_cons.1 hmem with heq | hmem
      · exact hfresh (heq ▸ List.mem_map_of_mem hm)
      · exact hkeys m hm hmem
  · rintro ⟨hkey, ⟨hdepth, hdistinct, hd⟩, hdepths, hdistincts, hds⟩
    refine ⟨fun limit hlimit => ?_, fun h => ?_, hd, hds⟩
    · have hone := hdepth limit hlimit
      have hall := hdepths limit hlimit
      omega
    · obtain ⟨hkeys, hnodup, hall⟩ := hdistincts h
      refine ⟨⟨hkey h, fun m hm hmem => hkeys m hm (List.mem_cons_of_mem _ hmem)⟩,
        ⟨fun hmem => ?_, hnodup⟩, hdistinct h, hall⟩
      obtain ⟨m, hm, heq⟩ := List.mem_map.1 hmem
      exact hkeys m hm (heq ▸ List.mem_cons_self)

end

/-! ## What is read is of the grammar -/

theorem spaces_skip (text : JsString) : Spaces r.space text (r.skip text) :=
  ⟨text.takeWhile r.space, fun _ hu => (List.mem_takeWhile_imp hu),
    (List.takeWhile_append_dropWhile).symm⟩

variable {r} {number : JsString → Prop}

theorem map_eq_ok {β : Type*} {run : Reading α} {f : α × JsString → β × JsString}
    {w : β × JsString} (h : run.map f = .ok w) : ∃ v, run = .ok v ∧ f v = w := by
  cases run with
  | error e => cases h
  | ok v => exact ⟨v, rfl, Except.ok.inj h⟩

theorem within_of_any {limit? : Option ℕ} {depth : ℕ}
    (h : ¬ (limit?.any fun limit => decide (limit < depth)) = true) :
    ∀ limit, limit? = some limit → depth ≤ limit := by
  rintro limit rfl
  simpa using h

theorem admits_of_leaf {depth : ℕ} {d : Doc} (hdepth : ∀ limit, r.maxDepth = some limit → depth ≤ limit)
    (hleaf : d.depth = 0) (hdistinct : d.Distinct) (hnumber : ∀ digits ∈ d.numbers, number digits) :
    r.Admits number depth d :=
  ⟨fun limit hlimit => by rw [hleaf]; exact hdepth limit hlimit, fun _ => hdistinct, hnumber⟩

theorem Scalar.leaf {text rest : JsString} {d : Doc} (h : Scalar text d rest) :
    d.depth = 0 ∧ d.Distinct := by
  cases h <;> exact ⟨by rw [Doc.depth], by rw [Doc.Distinct]; trivial⟩

section

variable (fuel : ℕ)

/-- One value, given the elements and the members at less fuel. -/
theorem value_sound (h : r.Lawful number)
    (helements : ∀ {depth text vs rest}, r.elements fuel depth text = .ok (vs, rest) →
      ∃ ds, Elements r.space text ds rest ∧ r.AdmitsElements number depth ds ∧
        vs = foldElements r.algebra ds)
    (hmembers : ∀ {depth keys text ms rest}, r.members fuel depth keys text = .ok (ms, rest) →
      ∃ ds, Members r.space text ds rest ∧ r.AdmitsMembers number depth keys ds ∧
        ms = foldMembers r.algebra ds)
    {depth : ℕ} {text rest : JsString} {v : α} (hread : r.value (fuel + 1) depth text = .ok (v, rest)) :
    ∃ d, Value r.space (r.skip text) d rest ∧ r.Admits number depth d ∧ v = d.fold r.algebra := by
  rw [value] at hread
  split at hread
  · cases hread
  · next hlimit =>
    have hdepth := within_of_any hlimit
    split at hread
    · next body hquote =>
      split at hread
      · next s after hstring =>
        obtain ⟨rfl, rfl⟩ : r.algebra.str s = v ∧ after = rest := by simpa using hread
        refine ⟨.str s, .str (h.string.1 hstring), admits_of_leaf hdepth (by rw [Doc.depth])
          (by rw [Doc.Distinct]; trivial) (by rw [Doc.numbers]; simp), by rw [Doc.fold]⟩
      · cases hread
    · split at hread
      · next inner hbracket =>
        rw [expect_eq_some.1 hbracket]
        split at hread
        · next after hend =>
          obtain ⟨rfl, rfl⟩ : r.algebra.arr [] = v ∧ after = rest := by simpa using hread
          refine ⟨.arr [], .noElements (expect_eq_some.1 hend ▸ spaces_skip r inner),
            admits_of_leaf hdepth (by rw [Doc.depth, Doc.elementDepth])
              (by rw [Doc.Distinct, Doc.DistinctElements]; trivial)
              (by rw [Doc.numbers, Doc.elementNumbers]; simp), by rw [Doc.fold, foldElements]⟩
        · obtain ⟨⟨vs, after⟩, hrun, heq⟩ := map_eq_ok hread
          obtain ⟨rfl, rfl⟩ : r.algebra.arr vs = v ∧ after = rest := by simpa using heq
          obtain ⟨ds, hgrammar, hadmits, rfl⟩ := helements hrun
          exact ⟨.arr ds, .arr (hgrammar.of_spaces (spaces_skip r inner)), admits_arr.2 hadmits,
            by rw [Doc.fold]⟩
      · split at hread
        · next inner hbrace =>
          rw [expect_eq_some.1 hbrace]
          split at hread
          · next after hend =>
            obtain ⟨rfl, rfl⟩ : r.algebra.obj [] = v ∧ after = rest := by simpa using hread
            refine ⟨.obj [], .noMembers (expect_eq_some.1 hend ▸ spaces_skip r inner),
              admits_of_leaf hdepth (by rw [Doc.depth, Doc.memberDepth])
                (by rw [Doc.Distinct, Doc.DistinctMembers]; exact ⟨List.nodup_nil, trivial⟩)
                (by rw [Doc.numbers, Doc.memberNumbers]; simp), by rw [Doc.fold, foldMembers]⟩
          · obtain ⟨⟨ms, after⟩, hrun, heq⟩ := map_eq_ok hread
            obtain ⟨rfl, rfl⟩ : r.algebra.obj ms = v ∧ after = rest := by simpa using heq
            obtain ⟨ds, hgrammar, hadmits, rfl⟩ := hmembers hrun
            exact ⟨.obj ds, .obj (hgrammar.of_spaces (spaces_skip r inner)), admits_obj.2 hadmits,
              by rw [Doc.fold]⟩
        · split at hread
          · next v' after hscalar =>
            obtain ⟨rfl, rfl⟩ : v' = v ∧ after = rest := by simpa using hread
            obtain ⟨d, hgrammar, hnumber, rfl⟩ := h.scalar_sound hscalar
            exact ⟨d, .scalar hgrammar,
              admits_of_leaf hdepth (Scalar.leaf hgrammar).1 (Scalar.leaf hgrammar).2 hnumber, rfl⟩
          · cases hread

theorem elements_sound
    (hvalue : ∀ {depth text v rest}, r.value fuel depth text = .ok (v, rest) →
      ∃ d, Value r.space (r.skip text) d rest ∧ r.Admits number depth d ∧ v = d.fold r.algebra)
    (helements : ∀ {depth text vs rest}, r.elements fuel depth text = .ok (vs, rest) →
      ∃ ds, Elements r.space text ds rest ∧ r.AdmitsElements number depth ds ∧
        vs = foldElements r.algebra ds)
    {depth : ℕ} {text rest : JsString} {vs : List α}
    (hread : r.elements (fuel + 1) depth text = .ok (vs, rest)) :
    ∃ ds, Elements r.space text ds rest ∧ r.AdmitsElements number depth ds ∧
      vs = foldElements r.algebra ds := by
  rw [elements] at hread
  split at hread
  · cases hread
  · next v after hrun =>
    obtain ⟨d, hgrammar, hadmits, rfl⟩ := hvalue hrun
    have hstart := spaces_skip r text
    have hafter := spaces_skip r after
    split at hread
    · next rest' hend =>
      obtain ⟨rfl, rfl⟩ : [d.fold r.algebra] = vs ∧ rest' = rest := by simpa using hread
      rw [expect_eq_some.1 hend] at hafter
      exact ⟨[d], .last hstart hgrammar hafter, admitsElements_singleton.2 hadmits,
        by rw [foldElements, foldElements]⟩
    · split at hread
      · next next' hcomma =>
        rw [expect_eq_some.1 hcomma] at hafter
        obtain ⟨⟨vs', rest'⟩, hrun', heq⟩ := map_eq_ok hread
        obtain ⟨rfl, rfl⟩ : d.fold r.algebra :: vs' = vs ∧ rest' = rest := by simpa using heq
        obtain ⟨ds, hgrammars, hall, rfl⟩ := helements hrun'
        exact ⟨d :: ds, .cons hstart hgrammar hafter hgrammars, admitsElements_cons.2 ⟨hadmits, hall⟩,
          by rw [foldElements]⟩
      · cases hread

theorem members_sound (h : r.Lawful number)
    (hvalue : ∀ {depth text v rest}, r.value fuel depth text = .ok (v, rest) →
      ∃ d, Value r.space (r.skip text) d rest ∧ r.Admits number depth d ∧ v = d.fold r.algebra)
    (hmembers : ∀ {depth keys text ms rest}, r.members fuel depth keys text = .ok (ms, rest) →
      ∃ ds, Members r.space text ds rest ∧ r.AdmitsMembers number depth keys ds ∧
        ms = foldMembers r.algebra ds)
    {depth : ℕ} {keys : List JsString} {text rest : JsString} {ms : List (JsString × α)}
    (hread : r.members (fuel + 1) depth keys text = .ok (ms, rest)) :
    ∃ ds, Members r.space text ds rest ∧ r.AdmitsMembers number depth keys ds ∧
      ms = foldMembers r.algebra ds := by
  rw [members] at hread
  split at hread
  · cases hread
  · next key colon hstring =>
    have hkey := h.string.1 hstring
    have hstart := spaces_skip r text
    split at hread
    · cases hread
    · next inner hcolon =>
      have hinner := spaces_skip r colon
      rw [expect_eq_some.1 hcolon] at hinner
      split at hread
      · cases hread
      · next hrepeat =>
        have hfresh : r.repeats = false → key ∉ keys := fun hrepeats hmem =>
          hrepeat ⟨by rw [hrepeats]; exact Bool.false_ne_true, hmem⟩
        split at hread
        · cases hread
        · next v after hrun =>
          obtain ⟨d, hgrammar, hadmits, rfl⟩ := hvalue hrun
          have hafter := spaces_skip r after
          have hvalue := spaces_skip r inner
          split at hread
          · next rest' hend =>
            obtain ⟨rfl, rfl⟩ : [(key, d.fold r.algebra)] = ms ∧ rest' = rest := by
              simpa using hread
            rw [expect_eq_some.1 hend] at hafter
            exact ⟨[(key, d)], .last hstart hkey hinner hvalue hgrammar hafter,
              admitsMembers_singleton.2 ⟨hfresh, hadmits⟩, by rw [foldMembers, foldMembers]⟩
          · split at hread
            · next next' hcomma =>
              rw [expect_eq_some.1 hcomma] at hafter
              obtain ⟨⟨ms', rest'⟩, hrun', heq⟩ := map_eq_ok hread
              obtain ⟨rfl, rfl⟩ : (key, d.fold r.algebra) :: ms' = ms ∧ rest' = rest := by
                simpa using heq
              obtain ⟨ds, hgrammars, hall, rfl⟩ := hmembers hrun'
              exact ⟨(key, d) :: ds, .cons hstart hkey hinner hvalue hgrammar hafter hgrammars,
                admitsMembers_cons.2 ⟨hfresh, hadmits, hall⟩, by rw [foldMembers]⟩
            · cases hread

end

/-- **What a reader reads is of the grammar and keeps its rules.** -/
theorem reads_sound (h : r.Lawful number) (fuel : ℕ) :
    (∀ {depth text v rest}, r.value fuel depth text = .ok (v, rest) →
      ∃ d, Value r.space (r.skip text) d rest ∧ r.Admits number depth d ∧ v = d.fold r.algebra) ∧
    (∀ {depth text vs rest}, r.elements fuel depth text = .ok (vs, rest) →
      ∃ ds, Elements r.space text ds rest ∧ r.AdmitsElements number depth ds ∧
        vs = foldElements r.algebra ds) ∧
    ∀ {depth keys text ms rest}, r.members fuel depth keys text = .ok (ms, rest) →
      ∃ ds, Members r.space text ds rest ∧ r.AdmitsMembers number depth keys ds ∧
        ms = foldMembers r.algebra ds := by
  induction fuel with
  | zero =>
    refine ⟨fun hread => ?_, fun hread => ?_, fun hread => ?_⟩
    · rw [value] at hread
      cases hread
    · rw [elements] at hread
      cases hread
    · rw [members] at hread
      cases hread
  | succ fuel ih =>
    obtain ⟨hvalue, helements, hmembers⟩ := ih
    exact ⟨value_sound fuel h helements hmembers, elements_sound fuel hvalue helements,
      members_sound fuel h hvalue hmembers⟩

/-! ## What is of the grammar is read -/

theorem skip_of_spaces {text rest : JsString} (hspaces : Spaces r.space text rest)
    (hrest : ∀ u, rest.head? = some u → r.space u = false) : r.skip text = rest := by
  obtain ⟨ws, hws, rfl⟩ := hspaces
  rw [skip, List.dropWhile_append_of_pos hws]
  cases rest with
  | nil => rfl
  | cons u rest => rw [List.dropWhile_cons_of_neg (by simp [hrest u rfl])]

theorem expect_self (u : UInt16) (rest : JsString) : expect u (u :: rest) = some rest :=
  expect_eq_some.2 rfl

theorem expect_ne {u v : UInt16} (hne : v ≠ u) (rest : JsString) : expect u (v :: rest) = none := by
  rw [expect, if_neg hne]

section

variable (h : r.Lawful number)
include h

theorem Lawful.space_eq_false {u : UInt16}
    (hu : u ∈ ascii "\"[]\x7b\x7d:,-.eEtfn" ∨ isDigit u = true) : r.space u = false := by
  rw [← Bool.not_eq_true]
  intro hspace
  obtain ⟨hplain, hdigit⟩ := h.space u hspace
  rcases hu with hu | hu
  · exact hplain hu
  · rw [hu] at hdigit
    cases hdigit

theorem Lawful.skip_cons {text rest : JsString} {u : UInt16}
    (hspaces : Spaces r.space text (u :: rest))
    (hu : u ∈ ascii "\"[]\x7b\x7d:,-.eEtfn" ∨ isDigit u = true) : r.skip text = u :: rest :=
  skip_of_spaces hspaces fun v hv => by
    obtain rfl := Option.some.inj hv
    exact h.space_eq_false hu

/-- Space and a separator end a numeral. -/
theorem Lawful.ends {text rest : JsString} {u : UInt16}
    (hspaces : Spaces r.space text (u :: rest)) (hu : u ∈ ascii ",]\x7d") : Ends text := by
  intro v hv
  obtain ⟨ws, hws, rfl⟩ := hspaces
  cases ws with
  | nil =>
    obtain rfl := Option.some.inj hv
    exact forall_mem_of_all (p := fun u => isDigit u = false ∧ u ∉ ascii ".eE") (by decide) u hu
  | cons w ws =>
    obtain rfl := Option.some.inj hv
    obtain ⟨hplain, hdigit⟩ := h.space w (hws w List.mem_cons_self)
    refine ⟨hdigit, fun hmem => hplain ?_⟩
    exact forall_mem_of_all (p := fun u => u ∈ ascii "\"[]\x7b\x7d:,-.eEtfn") (by decide) w hmem

theorem Lawful.ends_of_end {text : JsString} (hspaces : Spaces r.space text []) : Ends text := by
  intro v hv
  obtain ⟨ws, hws, rfl⟩ := hspaces
  rw [List.append_nil] at hv
  obtain ⟨hplain, hdigit⟩ := h.space v (hws v (List.mem_of_head? hv))
  refine ⟨hdigit, fun hmem => hplain ?_⟩
  exact forall_mem_of_all (p := fun u => u ∈ ascii "\"[]\x7b\x7d:,-.eEtfn") (by decide) v hmem

end

end Reader

theorem IsNumeral.head {n : JsString} (h : IsNumeral n) :
    ∃ u tail, n = u :: tail ∧ (u = unit '-' ∨ isDigit u = true) := by
  obtain ⟨integer, fraction, exponent, ⟨sign, whole, hsign, ⟨⟨hne, hdigits⟩, -⟩, rfl⟩, -, -, rfl⟩ := h
  rcases hsign with rfl | rfl
  · obtain ⟨u, tail, rfl⟩ := List.exists_cons_of_ne_nil hne
    exact ⟨u, _, rfl, .inr (hdigits u List.mem_cons_self)⟩
  · exact ⟨unit '-', _, rfl, .inl rfl⟩

/-- A scalar starts with a letter, a minus or a digit. -/
theorem Scalar.head {text rest : JsString} {d : Doc} (h : Scalar text d rest) :
    ∃ u tail, text = u :: tail ∧ (u ∈ ascii "-tfn" ∨ isDigit u = true) := by
  cases h with
  | null => exact ⟨unit 'n', _, rfl, .inl (by decide)⟩
  | bool b =>
    cases b with
    | true => exact ⟨unit 't', _, rfl, .inl (by decide)⟩
    | false => exact ⟨unit 'f', _, rfl, .inl (by decide)⟩
  | num hnumeral =>
    obtain ⟨u, tail, rfl, hu⟩ := hnumeral.head
    refine ⟨u, _, rfl, hu.imp_left ?_⟩
    rintro rfl
    decide

/-- A value starts as a scalar does, or with a quote or a bracket that opens. -/
theorem Value.head {space : UInt16 → Bool} {text rest : JsString} {d : Doc}
    (h : Value space text d rest) :
    ∃ u tail, text = u :: tail ∧ (u ∈ ascii "\"[\x7b-tfn" ∨ isDigit u = true) := by
  cases h with
  | scalar hscalar =>
    obtain ⟨u, tail, rfl, hu⟩ := hscalar.head
    refine ⟨u, tail, rfl, hu.imp_left fun hmem => ?_⟩
    exact forall_mem_of_all (p := fun u => u ∈ ascii "\"[\x7b-tfn") (by decide) u hmem
  | str hquoted =>
    obtain ⟨body, -, rfl⟩ := hquoted
    exact ⟨_, _, rfl, .inl (by decide)⟩
  | noElements | arr | noMembers | obj => exact ⟨_, _, rfl, .inl (by decide)⟩

theorem ne_of_start {u v : UInt16} {starts : String} (hu : u ∈ ascii starts ∨ isDigit u = true)
    (hv : v ∉ ascii starts ∧ isDigit v = false) : u ≠ v := by
  rintro rfl
  rcases hu with hu | hu
  · exact hv.1 hu
  · rw [hv.2] at hu
    cases hu

namespace Reader

/-- The read has run out of fuel, or is of this result. -/
def Settles {β : Type*} (run : Except Fault β) (result : β) : Prop :=
  run = .error .exhausted ∨ run = .ok result

theorem Settles.map {β γ : Type*} {run : Except Fault β} {result : β} (h : Settles run result)
    (f : β → γ) : Settles (run.map f) (f result) := by
  rcases h with rfl | rfl
  · exact .inl rfl
  · exact .inr rfl

variable {α : Type*} {r : Reader α} {number : JsString → Prop}

theorem Admits.within {depth : ℕ} {d : Doc} (h : r.Admits number depth d) :
    ¬ (r.maxDepth.any fun limit => decide (limit < depth)) = true := by
  intro hany
  cases hlimit : r.maxDepth with
  | none =>
    rw [hlimit] at hany
    cases hany
  | some limit =>
    rw [hlimit] at hany
    have hlt : limit < depth := by simpa using hany
    have hle := h.1 limit hlimit
    omega

section

variable (h : r.Lawful number)
include h

theorem Lawful.skip_start {text rest : JsString} {u : UInt16}
    (hspaces : Spaces r.space text (u :: rest))
    (hu : u ∈ ascii "\"[\x7b-tfn" ∨ isDigit u = true) : r.skip text = u :: rest :=
  h.skip_cons hspaces <| hu.imp_left fun hmem =>
    forall_mem_of_all (p := fun u => u ∈ ascii "\"[]\x7b\x7d:,-.eEtfn") (by decide) u hmem

theorem Lawful.skip_value {text start rest : JsString} {d : Doc}
    (hspaces : Spaces r.space text start) (hvalue : Value r.space start d rest) :
    r.skip text = start := by
  obtain ⟨u, tail, rfl, hu⟩ := hvalue.head
  exact h.skip_start hspaces hu

/-- The elements of an array do not start as it ends. -/
theorem Lawful.expect_elements {text rest : JsString} {ds : List Doc}
    (helements : Elements r.space text ds rest) : expect (unit ']') (r.skip text) = none := by
  have hstart {start after : JsString} {d : Doc} (hspaces : Spaces r.space text start)
      (hvalue : Value r.space start d after) : expect (unit ']') (r.skip text) = none := by
    obtain ⟨u, tail, rfl, hu⟩ := hvalue.head
    rw [h.skip_start hspaces hu, expect_ne (ne_of_start hu (by decide))]
  cases helements with
  | last hspaces hvalue => exact hstart hspaces hvalue
  | cons hspaces hvalue => exact hstart hspaces hvalue

theorem Lawful.skip_quoted {text start rest key : JsString} (hspaces : Spaces r.space text start)
    (hkey : Quoted start key rest) : r.skip text = start := by
  obtain ⟨body, -, rfl⟩ := hkey
  exact h.skip_start hspaces (.inl (by decide))

theorem Lawful.expect_members {text rest : JsString} {ms : List (JsString × Doc)}
    (hmembers : Members r.space text ms rest) : expect (unit '\x7d') (r.skip text) = none := by
  have hstart {start after key : JsString} (hspaces : Spaces r.space text start)
      (hkey : Quoted start key after) : expect (unit '\x7d') (r.skip text) = none := by
    rw [h.skip_quoted hspaces hkey]
    obtain ⟨body, -, rfl⟩ := hkey
    exact expect_ne (by decide) _
  cases hmembers with
  | last hspaces hkey => exact hstart hspaces hkey
  | cons hspaces hkey => exact hstart hspaces hkey

theorem Lawful.value_scalar {text text' rest : JsString} {d : Doc} (hscalar : Scalar text d rest)
    (hends : Ends rest) {fuel depth : ℕ} (hspaces : Spaces r.space text' text)
    (hadmits : r.Admits number depth d) :
    r.value (fuel + 1) depth text' = .ok (d.fold r.algebra, rest) := by
  have hread := h.scalar_complete hscalar hends hadmits.2.2
  have hskip := h.skip_value hspaces (.scalar hscalar)
  obtain ⟨u, tail, rfl, hu⟩ := hscalar.head
  rw [value, if_neg hadmits.within, hskip]
  simp only [expect_ne (ne_of_start hu (show unit '"' ∉ _ ∧ _ by decide)),
    expect_ne (ne_of_start hu (show unit '[' ∉ _ ∧ _ by decide)),
    expect_ne (ne_of_start hu (show unit '\x7b' ∉ _ ∧ _ by decide)), hread]

theorem Lawful.value_str {text text' s rest : JsString} (hquoted : Quoted text s rest)
    {fuel depth : ℕ} (hspaces : Spaces r.space text' text)
    (hadmits : r.Admits number depth (.str s)) :
    r.value (fuel + 1) depth text' = .ok ((Doc.str s).fold r.algebra, rest) := by
  have hread := h.string.2 hquoted
  have hskip := h.skip_quoted hspaces hquoted
  obtain ⟨body, -, rfl⟩ := hquoted
  rw [value, if_neg hadmits.within, hskip, Doc.fold]
  simp only [expect_self, hread]

end

theorem skip_skip (text : JsString) : r.skip (r.skip text) = r.skip text :=
  List.dropWhile_idempotent _ _

theorem spaces_of_skip {text start : JsString} (h : r.skip text = start) :
    Spaces r.space text start := h ▸ spaces_skip r text

theorem settles_value {depth : ℕ} {text : JsString} {result : α × JsString}
    (h : ∀ fuel, Settles (r.value (fuel + 1) depth text) result) (fuel : ℕ) :
    Settles (r.value fuel depth text) result := by
  cases fuel with
  | zero => exact .inl (by rw [value])
  | succ fuel => exact h fuel

mutual

theorem value_complete (h : r.Lawful number) {text rest : JsString} {d : Doc} :
    Value r.space text d rest → ∀ depth text', Spaces r.space text' text → Ends rest →
      r.Admits number depth d → ∀ fuel, Settles (r.value fuel depth text') (d.fold r.algebra, rest)
  | .scalar hscalar => fun _ _ hspaces hends hadmits => settles_value fun _ =>
      .inr (h.value_scalar hscalar hends hspaces hadmits)
  | .str hquoted => fun _ _ hspaces _ hadmits => settles_value fun _ =>
      .inr (h.value_str hquoted hspaces hadmits)
  | .noElements hend => fun depth text' hspaces hends hadmits => settles_value fun fuel => by
      refine .inr ?_
      rw [value, if_neg hadmits.within, h.skip_cons hspaces (.inl (by decide)), Doc.fold, foldElements]
      simp only [expect_ne (show unit '[' ≠ unit '"' by decide), expect_self,
        h.skip_cons hend (.inl (by decide))]
  | .arr helements => fun depth text' hspaces hends hadmits => settles_value fun fuel => by
      have hrun := (elements_complete h helements (depth + 1) (r.skip _) (skip_skip _)
        (admits_arr.1 hadmits) fuel).map fun (vs, rest) => (r.algebra.arr vs, rest)
      rw [value, if_neg hadmits.within, h.skip_cons hspaces (.inl (by decide)), Doc.fold]
      simp only [expect_ne (show unit '[' ≠ unit '"' by decide), expect_self,
        h.expect_elements helements]
      exact hrun
  | .noMembers hend => fun depth text' hspaces hends hadmits => settles_value fun fuel => by
      refine .inr ?_
      rw [value, if_neg hadmits.within, h.skip_cons hspaces (.inl (by decide)), Doc.fold, foldMembers]
      simp only [expect_ne (show unit '\x7b' ≠ unit '"' by decide),
        expect_ne (show unit '\x7b' ≠ unit '[' by decide), expect_self,
        h.skip_cons hend (.inl (by decide))]
  | .obj hmembers => fun depth text' hspaces hends hadmits => settles_value fun fuel => by
      have hrun := (members_complete h hmembers (depth + 1) [] (r.skip _) (skip_skip _)
        (admits_obj.1 hadmits) fuel).map fun (ms, rest) => (r.algebra.obj ms, rest)
      rw [value, if_neg hadmits.within, h.skip_cons hspaces (.inl (by decide)), Doc.fold]
      simp only [expect_ne (show unit '\x7b' ≠ unit '"' by decide),
        expect_ne (show unit '\x7b' ≠ unit '[' by decide), expect_self, h.expect_members hmembers]
      exact hrun

theorem elements_complete (h : r.Lawful number) {text rest : JsString} {ds : List Doc} :
    Elements r.space text ds rest → ∀ depth text', r.skip text' = r.skip text →
      r.AdmitsElements number depth ds → ∀ fuel,
      Settles (r.elements fuel depth text') (foldElements r.algebra ds, rest)
  | .last hstart hvalue hend => fun depth text' hskip hadmits fuel => by
      cases fuel with
      | zero => exact .inl (by rw [elements])
      | succ fuel =>
        have hspaces := spaces_of_skip (hskip.trans (h.skip_value hstart hvalue))
        have hrun := value_complete h hvalue depth text' hspaces (h.ends hend (by decide))
          (admitsElements_singleton.1 hadmits) fuel
        rw [elements, foldElements, foldElements]
        rcases hrun with hrun | hrun
        · exact .inl (by rw [hrun])
        · refine .inr ?_
          rw [hrun]
          simp only [h.skip_cons hend (.inl (by decide)), expect_self]
  | .cons hstart hvalue hend hrest => fun depth text' hskip hadmits fuel => by
      cases fuel with
      | zero => exact .inl (by rw [elements])
      | succ fuel =>
        obtain ⟨hfirst, hothers⟩ := admitsElements_cons.1 hadmits
        have hspaces := spaces_of_skip (hskip.trans (h.skip_value hstart hvalue))
        have hrun := value_complete h hvalue depth text' hspaces (h.ends hend (by decide)) hfirst fuel
        have hruns := elements_complete h hrest depth _ rfl hothers fuel
        rw [elements, foldElements]
        rcases hrun with hrun | hrun
        · exact .inl (by rw [hrun])
        · rw [hrun]
          simp only [h.skip_cons hend (.inl (by decide)),
            expect_ne (show unit ',' ≠ unit ']' by decide), expect_self]
          exact hruns.map _

theorem members_complete (h : r.Lawful number) {text rest : JsString} {ms : List (JsString × Doc)} :
    Members r.space text ms rest → ∀ depth keys text', r.skip text' = r.skip text →
      r.AdmitsMembers number depth keys ms → ∀ fuel,
      Settles (r.members fuel depth keys text') (foldMembers r.algebra ms, rest)
  | .last hstart hkey hcolon hinner hvalue hend => fun depth keys text' hskip hadmits fuel => by
      cases fuel with
      | zero => exact .inl (by rw [members])
      | succ fuel =>
        obtain ⟨hfresh, hd⟩ := admitsMembers_singleton.1 hadmits
        have hrun := value_complete h hvalue depth _ hinner (h.ends hend (by decide)) hd fuel
        have hrepeat : ¬ (¬ r.repeats = true ∧ _ ∈ keys) := fun hbad =>
          hfresh (Bool.not_eq_true _ ▸ hbad.1) hbad.2
        rw [members, foldMembers, foldMembers, hskip, h.skip_quoted hstart hkey, h.string.2 hkey]
        simp only [h.skip_cons hcolon (.inl (by decide)), expect_self, if_neg hrepeat]
        rcases hrun with hrun | hrun
        · exact .inl (by rw [hrun])
        · refine .inr ?_
          rw [hrun]
          simp only [h.skip_cons hend (.inl (by decide)), expect_self]
  | .cons hstart hkey hcolon hinner hvalue hend hrest => fun depth keys text' hskip hadmits fuel => by
      cases fuel with
      | zero => exact .inl (by rw [members])
      | succ fuel =>
        obtain ⟨hfresh, hd, hothers⟩ := admitsMembers_cons.1 hadmits
        have hrun := value_complete h hvalue depth _ hinner (h.ends hend (by decide)) hd fuel
        have hruns := members_complete h hrest depth _ _ rfl hothers fuel
        have hrepeat : ¬ (¬ r.repeats = true ∧ _ ∈ keys) := fun hbad =>
          hfresh (Bool.not_eq_true _ ▸ hbad.1) hbad.2
        rw [members, foldMembers, hskip, h.skip_quoted hstart hkey, h.string.2 hkey]
        simp only [h.skip_cons hcolon (.inl (by decide)), expect_self, if_neg hrepeat]
        rcases hrun with hrun | hrun
        · exact .inl (by rw [hrun])
        · rw [hrun]
          simp only [h.skip_cons hend (.inl (by decide)),
            expect_ne (show unit ',' ≠ unit '\x7d' by decide), expect_self]
          exact hruns.map _

end

end Reader

/-! ## What is read takes a part of the text -/

theorem Spaces.length_le {space : UInt16 → Bool} {text rest : JsString}
    (h : Spaces space text rest) : rest.length ≤ text.length := by
  obtain ⟨ws, -, rfl⟩ := h
  simp

theorem Quoted.length_lt {text s rest : JsString} (h : Quoted text s rest) :
    rest.length < text.length := by
  obtain ⟨body, -, rfl⟩ := h
  simp only [List.length_cons, List.length_append]
  omega

theorem Scalar.length_lt {text rest : JsString} {d : Doc} (h : Scalar text d rest) :
    rest.length < text.length := by
  have happend {word : JsString} (hne : word ≠ []) : rest.length < (word ++ rest).length := by
    have := List.length_pos_of_ne_nil hne
    rw [List.length_append]
    omega
  cases h with
  | null => exact happend (by decide)
  | bool b => exact happend (by cases b <;> decide)
  | num hnumeral =>
    obtain ⟨integer, fraction, exponent, ⟨sign, whole, -, ⟨⟨hne, -⟩, -⟩, rfl⟩, -, -, rfl⟩ := hnumeral
    exact happend (by simp [hne])

section

variable {space : UInt16 → Bool}

mutual

theorem Value.length_lt {text rest : JsString} {d : Doc} :
    Value space text d rest → rest.length < text.length
  | .scalar hscalar => hscalar.length_lt
  | .str hquoted => hquoted.length_lt
  | .noElements hend | .noMembers hend => by
      have := hend.length_le
      simp only [List.length_cons] at this ⊢
      omega
  | .arr helements => by
      have := helements.length_lt
      simp only [List.length_cons]
      omega
  | .obj hmembers => by
      have := hmembers.length_lt
      simp only [List.length_cons]
      omega

theorem Elements.length_lt {text rest : JsString} {ds : List Doc} :
    Elements space text ds rest → rest.length < text.length
  | .last hstart hvalue hend => by
      have hs := hstart.length_le
      have hv := hvalue.length_lt
      have he := hend.length_le
      simp only [List.length_cons] at he
      omega
  | .cons hstart hvalue hend hrest => by
      have hs := hstart.length_le
      have hv := hvalue.length_lt
      have he := hend.length_le
      have hr := hrest.length_lt
      simp only [List.length_cons] at he
      omega

theorem Members.length_lt {text rest : JsString} {ms : List (JsString × Doc)} :
    Members space text ms rest → rest.length < text.length
  | .last hstart hkey hcolon hinner hvalue hend => by
      have hs := hstart.length_le
      have hk := hkey.length_lt
      have hc := hcolon.length_le
      have hi := hinner.length_le
      have hv := hvalue.length_lt
      have he := hend.length_le
      simp only [List.length_cons] at hc he
      omega
  | .cons hstart hkey hcolon hinner hvalue hend hrest => by
      have hs := hstart.length_le
      have hk := hkey.length_lt
      have hc := hcolon.length_le
      have hi := hinner.length_le
      have hv := hvalue.length_lt
      have he := hend.length_le
      have hr := hrest.length_lt
      simp only [List.length_cons] at hc he
      omega

end

end

namespace Reader

variable {α : Type*} {r : Reader α} {number : JsString → Prop}

theorem map_ne_exhausted {β γ : Type*} {run : Except Fault β} {f : β → γ}
    (h : run ≠ .error .exhausted) : run.map f ≠ .error .exhausted := by
  cases run with
  | error e =>
    intro heq
    cases heq
    exact h rfl
  | ok v => intro heq; cases heq

/-- **With twice the length of the text as fuel no read is exhausted.** -/
theorem reads_ne_exhausted (h : r.Lawful number) (fuel : ℕ) :
    (∀ {depth text}, 2 * text.length < fuel → r.value fuel depth text ≠ .error .exhausted) ∧
    (∀ {depth text}, 2 * text.length + 1 < fuel →
      r.elements fuel depth text ≠ .error .exhausted) ∧
    ∀ {depth keys text}, 2 * text.length + 1 < fuel →
      r.members fuel depth keys text ≠ .error .exhausted := by
  induction fuel with
  | zero => exact ⟨fun h => by omega, fun h => by omega, fun h => by omega⟩
  | succ fuel ih =>
    obtain ⟨hvalue, helements, hmembers⟩ := ih
    have hskip (text : JsString) : (r.skip text).length ≤ text.length := (spaces_skip r text).length_le
    have hexpect {u : UInt16} {text rest : JsString} (hread : expect u text = some rest) :
        rest.length < text.length := by
      rw [expect_eq_some.1 hread, List.length_cons]
      omega
    refine ⟨fun {depth text} hfuel => ?_, fun {depth text} hfuel => ?_,
      fun {depth keys text} hfuel => ?_⟩
    · have htext := hskip text
      rw [value]
      split
      · nofun
      · split
        · split <;> nofun
        · split
          · next inner hinner =>
            have hlt := hexpect hinner
            have hle := hskip inner
            split
            · nofun
            · exact map_ne_exhausted (helements (by omega))
          · split
            · next inner hinner =>
              have hlt := hexpect hinner
              have hle := hskip inner
              split
              · nofun
              · exact map_ne_exhausted (hmembers (by omega))
            · split <;> nofun
    · rw [elements]
      split
      · next e he =>
        rintro ⟨⟩
        exact hvalue (by omega) he
      · next v after hrun =>
        obtain ⟨d, hgrammar, -⟩ := (reads_sound h fuel).1 hrun
        have hlt := hgrammar.length_lt
        have htext := hskip text
        have hafter := hskip after
        split
        · nofun
        · split
          · next next' hnext =>
            have hlt' := hexpect hnext
            exact map_ne_exhausted (helements (by omega))
          · nofun
    · rw [members]
      split
      · nofun
      · next key colon hstring =>
        have hkey := (h.string.1 hstring).length_lt
        have htext := hskip text
        have hcolon := hskip colon
        split
        · nofun
        · next inner hinner =>
          have hlt := hexpect hinner
          split
          · nofun
          · split
            · next e he =>
              rintro ⟨⟩
              exact hvalue (by omega) he
            · next v after hrun =>
              obtain ⟨d, hgrammar, -⟩ := (reads_sound h fuel).1 hrun
              have hlt' := hgrammar.length_lt
              have hinner' := hskip inner
              have hafter := hskip after
              split
              · nofun
              · split
                · next next' hnext =>
                  have hlt'' := hexpect hnext
                  exact map_ne_exhausted (hmembers (by omega))
                · nofun

/-! ## Whole texts -/

theorem skip_eq_nil {text : JsString} : r.skip text = [] ↔ Spaces r.space text [] := by
  constructor
  · intro h
    exact h ▸ spaces_skip r text
  · intro h
    exact skip_of_spaces h nofun

/-- **A lawful reader reads every text to an end.** -/
theorem read_ne_exhausted (h : r.Lawful number) (text : JsString) :
    r.read text ≠ .error .exhausted := by
  have hrun : r.value (2 * text.length + 1) 0 text ≠ .error .exhausted :=
    (reads_ne_exhausted h _).1 (by omega)
  rw [read]
  split
  · next e he =>
    rintro ⟨⟩
    exact hrun he
  · split <;> nofun

/-- **A lawful reader accepts what the grammar and its rules allow**, and makes of it what its algebra
makes of the document. -/
theorem read_eq_ok (h : r.Lawful number) {text : JsString} {v : α} :
    r.read text = .ok v ↔
      ∃ d, Spells r.space text d ∧ r.Admits number 0 d ∧ v = d.fold r.algebra := by
  rw [read]
  constructor
  · intro hread
    split at hread
    · cases hread
    · next v' rest hrun =>
      split at hread
      · next hend =>
        obtain rfl : v' = v := by simpa using hread
        obtain ⟨d, hgrammar, hadmits, rfl⟩ := (reads_sound h _).1 hrun
        exact ⟨d, ⟨_, _, spaces_skip r text, hgrammar, skip_eq_nil.1 hend⟩, hadmits, rfl⟩
      · cases hread
  · rintro ⟨d, ⟨start, after, hstart, hgrammar, hend⟩, hadmits, rfl⟩
    have hrun := value_complete h hgrammar 0 text hstart (h.ends_of_end hend) hadmits
      (2 * text.length + 1)
    rcases hrun with hrun | hrun
    · exact absurd hrun ((reads_ne_exhausted h _).1 (by omega))
    · rw [hrun]
      exact if_pos (skip_eq_nil.2 hend)

end Reader

end Limitmark.Foundations.JsonGrammar
