import Limitmark.Mailbox.AtMostOnce
import Limitmark.Mailbox.Processor

/-!
# Signed results are kept

A publication asks with `head` whether there is something to keep, and then writes without a condition.
A signed envelope that lands in between is overwritten: by an unsigned diagnostic
(`signed_overwritten`), or by another envelope. Where no signed envelope lands between the `head` and the
`put` of an invocation that writes the same key (`Undisturbed`), every signed result is kept
(`signed_kept`).
-/

namespace Limitmark.Mailbox

open Limitmark.Authority Limitmark.Foundations

namespace Processor

variable {m : Processor} {id : ℕ} {key : String}

@[simp] theorem results_suspend (invocation : Invocation) :
    (m.suspend id invocation).results = m.results := rfl

@[simp] theorem results_finish : (m.finish id).results = m.results := rfl

@[simp] theorem results_store (object : ResultObject) :
    (m.store key object).results = m.results.insert key object := rfl

/-- The invocation at `id` is about to write a key. -/
def Putting (m : Processor) (id : ℕ) (key : String) (object : ResultObject) : Prop :=
  m.invocations.lookup id = some (.putting key object)

end Processor

abbrev ProcessorStep := Entry Processor ProcessorInput (Option String)

/-- The invocation that asks with `head` at a step, and the key it asks for. -/
def headOf (e : ProcessorStep) : Option (ℕ × String) :=
  match e.input with
  | .head id =>
    match e.pre.invocations.lookup id with
    | some (.heading key _) => some (id, key)
    | _ => none
  | _ => none

/-- The invocation that writes at a step, the key and the object. -/
def writeOf (e : ProcessorStep) : Option (ℕ × String × ResultObject) :=
  match e.input with
  | .put id | .fail id true =>
    match e.pre.invocations.lookup id with
    | some (.putting key object) => some (id, key, object)
    | _ => none
  | _ => none

/-- No signed envelope lands under a key between the `head` of an invocation and its `put`. -/
def Undisturbed (tr : List ProcessorStep) : Prop :=
  ∀ before h between e after id key object, tr = before ++ h :: between ++ e :: after →
    headOf h = some (id, key) → writeOf e = some (id, key, object) →
      ∀ w ∈ between, ∀ id' object', writeOf w = some (id', key, object') → object'.signed = false

/-! ## What a step does -/

/-- How a step changes the results and an invocation that is about to write. -/
inductive Processor.Effect (m : Processor) (input : ProcessorInput) (m' : Processor) : Prop
  | kept (results : m'.results = m.results)
      (putting : ∀ id key object, m'.Putting id key object → m.Putting id key object)
  | headed {id : ℕ} {key : String} {publication : Publication} {object : ResultObject}
      (head : input = .head id) (heading : m.invocations.lookup id = some (.heading key publication))
      (asks : publication.object (m.results.lookup key) = some object)
      (results : m'.results = m.results)
      (putting : ∀ id' key' object', m'.Putting id' key' object' →
        m.Putting id' key' object' ∨ id' = id ∧ key' = key)
  | wrote {id : ℕ} {key : String} {object : ResultObject}
      (put : input = .put id ∨ input = .fail id true) (was : m.Putting id key object)
      (results : m'.results = m.results.insert key object)
      (putting : ∀ id key object, m'.Putting id key object → m.Putting id key object)

namespace Processor

variable {m m' : Processor} {id : ℕ} {key : String}

theorem putting_suspend {invocation : Invocation} {id' : ℕ} {key' : String} {object : ResultObject}
    (h : (m.suspend id invocation).Putting id' key' object) :
    m.Putting id' key' object ∨ id' = id ∧ invocation = .putting key' object := by
  rw [Putting, suspend, Table.lookup_insert_eq] at h
  split at h
  · next hid => exact .inr ⟨hid, Option.some.inj h⟩
  · exact .inl h

theorem putting_finish {id' : ℕ} {key' : String} {object : ResultObject}
    (h : (m.finish id).Putting id' key' object) : m.Putting id' key' object := by
  rw [Putting, finish, Table.lookup_erase_eq] at h
  split at h
  · cases h
  · exact h

theorem effect_finish {input : ProcessorInput} : Effect m input (m.finish id) :=
  .kept rfl fun _ _ _ => putting_finish

theorem effect_suspend {input : ProcessorInput} {invocation : Invocation}
    (h : ∀ key object, invocation ≠ .putting key object) :
    Effect m input (m.suspend id invocation) :=
  .kept rfl fun _ key object hputting =>
    (putting_suspend hputting).resolve_right fun hnew => h key object hnew.2

theorem effect_answered {input : ProcessorInput} (outcome : GuardOutcome) :
    Effect m input (m.answered id outcome) := by
  unfold answered
  split
  · exact effect_finish
  · split
    · exact effect_finish
    · split
      · exact effect_finish
      · exact effect_suspend fun _ _ h => by cases h
    · exact effect_suspend fun _ _ h => by cases h

theorem effect_headed {publication : Publication}
    (h : m.invocations.lookup id = some (.heading key publication)) :
    Effect m (.head id) (m.headed id key publication) := by
  unfold headed
  split
  · exact effect_finish
  · next object hasks =>
    refine .headed rfl h hasks rfl fun id' key' object' hputting => ?_
    rcases putting_suspend hputting with hold | ⟨hid, hnew⟩
    · exact .inl hold
    · cases hnew
      exact .inr ⟨hid, rfl⟩

theorem effect_wrote {input : ProcessorInput} {object : ResultObject}
    (put : input = .put id ∨ input = .fail id true) (h : m.Putting id key object) :
    Effect m input ((m.store key object).finish id) :=
  .wrote put h rfl fun _ _ _ => putting_finish (m := m.store key object)

theorem step_effect (decode : List UInt8 → Option String) (m : Processor) (input : ProcessorInput) :
    Effect m input (step decode m input).1 := by
  unfold step
  split
  · exact .kept rfl fun _ _ _ h => h
  · exact .kept rfl fun _ _ _ h => h
  · next operation =>
    refine .kept rfl fun id key object h => ?_
    have hputting : (m.suspend m.nextInvocation (.reading operation)).Putting id key object := h
    exact (putting_suspend hputting).resolve_right fun hnew => by cases hnew.2
  · split
    · split
      · exact effect_finish
      · exact effect_suspend fun _ _ h => by cases h
    · exact .kept rfl fun _ _ _ h => h
  · split
    · exact effect_answered _
    · exact .kept rfl fun _ _ _ h => h
  · split
    · next h => exact effect_headed h
    · exact .kept rfl fun _ _ _ h => h
  · split
    · next h => exact effect_wrote (.inl rfl) h
    · exact .kept rfl fun _ _ _ h => h
  · next id landed =>
    split
    · next h =>
      cases landed with
      | true => exact effect_wrote (.inr rfl) h
      | false => exact effect_finish
    · exact effect_finish

end Processor

/-! ## Runs -/

/-- An invocation that is about to write has asked with `head`, and if nothing signed has landed there
since, there is nothing signed. -/
def Asked (tr : List ProcessorStep) (m : Processor) : Prop :=
  ∀ id key object, m.Putting id key object → ∃ before h between,
    tr = before ++ h :: between ∧ headOf h = some (id, key) ∧
      ((∀ w ∈ between, ∀ id' object', writeOf w = some (id', key, object') → object'.signed = false) →
        (m.results.lookup key).any ResultObject.signed = false)

theorem Publication.object_eq_some {existing : Option ResultObject} {publication : Publication}
    {object : ResultObject} (h : publication.object existing = some object) :
    existing.any ResultObject.signed = false := by
  unfold Publication.object at h
  cases publication with
  | signed envelope =>
    simp only at h
    split at h
    · cases h
    · next hnew => exact Bool.eq_false_iff.2 hnew
  | diagnostic value =>
    simp only at h
    split at h
    · cases h
    · next hnew =>
      rw [Bool.not_eq_true, Option.isSome_eq_false_iff, Option.isNone_iff_eq_none] at hnew
      rw [hnew]
      rfl

theorem writeOf_entry {decode : List UInt8 → Option String} {m : Processor} {input : ProcessorInput}
    {id : ℕ} {key : String} {object : ResultObject}
    (put : input = .put id ∨ input = .fail id true) (was : m.Putting id key object) :
    writeOf (entry (Processor.step decode) m input) = some (id, key, object) := by
  rw [Processor.Putting] at was
  rcases put with rfl | rfl <;> simp only [writeOf, entry_input, entry_pre, was]

theorem Asked.step {tr : List ProcessorStep} {m : Processor} (h : Asked tr m)
    (decode : List UInt8 → Option String) (input : ProcessorInput) :
    Asked (tr ++ [entry (Processor.step decode) m input]) (Processor.step decode m input).1 := by
  intro id key object hputting
  -- an invocation that was about to write already: one more step lies between
  have hold (hwas : m.Putting id key object)
      (hresults : (m.results.lookup key).any ResultObject.signed = false →
        (∀ id' object', writeOf (entry (Processor.step decode) m input) = some (id', key, object') →
          object'.signed = false) →
        ((Processor.step decode m input).1.results.lookup key).any ResultObject.signed = false) :
      ∃ before h between, tr ++ [entry (Processor.step decode) m input] = before ++ h :: between ∧
        headOf h = some (id, key) ∧
          ((∀ w ∈ between, ∀ id' object', writeOf w = some (id', key, object') →
              object'.signed = false) →
            ((Processor.step decode m input).1.results.lookup key).any ResultObject.signed = false) := by
    obtain ⟨before, e, between, rfl, hhead, hkept⟩ := h id key object hwas
    refine ⟨before, e, between ++ [entry (Processor.step decode) m input], ?_, hhead, fun hw => ?_⟩
    · rw [List.append_assoc, List.cons_append]
    · refine hresults (hkept fun w hmem => hw w (List.mem_append_left _ hmem)) ?_
      exact hw _ (List.mem_append_right _ (List.mem_singleton_self _))
  cases Processor.step_effect decode m input with
  | kept results putting =>
    rw [results] at hold ⊢
    exact hold (putting id key object hputting) fun hsigned _ => hsigned
  | headed head heading asks results putting =>
    rw [results] at hold ⊢
    rcases putting id key object hputting with hwas | ⟨rfl, rfl⟩
    · exact hold hwas fun hsigned _ => hsigned
    · refine ⟨tr, _, [], rfl, ?_, fun _ => Publication.object_eq_some asks⟩
      simp only [headOf, entry_input, head, entry_pre, heading]
  | @wrote id' key' object' put was results putting =>
    refine hold (putting id key object hputting) fun hsigned hw => ?_
    rw [results, Table.lookup_insert_eq]
    split
    · next hkey =>
      subst hkey
      exact hw id' object' (writeOf_entry put was)
    · exact hsigned

theorem asked_exec (decode : List UInt8 → Option String) {m : Processor} (hm : m.invocations = ∅)
    (inputs : List ProcessorInput) :
    Asked (trace (Processor.step decode) m inputs) (exec (Processor.step decode) m inputs) := by
  refine run_induction (Processor.step decode) (P := Asked) ?_ (fun _ _ input h => h.step decode input)
    inputs
  intro id key object hputting
  rw [Processor.Putting, hm] at hputting
  cases hputting

/-- A step of an undisturbed run keeps a signed result. -/
theorem signed_kept_step (decode : List UInt8 → Option String) {m : Processor}
    (hm : m.invocations = ∅) {inputs : List ProcessorInput} {input : ProcessorInput}
    (h : Undisturbed (trace (Processor.step decode) m (inputs ++ [input]))) {key : String}
    {object : ResultObject} (hsigned : object.signed = true)
    (hstored : (exec (Processor.step decode) m inputs).results.lookup key = some object) :
    (exec (Processor.step decode) m (inputs ++ [input])).results.lookup key = some object := by
  rw [exec_append, exec_cons, exec_nil]
  cases Processor.step_effect decode (exec (Processor.step decode) m inputs) input with
  | kept results => rw [results, hstored]
  | headed _ _ _ results => rw [results, hstored]
  | @wrote id key' object' put was results =>
    rw [results, Table.lookup_insert_eq]
    split
    · next hkey =>
      subst hkey
      obtain ⟨before, e, between, htr, hhead, hkept⟩ := asked_exec decode hm inputs id key object' was
      rw [trace_append, htr, trace_cons, trace_nil] at h
      have hfree := hkept (h before e between _ [] id key object' rfl hhead (writeOf_entry put was))
      rw [hstored, Option.any_some, hsigned] at hfree
      cases hfree
    · exact hstored

theorem Undisturbed.prefix {tr tr' : List ProcessorStep} (h : Undisturbed (tr ++ tr')) :
    Undisturbed tr := by
  intro before e between e' after id key object htr
  refine h before e between e' (after ++ tr') id key object ?_
  rw [htr, List.append_assoc, List.append_assoc, List.append_assoc]
  rfl

/-- A run with one write is undisturbed. -/
theorem undisturbed_of_length_le {tr : List ProcessorStep} (h : (tr.filterMap writeOf).length ≤ 1) :
    Undisturbed tr := by
  intro before e between e' after id key object htr _ hwrite w hw id' object' hwrite'
  have hbetween : 0 < (between.filterMap writeOf).length :=
    List.length_pos_of_mem (List.mem_filterMap.2 ⟨w, hw, hwrite'⟩)
  have hlast : ((e' :: after).filterMap writeOf).length = (after.filterMap writeOf).length + 1 := by
    rw [List.filterMap_cons_some hwrite, List.length_cons]
  have hmiddle : (between.filterMap writeOf).length ≤ ((e :: between).filterMap writeOf).length :=
    ((List.sublist_cons_self e between).filterMap writeOf).length_le
  rw [htr, List.filterMap_append, List.filterMap_append, List.length_append, List.length_append] at h
  omega

/-- **A signed result is kept** in every run in which no signed envelope lands between the `head` of an
invocation that writes the same key and its `put`. -/
theorem signed_kept (decode : List UInt8 → Option String) (m : Processor) (hm : m.invocations = ∅)
    (is js : List ProcessorInput) (h : Undisturbed (trace (Processor.step decode) m (is ++ js)))
    (key : String) (object : ResultObject) (hsigned : object.signed = true)
    (hstored : (exec (Processor.step decode) m is).results.lookup key = some object) :
    (exec (Processor.step decode) m (is ++ js)).results.lookup key = some object := by
  induction js using List.reverseRecOn with
  | nil => rwa [List.append_nil]
  | append_singleton js input ih =>
    rw [← List.append_assoc] at h ⊢
    refine signed_kept_step decode hm h hsigned (ih ?_)
    rw [trace_append] at h
    exact h.prefix

/-! ## Sample invocations -/

/-- An invocation up to its `head`. -/
def sampleInvocation (id : ℕ) (status : GuardStatus) : List ProcessorInput :=
  [.processSlot .initialization, .get id, .answer id ⟨sampleDigest, status⟩, .head id]

/-- The slot holds an artifact. -/
def sampleProcessor : Processor :=
  { requests := AList.insert "initialize.json" ⟨1, [[65]]⟩ ∅ }

def sampleDecode (_ : List UInt8) : Option String := some "A"

theorem signed_kept_sample :
    (exec (Processor.step sampleDecode) sampleProcessor
      ((sampleInvocation 0 (.attested .applied [1]) ++ [.put 0]) ++
        sampleInvocation 1 (.attested .alreadyApplied [2]))).results.lookup
          (Processor.resultKey sampleDigest) = some ⟨[1], true⟩ := by
  exact signed_kept sampleDecode sampleProcessor rfl _ _ (undisturbed_of_length_le (by decide +kernel))
    _ _ rfl (by decide +kernel)

/-- An invocation overwrites what another one has published since its `head`. -/
theorem signed_overwritten :
    ¬ ∀ (decode : List UInt8 → Option String) (m : Processor), m.invocations = ∅ →
      ∀ (is js : List ProcessorInput) (key : String) (object : ResultObject), object.signed = true →
        (exec (Processor.step decode) m is).results.lookup key = some object →
          (exec (Processor.step decode) m (is ++ js)).results.lookup key = some object := by
  intro h
  have hkept := h sampleDecode sampleProcessor rfl
    (sampleInvocation 0 (.unconfirmed .dispatchAmbiguous) ++
      sampleInvocation 1 (.attested .alreadyApplied [1]) ++ [.put 1]) [.put 0]
    (Processor.resultKey sampleDigest) ⟨[1], true⟩ rfl (by decide +kernel)
  revert hkept
  decide +kernel

end Limitmark.Mailbox
