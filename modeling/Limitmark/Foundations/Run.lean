import Mathlib.Data.List.Induction
import Mathlib.Order.Basic

/-!
# Runs of a deterministic machine

A machine is a step function `σ → ι → σ × ο`: a state and an input give the next state and an
output. Its run on a list of inputs is the state it ends in (`exec`) and the list of its steps
(`trace`), each with the state before and after.

Safety statements about runs are inductions on the last step. `run_induction` is that induction
with the trace in hand, and `Paced.run_induction` the same for inputs that carry a discipline of their
own, such as clock readings that never step back.

Non-interference compares a run with the run on fewer inputs (`Deletes`). Its rule is
`Deletes.views_eq`: a relation between the two states that a kept input preserves on both sides, and
a deleted one on the side where it is taken.
-/

namespace Limitmark.Foundations

/-- One step of a run. -/
structure Entry (σ ι ο : Type*) where
  pre : σ
  input : ι
  out : ο
  post : σ

section Machine

variable {σ ι ο : Type*} (step : σ → ι → σ × ο)

/-- The step a machine takes from `s` on input `i`. -/
def entry (s : σ) (i : ι) : Entry σ ι ο := ⟨s, i, (step s i).2, (step s i).1⟩

@[simp] theorem entry_pre (s : σ) (i : ι) : (entry step s i).pre = s := rfl

@[simp] theorem entry_input (s : σ) (i : ι) : (entry step s i).input = i := rfl

@[simp] theorem entry_out (s : σ) (i : ι) : (entry step s i).out = (step s i).2 := rfl

@[simp] theorem entry_post (s : σ) (i : ι) : (entry step s i).post = (step s i).1 := rfl

/-- The state a run ends in. -/
def exec (s : σ) : List ι → σ
  | [] => s
  | i :: is => exec (step s i).1 is

/-- The steps of a run, in order. -/
def trace (s : σ) : List ι → List (Entry σ ι ο)
  | [] => []
  | i :: is => entry step s i :: trace (step s i).1 is

@[simp] theorem exec_nil (s : σ) : exec step s [] = s := rfl

@[simp] theorem exec_cons (s : σ) (i : ι) (is : List ι) :
    exec step s (i :: is) = exec step (step s i).1 is := rfl

@[simp] theorem trace_nil (s : σ) : trace step s [] = [] := rfl

@[simp] theorem trace_cons (s : σ) (i : ι) (is : List ι) :
    trace step s (i :: is) = entry step s i :: trace step (step s i).1 is := rfl

theorem exec_append (s : σ) (is js : List ι) :
    exec step s (is ++ js) = exec step (exec step s is) js := by
  induction is generalizing s with
  | nil => rfl
  | cons i is ih => exact ih _

theorem trace_append (s : σ) (is js : List ι) :
    trace step s (is ++ js) = trace step s is ++ trace step (exec step s is) js := by
  induction is generalizing s with
  | nil => rfl
  | cons i is ih => simp only [List.cons_append, trace_cons, ih, exec_cons]

/-- Induction on the last step of a run, with the trace so far in hand. -/
theorem run_induction {P : List (Entry σ ι ο) → σ → Prop} {s : σ} (nil : P [] s)
    (snoc : ∀ tr t i, P tr t → P (tr ++ [entry step t i]) (step t i).1) (is : List ι) :
    P (trace step s is) (exec step s is) := by
  induction is using List.reverseRecOn with
  | nil => exact nil
  | append_singleton is i ih =>
    rw [trace_append, exec_append]
    exact snoc _ _ _ ih

/-- A property that holds at the start and that every step keeps holds at the end. -/
theorem exec_invariant {I : σ → Prop} {s : σ} (h : I s) (hstep : ∀ t i, I t → I (step t i).1)
    (is : List ι) : I (exec step s is) :=
  run_induction step (P := fun _ t => I t) h (fun _ t i ht => hstep t i ht) is

/-- A step of a run splits its inputs: it is taken where the inputs before it lead. -/
theorem trace_eq_append_cons {s : σ} {is : List ι} {pre post : List (Entry σ ι ο)}
    {e : Entry σ ι ο} (h : trace step s is = pre ++ e :: post) :
    ∃ js i ks, is = js ++ i :: ks ∧ pre = trace step s js ∧ e = entry step (exec step s js) i ∧
      post = trace step (exec step s (js ++ [i])) ks := by
  induction is generalizing s pre with
  | nil => simp at h
  | cons i is ih =>
    cases pre with
    | nil =>
      obtain ⟨rfl, rfl⟩ := List.cons.inj h
      exact ⟨[], i, is, rfl, rfl, rfl, rfl⟩
    | cons f pre =>
      obtain ⟨rfl, htail⟩ := List.cons.inj h
      obtain ⟨js, j, ks, rfl, rfl, rfl, rfl⟩ := ih htail
      exact ⟨i :: js, j, ks, rfl, rfl, rfl, rfl⟩

end Machine

/-! ## Inputs with a discipline of their own -/

section Paced

variable {σ ι ο τ : Type*}

/-- Every input is allowed at the pace `t` its predecessors left, and moves it on. -/
def Paced (ok : τ → ι → Prop) (next : τ → ι → τ) (t : τ) : List ι → Prop
  | [] => True
  | i :: is => ok t i ∧ Paced ok next (next t i) is

variable {ok : τ → ι → Prop} {next : τ → ι → τ}

@[simp] theorem paced_nil (t : τ) : Paced ok next t ([] : List ι) := trivial

@[simp] theorem paced_cons (t : τ) (i : ι) (is : List ι) :
    Paced ok next t (i :: is) ↔ ok t i ∧ Paced ok next (next t i) is := Iff.rfl

instance Paced.instDecidable [∀ t i, Decidable (ok t i)] (t : τ) (is : List ι) :
    Decidable (Paced ok next t is) :=
  match is with
  | [] => inferInstanceAs (Decidable True)
  | i :: is => @instDecidableAnd _ _ _ (Paced.instDecidable (next t i) is)

theorem paced_append (t : τ) (is js : List ι) :
    Paced ok next t (is ++ js) ↔ Paced ok next t is ∧ Paced ok next (is.foldl next t) js := by
  induction is generalizing t with
  | nil => simp
  | cons i is ih => simp [ih, and_assoc]

/-- Induction on the last step of a paced run. -/
theorem Paced.run_induction (step : σ → ι → σ × ο) {P : List (Entry σ ι ο) → σ → τ → Prop}
    {s : σ} {t : τ} (nil : P [] s t)
    (snoc : ∀ tr u p i, P tr u p → ok p i → P (tr ++ [entry step u i]) (step u i).1 (next p i))
    {is : List ι} (his : Paced ok next t is) :
    P (trace step s is) (exec step s is) (is.foldl next t) := by
  induction is using List.reverseRecOn with
  | nil => exact nil
  | append_singleton is i ih =>
    rw [paced_append] at his
    rw [trace_append, exec_append, List.foldl_append]
    exact snoc _ _ _ _ (ih his.1) his.2.1

end Paced

/-! ## Deleting inputs -/

section Deletes

variable {σ ι ο τ φ : Type*} {step : σ → ι → σ × ο} {droppable : Entry σ ι ο → Prop}

/-- `js` is `is` without some inputs whose step, in the run from `s`, is droppable; `kept` are the
steps of the run on `is` that remain. -/
inductive Deletes (step : σ → ι → σ × ο) (droppable : Entry σ ι ο → Prop) :
    σ → List ι → List ι → List (Entry σ ι ο) → Prop
  | nil (s) : Deletes step droppable s [] [] []
  | keep {s i is js kept} : Deletes step droppable (step s i).1 is js kept →
      Deletes step droppable s (i :: is) (i :: js) (entry step s i :: kept)
  | drop {s i is js kept} : droppable (entry step s i) →
      Deletes step droppable (step s i).1 is js kept → Deletes step droppable s (i :: is) js kept

/-- Deleting nothing keeps the whole run. -/
theorem Deletes.refl (s : σ) (is : List ι) : Deletes step droppable s is is (trace step s is) := by
  induction is generalizing s with
  | nil => exact .nil s
  | cons i is ih => exact .keep (ih _)

/-- **Unwinding.** If a kept input preserves the relation and is seen the same on both sides, and a
droppable input preserves it on the full side alone, then what is seen of the kept steps is what is
seen of the run without the deleted ones. -/
theorem Deletes.views_eq {ok : τ → ι → Prop} {next : τ → ι → τ} (R : σ → σ → τ → Prop)
    (view : ο → φ)
    (keep : ∀ s s' t i, R s s' t → ok t i →
      R (step s i).1 (step s' i).1 (next t i) ∧ view (step s i).2 = view (step s' i).2)
    (drop : ∀ s s' t i, R s s' t → ok t i → droppable (entry step s i) →
      R (step s i).1 s' (next t i))
    {s s' : σ} {t : τ} {is js : List ι} {kept : List (Entry σ ι ο)} (hR : R s s' t)
    (his : Paced ok next t is) (h : Deletes step droppable s is js kept) :
    List.Forall₂ (fun e e' => e.input = e'.input ∧ view e.out = view e'.out) kept
      (trace step s' js) := by
  induction h generalizing s' t with
  | nil => exact .nil
  | keep _ ih =>
    obtain ⟨hR', hview⟩ := keep _ _ _ _ hR his.1
    exact .cons ⟨rfl, hview⟩ (ih hR' his.2)
  | drop hdrop _ ih => exact ih (drop _ _ _ _ hR his.1 hdrop) his.2

end Deletes

end Limitmark.Foundations
