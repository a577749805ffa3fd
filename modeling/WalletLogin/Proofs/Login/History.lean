/-
  WalletLogin.Proofs.Login.History — runs of calls on tables that start empty.

  A call `e` turns tables into an outcome, `out e t`. Call number `i` of a run meets the
  tables that the calls before it left (`Answers`), whatever follows it.

  Proved: `answers_snoc_iff` and `answers_take`, which reduce a statement about a run to
  its last call; `run_eq`, that the service's runs are such runs.
-/

import Mathlib.Data.List.Induction
import WalletLogin.Login.Run

namespace WalletLogin.Login

open Ledger

namespace History

variable {E α : Type} (out : E → Tables → Outcome α)

/-- The tables that a run of calls leaves. -/
def after (es : List E) : Tables := es.foldl (fun t e => (out e t).tables) Tables.empty

/-- Call number `i` of the run is `e`, and it answers `a`. -/
def Answers (es : List E) (i : Nat) (e : E) (a : Except Failure α) : Prop :=
  es[i]? = some e ∧ (out e (after out (es.take i))).answer = a

@[simp] theorem after_snoc (es : List E) (e : E) : after out (es ++ [e]) = (out e (after out es)).tables := by
  simp [after]

variable {out} {es : List E} {i j : Nat} {e c : E} {a : Except Failure α}

theorem Answers.lt (h : Answers out es i e a) : i < es.length := (List.getElem?_eq_some_iff.mp h.1).1

theorem answers_append (h : Answers out es i e a) (fs : List E) : Answers out (es ++ fs) i e a := by
  have hi := h.lt
  refine ⟨?_, ?_⟩
  · rw [List.getElem?_append_left hi, h.1]
  · rw [List.take_append_of_le_length (by omega), h.2]

/-- A call's answer is settled by the calls up to it. -/
theorem answers_take (h : Answers out es i e a) (hj : i < j) : Answers out (es.take j) i e a := by
  refine ⟨?_, ?_⟩
  · rw [List.getElem?_take_of_lt hj, h.1]
  · rw [List.take_take, Nat.min_eq_left (by omega), h.2]

theorem answers_snoc_iff :
    Answers out (es ++ [c]) i e a ↔ Answers out es i e a ∨ i = es.length ∧ c = e ∧ (out c (after out es)).answer = a := by
  constructor
  · intro h
    have hi : i < es.length + 1 := by simpa using h.lt
    by_cases he : i = es.length
    · subst he
      obtain ⟨h₁, h₂⟩ := h
      rw [List.getElem?_concat_length, Option.some.injEq] at h₁
      rw [List.take_left, ← h₁] at h₂
      exact Or.inr ⟨rfl, h₁, h₂⟩
    · left
      have hlt : i < es.length := by omega
      have := answers_take h hlt
      rwa [List.take_left] at this
  · rintro (h | ⟨rfl, rfl, h⟩)
    · exact answers_append h [c]
    · exact ⟨List.getElem?_concat_length, by rw [List.take_left, h]⟩

/-- What every step preserves, in the states that runs reach, a run preserves. -/
theorem after_append {R : Tables → Tables → Prop} (hrefl : ∀ t, R t t)
    (htrans : ∀ {t₁ t₂ t₃}, R t₁ t₂ → R t₂ t₃ → R t₁ t₃)
    (hstep : ∀ es e, R (after out es) (out e (after out es)).tables) (es fs : List E) :
    R (after out es) (after out (es ++ fs)) := by
  induction fs using List.reverseRecOn with
  | nil =>
    rw [List.append_nil]
    exact hrefl _
  | append_singleton fs e ih =>
    rw [← List.append_assoc, after_snoc]
    exact htrans ih (hstep _ e)

end History

open History

/-- The answers of the service's run, and the tables that it leaves. -/
theorem run_eq (es : List Event) (t : Tables) :
    (run es t).2 = es.foldl (fun t e => (e.outcome t).tables) t ∧
      ∀ i : Nat, (run es t).1[i]? = es[i]?.map fun e : Event =>
        (e.outcome ((es.take i).foldl (fun t e => (e.outcome t).tables) t)).answer := by
  induction es generalizing t with
  | nil => exact ⟨rfl, fun i => by simp [run]⟩
  | cons e es ih =>
    obtain ⟨ht, ha⟩ := ih (e.outcome t).tables
    refine ⟨ht, fun i => ?_⟩
    cases i with
    | zero => rfl
    | succ i => simpa [run] using ha i

/-- One more call is answered on the tables that the calls before it left. -/
theorem run_snoc (es : List Event) (e : Event) (t : Tables) :
    run (es ++ [e]) t = ((run es t).1 ++ [(e.outcome (run es t).2).answer], (e.outcome (run es t).2).tables) := by
  induction es generalizing t with
  | nil => rfl
  | cons c es ih =>
    rw [List.cons_append, run, ih]
    rfl

theorem run_length (es : List Event) (t : Tables) : (run es t).1.length = es.length := by
  induction es generalizing t with
  | nil => rfl
  | cons c es ih => exact congrArg (· + 1) (ih _)

theorem run_tables (es : List Event) : (run es Tables.empty).2 = after Event.outcome es := (run_eq es Tables.empty).1

theorem run_answers {es : List Event} {i : Nat} {e : Event} {a : Except Failure Answer} (he : es[i]? = some e) :
    (run es Tables.empty).1[i]? = some a ↔ Answers Event.outcome es i e a := by
  rw [(run_eq es Tables.empty).2 i, he]
  simp [Answers, he, after]

/-- Every answer of a run is that of one of its calls. -/
theorem answers_of_mem {es : List Event} {a : Except Failure Answer} (h : a ∈ (run es Tables.empty).1) :
    ∃ i e, Answers Event.outcome es i e a := by
  obtain ⟨i, hi⟩ := List.getElem?_of_mem h
  cases he : es[i]? with
  | none =>
    rw [(run_eq es Tables.empty).2 i, he] at hi
    cases hi
  | some e => exact ⟨i, e, (run_answers he).mp hi⟩

end WalletLogin.Login
