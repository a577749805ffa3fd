/-
  WalletLogin.Proofs.Login.Procedure — how the work of a call ends, and what the call
  leaves.

  A breakdown of storage work surfaces as a failure of the call (`surfaced`, `raised`),
  with the draft rolled back where a guard stands. `perform_ends` passes from the end of
  a call's work, started in an opened session, to its answer and its tables.
-/

import WalletLogin.Login.Run
import WalletLogin.Proofs.Ledger.Work

namespace WalletLogin.Login

open Ledger

namespace Procedure

/-- The failure of a guarded call. -/
def surfaced : Breakdown → Failure
  | .fault _ => .refused .storage
  | .tooWide => .numberTooWide
  | .orphan => .orphanWallet

/-- The failure of a call outside every guard. -/
def raised : Breakdown → Failure
  | .fault f => .storageBroke f
  | .tooWide => .numberTooWide
  | .orphan => .orphanWallet

theorem surfaced_of_isFault {b : Breakdown} (h : b.IsFault) : surfaced b = .refused .storage := by
  cases b with
  | fault f => rfl
  | tooWide => exact h.elim
  | orphan => exact h.elim

theorem surfaced_ne_orphanWallet {b : Breakdown} (h : b ≠ .orphan) : surfaced b ≠ .orphanWallet := by
  cases b with
  | fault f => simp [surfaced]
  | tooWide => simp [surfaced]
  | orphan => exact absurd rfl h

theorem raised_ne_orphanWallet {b : Breakdown} (h : b ≠ .orphan) : raised b ≠ .orphanWallet := by
  cases b with
  | fault f => simp [raised]
  | tooWide => simp [raised]
  | orphan => exact absurd rfl h

section Ends

variable {α : Type} {s : Session} {ok : α → Session → Prop} {bad : Failure → Session → Prop}

@[simp] theorem ends_refuse (r : Refusal) : Ends (refuse r : Procedure α) s ok bad ↔ bad (.refused r) s :=
  ends_throw _

@[simp] theorem ends_rollback {ok : Unit → Session → Prop} : Ends rollback s ok bad ↔ ok () s.rollback :=
  ends_modify _

@[simp] theorem ends_raise (b : Breakdown) : Ends (raise b : Procedure α) s ok bad ↔ bad (raised b) s := by
  cases b <;> exact ends_throw _

@[simp] theorem ends_surface (b : Breakdown) :
    Ends (surface b : Procedure α) s ok bad ↔ bad (surfaced b) s.rollback := by
  cases b <;> simp [surface, surfaced, raised]

@[simp] theorem ends_attempt {work : Store α} {handler : Breakdown → Procedure α} :
    Ends (attempt work handler) s ok bad ↔ Ends work s ok (fun b s' => Ends (handler b) s' ok bad) := by
  unfold Ends attempt
  rcases work s with ⟨a | a, s'⟩ <;> rfl

@[simp] theorem ends_guarded {work : Store α} :
    Ends (guarded work) s ok bad ↔ Ends work s ok (fun b s' => bad (surfaced b) s'.rollback) := by
  simp [guarded]

@[simp] theorem ends_unguarded {work : Store α} :
    Ends (unguarded work) s ok bad ↔ Ends work s ok (fun b s' => bad (raised b) s') := by
  simp [unguarded]

theorem ends_lift {e : Except Refusal α} :
    Ends (lift e) s ok bad ↔ match e with
      | .ok a => ok a s
      | .error r => bad (.refused r) s := by
  cases e with
  | ok a => exact ends_pure a
  | error r => exact ends_refuse r

end Ends

/-- A call on stored tables starts with nothing in its draft; it answers by how its work
ends, and leaves what is stored then. -/
theorem perform_ends {α : Type} {work : Procedure α} {f : Faults} {t : Tables} {ok : α → Session → Prop}
    {bad : Failure → Session → Prop} (h : Ends work (Session.opened t f) ok bad) :
    ∃ s, (perform work f t).tables = s.stored ∧
      ((∃ a, (perform work f t).answer = .ok a ∧ ok a s) ∨ ∃ e, (perform work f t).answer = .error e ∧ bad e s) := by
  unfold Ends at h
  unfold perform
  rcases hw : work (Session.opened t f) with ⟨a | a, s⟩
  · rw [hw] at h
    exact ⟨s, rfl, Or.inr ⟨a, rfl, h⟩⟩
  · rw [hw] at h
    exact ⟨s, rfl, Or.inl ⟨a, rfl, h⟩⟩

/-- What is made of a call's answer does not change what the call leaves. -/
theorem perform_map {α β : Type} (f : α → β) (work : Procedure α) (faults : Faults) (t : Tables) :
    (perform (f <$> work) faults t).tables = (perform work faults t).tables := by
  unfold perform
  rw [run_map]
  rcases work (Session.opened t faults) with ⟨e | a, s⟩ <;> rfl

/-- A call that fails does so where its work fails. -/
theorem perform_fails {α : Type} {work : Procedure α} {f : Faults} {t : Tables} {ok : α → Session → Prop}
    {bad : Failure → Session → Prop} (h : Ends work (Session.opened t f) ok bad) {e : Failure}
    (he : (perform work f t).answer = .error e) : ∃ s, (perform work f t).tables = s.stored ∧ bad e s := by
  obtain ⟨s, ht, ⟨a, ha, -⟩ | ⟨e', he', hbad⟩⟩ := perform_ends h
  · have hne := he.symm.trans ha
    cases hne
  · obtain rfl : e = e' := Except.error.inj (he.symm.trans he')
    exact ⟨s, ht, hbad⟩

end Procedure

end WalletLogin.Login
