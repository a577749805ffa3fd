/-
  WalletLogin.Proofs.Login.Surfacing — how one failure of the storage reaches the caller.

  One operational fault is planned, at a kind of step or at a look-up (`Awaits`). A step
  that does not meet it leaves it planned; the step that meets it fails, and the guard
  around that step turns it into a refusal. So of a call whose fault is no longer planned
  the answer is known (`Surfaces`). That closes under sequence, and each step has one
  lemma.

  The one step outside every guard reads a challenge's row again behind its commit.

  Proved:
  - `faults_surface`: a call that met its fault is refused as a failure of the storage,
    unless it is a challenge and the fault was at a reading behind the commit.
  - `a_failed_reading_breaks_out`: in that case the fault itself reaches the caller, with
    the challenge stored.
-/

import WalletLogin.Proofs.Login.Identities
import WalletLogin.Proofs.Login.Unsettled

namespace WalletLogin.Login

open Ledger Procedure

/-! ## Guards -/

namespace Procedure

section Surfaces

variable {α : Type} {x : Place} {work : Store α}

theorem surfaces_lift (e : Except Refusal α) {target : Failure → Prop} : Surfaces x target (lift e) := by
  cases e with
  | ok a => exact surfaces_pure a
  | error r => exact surfaces_throw _

/-- A guard turns the fault into a refusal. -/
theorem surfaces_guarded (hw : Surfaces x Store.Struck work) : Surfaces x (· = .refused .storage) (guarded work) :=
  fun s h => by
    rw [ends_guarded]
    refine (hw s h).mono (fun _ _ h' => h') fun b s' h' => ?_
    rcases h' with h' | rfl
    · exact Or.inl h'
    · exact Or.inr rfl

theorem surfaces_unguarded (hw : Surfaces x Store.Struck work) :
    Surfaces x (· = .storageBroke .operational) (unguarded work) := fun s h => by
  rw [ends_unguarded]
  refine (hw s h).mono (fun _ _ h' => h') fun b s' h' => ?_
  rcases h' with h' | rfl
  · exact Or.inl h'
  · exact Or.inr rfl

end Surfaces

end Procedure

/-! ## The parts of a call -/

variable {x : Place}

theorem surfaces_checkDeadline (deadline : Option Int) (reading : Int) {target : Failure → Prop} :
    Surfaces x target (checkDeadline deadline reading) := by
  unfold checkDeadline
  cases deadline with
  | none => exact surfaces_pure _
  | some d =>
    dsimp only
    split
    · exact surfaces_throw _
    · exact surfaces_pure _

namespace Nonces

theorem surfaces_create (nonce : String) (subject : Subject) (now ttl : Int) :
    Surfaces x (· = .refused .storage) (create nonce subject now ttl) :=
  .bind (surfaces_modify fun _ => rfl) fun _ => surfaces_guarded (Store.surfaces_commitWith _)

theorem surfaces_execute (o : Option Owner) (nonce : Option String) (now : Int) :
    Surfaces x Store.Struck (execute o nonce now) := by
  intro s h
  simp only [execute, Store.fail, ends_bind]
  refine (Store.surfaces_meet .execute s h).mono (fun _ s₁ h₁ => ?_) fun _ _ hb => hb
  refine (Store.surfaces_needTables s₁ h₁).mono (fun _ s₂ h₂ => ?_) fun _ _ hb => hb
  cases fits now with
  | false => exact (ends_throw _).mpr (Or.inl h₂)
  | true =>
    cases o with
    | none => exact (ends_pure _).mpr h₂
    | some o =>
      cases nonce with
      | none => exact (ends_pure _).mpr h₂
      | some n =>
        simp only [Bool.not_true, Bool.false_eq_true, if_false, ends_pure, ends_bind, ends_get, ends_modify]
        exact h₂

theorem surfaces_consume (subject : Subject) (nonce : Option String) (now : Int) :
    Surfaces x (· = .refused .storage) (consume subject nonce now) := by
  refine (surfaces_guarded ((surfaces_execute _ _ _).bind fun _ => Store.surfaces_commit.bind fun _ => surfaces_pure _)).bind
    fun hit => ?_
  cases hit with
  | true => exact surfaces_pure _
  | false => exact surfaces_throw _

end Nonces

namespace Users

theorem surfaces_reread (walletId : Nat) (userId : String) : Surfaces x Store.Struck (reread walletId userId) :=
  (Store.surfaces_reload _).bind fun _ => (Store.surfaces_reload _).bind fun _ => surfaces_pure _

theorem surfaces_touch (w : WalletRow) (key : Option String) (now : Int) : Surfaces x Store.Struck (touch w key now) :=
  (Store.surfaces_loadUser w).bind fun _ => (Store.surfaces_commitWith _).bind fun _ => surfaces_reread _ _

theorem surfaces_make (o : Option Owner) (key : Option String) (role userId : String) (now : Int) :
    Surfaces x Store.Struck (make o key role userId now) :=
  (Store.surfaces_add _).bind fun _ => Store.surfaces_flush.bind fun _ => surfaces_get fun _ =>
    (Store.surfaces_commitWith _).bind fun _ => surfaces_reread _ _

theorem surfaces_findOrMake (o : Option Owner) (key : Option String) (role userId : String) (now : Int) :
    Surfaces x Store.Struck (findOrMake o key role userId now) :=
  (Store.surfaces_findWallet o).bind fun w => by
    cases w with
    | some w => exact surfaces_touch w key now
    | none => exact surfaces_make o key role userId now

theorem surfaces_findAgain (o : Option Owner) (key : Option String) (now : Int) :
    Surfaces x Store.Struck (findAgain o key now) :=
  (Store.surfaces_findWallet o).bind fun w => by
    cases w with
    | some w => exact (surfaces_touch w key now).map some
    | none => exact surfaces_pure _

/-- The planned fault is none of a constraint, so the second start does not swallow it. -/
theorem surfaces_upsert (subject : Subject) (publicKey role : Option String) (userId : String) (now : Int) :
    Surfaces x (· = .refused .storage) (upsert subject publicKey role userId now) := fun s h => by
  simp only [upsert, ends_attempt]
  refine (surfaces_findOrMake _ _ _ _ _ s h).mono (fun _ _ h' => h') fun b s₁ h₁ => ?_
  split
  · rename_i hb
    subst hb
    have hawaits : s₁.faults.Awaits x := h₁.resolve_right (by decide)
    simp only [ends_bind, ends_rollback]
    refine (surfaces_guarded (surfaces_findAgain _ _ _) s₁.rollback hawaits).mono (fun a s₂ h₂ => ?_) fun _ _ h₂ => h₂
    cases a with
    | some a => exact (ends_pure _).mpr h₂
    | none => exact (ends_refuse _).mpr (Or.inl h₂)
  · rw [ends_surface]
    rcases h₁ with h₁ | rfl
    · exact Or.inl h₁
    · exact Or.inr rfl

theorem surfaces_profile (userId : Option String) : Surfaces x (· = .refused .storage) (profile userId) :=
  surfaces_guarded <| (Store.surfaces_query _).bind fun u => by
    cases u with
    | none => exact surfaces_pure _
    | some u => exact (Store.surfaces_query _).bind fun _ => surfaces_pure _

end Users

/-! ## Calls -/

/-- How the one fault reaches the caller: at a challenge's reading behind its commit as it
is, and anywhere else as a refusal. -/
def Surfaced (x : Place) : Call → Failure → Prop
  | .issue .., f => f = .refused .storage ∨ x = .step .reload ∧ f = .storageBroke .operational
  | _, f => f = .refused .storage

/-- What is read again behind a commit meets no fault that is planned elsewhere. -/
theorem surfaces_reread_challenge (nonce : String) :
    Surfaces x (fun f => x = .step .reload ∧ f = .storageBroke .operational) (Nonces.reread nonce) := by
  by_cases hx : x = .step .reload
  · exact (surfaces_unguarded (Store.surfaces_reload _)).mono fun f hf => ⟨hx, hf⟩
  · intro s h
    have hawaits : (s.faults.past .reload).Awaits x := (h.next.resolve_left (by simp [h.next_of_ne hx])).2
    simp only [Nonces.reread, ends_unguarded, Store.reload, Store.meet, Store.needTables, Store.fail, ends_bind, ends_get,
      ends_modify, h.next_of_ne hx, ends_pure, hawaits.tables, Bool.false_eq_true, if_false]
    cases s.draft.findNonce? nonce with
    | some row => exact (ends_pure _).mpr hawaits
    | none => exact (ends_throw _).mpr (Or.inl hawaits)

theorem surfaces_issue (cfg : Config) (env : Conditions) (walletType address : Option String) (deadline : Option Int) :
    Surfaces x (Surfaced x (.issue walletType address deadline)) (issue cfg env walletType address deadline) := by
  refine (surfaces_lift _).bind fun ka => (surfaces_checkDeadline _ _).bind fun _ => ?_
  refine ((Nonces.surfaces_create _ _ _ _).mono fun f hf => Or.inl hf).bind fun _ => ?_
  exact ((surfaces_reread_challenge _).mono fun f hf => Or.inr hf).bind fun _ => surfaces_pure _

theorem surfaces_login (cfg : Config) (env : Conditions) (r : Request) (deadline : Option Int) :
    Surfaces x (· = .refused .storage) (login cfg env r deadline) := by
  rw [login_eq]
  refine (surfaces_lift _).bind fun ka => (surfaces_checkDeadline _ _).bind fun _ => ?_
  refine (Nonces.surfaces_consume _ _ _).bind fun _ => (surfaces_checkDeadline _ _).bind fun _ => ?_
  exact (Users.surfaces_upsert _ _ _ _ _).bind fun _ => (surfaces_lift _).bind fun _ => surfaces_pure _

theorem surfaces_serve (cfg : Config) (env : Conditions) (call : Call) :
    Surfaces x (Surfaced x call) (serve cfg env call) := by
  cases call with
  | issue walletType address deadline => exact (surfaces_issue cfg env walletType address deadline).map _
  | login r deadline => exact (surfaces_login cfg env r deadline).map _
  | profile userId => exact (Users.surfaces_profile userId).map _

/-- Of a call that starts with one fault planned: the fault is planned still, or the call
has met it and has failed. Its answer is then that the storage failed; only a challenge
whose row could not be read again breaks out with the fault. -/
theorem faults_surface (cfg : Config) (env : Conditions) (call : Call) (t : Tables) {x : Place} (h : env.faults.Awaits x) :
    let (answer, s) := serve cfg env call (Session.opened t env.faults)
    s.faults.Awaits x ∨ ∃ f, answer = .error f ∧ Surfaced x call f := by
  have hs := surfaces_serve cfg env call (Session.opened t env.faults) h
  rcases hw : serve cfg env call (Session.opened t env.faults) with ⟨f | a, s⟩
  · exact (hs.of_error hw).imp_right fun hf => ⟨f, rfl, hf⟩
  · exact Or.inl (hs.of_ok hw)

namespace FailedChallenge

open Users.FailedReading (faults)

/-- The first challenge, whose row cannot be read again. -/
def asks : Event := { FirstLogin.asks with conditions := { FirstLogin.conditions 0 with faults := faults } }

theorem faults_awaits : faults.Awaits (.step .reload) where
  plan p := by
    cases p with
    | reload => exact ⟨0, rfl⟩
    | _ => exact fun y hy => nomatch hy
  finds := fun l hl => nomatch hl
  tables := rfl

/-- The challenge is stored, and its caller is told of the fault itself. -/
theorem a_failed_reading_breaks_out : asks.conditions.faults.Awaits (.step .reload) ∧
    (asks.outcome Tables.empty).answer = .error (.storageBroke .operational) ∧
    (asks.outcome Tables.empty).tables = Tables.empty.withNonce ⟨"abc123", ⟨"solana", FirstLogin.address⟩, 0, 600, none⟩ := by
  refine ⟨faults_awaits, ?_⟩
  decide +kernel

end FailedChallenge

end WalletLogin.Login
