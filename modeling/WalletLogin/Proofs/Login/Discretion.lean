/-
  WalletLogin.Proofs.Login.Discretion — what a caller without a valid signature learns of the
  tables: nothing.

  The same calls run on two tables that have nothing to do with each other: challenges for
  any wallets, and logins that the wallet they name has not signed. Nothing is planned to
  fail. A login is refused by its checks, which come before the tables (`vet`). A challenge
  looks for its own nonce only. A nonce that was stored in neither table at first has been
  stored in both or in neither by the time a challenge draws it (`SameFree`), so that a
  nonce drawn twice is refused in both runs.

  Proved:
  - `paired_challenge`, `paired_unsigned`: the two calls on two tables.
  - `unsigned_calls_learn_nothing`: the answers are the same in both runs.
  - `a_signature_learns_of_its_nonce`: the login that is signed is answered by the tables.
-/

import WalletLogin.Proofs.Login.Custody
import WalletLogin.Proofs.Login.Isolation

namespace WalletLogin.Login

open Ledger Procedure Wallet History

/-! ## Calls without a valid signature -/

/-- The wallet that the request names has signed neither message of its nonce. -/
def Unsigned (r : Request) : Prop :=
  ∀ k a, identify r.walletType r.address = .ok (k, some a) →
    k.verify a (Message.current (trimmed r.nonce)) (trimmed r.signature) r.publicKey = false ∧
    k.verify a (Message.legacy (trimmed r.nonce)) (trimmed r.signature) r.publicKey = false

/-- A challenge whose nonce is stored in neither table, or a login that is not signed. -/
inductive Unauthenticated (t t' : Tables) (e : Event) : Prop
  | challenge {walletType address : Option String} {deadline : Option Int} :
      e.call = .issue walletType address deadline → t.findNonce? e.conditions.nonce = none →
      t'.findNonce? e.conditions.nonce = none → Unauthenticated t t' e
  | login {r : Request} {deadline : Option Int} : e.call = .login r deadline → Unsigned r → Unauthenticated t t' e

theorem Unsigned.not_presents {r : Request} (h : Unsigned r) (k : Kind) (a : String) : ¬ Presents r k a := by
  intro hp
  obtain ⟨hcurrent, hlegacy⟩ := h k a hp.named
  rcases isSigned_iff.mp hp.signed with hv | hv
  · rw [hcurrent] at hv
    cases hv
  · rw [hlegacy] at hv
    cases hv

/-! ## One call on two tables -/

/-- What was free in both tables at first is free in both or in neither by now. -/
def SameFree (t₀ t₀' t t' : Tables) : Prop :=
  ∀ nonce, t₀.findNonce? nonce = none → t₀'.findNonce? nonce = none →
    (t.findNonce? nonce = none ↔ t'.findNonce? nonce = none)

section Paired

variable {t₀ t₀' t t' : Tables}

theorem SameFree.withNonce (h : SameFree t₀ t₀' t t') (r : NonceRow) :
    SameFree t₀ t₀' (t.withNonce r) (t'.withNonce r) := by
  intro nonce hn hn'
  rw [Tables.findNonce?_withNonce_eq, Tables.findNonce?_withNonce_eq, Option.or_eq_none_iff, Option.or_eq_none_iff,
    h nonce hn hn']

theorem paired_challenge {cfg : Config} {env : Conditions} (walletType address : Option String) (deadline : Option Int)
    (h : SameFree t₀ t₀' t t') (hn : t₀.findNonce? env.nonce = none) (hn' : t₀'.findNonce? env.nonce = none) :
    Paired (issue cfg env walletType address deadline) (issue cfg env walletType address deadline) t t' Eq
      (SameFree t₀ t₀') := by
  cases hi : identify walletType address with
  | error e => exact paired_error (yields_issue_refused hi) (yields_issue_refused hi) h
  | ok ka =>
    obtain ⟨k, a⟩ := ka
    by_cases he : Expired deadline (env.mono 0)
    · exact paired_error (yields_issue_late hi he) (yields_issue_late hi he) h
    by_cases hf : fits (env.wall 0) = true ∧ fits (env.wall 0 + cfg.nonceTtl) = true
    case neg => exact paired_error (yields_issue_wide he hi hf) (yields_issue_wide he hi hf) h
    obtain ⟨hf, hx⟩ := hf
    cases a with
    | none => exact paired_error (yields_issue_unnamed he hf hx hi) (yields_issue_unnamed he hf hx hi) h
    | some a =>
      have hsame := h env.nonce hn hn'
      by_cases hfree : t.findNonce? env.nonce = none
      · have hrow : ∀ {t₁ : Tables}, t₁.findNonce? env.nonce = none →
            (t₁.withNonce (challengeRow cfg env ⟨k.name, a⟩)).findNonce? env.nonce =
              some (challengeRow cfg env ⟨k.name, a⟩) := by
          intro t₁ h₁
          rw [Tables.findNonce?_withNonce_eq, h₁, Option.none_or]
          exact if_pos rfl
        have hfree' := hsame.mp hfree
        exact paired_ok (yields_issue_of_row he hf hx hi hfree (hrow hfree))
          (yields_issue_of_row he hf hx hi hfree' (hrow hfree')) rfl (h.withNonce _)
      · exact paired_error (yields_issue_taken he hf hx hi hfree)
          (yields_issue_taken he hf hx hi (mt hsame.mpr hfree)) h

/-- The checks that refuse the login touch no table. -/
theorem paired_unsigned {cfg : Config} {env : Conditions} {r : Request} (deadline : Option Int) (hr : Unsigned r)
    {R : Tables → Tables → Prop} (h : R t t') :
    Paired (login cfg env r deadline) (login cfg env r deadline) t t' Eq R := by
  obtain ⟨_, he⟩ := yields_login_unsigned cfg env deadline hr.not_presents
  exact paired_error (he t) (he t') h

theorem unauthenticated_step {e : Event} (hq : e.conditions.faults.Quiet) (he : Unauthenticated t₀ t₀' e)
    (h : SameFree t₀ t₀' t t') :
    (e.outcome t).answer = (e.outcome t').answer ∧ SameFree t₀ t₀' (e.outcome t).tables (e.outcome t').tables := by
  obtain ⟨cfg, env, call⟩ := e
  have hid : ∀ x : Except Failure Answer, x.map id = x := fun x => by cases x <;> rfl
  rw [← hid (Event.outcome _ t).answer, ← hid (Event.outcome _ t').answer]
  cases he with
  | @challenge walletType address deadline hc hn hn' =>
    cases hc
    exact outcome_of_paired (paired_challenge walletType address deadline h hn hn') hq fun hb => by rw [hb]
  | @login r deadline hc hr =>
    cases hc
    exact outcome_of_paired (paired_unsigned deadline hr h) hq fun hb => by rw [hb]

end Paired

/-! ## Runs on two tables -/

theorem run_unauthenticated {t₀ t₀' t t' : Tables} {es : List Event} (hq : ∀ e ∈ es, e.conditions.faults.Quiet)
    (hu : ∀ e ∈ es, Unauthenticated t₀ t₀' e) (h : SameFree t₀ t₀' t t') : (run es t).1 = (run es t').1 := by
  induction es generalizing t t' with
  | nil => rfl
  | cons e es ih =>
    rw [List.forall_mem_cons] at hq hu
    obtain ⟨ha, hs⟩ := unauthenticated_step hq.1 hu.1 h
    show (e.outcome t).answer :: (run es (e.outcome t).tables).1 = (e.outcome t').answer :: (run es (e.outcome t').tables).1
    rw [ha, ih hq.2 hu.2 hs]

/-- On any two tables, calls without a valid signature are answered alike, as long as nothing
is planned to fail and the nonces that are drawn were stored in neither. So neither an
account nor a nonce shows in the answers. -/
theorem unsigned_calls_learn_nothing {t t' : Tables} {es : List Event} (hq : ∀ e ∈ es, e.conditions.faults.Quiet)
    (hu : ∀ e ∈ es, Unauthenticated t t' e) : (run es t).1 = (run es t').1 :=
  run_unauthenticated hq hu fun _ hn hn' => ⟨fun _ => hn', fun _ => hn⟩

namespace Probes

open FirstLogin (address)
open LaterLogins (ask answer again firstRow)
open Strangers (forged)

/-- Tables in which the wallet has an account and a live nonce. -/
def known : Tables :=
  ⟨[firstRow none], [⟨"user", "contributor", 1, 1⟩], [⟨1, "user", ⟨"solana", address⟩, none, 1, 1⟩]⟩

/-- A login under the live nonce, two challenges that draw one nonce, and a login under it. -/
def calls : List Event :=
  [answer 1 "a" forged, ask 2 again, ask 3 again, answer 4 "b" { again with signature := some "x" }]

theorem unauthenticated : ∀ e ∈ calls, Unauthenticated Tables.empty known e := by
  have hfree : known.findNonce? (trimmed again.nonce) = none := by decide
  have hx : trimmed (some "x") = "x" := by decide
  have hunsigned : ∀ {r : Request}, r.signature = some "x" → r.publicKey = none → Unsigned r := by
    intro r hs hk _ _ _
    rw [hs, hk, hx]
    exact ⟨Strangers.x_not_accepted _ _ _, Strangers.x_not_accepted _ _ _⟩
  simp only [calls, List.forall_mem_cons]
  refine ⟨.login rfl (hunsigned rfl rfl), .challenge rfl rfl hfree, .challenge rfl rfl hfree,
    .login rfl (hunsigned rfl rfl), ?_⟩
  simp

theorem quiet : ∀ e ∈ calls, e.conditions.faults.Quiet := by
  simp only [calls, List.forall_mem_cons]
  refine ⟨Faults.quiet_default, Faults.quiet_default, Faults.quiet_default, Faults.quiet_default, ?_⟩
  simp

theorem probes_do_not_show_the_account : (run calls Tables.empty).1 = (run calls known).1 :=
  unsigned_calls_learn_nothing quiet unauthenticated

end Probes

open FirstLogin in
/-- The login that the wallet has signed succeeds where its nonce is stored, and fails where
there is nothing. -/
theorem a_signature_learns_of_its_nonce :
    ((answers 1).outcome Tables.empty).answer ≠ ((answers 1).outcome (after Event.outcome [asks])).answer := by
  have hfree : (after Event.outcome [asks]).findUser? (conditions 1).userId = none := by
    rw [after_asks]
    rfl
  have hu : Unhindered (conditions 1).faults.Quiet config (conditions 1) none (after Event.outcome [asks]) :=
    unhindered Faults.quiet_default (fun _ => rfl) hfree (by decide) (by decide) (by decide)
  obtain ⟨res, hres, -⟩ := (sound_after [asks]).login_succeeds hu presents (redeemable (by decide))
  rcases login_cases sound_empty config (conditions 1) request none with ⟨_, _, -, hl⟩ | ⟨f, hf, -⟩
  · obtain ⟨row, hrow, -⟩ := hl.live
    cases hrow
  · intro hsame
    cases hf.symm.trans (hsame.trans hres)

end WalletLogin.Login
