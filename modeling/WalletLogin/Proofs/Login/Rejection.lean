/-
  WalletLogin.Proofs.Login.Rejection — what a call that fails leaves behind.

  A login fails at one of five places (`Fails`): in a check of its request, at the
  deadline before its nonce is spent, at the spending, at the deadline behind it, or
  later still. Up to the spending nothing is stored; the spending of a nonce that finds
  no row is committed, and changes nothing.

  A challenge fails before its row is stored, or when the row is read again. Where the
  insertion or its commit fails, the session is rolled back, which also drops a row that
  was never written; without that the next commit would store it
  (`unguarded_challenge_is_stored_later`).

  Proved, on any tables in which every nonce has one row:
  - `login_fails`: where a login fails, and what is stored then.
  - `rejections_leave_no_trace`: a login that is refused for its request, its signature or
    its nonce changes nothing, and neither does a challenge that is not stored, nor any
    later commit of its session.
  - `late_logins_spend_at_most_their_nonce`: a login that is out of time leaves users
    and wallets as they were, and the nonces too unless its time ran out while it spent
    its own; then that one row is consumed, and no other.
-/

import WalletLogin.Proofs.Login.Custody

namespace WalletLogin.Login

open Ledger Procedure Wallet History

/-! ## Where a login fails -/

/-- How a login fails, and what is stored then. -/
inductive Fails (cfg : Config) (env : Conditions) (r : Request) (deadline : Option Int) (t : Tables) :
    Failure → Tables → Prop
  /-- A check of the request, before any table is touched. -/
  | unchecked {x : Refusal} : vet cfg r = .error x → Fails cfg env r deadline t (.refused x) t
  /-- No time was left to spend the nonce. -/
  | late : Expired deadline (env.mono 0) → Fails cfg env r deadline t (.refused .deadline) t
  | unspent {f : Failure} : f = .refused .storage ∨ f = .numberTooWide ∨ f = .refused .nonce →
      Fails cfg env r deadline t f t
  /-- The nonce was spent, and no time was left to settle the account. -/
  | lateBehind {k : Kind} {a : String} : Presents r k a → t.Redeemable ⟨k.name, a⟩ (trimmed r.nonce) (env.wall 0) →
      ¬ Expired deadline (env.mono 0) → Expired deadline (env.mono 1) →
      Fails cfg env r deadline t (.refused .deadline) (t.spend ⟨k.name, a⟩ (trimmed r.nonce) (env.wall 0))
  /-- The account was not settled, or the token not signed. -/
  | unfinished {f : Failure} {t' : Tables} :
      (∀ x, f = .refused x → x.code = "storage_error" ∨ x.code = "token_issue_failed") →
      Fails cfg env r deadline t f t'

section Refusals

/-- The codes of the checks that touch no table. -/
def checks : List String :=
  ["jwt_not_configured", "invalid_wallet_type", "invalid_address", "missing_nonce_or_signature", "invalid_signature"]

theorem vet_code {cfg : Config} {r : Request} {x : Refusal} (h : vet cfg r = .error x) : x.code ∈ checks := by
  unfold vet at h
  split at h
  · cases h
    decide
  · split at h
    · rename_i e hi
      cases h
      rcases identify_code hi with hc | hc <;> simp [hc, checks]
    · split at h
      · cases h
        decide
      · split at h
        · cases h
        · cases h
          decide

theorem surfaced_code (b : Breakdown) {x : Refusal} (h : surfaced b = .refused x) : x.code = "storage_error" := by
  cases b with
  | fault f =>
    cases h
    rfl
  | tooWide => cases h
  | orphan => cases h

theorem sign_code {cfg : Config} {c : Token.Claims} {x : Refusal} (h : sign cfg c = .error x) :
    x.code = "token_issue_failed" := by
  unfold sign at h
  split at h
  · cases h
  · cases h
    rfl

end Refusals

section Ends

variable {q : Prop} {t : Tables} {s : Session}

/-- An account that is not settled is a failure of the storage, whatever the tables hold. -/
theorem upsert_refuses (s : Session) (sub : Subject) (publicKey role : Option String) (userId : String) (now : Int) :
    Ends (Users.upsert sub publicKey role userId now) s (fun _ _ => True)
      (fun f _ => ∀ x, f = .refused x → x.code = "storage_error") := by
  simp only [Users.upsert, ends_attempt]
  refine (ends_trivial _ s).mono (fun _ _ _ => trivial) (fun b s₁ _ => ?_)
  split
  · simp only [ends_bind, ends_rollback, ends_guarded]
    refine (ends_trivial _ _).mono (fun a s₂ _ => ?_) (fun b' s₂ _ x hx => surfaced_code b' hx)
    cases a with
    | none =>
      refine (ends_refuse _).mpr fun x hx => ?_
      cases hx
      rfl
    | some a => exact (ends_pure _).mpr trivial
  · rw [ends_surface]
    exact fun x hx => surfaced_code b hx

theorem complete_fails_ends (s : Session) (cfg : Config) (env : Conditions) (r : Request) (deadline : Option Int) (k : Kind)
    (a : Option String) :
    Ends (complete cfg env r deadline k a) s (fun _ _ => True)
      (fun f s' => f = .refused .deadline ∧ Expired deadline (env.mono 1) ∧ s' = s ∨
        ∀ x, f = .refused x → x.code = "storage_error" ∨ x.code = "token_issue_failed") := by
  simp only [complete, ends_bind, ends_pure, ends_lift]
  refine (checkDeadline_ends s deadline (env.mono 1)).mono (fun _ s₁ _ => ?_)
    (fun f s₁ h₁ => Or.inl ⟨h₁.2.1, h₁.2.2, h₁.1⟩)
  refine (upsert_refuses s₁ _ _ _ _ _).mono (fun acc s₂ _ => ?_) (fun f s₂ h₂ => Or.inr fun x hx => Or.inl (h₂ x hx))
  cases hs : sign cfg (claims cfg acc.user acc.wallet (env.wall 2)) with
  | ok token => trivial
  | error e =>
    refine Or.inr fun x hx => Or.inr ?_
    cases hx
    exact sign_code hs

theorem enter_fails_ends (h : s.At q t t) (hd : t.NoncesDiffer) {cfg : Config} (env : Conditions) {r : Request}
    (deadline : Option Int) {k : Kind} {a : String} (hp : Presents r k a) :
    Ends (enter cfg env r deadline k (some a)) s (fun _ _ => True)
      (fun f s' => Fails cfg env r deadline t f s'.stored) := by
  have hown : (subject k (some a)).owner? = some ⟨k.name, a⟩ := rfl
  simp only [enter, ends_bind]
  refine (checkDeadline_ends s deadline (env.mono 0)).mono (fun _ s₁ h₁ => ?_) (fun f s₁ h₁ => ?_)
  case refine_2 =>
    obtain ⟨rfl, rfl, he⟩ := h₁
    rw [h.stored]
    exact .late he
  obtain ⟨rfl, hin⟩ := h₁
  refine (Nonces.consume_ends h hd _ _ _).mono (fun _ s₂ h₂ => ?_) (fun f s₂ h₂ => ?_)
  case refine_2 =>
    rw [h₂.1.stored]
    exact .unspent (h₂.2.imp And.left (Or.imp And.left And.left))
  obtain ⟨o, n, ho, hn, hlive, -, h₂⟩ := h₂
  obtain rfl : Owner.mk k.name a = o := Option.some.inj (hown.symm.trans ho)
  obtain rfl : trimmed r.nonce = n := Option.some.inj hn
  refine (complete_fails_ends s₂ cfg env r deadline k (some a)).mono (fun _ _ _ => trivial) (fun f s₃ h₃ => ?_)
  rcases h₃ with ⟨rfl, he, rfl⟩ | hx
  · rw [h₂.stored]
    exact .lateBehind hp hlive hin he
  · exact .unfinished hx

theorem login_fails_ends (h : s.At q t t) (hd : t.NoncesDiffer) (cfg : Config) (env : Conditions) (r : Request)
    (deadline : Option Int) :
    Ends (login cfg env r deadline) s (fun _ _ => True) (fun f s' => Fails cfg env r deadline t f s'.stored) := by
  rw [login_eq]
  simp only [ends_bind, ends_lift]
  cases hv : vet cfg r with
  | error e =>
    dsimp only
    rw [h.stored]
    exact .unchecked hv
  | ok ka =>
    obtain ⟨k, x⟩ := ka
    obtain ⟨-, a, rfl, hp⟩ := vet_eq_ok_iff.mp hv
    exact enter_fails_ends h hd env deadline hp

/-- A challenge that fails has stored nothing, unless its row could not be read again. -/
theorem issue_fails_ends (h : s.At q t t) (cfg : Config) (env : Conditions) (walletType address : Option String)
    (deadline : Option Int) :
    Ends (issue cfg env walletType address deadline) s (fun _ _ => True)
      (fun f s' => (∀ b, f ≠ .storageBroke b) → s'.At q t t) := by
  simp only [issue, ends_bind, ends_pure, ends_lift]
  cases identify walletType address with
  | error e => exact fun _ => h
  | ok ka =>
    dsimp only
    refine (checkDeadline_ends s deadline (env.mono 0)).mono (fun _ s₁ h₁ => ?_) (fun f s₁ h₁ _ => h₁.1 ▸ h)
    obtain ⟨rfl, -⟩ := h₁
    refine (Nonces.create_ends h _ _ _ _).mono (fun _ s₂ h₂ => ?_) (fun f s₂ h₂ _ => h₂.1)
    obtain ⟨o, -, -, h₂⟩ := h₂
    simp only [Nonces.reread, ends_unguarded]
    refine (Store.reload_ends h₂ _).mono (fun _ _ _ => trivial) (fun b s₃ h₃ hb => ?_)
    cases b with
    | fault x => exact absurd rfl (hb x)
    | tooWide => exact h₃.2.1.elim
    | orphan => exact h₃.2.1.elim

end Ends

theorem login_fails {t : Tables} (hd : t.NoncesDiffer) {cfg : Config} {env : Conditions} {r : Request}
    {deadline : Option Int} {f : Failure} (hf : ((Event.mk cfg env (.login r deadline)).outcome t).answer = .error f) :
    Fails cfg env r deadline t f ((Event.mk cfg env (.login r deadline)).outcome t).tables := by
  have hends : Ends (serve cfg env (.login r deadline)) (Session.opened t env.faults) (fun _ _ => True)
      (fun f s' => Fails cfg env r deadline t f s'.stored) := by
    simp only [serve, ends_map]
    exact login_fails_ends (Session.at_opened t env.faults) hd cfg env r deadline
  obtain ⟨s, ht, h⟩ := perform_fails hends hf
  show Fails cfg env r deadline t f (perform (serve cfg env (.login r deadline)) env.faults t).tables
  rw [ht]
  exact h

theorem issue_fails {t : Tables} {cfg : Config} {env : Conditions} {walletType address : Option String}
    {deadline : Option Int} {f : Failure}
    (hf : ((Event.mk cfg env (.issue walletType address deadline)).outcome t).answer = .error f)
    (hb : ∀ b, f ≠ .storageBroke b) : ((Event.mk cfg env (.issue walletType address deadline)).outcome t).tables = t := by
  have hends : Ends (serve cfg env (.issue walletType address deadline)) (Session.opened t env.faults) (fun _ _ => True)
      (fun f s' => (∀ b, f ≠ .storageBroke b) → s'.At env.faults.Quiet t t) := by
    simp only [serve, ends_map]
    exact issue_fails_ends (Session.at_opened t env.faults) cfg env walletType address deadline
  obtain ⟨s, ht, h⟩ := perform_fails hends hf
  exact ht.trans (h hb).stored

/-! ## Rejections -/

/-- The codes with which a login is refused before anything is stored. -/
def rejections : List String := checks ++ ["invalid_or_expired_nonce"]

section Fails

variable {cfg : Config} {env : Conditions} {r : Request} {deadline : Option Int} {t t' : Tables}

theorem Fails.rejected {x : Refusal} (h : Fails cfg env r deadline t (.refused x) t') (hx : x.code ∈ rejections) :
    t' = t := by
  cases h with
  | unchecked _ => rfl
  | late _ => rfl
  | unspent _ => rfl
  | lateBehind _ _ _ _ => exact absurd hx (by decide)
  | unfinished hc =>
    rcases hc x rfl with hc | hc
    · exact absurd (hc ▸ hx) (by decide)
    · exact absurd (hc ▸ hx) (by decide)

/-- Out of time before the spending, or behind it. -/
theorem Fails.late_cases (h : Fails cfg env r deadline t (.refused .deadline) t') :
    Expired deadline (env.mono 0) ∧ t' = t ∨ ¬ Expired deadline (env.mono 0) ∧ Expired deadline (env.mono 1) ∧
      ∃ k a, Presents r k a ∧ t.Redeemable ⟨k.name, a⟩ (trimmed r.nonce) (env.wall 0) ∧
        t' = t.spend ⟨k.name, a⟩ (trimmed r.nonce) (env.wall 0) := by
  cases h with
  | unchecked hv => exact absurd (vet_code hv) (by decide)
  | late he => exact Or.inl ⟨he, rfl⟩
  | unspent hu =>
    rcases hu with hu | hu | hu
    · cases hu
    · cases hu
    · cases hu
  | lateBehind hp hr hin he => exact Or.inr ⟨hin, he, _, _, hp, hr, rfl⟩
  | unfinished hc =>
    rcases hc _ rfl with hc | hc
    · exact absurd hc (by decide)
    · exact absurd hc (by decide)

end Fails

/-- On any tables in which every nonce has one row: a login that is refused before its
nonce is spent changes nothing; a challenge that fails changes nothing, unless it fails at
the reading again of the row that it stored; and its session is idle then, so that no
later commit stores anything of it. -/
theorem rejections_leave_no_trace {t : Tables} (hd : t.NoncesDiffer) (cfg : Config) (env : Conditions) :
    (∀ r deadline x, ((Event.mk cfg env (.login r deadline)).outcome t).answer = .error (.refused x) →
      x.code ∈ rejections → ((Event.mk cfg env (.login r deadline)).outcome t).tables = t) ∧
    (∀ walletType address deadline f,
      ((Event.mk cfg env (.issue walletType address deadline)).outcome t).answer = .error f →
      (∀ b, f ≠ .storageBroke b) → ((Event.mk cfg env (.issue walletType address deadline)).outcome t).tables = t) ∧
    ∀ walletType address deadline f s s', s.Idle t → issue cfg env walletType address deadline s = (.error f, s') →
      (∀ b, f ≠ .storageBroke b) → s'.Idle t ∧ (∀ s'', Store.commit s' = (.ok (), s'') → s''.stored = t) ∧
        ∀ change s'', Store.commitWith change s' = (.ok (), s'') → change t = .ok s''.stored := by
  refine ⟨?_, ?_, ?_⟩
  · intro r deadline x hx hcode
    exact (login_fails hd hx).rejected hcode
  · intro walletType address deadline f hf hb
    exact issue_fails hf hb
  · intro walletType address deadline f s s' hs hf hb
    have hidle := (((issue_fails_ends hs.at cfg env walletType address deadline).of_error hf) hb).idle
    refine ⟨hidle, ?_, ?_⟩
    · intro s'' hc
      exact Store.commit_idle hidle hc
    · intro change s'' hc
      exact Store.commitWith_idle hidle hc

namespace FailedChallenge

open Strangers (tables)

/-- The commit of a new challenge fails before the row is written. -/
def conditions : Conditions :=
  { LaterLogins.conditions 1 "short" "" with faults := { plan := fun p => if p = .commit then [some .operational] else [] } }

def call : Event := ⟨FirstLogin.config, conditions, .issue (some "solana") (some FirstLogin.address) none⟩

/-- The challenge's work, in a session of its own. -/
def work : Except Failure Challenge × Session :=
  issue FirstLogin.config conditions (some "solana") (some FirstLogin.address) none (Session.opened tables conditions.faults)

theorem work_ends : work.1 = .error (.refused .storage) ∧ (Store.commit work.2).1 = .ok () := by
  have hnamed : identify (some "solana") (some FirstLogin.address) = .ok (.solana, some FirstLogin.address) :=
    FirstLogin.presents.named
  rw [work, issue, hnamed]
  decide

theorem work_fails : work = (.error (.refused .storage), work.2) := Prod.ext work_ends.1 rfl

theorem commits_later : Store.commit work.2 = (.ok (), (Store.commit work.2).2) := Prod.ext work_ends.2 rfl

theorem call_fails : (call.outcome tables).answer = .error (.refused .storage) := by
  have hrun := run_map (issue FirstLogin.config conditions (some "solana") (some FirstLogin.address) none)
    Answer.challenge (Session.opened tables conditions.faults)
  rw [show issue _ _ _ _ _ _ = work from rfl, work_fails] at hrun
  exact congrArg Prod.fst hrun

end FailedChallenge

/-- A forged login and a challenge whose commit fails leave the tables as they were, and the
next commit of the session does not store the row that the challenge had laid aside. -/
theorem failed_challenge_is_not_stored_later :
    ((LaterLogins.answer 1 "" Strangers.forged).outcome Strangers.tables).tables = Strangers.tables ∧
      (FailedChallenge.call.outcome Strangers.tables).tables = Strangers.tables ∧
      (Store.commit FailedChallenge.work.2).2.stored = Strangers.tables := by
  obtain ⟨hlogin, -, -⟩ := rejections_leave_no_trace Strangers.sound.differ FirstLogin.config
    (LaterLogins.conditions 1 "" "")
  obtain ⟨-, hissue, hsession⟩ := rejections_leave_no_trace Strangers.sound.differ FirstLogin.config
    FailedChallenge.conditions
  have hstorage : ∀ b, Failure.refused .storage ≠ .storageBroke b := by simp
  refine ⟨?_, ?_, ?_⟩
  · exact hlogin Strangers.forged none .signature (by decide +kernel) (by decide)
  · exact hissue _ _ _ _ FailedChallenge.call_fails hstorage
  · obtain ⟨-, hcommit, -⟩ := hsession _ _ _ _ _ _ (Session.idle_opened _ _) FailedChallenge.work_fails hstorage
    exact hcommit _ FailedChallenge.commits_later

/-- Without a rollback the row would lie in wait for the next commit. -/
theorem unguarded_challenge_is_stored_later :
    let row : NonceRow := ⟨"short", ⟨"solana", FirstLogin.address⟩, 1, 601, none⟩
    let s := (Store.commitWith (Nonces.insert (some row.owner) row.nonce 1 601)
      (Session.opened Strangers.tables FailedChallenge.conditions.faults)).2
    s.stored = Strangers.tables ∧ (Store.commit s).2.stored = Strangers.tables.withNonce row := by
  decide +kernel

/-! ## Deadlines -/

/-- A login that starts from the signed request of a wallet. -/
theorem outcome_of_presents {cfg : Config} {env : Conditions} {r : Request} {deadline : Option Int} {k : Kind} {a : String}
    (hc : cfg.secret ≠ "") (hp : Presents r k a) (t : Tables) : (Event.mk cfg env (.login r deadline)).outcome t =
      perform (.result <$> enter cfg env r deadline k (some a)) env.faults t := by
  have hv : vet cfg r = .ok (k, some a) := vet_eq_ok_iff.mpr ⟨hc, a, rfl, hp⟩
  unfold Event.outcome
  simp only [serve, login_eq, hv, lift_ok_bind]

/-- Of the tables only the row changed, which is consumed now. -/
def Consumed (row : NonceRow) (now : Int) (t t' : Tables) : Prop :=
  t'.users = t.users ∧ t'.wallets = t.wallets ∧
    t'.nonces = t.nonces.map fun x => if x.nonce = row.nonce then { x with consumedAt := some now } else x

theorem consumed_spend {t : Tables} (hd : t.NoncesDiffer) {row : NonceRow} (hr : row ∈ t.nonces) {o : Owner} {now : Int}
    (hl : row.isLive o now = true) : Consumed row now t (t.spend o row.nonce now) :=
  ⟨rfl, rfl, spend_nonces_eq hd hr hl⟩

/-- A login that is out of time before it spends its nonce changes nothing, so that the
nonce can still be redeemed while it lasts. One whose time runs out while it spends its
nonce, that is between its two looks at the clock, consumes that row and does nothing
else. -/
theorem late_logins_spend_at_most_their_nonce {t : Tables} (hd : t.NoncesDiffer) {cfg : Config} {env : Conditions}
    {r : Request} {deadline : Option Int}
    (hf : ((Event.mk cfg env (.login r deadline)).outcome t).answer = .error (.refused .deadline)) :
    let t' := ((Event.mk cfg env (.login r deadline)).outcome t).tables
    (Expired deadline (env.mono 0) ∧ t' = t ∧
      (Sound t → ∀ row ∈ t'.nonces, row.consumedAt = none → row.nonce ≠ "" →
        ∀ cfg' env' r' deadline' k, SignedFor r' k row → Unhindered env'.faults.Quiet cfg' env' deadline' t' →
          env'.wall 0 < row.expiresAt →
          ∃ res, ((Event.mk cfg' env' (.login r' deadline')).outcome t').answer = .ok (.result res))) ∨
    (¬ Expired deadline (env.mono 0) ∧ Expired deadline (env.mono 1) ∧ ∃ k row, SignedFor r k row ∧ row ∈ t.nonces ∧
      row.consumedAt = none ∧ env.wall 0 < row.expiresAt ∧ Consumed row (env.wall 0) t t') := by
  intro t'
  rcases (login_fails hd hf).late_cases with ⟨he, ht⟩ | ⟨hin, he, k, a, hp, ⟨row, hr, hn, hl⟩, ht⟩
  · have ht' : t' = t := ht
    refine Or.inl ⟨he, ht', ?_⟩
    rw [ht']
    intro hs row hr hc hn cfg' env' r' deadline' k hsig hu htime
    obtain ⟨res, ha, -⟩ := hs.owner_logs_in hr hc hn hsig hu htime
    exact ⟨res, ha⟩
  · obtain ⟨-, hc, htime⟩ := NonceRow.isLive_iff.mp hl
    have ht' : t' = t.spend ⟨k.name, a⟩ row.nonce (env.wall 0) := by
      rw [hn]
      exact ht
    refine Or.inr ⟨hin, he, k, row, hp.signedFor rfl hn hl, hr, hc, htime, ?_⟩
    rw [ht']
    exact consumed_spend hd hr hl

namespace LateLogin

open FirstLogin (config request)
open Strangers (tables)

/-- The second 1, with readings of the monotonic clock of its own. -/
def conditions (mono : Nat → Int) : Conditions := { FirstLogin.conditions 1 with mono := mono }

/-- The first login, with time until the reading 50. -/
abbrev call (mono : Nat → Int) : Event := ⟨config, conditions mono, .login request (some 50)⟩

theorem outcome_eq (mono : Nat → Int) : (call mono).outcome tables =
    perform (.result <$> enter config (conditions mono) request (some 50) .solana (some FirstLogin.address)) {} tables :=
  outcome_of_presents (by decide) FirstLogin.presents tables

/-- No time is left from the first look at the clock on. -/
theorem late_answer : ((call fun _ => 100).outcome tables).answer = .error (.refused .deadline) := by
  rw [outcome_eq]
  rfl

end LateLogin

/-- A login that is out of time from the start can be tried again. -/
theorem late_login_is_tried_again :
    ((LateLogin.call fun _ => 100).outcome Strangers.tables).answer = .error (.refused .deadline) ∧
      ∃ res, ((FirstLogin.answers 5).outcome ((LateLogin.call fun _ => 100).outcome Strangers.tables).tables).answer =
        .ok (.result res) := by
  have hs := Strangers.sound
  refine ⟨LateLogin.late_answer, ?_⟩
  rcases late_logins_spend_at_most_their_nonce hs.differ LateLogin.late_answer with ⟨-, ht, hagain⟩ | ⟨hin, -⟩
  · rw [ht] at hagain ⊢
    have hu : Unhindered (FirstLogin.conditions 5).faults.Quiet FirstLogin.config (FirstLogin.conditions 5) none
        Strangers.tables :=
      FirstLogin.unhindered Faults.quiet_default (fun _ => rfl) rfl (by decide) (by decide) (by decide)
    exact hagain hs Strangers.row (List.mem_singleton_self _) rfl (by decide) _ _ _ _ _ Strangers.signed hu (by decide)
  · exact absurd (expired_some_iff.mpr (by decide)) hin

/-- A login whose time runs out between its two looks at the clock is refused as out of
time, and its nonce is consumed. -/
theorem deadline_between_the_commits_costs_the_nonce :
    let mono : Nat → Int := fun i => if i = 0 then 0 else 100
    mono 0 ≤ mono 1 ∧
      ((LateLogin.call mono).outcome Strangers.tables).answer = .error (.refused .deadline) ∧
      ((LateLogin.call mono).outcome Strangers.tables).tables = ⟨[{ Strangers.row with consumedAt := some 1 }], [], []⟩ ∧
      ((LateLogin.call mono).outcome Strangers.tables).tables ≠ Strangers.tables := by
  intro mono
  have hleft : ((LateLogin.call mono).outcome Strangers.tables).tables =
      ⟨[{ Strangers.row with consumedAt := some 1 }], [], []⟩ := by
    rw [LateLogin.outcome_eq]
    decide +kernel
  refine ⟨by decide, ?_, hleft, ?_⟩
  · rw [LateLogin.outcome_eq]
    decide +kernel
  · rw [hleft]
    decide

end WalletLogin.Login
