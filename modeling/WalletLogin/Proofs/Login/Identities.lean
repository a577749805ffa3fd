/-
  WalletLogin.Proofs.Login.Identities — the tables in every state that the service
  reaches.

  A call meets any inputs, clock readings, drawn texts and faults. It leaves the tables
  as they were, or with a challenge stored, or with a nonce spent and perhaps an account
  settled (`Leaves`). The tables are `Sound`: nonces differ, the accounts are in order,
  a wallet has spent a nonce of its own, and a nonce was spent in its time.

  Proved:
  - `outcome_spec`: all that one call can do on sound tables.
  - `Leaves.sound`, `sound_after`: so the tables are sound after every run.
  - `identities_hold`: what that says of owners, wallets, users and nonces, row by row;
    and that no call met a wallet without its user.
-/

import Mathlib.Data.List.Count
import WalletLogin.Proofs.Login.Health
import WalletLogin.Proofs.Token.Expiry

namespace WalletLogin.Login

open Ledger Procedure Wallet History

/-! ## One call -/

structure Sound (t : Tables) : Prop where
  differ : t.NoncesDiffer
  accounts : t.Accounts
  /-- A wallet has spent a nonce of its own. -/
  earned : ∀ w ∈ t.wallets, ∃ r ∈ t.nonces, r.owner = w.owner ∧ r.consumedAt.isSome
  /-- A nonce was spent before its time was over. -/
  inTime : ∀ r ∈ t.nonces, ∀ c, r.consumedAt = some c → c < r.expiresAt

/-- What a call leaves of the tables. -/
inductive Leaves (e : Event) (t : Tables) : Tables → Prop
  | nothing : Leaves e t t
  | challenge {walletType address : Option String} {deadline : Option Int} {o : Owner} {t' : Tables} :
      e.call = .issue walletType address deadline → Challenges e.config e.conditions walletType address o t t' →
      Leaves e t t'
  | redeemed {r : Request} {deadline : Option Int} {o : Owner} {t' : Tables} :
      e.call = .login r deadline → Redeems e.config e.conditions r o t t' → Leaves e t t'

/-- What a call answers, and what it leaves then. -/
inductive Answered (e : Event) (t t' : Tables) : Except Failure Answer → Prop
  | challenge {walletType address : Option String} {deadline : Option Int} {o : Owner} {c : Challenge} :
      e.call = .issue walletType address deadline → Challenges e.config e.conditions walletType address o t t' →
      Answered e t t' (.ok (.challenge c))
  | result {r : Request} {deadline : Option Int} {o : Owner} {res : Result} :
      e.call = .login r deadline → LogsIn e.config e.conditions r o t t' res → Answered e t t' (.ok (.result res))
  | profile {userId : Option String} {p : Option Users.Profile} :
      e.call = .profile userId → t' = t → Answered e t t' (.ok (.profile p))
  | error {f : Failure} : f ≠ .orphanWallet → Leaves e t t' →
      (∀ r deadline, e.call = .login r deadline → Unhindered e.conditions.faults.Quiet e.config e.conditions deadline t →
        ∀ k a, Presents r k a → ¬ t.Redeemable ⟨k.name, a⟩ (trimmed r.nonce) (e.conditions.wall 0)) →
      Answered e t t' (.error f)

theorem Answered.leaves {e : Event} {t t' : Tables} {a : Except Failure Answer} (h : Answered e t t' a) : Leaves e t t' := by
  cases h with
  | challenge hc h => exact .challenge hc h
  | result hc h => exact .redeemed hc h.redeems
  | profile _ h => exact h ▸ .nothing
  | error _ h _ => exact h

theorem serve_ends {t : Tables} (h : Sound t) (e : Event) {s : Session} (hs : s.At e.conditions.faults.Quiet t t) :
    Ends (serve e.config e.conditions e.call) s
      (fun a s' => ∃ t', Answered e t t' (.ok a) ∧ s'.At e.conditions.faults.Quiet t' t')
      (fun f s' => ∃ t', Answered e t t' (.error f) ∧ s'.At e.conditions.faults.Quiet t' t') := by
  cases hc : e.call with
  | issue walletType address deadline =>
    simp only [serve, ends_map]
    refine (issue_ends hs h.differ e.config e.conditions walletType address deadline).mono
      (fun c s' h' => ?_) (fun f s' h' => ?_)
    · obtain ⟨-, o, t', hch, h'⟩ := h'
      exact ⟨t', .challenge hc hch, h'⟩
    · obtain ⟨hf, t', ht', h'⟩ := h'
      refine ⟨t', .error hf ?_ (fun r d hl => by rw [hc] at hl; cases hl), h'⟩
      rcases ht' with rfl | ⟨o, hch⟩
      · exact .nothing
      · exact .challenge hc hch
  | login r deadline =>
    simp only [serve, ends_map]
    refine (login_ends hs h.differ h.accounts e.config e.conditions r deadline).mono
      (fun res s' h' => ?_) (fun f s' h' => ?_)
    · obtain ⟨o, t', hl, h'⟩ := h'
      exact ⟨t', .result hc hl, h'⟩
    · obtain ⟨hf, hu, t', ht', h'⟩ := h'
      refine ⟨t', .error hf ?_ (fun r' d' hl => ?_), h'⟩
      · rcases ht' with rfl | ⟨o, hr⟩
        · exact .nothing
        · exact .redeemed hc hr
      · rw [hc] at hl
        cases hl
        exact hu
  | profile userId =>
    simp only [serve, ends_map]
    exact (profile_ends hs userId).mono (fun p s' h' => ⟨t, .profile hc rfl, h'.2⟩)
      (fun f s' h' => ⟨t, .error h'.1 .nothing (fun r d hl => by rw [hc] at hl; cases hl), h'.2.2⟩)

/-- All that one call can do on sound tables. -/
theorem outcome_spec {t : Tables} (h : Sound t) (e : Event) : Answered e t (e.outcome t).tables (e.outcome t).answer := by
  obtain ⟨s, ht, ⟨a, ha, t', h', hs⟩ | ⟨f, hf, t', h', hs⟩⟩ := perform_ends (serve_ends h e (Session.at_opened t _))
  · show Answered e t (perform (serve e.config e.conditions e.call) e.conditions.faults t).tables _
    rw [ht, hs.stored]
    exact (show (e.outcome t).answer = .ok a from ha) ▸ h'
  · show Answered e t (perform (serve e.config e.conditions e.call) e.conditions.faults t).tables _
    rw [ht, hs.stored]
    exact (show (e.outcome t).answer = .error f from hf) ▸ h'

/-- A login that returns a result logs its wallet in. -/
theorem Sound.logsIn {t : Tables} (h : Sound t) {e : Event} {r : Request} {deadline : Option Int} {res : Result}
    (hc : e.call = .login r deadline) (ha : (e.outcome t).answer = .ok (.result res)) :
    ∃ o, LogsIn e.config e.conditions r o t (e.outcome t).tables res := by
  have hs := outcome_spec h e
  rw [ha] at hs
  cases hs with
  | result hc' hl =>
    cases hc.symm.trans hc'
    exact ⟨_, hl⟩

/-- A login returns a result, or had something in its way, or was not to succeed. -/
theorem login_cases {t : Tables} (h : Sound t) (cfg : Config) (env : Conditions) (r : Request) (deadline : Option Int) :
    (∃ res o, ((Event.mk cfg env (.login r deadline)).outcome t).answer = .ok (.result res) ∧
        LogsIn cfg env r o t ((Event.mk cfg env (.login r deadline)).outcome t).tables res) ∨
      ∃ f, ((Event.mk cfg env (.login r deadline)).outcome t).answer = .error f ∧
        (Unhindered env.faults.Quiet cfg env deadline t →
          ∀ k a, Presents r k a → ¬ t.Redeemable ⟨k.name, a⟩ (trimmed r.nonce) (env.wall 0)) := by
  have hs := outcome_spec h ⟨cfg, env, .login r deadline⟩
  generalize ha : ((Event.mk cfg env (.login r deadline)).outcome t).answer = a at hs
  cases hs with
  | challenge hc => cases hc
  | result hc hl =>
    cases hc
    exact Or.inl ⟨_, _, rfl, hl⟩
  | profile hc => cases hc
  | error _ _ hu => exact Or.inr ⟨_, rfl, hu r deadline rfl⟩

/-- The signed request of the wallet logs it in, where nothing is in the way and its nonce
is live. -/
theorem Sound.login_succeeds {t : Tables} (h : Sound t) {cfg : Config} {env : Conditions} {r : Request}
    {deadline : Option Int} (hu : Unhindered env.faults.Quiet cfg env deadline t) {k : Kind} {a : String}
    (hp : Presents r k a) (hr : t.Redeemable ⟨k.name, a⟩ (trimmed r.nonce) (env.wall 0)) :
    ∃ res, ((Event.mk cfg env (.login r deadline)).outcome t).answer = .ok (.result res) ∧
      LogsIn cfg env r ⟨k.name, a⟩ t ((Event.mk cfg env (.login r deadline)).outcome t).tables res := by
  rcases login_cases h cfg env r deadline with ⟨res, ⟨w, a'⟩, ha, hl⟩ | ⟨f, -, hn⟩
  · obtain ⟨k', hp', rfl⟩ := hl.presented
    obtain ⟨rfl, rfl⟩ := hp.unique hp'
    exact ⟨res, ha, hl⟩
  · exact absurd hr (hn hu k a hp)

/-- A login returns a result only at a reading that a column holds. -/
theorem Sound.fits_of_result {t : Tables} (h : Sound t) {cfg : Config} {env : Conditions} {r : Request}
    {deadline : Option Int} {res : Result}
    (ha : ((Event.mk cfg env (.login r deadline)).outcome t).answer = .ok (.result res)) : fits (env.wall 0) = true := by
  rcases login_cases h cfg env r deadline with ⟨_, o, -, hl⟩ | ⟨f, hf, -⟩
  · exact hl.fits
  · rw [ha] at hf
    cases hf

/-! ## Soundness -/

theorem sound_empty : Sound Tables.empty where
  differ := List.nodup_nil
  accounts := Tables.accounts_empty
  earned w hw := by cases hw
  inTime r hr := by cases hr

section Sound

variable {t t' : Tables}

/-- A fresh row is not consumed. -/
theorem Sound.challenge (h : Sound t) {cfg : Config} {env : Conditions} {walletType address : Option String} {o : Owner}
    (hc : Challenges cfg env walletType address o t t') : Sound t' := by
  obtain ⟨-, hn, rfl⟩ := hc
  refine ⟨Tables.withNonce_differ h.differ hn, h.accounts.withNonce _, fun w hw => ?_, fun r hr c hrc => ?_⟩
  · obtain ⟨r, hr, hro⟩ := h.earned w hw
    exact ⟨r, List.mem_append_left _ hr, hro⟩
  · rcases List.mem_append.mp hr with hr | hr
    · exact h.inTime r hr c hrc
    · rw [List.mem_singleton.mp hr] at hrc
      cases hrc

/-- The row that a redeeming login leaves. -/
theorem spent_row {o : Owner} {n : String} {now : Int} (hl : t.Redeemable o n now) :
    ∃ r ∈ (t.spend o n now).nonces, r.owner = o ∧ r.nonce = n ∧ r.consumedAt = some now := by
  obtain ⟨r, hr, hn, hlive⟩ := hl
  refine ⟨_, Tables.mem_spend.mpr ⟨r, hr, rfl⟩, ?_, ?_, ?_⟩
  · rw [NonceRow.marked_owner, (NonceRow.isLive_iff.mp hlive).1]
  · rw [NonceRow.marked_nonce, hn]
  · rw [NonceRow.marked, if_pos ⟨hn, hlive⟩]

theorem Sound.spend (h : Sound t) (o : Owner) (n : String) (now : Int) : Sound (t.spend o n now) := by
  refine ⟨Tables.spend_differ h.differ o n now, h.accounts.spend o n now, fun w hw => ?_, fun r' hr' c hc => ?_⟩
  · obtain ⟨r, hr, hro, hrc⟩ := h.earned w hw
    have hg := r.ages_marked o n now
    exact ⟨_, Tables.mem_spend.mpr ⟨r, hr, rfl⟩, hg.owner.trans hro, by rw [hg.consumed hrc]; exact hrc⟩
  · obtain ⟨r, hr, rfl⟩ := Tables.mem_spend.mp hr'
    rw [NonceRow.marked_expiresAt]
    by_cases hl : r.nonce = n ∧ r.isLive o now = true
    · rw [NonceRow.marked, if_pos hl, Option.some.injEq] at hc
      rw [← hc]
      exact (NonceRow.isLive_iff.mp hl.2).2.2
    · rw [NonceRow.marked, if_neg hl] at hc
      exact h.inTime r hr c hc

/-- Settling adds no wallet but that of the owner, who has spent a nonce. -/
theorem Sound.settles (h : Sound t) {o : Owner} {key : Option String} {role userId : String} {now : Int}
    (hs : Tables.Settles o key role userId now t t') (ho : ∃ r ∈ t.nonces, r.owner = o ∧ r.consumedAt.isSome) :
    Sound t' := by
  have hn := hs.nonces
  refine ⟨?_, hs.accounts h.accounts, fun w hw => ?_, fun r hr => ?_⟩
  · unfold Tables.NoncesDiffer
    rw [hn]
    exact h.differ
  · rw [hn]
    by_cases hwo : w.owner = o
    · rw [hwo]
      exact ho
    · exact h.earned w ((hs.wallets_frame h.accounts hwo).mp hw)
  · rw [hn] at hr
    exact h.inTime r hr

theorem Sound.redeemed (h : Sound t) {cfg : Config} {env : Conditions} {r : Request} {o : Owner}
    (hr : Redeems cfg env r o t t') : Sound t' := by
  have hsp := h.spend o (trimmed r.nonce) (env.wall 0)
  rcases hr.left with rfl | ⟨o', ho', hs⟩
  · exact hsp
  · obtain rfl : o = o' := Option.some.inj ho'
    obtain ⟨row, hrow, hown, -, hc⟩ := spent_row hr.live
    exact hsp.settles hs ⟨row, hrow, hown, by rw [hc]; rfl⟩

theorem Leaves.sound {e : Event} (hl : Leaves e t t') (h : Sound t) : Sound t' := by
  cases hl with
  | nothing => exact h
  | challenge _ hc => exact h.challenge hc
  | redeemed _ hr => exact h.redeemed hr

end Sound

theorem sound_after (es : List Event) : Sound (after Event.outcome es) := by
  induction es using List.reverseRecOn with
  | nil => exact sound_empty
  | append_singleton es e ih =>
    rw [after_snoc]
    exact (outcome_spec ih e).leaves.sound ih

/-! ## The tables of a run -/

/-- After every run: owners of wallets differ; every wallet has its user, whose row carries
the same times; every user has one wallet; a wallet has spent a nonce of its own; a nonce
was spent in its time. No call met a wallet without its user. -/
theorem identities_hold (es : List Event) :
    let t := (run es Tables.empty).2
    (t.wallets.map (·.owner)).Nodup ∧
    (∀ w ∈ t.wallets, ∃ u ∈ t.users, u.id = w.userId ∧ u.createdAt = w.createdAt ∧ u.lastLoginAt = w.lastLoginAt) ∧
    (t.users.map (·.id)).Nodup ∧
    (∀ u ∈ t.users, (t.wallets.map (·.userId)).count u.id = 1) ∧
    (∀ w ∈ t.wallets, ∃ r ∈ t.nonces, r.owner = w.owner ∧ r.consumedAt.isSome) ∧
    (∀ r ∈ t.nonces, ∀ c, r.consumedAt = some c → c < r.expiresAt) ∧
    ∀ a ∈ (run es Tables.empty).1, a ≠ .error .orphanWallet := by
  intro t
  have h : Sound t := by
    show Sound (run es Tables.empty).2
    rw [run_tables]
    exact sound_after es
  clear_value t
  refine ⟨h.accounts.owners, h.accounts.hasUser, h.accounts.userIds, fun u hu => ?_, h.earned, h.inTime, fun a ha => ?_⟩
  · obtain ⟨w, hw, hid⟩ := h.accounts.hasWallet u hu
    exact List.count_eq_one_of_mem h.accounts.holders (List.mem_map.mpr ⟨w, hw, hid⟩)
  · obtain ⟨i, e, -, rfl⟩ := answers_of_mem ha
    intro ho
    have hsp := outcome_spec (sound_after (es.take i)) e
    rw [ho] at hsp
    cases hsp with
    | error hf => exact hf rfl

/-! ## A first login -/

namespace FirstLogin

def config : Config := ⟨"secret", "HS256", 600, 900, none⟩

def conditions (now : Int) : Conditions := ⟨fun _ => now, fun _ => 0, "abc123", "user", {}⟩

def address : String := "Ejija96QuS9y1KfC22m8bXDg5ZWE5EMSqg43xos2XLe3"

def request : Request :=
  ⟨some "solana", some address, some "abc123",
    some "V8jcAQt9KPuexNjmcL9Bmg7XUkTdpYidg7y4vSeYPbbnTg7LucYEKRQ1CNShqQgSgF9BiNJpE74jLBiu4Fwwex7", none⟩

/-- A challenge at the second 0. -/
def asks : Event := ⟨config, conditions 0, .issue (some "solana") (some address) none⟩

/-- The login that answers it. -/
def answers (now : Int) : Event := ⟨config, conditions now, .login request none⟩

theorem presents : Presents request .solana address where
  named := by decide +kernel
  nonce := by decide
  signature := by decide
  signed := by decide +kernel

theorem after_asks : after Event.outcome [asks] = Tables.empty.withNonce ⟨"abc123", ⟨"solana", address⟩, 0, 600, none⟩ := by
  rw [← List.nil_append [asks], after_snoc]
  exact tables_of_issue (expired_none _) (by decide) (by decide) Faults.quiet_default sound_empty.differ presents.named rfl

theorem redeemable {now : Int} (h : now < 600) :
    (after Event.outcome [asks]).Redeemable ⟨Kind.solana.name, address⟩ (trimmed request.nonce) now := by
  rw [after_asks]
  exact ⟨_, List.mem_singleton_self _, by decide, NonceRow.isLive_iff.mpr ⟨rfl, rfl, h⟩⟩

theorem signs {c : Token.Claims} (h : Token.Issue.fits c.issuedAt = true) (h' : Token.Issue.fits c.expiresAt = true) :
    Token.Issue.issue config.secret config.algorithm c = .ok (Token.Issue.token .hs256 config.secret c) := by
  have hp : Token.Secret.prepare config.secret config.algorithm = .ok .hs256 := Token.Secret.prepare_plain
  have hs : config.secret ≠ "" := by decide
  simp only [Token.Issue.issue, hs, if_false, h, h', Bool.and_self, Bool.not_true, Bool.false_eq_true, hp]

/-- A quiet call of any client has nothing in its way but its request. -/
theorem unhindered {env : Conditions} {t : Tables} {now : Int} (hq : env.faults.Quiet) (hw : ∀ i, env.wall i = now)
    (hid : t.findUser? env.userId = none) (hf : fits now = true) (h : Token.Issue.fits now = true)
    (h' : Token.Issue.fits (now + 900) = true) : Unhindered env.faults.Quiet config env none t where
  quiet := hq
  fits := by
    rw [hw 0, hw 1]
    exact ⟨hf, hf⟩
  inTime := ⟨expired_none _, expired_none _⟩
  newUser := hid
  signs u w := by
    rw [hw 2]
    refine ⟨Token.Issue.token .hs256 config.secret (claims config u w now), ?_⟩
    unfold sign
    rw [signs h h']

theorem newUser_asks (now : Int) : (after Event.outcome [asks]).findUser? (conditions now).userId = none := by
  rw [after_asks]
  rfl

def calls : List Event := [asks, answers 1]

theorem calls_eq : calls = [asks] ++ [answers 1] := rfl

theorem logs_in : ∃ res o, Answers Event.outcome calls 1 (answers 1) (.ok (.result res)) ∧
    LogsIn config (conditions 1) request o (after Event.outcome [asks]) (after Event.outcome calls) res := by
  rw [calls_eq, after_snoc]
  have hu : Unhindered (conditions 1).faults.Quiet config (conditions 1) none (after Event.outcome [asks]) :=
    unhindered Faults.quiet_default (fun _ => rfl) (newUser_asks 1) (by decide) (by decide) (by decide)
  obtain ⟨res, ha, hl⟩ := (sound_after [asks]).login_succeeds hu presents (redeemable (by decide))
  exact ⟨res, _, answers_snoc_iff.mpr (Or.inr ⟨rfl, rfl, ha⟩), hl⟩

end FirstLogin

/-- The wallet of a first login has its user and its nonce. -/
theorem first_login_makes_an_identity :
    let t := (run FirstLogin.calls Tables.empty).2
    ∃ w ∈ t.wallets, (∃ u ∈ t.users, u.id = w.userId ∧ u.createdAt = w.createdAt ∧ u.lastLoginAt = w.lastLoginAt) ∧
      ∃ r ∈ t.nonces, r.owner = w.owner ∧ r.consumedAt.isSome := by
  obtain ⟨-, husers, -, -, hnonces, -, -⟩ := identities_hold FirstLogin.calls
  obtain ⟨res, o, -, hl⟩ := FirstLogin.logs_in
  have hw : res.wallet ∈ (run FirstLogin.calls Tables.empty).2.wallets := by
    rw [run_tables]
    exact (Tables.mem_of_findWallet? hl.holds.wallet).1
  exact ⟨res.wallet, hw, husers _ hw, hnonces _ hw⟩

end WalletLogin.Login
