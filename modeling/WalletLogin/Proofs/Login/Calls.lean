/-
  WalletLogin.Proofs.Login.Calls — what a challenge and a login do to the tables, and why
  they fail.

  A login is its checks of the request, which touch no table (`vet`), and then its
  work (`enter`). The work has two commits: the nonce is spent by the first, the account
  settled by the second (`complete`). A login that fails between them has spent its
  nonce.

  Proved, on tables that are in order:
  - `issue_ends`: a challenge stores its row or nothing; it can fail behind the commit.
  - `login_ends`: a login that succeeds had its request signed and its nonce live; a
    login that fails, with nothing in its way, had not.
-/

import WalletLogin.Proofs.Login.Settling
import WalletLogin.Proofs.Login.Spending

namespace WalletLogin.Login

open Ledger Procedure Wallet

/-! ## Requests -/

theorem identify_eq_ok_iff {walletType address : Option String} {k : Kind} {a : Option String} :
    identify walletType address = .ok (k, a) ↔
      Kind.read? (walletType.getD "") = some k ∧ k.normalize address = .ok a := by
  unfold identify
  cases Kind.read? (walletType.getD "") with
  | none => simp
  | some k' =>
    cases hn : k'.normalize address with
    | ok a' =>
      simp only [hn, Except.ok.injEq, Prod.mk.injEq, Option.some.injEq]
      constructor
      · rintro ⟨rfl, rfl⟩
        exact ⟨rfl, hn⟩
      · rintro ⟨rfl, ha⟩
        rw [hn] at ha
        exact ⟨rfl, Except.ok.inj ha⟩
    | error f =>
      simp only [hn, reduceCtorEq, Option.some.injEq, false_iff, not_and]
      rintro rfl
      simp [hn]

/-- What names no wallet is the client's fault, by its code. -/
theorem identify_code {walletType address : Option String} {x : Refusal} (h : identify walletType address = .error x) :
    x.code = "invalid_wallet_type" ∨ x.code = "invalid_address" := by
  unfold identify at h
  split at h
  · cases h
    exact Or.inl rfl
  · split at h
    · cases h
    · cases h
      exact Or.inr rfl

/-- The request names a wallet, and carries a nonce and that wallet's signature over it. -/
structure Presents (r : Request) (k : Kind) (a : String) : Prop where
  named : identify r.walletType r.address = .ok (k, some a)
  nonce : trimmed r.nonce ≠ ""
  signature : trimmed r.signature ≠ ""
  signed : isSigned k (some a) (trimmed r.nonce) (trimmed r.signature) r.publicKey = true

theorem isSigned_iff {k : Kind} {a nonce signature : String} {key : Option String} :
    isSigned k (some a) nonce signature key = true ↔ k.verify a (Message.current nonce) signature key = true ∨
      k.verify a (Message.legacy nonce) signature key = true := by
  simp [isSigned, Message.candidates]

/-- A request presents one wallet. -/
theorem Presents.unique {r : Request} {k k' : Kind} {a a' : String} (h : Presents r k a) (h' : Presents r k' a') :
    k = k' ∧ a = a' := by
  have he := h.named.symm.trans h'.named
  simpa using he

/-- The time allowed for a call is over. -/
def Expired (deadline : Option Int) (reading : Int) : Prop := ∃ d, deadline = some d ∧ d ≤ reading

theorem expired_none (reading : Int) : ¬ Expired none reading := by
  rintro ⟨d, hd, -⟩
  cases hd

theorem expired_some_iff {d reading : Int} : Expired (some d) reading ↔ d ≤ reading := by
  simp [Expired]

theorem checkDeadline_ends (s : Session) (deadline : Option Int) (reading : Int) :
    Ends (checkDeadline deadline reading) s (fun _ s' => s' = s ∧ ¬ Expired deadline reading)
      (fun f s' => s' = s ∧ f = .refused .deadline ∧ Expired deadline reading) := by
  unfold checkDeadline
  cases deadline with
  | none => exact (ends_pure _).mpr ⟨rfl, expired_none reading⟩
  | some d =>
    dsimp only
    split
    · rename_i hd
      exact (ends_refuse _).mpr ⟨rfl, rfl, expired_some_iff.mpr hd⟩
    · rename_i hd
      exact (ends_pure _).mpr ⟨rfl, mt expired_some_iff.mp hd⟩

/-! ## Challenges -/

/-- The row that a challenge stores. -/
def challengeRow (cfg : Config) (env : Conditions) (o : Owner) : NonceRow :=
  ⟨env.nonce, o, env.wall 0, env.wall 0 + cfg.nonceTtl, none⟩

/-- The call stored a challenge for the wallet `o`, under a nonce that was free. -/
structure Challenges (cfg : Config) (env : Conditions) (walletType address : Option String) (o : Owner)
    (t t' : Tables) : Prop where
  named : ∃ k, identify walletType address = .ok (k, some o.address) ∧ o.walletType = k.name
  free : t.findNonce? env.nonce = none
  stored : t' = t.withNonce (challengeRow cfg env o)

section Ends

variable {q : Prop} {t : Tables} {s : Session}

theorem issue_ends (h : s.At q t t) (hd : t.NoncesDiffer) (cfg : Config) (env : Conditions)
    (walletType address : Option String) (deadline : Option Int) :
    Ends (issue cfg env walletType address deadline) s
      (fun c s' => c = ⟨env.nonce, Message.current env.nonce, env.wall 0 + cfg.nonceTtl⟩ ∧
        ∃ o t', Challenges cfg env walletType address o t t' ∧ s'.At q t' t')
      (fun f s' => f ≠ .orphanWallet ∧
        ∃ t', (t' = t ∨ ∃ o, Challenges cfg env walletType address o t t') ∧ s'.At q t' t') := by
  simp only [issue, ends_bind, ends_pure, ends_lift]
  cases hi : identify walletType address with
  | error r => exact ⟨by simp, t, Or.inl rfl, h⟩
  | ok ka =>
    refine (checkDeadline_ends s deadline (env.mono 0)).mono (fun _ s₁ h₁ => ?_) (fun f s₁ h₁ => ?_)
    · obtain ⟨rfl, -⟩ := h₁
      refine (Nonces.create_ends h _ env.nonce (env.wall 0) cfg.nonceTtl).mono (fun _ s₂ h₂ => ?_) (fun f s₂ h₂ => ?_)
      · obtain ⟨o, ho, hn, h₂⟩ := h₂
        obtain ⟨k, a⟩ := ka
        obtain ⟨a, rfl, rfl⟩ : ∃ a', a = some a' ∧ o = ⟨k.name, a'⟩ := by
          cases a with
          | none => cases ho
          | some a => exact ⟨a, rfl, (Option.some.inj ho).symm⟩
        have hc : Challenges cfg env walletType address ⟨k.name, a⟩ t
            (t.withNonce (challengeRow cfg env ⟨k.name, a⟩)) := ⟨⟨k, hi, rfl⟩, hn, rfl⟩
        have hf : (t.withNonce (challengeRow cfg env ⟨k.name, a⟩)).findNonce? env.nonce =
            some (challengeRow cfg env ⟨k.name, a⟩) := Tables.findNonce?_withNonce hd hn
        simp only [Nonces.reread, ends_unguarded]
        refine (Store.reload_ends h₂ _).mono (fun row s₃ h₃ => ?_) (fun b s₃ h₃ => ⟨?_, _, Or.inr ⟨_, hc⟩, h₃.1⟩)
        · obtain rfl : challengeRow cfg env ⟨k.name, a⟩ = row := Option.some.inj (hf.symm.trans h₃.2)
          exact ⟨rfl, _, _, hc, h₃.1⟩
        · exact raised_ne_orphanWallet h₃.2.1.ne_orphan
      · refine ⟨?_, t, Or.inl rfl, h₂.1⟩
        rcases h₂.2 with ⟨rfl, -⟩ | ⟨rfl, -⟩ <;> simp
    · obtain ⟨rfl, rfl, -⟩ := h₁
      exact ⟨by simp, t, Or.inl rfl, h⟩

end Ends

/-! ## Logins -/

/-- The checks of a login that touch no table. -/
def vet (cfg : Config) (r : Request) : Except Refusal (Kind × Option String) :=
  if cfg.secret = "" then .error .notConfigured
  else match identify r.walletType r.address with
    | .error e => .error e
    | .ok (k, a) =>
      if trimmed r.nonce = "" ∨ trimmed r.signature = "" then .error .missingCredentials
      else if isSigned k a (trimmed r.nonce) (trimmed r.signature) r.publicKey then .ok (k, a)
      else .error .signature

/-- The work of a login whose nonce is spent. -/
def complete (cfg : Config) (env : Conditions) (r : Request) (deadline : Option Int) (k : Kind) (a : Option String) :
    Procedure Result := do
  checkDeadline deadline (env.mono 1)
  let account ← Users.upsert (subject k a) r.publicKey cfg.defaultRole env.userId (env.wall 1)
  let token ← lift (sign cfg (claims cfg account.user account.wallet (env.wall 2)))
  return ⟨token, account.user, account.wallet⟩

/-- The work of a login whose request passed the checks. -/
def enter (cfg : Config) (env : Conditions) (r : Request) (deadline : Option Int) (k : Kind) (a : Option String) :
    Procedure Result := do
  checkDeadline deadline (env.mono 0)
  Nonces.consume (subject k a) (some (trimmed r.nonce)) (env.wall 0)
  complete cfg env r deadline k a

theorem lift_ok_bind {α β : Type} (a : α) (f : α → Procedure β) : lift (.ok a) >>= f = f a := rfl

theorem lift_error_bind {α β : Type} (r : Refusal) (f : α → Procedure β) : lift (.error r) >>= f = refuse r := rfl

theorem refuse_bind {α β : Type} (r : Refusal) (f : α → Procedure β) : refuse r >>= f = refuse r := rfl

theorem login_eq (cfg : Config) (env : Conditions) (r : Request) (deadline : Option Int) :
    login cfg env r deadline = lift (vet cfg r) >>= fun x => enter cfg env r deadline x.1 x.2 := by
  unfold login vet
  simp only [refuse_bind]
  by_cases hc : cfg.secret = ""
  · simp only [hc, if_true, lift_error_bind]
  · simp only [hc, if_false]
    cases identify r.walletType r.address with
    | error e => simp only [lift_error_bind]
    | ok ka =>
      simp only [lift_ok_bind]
      by_cases hn : trimmed r.nonce = "" ∨ trimmed r.signature = ""
      · simp only [hn, if_true, lift_error_bind]
      · simp only [hn, if_false]
        cases isSigned ka.1 ka.2 (trimmed r.nonce) (trimmed r.signature) r.publicKey with
        | true => simp only [Bool.not_true, Bool.false_eq_true, if_false, if_true, lift_ok_bind]; rfl
        | false => simp only [Bool.not_false, Bool.false_eq_true, if_false, if_true, lift_error_bind]

theorem vet_eq_ok_iff {cfg : Config} {r : Request} {k : Kind} {x : Option String} :
    vet cfg r = .ok (k, x) ↔ cfg.secret ≠ "" ∧ ∃ a, x = some a ∧ Presents r k a := by
  unfold vet
  constructor
  · intro h
    split at h
    · cases h
    · rename_i hc
      split at h
      · cases h
      · rename_i k' a' hi
        split at h
        · cases h
        · rename_i hn
          split at h
          · rename_i hs
            cases h
            cases x with
            | none => cases hs
            | some a => exact ⟨hc, a, rfl, hi, fun h' => hn (Or.inl h'), fun h' => hn (Or.inr h'), hs⟩
          · cases h
  · rintro ⟨hc, a, rfl, h⟩
    simp only [hc, if_false, h.named, h.nonce, h.signature, or_self, h.signed, if_true]

/-- Nothing outside its request keeps a login from succeeding: no fault is planned, the
readings of the clock fit, the time allowed is not over, the user id is free, and tokens
can be signed. -/
structure Unhindered (q : Prop) (cfg : Config) (env : Conditions) (deadline : Option Int) (t : Tables) : Prop where
  quiet : q
  fits : fits (env.wall 0) = true ∧ fits (env.wall 1) = true
  inTime : ¬ Expired deadline (env.mono 0) ∧ ¬ Expired deadline (env.mono 1)
  newUser : t.findUser? env.userId = none
  signs : ∀ u w, ∃ token, sign cfg (claims cfg u w (env.wall 2)) = .ok token

/-- The call spent the nonce of the wallet `o`, which was live, and settled its account or
stopped before that. -/
structure Redeems (cfg : Config) (env : Conditions) (r : Request) (o : Owner) (t t' : Tables) : Prop where
  presented : ∃ k, Presents r k o.address ∧ o.walletType = k.name
  live : t.Redeemable o (trimmed r.nonce) (env.wall 0)
  left : Users.Settled (some o) (Users.trimKey r.publicKey) (cfg.defaultRole.getD Users.defaultRole) env.userId
    (env.wall 1) (t.spend o (trimmed r.nonce) (env.wall 0)) t'

/-- The call logged the wallet `o` in. -/
structure LogsIn (cfg : Config) (env : Conditions) (r : Request) (o : Owner) (t t' : Tables) (res : Result) : Prop where
  presented : ∃ k, Presents r k o.address ∧ o.walletType = k.name
  live : t.Redeemable o (trimmed r.nonce) (env.wall 0)
  fits : Ledger.fits (env.wall 0) = true
  settled : Tables.Settles o (Users.trimKey r.publicKey) (cfg.defaultRole.getD Users.defaultRole) env.userId
    (env.wall 1) (t.spend o (trimmed r.nonce) (env.wall 0)) t'
  holds : Users.Holds t' o ⟨res.user, res.wallet⟩
  token : sign cfg (claims cfg res.user res.wallet (env.wall 2)) = .ok res.token

theorem LogsIn.redeems {cfg : Config} {env : Conditions} {r : Request} {o : Owner} {t t' : Tables} {res : Result}
    (h : LogsIn cfg env r o t t' res) : Redeems cfg env r o t t' :=
  ⟨h.presented, h.live, Or.inr ⟨o, rfl, h.settled⟩⟩

/-- The spending of a nonce hinders nothing. -/
theorem Unhindered.spend {q : Prop} {cfg : Config} {env : Conditions} {deadline : Option Int} {t : Tables}
    (h : Unhindered q cfg env deadline t) (o : Owner) (nonce : String) (now : Int) :
    Unhindered q cfg env deadline (t.spend o nonce now) := ⟨h.quiet, h.fits, h.inTime, h.newUser, h.signs⟩

/-- Tokens are signed only where there is a secret. -/
theorem Unhindered.secret {q : Prop} {cfg : Config} {env : Conditions} {deadline : Option Int} {t : Tables}
    (h : Unhindered q cfg env deadline t) : cfg.secret ≠ "" := by
  intro hc
  obtain ⟨token, ht⟩ := h.signs ⟨"", "", 0, 0⟩ ⟨0, "", ⟨"", ""⟩, none, 0, 0⟩
  simp [sign, Token.Issue.issue, hc] at ht

section Ends

variable {q : Prop} {t : Tables} {s : Session}

/-- What follows the spending settles the account and signs a token for it, or something
stood in its way. -/
theorem complete_ends (h : s.At q t t) (ha : t.Accounts) (cfg : Config) (env : Conditions) (r : Request)
    (deadline : Option Int) (k : Kind) (a : String) :
    Ends (complete cfg env r deadline k (some a)) s
      (fun res s' => ∃ t', Tables.Settles ⟨k.name, a⟩ (Users.trimKey r.publicKey)
          (cfg.defaultRole.getD Users.defaultRole) env.userId (env.wall 1) t t' ∧
        Users.Holds t' ⟨k.name, a⟩ ⟨res.user, res.wallet⟩ ∧
        sign cfg (claims cfg res.user res.wallet (env.wall 2)) = .ok res.token ∧ s'.At q t' t')
      (fun f s' => f ≠ .orphanWallet ∧ ¬ Unhindered q cfg env deadline t ∧
        ∃ t', Users.Settled (some ⟨k.name, a⟩) (Users.trimKey r.publicKey) (cfg.defaultRole.getD Users.defaultRole)
          env.userId (env.wall 1) t t' ∧ s'.At q t' t') := by
  simp only [complete, ends_bind, ends_pure, ends_lift]
  refine (checkDeadline_ends s deadline (env.mono 1)).mono (fun _ s₁ h₁ => ?_) (fun f s₁ h₁ => ?_)
  case refine_2 =>
    obtain ⟨rfl, rfl, he⟩ := h₁
    exact ⟨by simp, fun hu => hu.inTime.2 he, t, Or.inl rfl, h⟩
  obtain ⟨rfl, -⟩ := h₁
  refine (Users.upsert_ends h _ _ _ _ _).mono (fun acc s₂ h₂ => ?_) (fun f s₂ h₂ => ?_)
  case refine_2 =>
    obtain ⟨hwhy, t', hs, h₂⟩ := h₂
    obtain ⟨hf, hpr⟩ := hwhy ha
    refine ⟨hf, fun hu => ?_, t', hs, h₂⟩
    rcases hpr with hq | hw | ho | hid
    · exact hq hu.quiet
    · rw [hu.fits.2] at hw
      cases hw
    · cases ho
    · exact hid hu.newUser
  obtain ⟨o, t', ho, hset, h₂, hh⟩ := h₂
  obtain rfl : Owner.mk k.name a = o := Option.some.inj ho
  cases hsign : sign cfg (claims cfg acc.user acc.wallet (env.wall 2)) with
  | ok token => exact ⟨t', hset, hh ha, rfl, h₂⟩
  | error e =>
    refine ⟨by simp, fun hu => ?_, t', Or.inr ⟨_, rfl, hset⟩, h₂⟩
    obtain ⟨token, htok⟩ := hu.signs acc.user acc.wallet
    rw [hsign] at htok
    cases htok

/-- A login that starts from the signed request of the wallet: it logs the wallet in, or
fails with the nonce unspent, or spent. -/
theorem enter_ends (h : s.At q t t) (hd : t.NoncesDiffer) (ha : t.Accounts) {cfg : Config} (env : Conditions)
    {r : Request} (deadline : Option Int) {k : Kind} {a : String} (hp : Presents r k a) :
    Ends (enter cfg env r deadline k (some a)) s
      (fun res s' => ∃ t', LogsIn cfg env r ⟨k.name, a⟩ t t' res ∧ s'.At q t' t')
      (fun f s' => f ≠ .orphanWallet ∧
        (Unhindered q cfg env deadline t → ¬ t.Redeemable ⟨k.name, a⟩ (trimmed r.nonce) (env.wall 0)) ∧
        ∃ t', (t' = t ∨ Redeems cfg env r ⟨k.name, a⟩ t t') ∧ s'.At q t' t') := by
  have hown : (subject k (some a)).owner? = some ⟨k.name, a⟩ := rfl
  simp only [enter, ends_bind]
  refine (checkDeadline_ends s deadline (env.mono 0)).mono (fun _ s₁ h₁ => ?_) (fun f s₁ h₁ => ?_)
  case refine_2 =>
    obtain ⟨rfl, rfl, he⟩ := h₁
    exact ⟨by simp, fun hu => absurd he hu.inTime.1, t, Or.inl rfl, h⟩
  obtain ⟨rfl, -⟩ := h₁
  refine (Nonces.consume_ends h hd _ _ _).mono (fun _ s₂ h₂ => ?_) (fun f s₂ h₂ => ?_)
  case refine_2 =>
    refine ⟨?_, fun hu => ?_, t, Or.inl rfl, h₂.1⟩
    · rcases h₂.2 with ⟨rfl, -⟩ | ⟨rfl, -⟩ | ⟨rfl, -⟩ <;> simp
    · rcases h₂.2 with ⟨-, hq⟩ | ⟨-, hf⟩ | ⟨-, -, hr⟩
      · exact absurd hu.quiet hq
      · rw [hu.fits.1] at hf
        cases hf
      · exact hr _ _ hown rfl
  obtain ⟨o, n, ho, hn, hlive, hfit, h₂⟩ := h₂
  obtain rfl : Owner.mk k.name a = o := Option.some.inj (hown.symm.trans ho)
  obtain rfl : trimmed r.nonce = n := Option.some.inj hn
  refine (complete_ends h₂ (ha.spend _ _ _) cfg env r deadline k a).mono (fun res s₃ h₃ => ?_) (fun f s₃ h₃ => ?_)
  · obtain ⟨t', hset, hh, hsign, h₃⟩ := h₃
    exact ⟨t', ⟨⟨k, hp, rfl⟩, hlive, hfit, hset, hh, hsign⟩, h₃⟩
  · obtain ⟨hf, hu, t', hs, h₃⟩ := h₃
    exact ⟨hf, fun hu' => absurd (hu'.spend _ _ _) hu, t', Or.inr ⟨⟨k, hp, rfl⟩, hlive, hs⟩, h₃⟩

theorem login_ends (h : s.At q t t) (hd : t.NoncesDiffer) (ha : t.Accounts) (cfg : Config) (env : Conditions)
    (r : Request) (deadline : Option Int) :
    Ends (login cfg env r deadline) s
      (fun res s' => ∃ o t', LogsIn cfg env r o t t' res ∧ s'.At q t' t')
      (fun f s' => f ≠ .orphanWallet ∧
        (Unhindered q cfg env deadline t →
          ∀ k a, Presents r k a → ¬ t.Redeemable ⟨k.name, a⟩ (trimmed r.nonce) (env.wall 0)) ∧
        ∃ t', (t' = t ∨ ∃ o, Redeems cfg env r o t t') ∧ s'.At q t' t') := by
  rw [login_eq]
  simp only [ends_bind, ends_lift]
  cases hv : vet cfg r with
  | error e =>
    refine ⟨by simp, fun hu k a hp => ?_, t, Or.inl rfl, h⟩
    have hok := vet_eq_ok_iff.mpr ⟨hu.secret, a, rfl, hp⟩
    rw [hv] at hok
    cases hok
  | ok ka =>
    obtain ⟨k, x⟩ := ka
    obtain ⟨-, a, rfl, hp⟩ := vet_eq_ok_iff.mp hv
    refine (enter_ends h hd ha env deadline hp).mono (fun res s' h' => ⟨_, h'⟩)
      (fun f s' h' => ⟨h'.1, fun hu k' a' hp' => ?_, ?_⟩)
    · obtain ⟨rfl, rfl⟩ := hp.unique hp'
      exact h'.2.1 hu
    · obtain ⟨t', ht', h'⟩ := h'.2.2
      exact ⟨t', ht'.imp_right fun hr => ⟨_, hr⟩, h'⟩

/-- A profile is the user's row with the user's wallets; it fails only where a fault is
planned. -/
theorem profile_ends (h : s.At q t t) (userId : Option String) :
    Ends (Users.profile userId) s
      (fun p s' => p = ((userId.bind t.findUser?).map fun u => ⟨u, t.walletsOf u.id⟩) ∧ s'.At q t t)
      (fun f s' => f ≠ .orphanWallet ∧ ¬ q ∧ s'.At q t t) := by
  simp only [Users.profile, ends_guarded, ends_bind]
  refine (Store.query_ends h _).mono (fun u s₁ h₁ => ?_)
    (fun b s₁ h₁ => ⟨surfaced_ne_orphanWallet h₁.2.1.ne_orphan, h₁.2.2, h₁.1.rollback⟩)
  obtain ⟨h₁, hu⟩ := h₁
  rw [← hu]
  cases u with
  | none => exact (ends_pure _).mpr ⟨rfl, h₁⟩
  | some u =>
    simp only [ends_bind, ends_pure]
    refine (Store.query_ends h₁ _).mono (fun ws s₂ h₂ => ?_)
      (fun b s₂ h₂ => ⟨surfaced_ne_orphanWallet h₂.2.1.ne_orphan, h₂.2.2, h₂.1.rollback⟩)
    obtain ⟨h₂, rfl⟩ := h₂
    exact ⟨rfl, h₂⟩

end Ends

end WalletLogin.Login
