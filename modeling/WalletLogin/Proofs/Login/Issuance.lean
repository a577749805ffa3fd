/-
  WalletLogin.Proofs.Login.Issuance — a login whose token cannot be signed.

  The token is issued last, for the user and the wallet that the login has settled. So a
  login is the settling of its account (`settling`), which asks of the secret only that
  there is one, and the signing behind it, which touches no table (`login_eq_settling`).
  A secret that cannot sign, or an algorithm that is not known, fails a login in which
  everything else is done.

  Proved, on any tables in which every nonce has one row:
  - `unsigned_logins_lack_only_their_token`: the request of such a login was signed for a
    live nonce, that nonce is consumed, the account is settled, and the tables are those
    that the login leaves where tokens can be signed.
-/

import WalletLogin.Proofs.Login.Rejection

namespace WalletLogin.Login

open Ledger Procedure Wallet

/-- A login up to its token. -/
def settling (cfg : Config) (env : Conditions) (r : Request) (deadline : Option Int) : Procedure Users.Account := do
  let (k, a) ← lift (vet cfg r)
  checkDeadline deadline (env.mono 0)
  Nonces.consume (subject k a) (some (trimmed r.nonce)) (env.wall 0)
  checkDeadline deadline (env.mono 1)
  Users.upsert (subject k a) r.publicKey cfg.defaultRole env.userId (env.wall 1)

/-- The end of a login whose account is settled. -/
def grant (cfg : Config) (env : Conditions) (account : Users.Account) : Except Refusal Result :=
  match sign cfg (claims cfg account.user account.wallet (env.wall 2)) with
  | .ok token => .ok ⟨token, account.user, account.wallet⟩
  | .error e => .error e

theorem grant_eq_error_iff {cfg : Config} {env : Conditions} {account : Users.Account} {e : Refusal} :
    grant cfg env account = .error e ↔ sign cfg (claims cfg account.user account.wallet (env.wall 2)) = .error e := by
  unfold grant
  cases sign cfg (claims cfg account.user account.wallet (env.wall 2)) <;> simp

theorem login_eq_settling (cfg : Config) (env : Conditions) (r : Request) (deadline : Option Int) :
    login cfg env r deadline = settling cfg env r deadline >>= fun account => lift (grant cfg env account) := by
  have ha : ∀ account : Users.Account, lift (grant cfg env account) =
      lift (sign cfg (claims cfg account.user account.wallet (env.wall 2))) >>= fun token =>
        pure ⟨token, account.user, account.wallet⟩ := by
    intro account
    unfold grant
    cases sign cfg (claims cfg account.user account.wallet (env.wall 2)) <;> rfl
  rw [login_eq]
  simp only [settling, enter, complete, bind_assoc, ha]

/-- The settling of an account does not look at the secret but to see that there is one. -/
theorem settling_congr {cfg cfg' : Config} (hc : cfg.secret ≠ "") (hc' : cfg'.secret ≠ "")
    (hr : cfg'.defaultRole = cfg.defaultRole) (env : Conditions) (r : Request) (deadline : Option Int) :
    settling cfg' env r deadline = settling cfg env r deadline := by
  have hv : vet cfg' r = vet cfg r := by
    unfold vet
    rw [if_neg hc, if_neg hc']
  unfold settling
  rw [hv, hr]

/-- A refusal for want of a signature has a code of its own. -/
theorem refused_ne_signing {e : Refusal} (he : e.code ≠ "token_issue_failed") (x : Token.SigningFault) :
    Failure.refused e ≠ .refused (.signing x) := by
  rintro h
  cases h
  exact he rfl

theorem vet_ne_signing {cfg : Config} {r : Request} {e : Refusal} (h : vet cfg r = .error e) (x : Token.SigningFault) :
    Failure.refused e ≠ .refused (.signing x) := by
  refine refused_ne_signing (fun he => ?_) x
  have hmem := vet_code h
  rw [he] at hmem
  exact absurd hmem (by decide)

section Ends

variable {q : Prop} {t : Tables} {s : Session}

/-- A settling that ends well spent the nonce of a signed request and settled the account
of its wallet; the signing of a token is no part of it. -/
theorem settling_ends (h : s.At q t t) (hd : t.NoncesDiffer) (cfg : Config) (env : Conditions) (r : Request)
    (deadline : Option Int) :
    Ends (settling cfg env r deadline) s
      (fun account s' => cfg.secret ≠ "" ∧ ∃ k a t', Presents r k a ∧
        t.Redeemable ⟨k.name, a⟩ (trimmed r.nonce) (env.wall 0) ∧
        Tables.Settles ⟨k.name, a⟩ (Users.trimKey r.publicKey) (cfg.defaultRole.getD Users.defaultRole) env.userId
          (env.wall 1) (t.spend ⟨k.name, a⟩ (trimmed r.nonce) (env.wall 0)) t' ∧
        (t.Accounts → Users.Holds t' ⟨k.name, a⟩ account) ∧ s'.At q t' t')
      (fun f _ => ∀ x, f ≠ .refused (.signing x)) := by
  simp only [settling, ends_bind, ends_lift]
  cases hv : vet cfg r with
  | error e => exact vet_ne_signing hv
  | ok ka =>
    obtain ⟨k, x⟩ := ka
    obtain ⟨hc, a, rfl, hp⟩ := vet_eq_ok_iff.mp hv
    have hown : (subject k (some a)).owner? = some ⟨k.name, a⟩ := rfl
    dsimp only
    refine (checkDeadline_ends s deadline (env.mono 0)).mono (fun _ s₁ h₁ => ?_) (fun f s₁ h₁ => ?_)
    case refine_2 =>
      obtain ⟨-, rfl, -⟩ := h₁
      exact refused_ne_signing (by decide)
    obtain ⟨rfl, -⟩ := h₁
    refine (Nonces.consume_ends h hd _ _ _).mono (fun _ s₂ h₂ => ?_) (fun f s₂ h₂ => ?_)
    case refine_2 =>
      rcases h₂.2 with ⟨rfl, -⟩ | ⟨rfl, -⟩ | ⟨rfl, -⟩
      · exact refused_ne_signing (by decide)
      · simp
      · exact refused_ne_signing (by decide)
    obtain ⟨o, n, ho, hn, hlive, -, h₂⟩ := h₂
    obtain rfl : Owner.mk k.name a = o := Option.some.inj (hown.symm.trans ho)
    obtain rfl : trimmed r.nonce = n := Option.some.inj hn
    refine (checkDeadline_ends s₂ deadline (env.mono 1)).mono (fun _ s₃ h₃ => ?_) (fun f s₃ h₃ => ?_)
    case refine_2 =>
      obtain ⟨-, rfl, -⟩ := h₃
      exact refused_ne_signing (by decide)
    obtain ⟨rfl, -⟩ := h₃
    refine ((Users.upsert_ends h₂ _ _ _ _ _).and (upsert_refuses s₃ _ _ _ _ _)).mono (fun account s₄ h₄ => ?_)
      (fun f s₄ h₄ => ?_)
    · obtain ⟨o, t', ho, hset, h₄, hh⟩ := h₄.1
      obtain rfl : Owner.mk k.name a = o := Option.some.inj (hown.symm.trans ho)
      exact ⟨hc, k, a, t', hp, hlive, hset, fun ha => hh (ha.spend _ _ _), h₄⟩
    · rintro x rfl
      have hx : "token_issue_failed" = "storage_error" := h₄.2 _ rfl
      exact absurd hx (by decide)

end Ends

/-- A login answers by how its settling ended, and leaves what that left. -/
theorem login_outcome (cfg : Config) (env : Conditions) (r : Request) (deadline : Option Int) (t : Tables) :
    (Event.mk cfg env (.login r deadline)).outcome t =
      match settling cfg env r deadline (Session.opened t env.faults) with
      | (.ok account, s) =>
        ⟨(match grant cfg env account with
          | .ok res => .ok (.result res)
          | .error e => .error (.refused e)), s.stored, s.drewNonce, s.drewUser⟩
      | (.error f, s) => ⟨.error f, s.stored, s.drewNonce, s.drewUser⟩ := by
  unfold Event.outcome perform
  simp only [serve, login_eq_settling, run_map, run_bind]
  rcases settling cfg env r deadline (Session.opened t env.faults) with ⟨f | account, s⟩
  · rfl
  · dsimp only
    cases grant cfg env account <;> rfl

/-- A login that fails at its signing had settled its account. -/
theorem settled_of_unsigned {t : Tables} (hd : t.NoncesDiffer) {cfg : Config} {env : Conditions} {r : Request}
    {deadline : Option Int} {x : Token.SigningFault}
    (hf : ((Event.mk cfg env (.login r deadline)).outcome t).answer = .error (.refused (.signing x))) :
    ∃ account s, settling cfg env r deadline (Session.opened t env.faults) = (.ok account, s) ∧
      grant cfg env account = .error (.signing x) := by
  rw [login_outcome] at hf
  rcases hs : settling cfg env r deadline (Session.opened t env.faults) with ⟨f | account, s⟩
  · rw [hs] at hf
    have hne := (settling_ends (Session.at_opened t env.faults) hd cfg env r deadline).of_error hs x
    exact absurd (Except.error.inj hf) hne
  · rw [hs] at hf
    refine ⟨account, s, rfl, ?_⟩
    dsimp only at hf
    cases hg : grant cfg env account with
    | ok res =>
      rw [hg] at hf
      cases hf
    | error e =>
      rw [hg] at hf
      cases hf
      rfl

theorem sign_eq_error_iff {cfg : Config} {c : Token.Claims} {x : Token.SigningFault} :
    sign cfg c = .error (.signing x) ↔ Token.Issue.issue cfg.secret cfg.algorithm c = .error x := by
  unfold sign
  cases Token.Issue.issue cfg.secret cfg.algorithm c <;> simp

/-- A login whose token cannot be signed lacks nothing but that token: its secret is not
empty, its request was signed for a live nonce, of which the one row is consumed now, and
the account of its wallet is settled, for which no token could be issued. Under a
configuration that signs, the same login returns a result and leaves the same tables. -/
theorem unsigned_logins_lack_only_their_token {t : Tables} (hd : t.NoncesDiffer) {cfg : Config} {env : Conditions}
    {r : Request} {deadline : Option Int} {x : Token.SigningFault}
    (hf : ((Event.mk cfg env (.login r deadline)).outcome t).answer = .error (.refused (.signing x))) :
    let t' := ((Event.mk cfg env (.login r deadline)).outcome t).tables
    cfg.secret ≠ "" ∧
    (∃ k row spent account, SignedFor r k row ∧ row ∈ t.nonces ∧ row.consumedAt = none ∧ env.wall 0 < row.expiresAt ∧
      Consumed row (env.wall 0) t spent ∧
      Tables.Settles row.owner (Users.trimKey r.publicKey) (cfg.defaultRole.getD Users.defaultRole) env.userId (env.wall 1)
        spent t' ∧
      (t.Accounts → Users.Holds t' row.owner account) ∧
      Token.Issue.issue cfg.secret cfg.algorithm (claims cfg account.user account.wallet (env.wall 2)) = .error x) ∧
    ∀ cfg' : Config, cfg'.secret ≠ "" → cfg'.defaultRole = cfg.defaultRole →
      (∀ u w, ∃ token, sign cfg' (claims cfg' u w (env.wall 2)) = .ok token) →
      (∃ res, ((Event.mk cfg' env (.login r deadline)).outcome t).answer = .ok (.result res)) ∧
        ((Event.mk cfg' env (.login r deadline)).outcome t).tables = t' := by
  intro t'
  obtain ⟨account, s, hs, hg⟩ := settled_of_unsigned hd hf
  obtain ⟨hc, k, a, t₁, hp, ⟨row, hr, hn, hl⟩, hset, hh, hat⟩ :=
    (settling_ends (Session.at_opened t env.faults) hd cfg env r deadline).of_ok hs
  have ht' : t' = t₁ := by
    show ((Event.mk cfg env (.login r deadline)).outcome t).tables = t₁
    rw [login_outcome, hs]
    exact hat.stored
  obtain ⟨ho, hcon, htime⟩ := NonceRow.isLive_iff.mp hl
  refine ⟨hc, ⟨k, row, t.spend ⟨k.name, a⟩ row.nonce (env.wall 0), account, hp.signedFor rfl hn hl, hr, hcon, htime, ?_⟩, ?_⟩
  · rw [ht', ho, hn]
    refine ⟨?_, hset, hh, sign_eq_error_iff.mp (grant_eq_error_iff.mp hg)⟩
    rw [← hn]
    exact consumed_spend hd hr hl
  · intro cfg' hc' hrole hsigns
    obtain ⟨token, htok⟩ := hsigns account.user account.wallet
    rw [login_outcome, settling_congr hc hc' hrole, hs, ht']
    refine ⟨⟨⟨token, account.user, account.wallet⟩, ?_⟩, hat.stored⟩
    simp only [grant, htok]

namespace UnsignedLogin

open FirstLogin (conditions request address)
open Strangers (tables row)

/-- A secret is there, but the algorithm has no such name. -/
def config : Config := { FirstLogin.config with algorithm := "NOPE" }

/-- The answer to the challenge of second 0, in the same second. -/
def call : Event := ⟨config, conditions 0, .login request none⟩

theorem outcome_eq :
    call.outcome tables = perform (.result <$> enter config (conditions 0) request none .solana (some address)) {} tables :=
  outcome_of_presents (by decide) FirstLogin.presents tables

theorem call_ends : (call.outcome tables).answer = .error (.refused (.signing (.secret .unsupported))) ∧
    (call.outcome tables).tables = ⟨[{ row with consumedAt := some 0 }], [⟨"user", "contributor", 0, 0⟩],
      [⟨1, "user", ⟨"solana", address⟩, none, 0, 0⟩]⟩ := by
  rw [outcome_eq]
  decide +kernel

end UnsignedLogin

/-- The login that no token could be signed for leaves what the same login leaves under an
algorithm that is known. -/
theorem unsigned_login_leaves_what_the_signed_one_does :
    ((FirstLogin.answers 0).outcome Strangers.tables).tables = (UnsignedLogin.call.outcome Strangers.tables).tables := by
  obtain ⟨-, -, hagain⟩ := unsigned_logins_lack_only_their_token Strangers.sound.differ UnsignedLogin.call_ends.1
  refine (hagain FirstLogin.config (by decide) rfl fun u w => ?_).2
  have hi : Token.Issue.fits 0 = true := by decide
  have hx : Token.Issue.fits (0 + 900) = true := by decide
  exact ⟨_, sign_eq_ok_iff.mpr (FirstLogin.signs hi hx)⟩

/-- A login can fail at its signing, by the name of the algorithm alone, with its nonce
consumed and a user and a wallet made. -/
theorem unknown_algorithm_costs_the_nonce :
    let t := (run [FirstLogin.asks] Tables.empty).2
    (UnsignedLogin.call.outcome t).answer = .error (.refused (.signing (.secret .unsupported))) ∧
      (∃ row ∈ t.nonces, row.consumedAt = none ∧
        { row with consumedAt := some 0 } ∈ (UnsignedLogin.call.outcome t).tables.nonces) ∧
      t.users = [] ∧ (UnsignedLogin.call.outcome t).tables.users ≠ [] ∧
      t.wallets = [] ∧ (UnsignedLogin.call.outcome t).tables.wallets ≠ [] := by
  rw [Strangers.before]
  refine ⟨UnsignedLogin.call_ends.1, ?_⟩
  rw [UnsignedLogin.call_ends.2]
  exact ⟨⟨Strangers.row, List.mem_singleton_self _, rfl, List.mem_singleton_self _⟩, rfl, by simp, rfl, by simp⟩

end WalletLogin.Login
