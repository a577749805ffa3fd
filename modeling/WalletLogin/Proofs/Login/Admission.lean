/-
  WalletLogin.Proofs.Login.Admission — when a login succeeds, and what it leaves then.

  `Admissible` lists what a login asks of its request and of the nonce table; `Effect`
  lists what it does to the three tables and what its token says. Neither mentions how
  the login goes about it.

  Proved, in every state that the service reaches, where nothing outside the request is
  in the way (no fault, one reading of the clock, time left, a free user id, a secret
  that signs):
  - `login_succeeds_iff`: the login returns a result exactly for an admissible request
    at a reading that a column of 64 bits holds, and then it has its effect.
  `too_early_a_clock_stops_a_login` shows that the width of the column is a condition of
  its own.
-/

import WalletLogin.Proofs.Login.Identities

namespace WalletLogin.Login

open Ledger Wallet History

/-- The request names the wallet `a` of kind `k`, that wallet signed one of the messages of
its nonce, and `row` is the wallet's row of that nonce, unspent and in time. -/
structure Admissible (t : Tables) (r : Request) (now : Int) (k : Kind) (a : String) (row : NonceRow) : Prop where
  kind : Kind.read? (r.walletType.getD "") = some k
  address : k.normalize r.address = .ok (some a)
  nonce : trimmed r.nonce ≠ ""
  signature : trimmed r.signature ≠ ""
  verified : k.verify a (Message.current (trimmed r.nonce)) (trimmed r.signature) r.publicKey = true ∨
    k.verify a (Message.legacy (trimmed r.nonce)) (trimmed r.signature) r.publicKey = true
  stored : row ∈ t.nonces
  named : row.nonce = trimmed r.nonce
  owned : row.owner = ⟨k.name, a⟩
  unspent : row.consumedAt = none
  inTime : now < row.expiresAt

/-- The login spends the row and no other, leaves the wallet and its user as seen now and
all others as they were, and returns both with a token that tells of them. -/
structure Effect (cfg : Config) (t t' : Tables) (now : Int) (k : Kind) (a : String) (row : NonceRow) (res : Result) :
    Prop where
  nonces : t'.nonces = t.nonces.map fun x => if x.nonce = row.nonce then { x with consumedAt := some now } else x
  wallet : t'.findWallet? ⟨k.name, a⟩ = some res.wallet
  user : t'.findUser? res.wallet.userId = some res.user
  seen : res.wallet.lastLoginAt = now ∧ res.user.lastLoginAt = now
  otherWallets : ∀ v, v.owner ≠ ⟨k.name, a⟩ → (v ∈ t'.wallets ↔ v ∈ t.wallets)
  otherUsers : ∀ u, u.id ≠ res.user.id → (u ∈ t'.users ↔ u ∈ t.users)
  token : Token.Issue.issue cfg.secret cfg.algorithm
    ⟨res.user.id, some res.user.role, some k.name, some a, now, now + cfg.tokenTtl⟩ = .ok res.token

/-- Admissibility is what the checks of a login and its conditional statement ask for. -/
theorem admissible_iff {t : Tables} {r : Request} {now : Int} {k : Kind} {a : String} :
    (∃ row, Admissible t r now k a row) ↔ Presents r k a ∧ t.Redeemable ⟨k.name, a⟩ (trimmed r.nonce) now := by
  constructor
  · rintro ⟨row, h⟩
    refine ⟨⟨identify_eq_ok_iff.mpr ⟨h.kind, h.address⟩, h.nonce, h.signature, isSigned_iff.mpr h.verified⟩, ?_⟩
    exact ⟨row, h.stored, h.named, NonceRow.isLive_iff.mpr ⟨h.owned, h.unspent, h.inTime⟩⟩
  · rintro ⟨hp, row, hr, hn, hl⟩
    obtain ⟨hk, ha⟩ := identify_eq_ok_iff.mp hp.named
    obtain ⟨ho, hc, hlt⟩ := NonceRow.isLive_iff.mp hl
    exact ⟨row, hk, ha, hp.nonce, hp.signature, isSigned_iff.mp hp.signed, hr, hn, ho, hc, hlt⟩

theorem sign_eq_ok_iff {cfg : Config} {c : Token.Claims} {token : String} :
    sign cfg c = .ok token ↔ Token.Issue.issue cfg.secret cfg.algorithm c = .ok token := by
  unfold sign
  cases Token.Issue.issue cfg.secret cfg.algorithm c <;> simp

/-- Of rows that differ in their nonces the statement marks the one. -/
theorem spend_nonces_eq {t : Tables} (hd : t.NoncesDiffer) {o : Owner} {now : Int} {row : NonceRow} (hr : row ∈ t.nonces)
    (hl : row.isLive o now = true) : (t.spend o row.nonce now).nonces =
      t.nonces.map fun x => if x.nonce = row.nonce then { x with consumedAt := some now } else x := by
  rw [Tables.spend_nonces]
  refine List.map_congr_left fun x hx => ?_
  unfold NonceRow.marked
  by_cases hn : x.nonce = row.nonce
  · have he : x = row := List.inj_on_of_nodup_map hd hx hr hn
    rw [if_pos hn, if_pos ⟨hn, he ▸ hl⟩]
  · rw [if_neg hn, if_neg fun h => hn h.1]

theorem LogsIn.effect {t t' : Tables} (h : Sound t) {cfg : Config} {env : Conditions} {r : Request} {o : Owner}
    {res : Result} (hl : LogsIn cfg env r o t t' res) {now : Int} (hw : ∀ i, env.wall i = now) {k : Kind} {a : String}
    {row : NonceRow} (ho : o = ⟨k.name, a⟩) (hadm : Admissible t r now k a row) : Effect cfg t t' now k a row res := by
  subst ho
  obtain ⟨-, -, -, hset, ⟨hwal, husr⟩, htok⟩ := hl
  rw [hw 0, hw 1] at hset
  rw [hw 2] at htok
  have hacc := h.accounts.spend ⟨k.name, a⟩ (trimmed r.nonce) now
  have hacc' := hset.accounts hacc
  have huid := (hacc'.findUser?_iff.mp husr).2
  have hown := (Tables.mem_of_findWallet? hwal).2
  constructor
  · rw [hset.nonces, ← hadm.named]
    exact spend_nonces_eq h.differ hadm.stored (NonceRow.isLive_iff.mpr ⟨hadm.owned, hadm.unspent, hadm.inTime⟩)
  · exact hwal
  · exact husr
  · obtain ⟨w, u, hw', hu', hwl, hul⟩ := hset.found hacc
    obtain rfl : w = res.wallet := Option.some.inj (hw'.symm.trans hwal)
    obtain rfl : u = res.user := Option.some.inj (hu'.symm.trans husr)
    exact ⟨hwl, hul⟩
  · exact fun v hv => hset.wallets_frame hacc hv
  · exact fun u hu => hset.users_frame hwal (huid ▸ hu)
  · have hiss := sign_eq_ok_iff.mp htok
    rwa [claims, hown] at hiss

/-- A login on sound tables, with nothing but its request in the way. -/
theorem Sound.login_iff {t : Tables} (h : Sound t) {cfg : Config} {env : Conditions} (r : Request) {deadline : Option Int}
    {now : Int} (hq : env.faults.Quiet) (hw : ∀ i, env.wall i = now) (hn : t.findUser? env.userId = none)
    (hd : ¬ Expired deadline (env.mono 0) ∧ ¬ Expired deadline (env.mono 1))
    (hs : ∀ c : Token.Claims, c.issuedAt = now → c.expiresAt = now + cfg.tokenTtl →
      ∃ token, Token.Issue.issue cfg.secret cfg.algorithm c = .ok token) :
    ((∃ res, ((Event.mk cfg env (.login r deadline)).outcome t).answer = .ok (.result res)) ↔
        fits now = true ∧ ∃ k a row, Admissible t r now k a row) ∧
      ∀ res, ((Event.mk cfg env (.login r deadline)).outcome t).answer = .ok (.result res) →
        ∃ k a row, Admissible t r now k a row ∧
          Effect cfg t ((Event.mk cfg env (.login r deadline)).outcome t).tables now k a row res := by
  rcases login_cases h cfg env r deadline with ⟨res, ⟨w, a⟩, ha, hl⟩ | ⟨f, ha, hu⟩
  · have hlive := hl.live
    have hfit := hl.fits
    rw [hw 0] at hlive hfit
    obtain ⟨k, hp, rfl⟩ := hl.presented
    obtain ⟨row, hadm⟩ := admissible_iff.mpr ⟨hp, hlive⟩
    rw [ha]
    refine ⟨iff_of_true ⟨res, rfl⟩ ⟨hfit, k, a, row, hadm⟩, fun res' hr => ⟨k, a, row, hadm, ?_⟩⟩
    cases hr
    exact hl.effect h hw rfl hadm
  · rw [ha]
    refine ⟨iff_of_false (fun ⟨res, hr⟩ => by cases hr) ?_, fun res hr => by cases hr⟩
    rintro ⟨hf, k, a, hadm⟩
    obtain ⟨hp, hr⟩ := admissible_iff.mp hadm
    have hclear : Unhindered env.faults.Quiet cfg env deadline t := by
      refine ⟨hq, ⟨by rw [hw 0, hf], by rw [hw 1, hf]⟩, hd, hn, fun u w => ?_⟩
      rw [hw 2]
      obtain ⟨token, ht⟩ := hs (claims cfg u w now) rfl rfl
      exact ⟨token, sign_eq_ok_iff.mpr ht⟩
    exact hu hclear k a hp (by rw [hw 0]; exact hr)

/-- In every state that the service reaches: with no fault, one reading of the clock, time
left, a free user id and a secret that signs, a login returns a result exactly when its
request is admissible and a column holds the reading; and a login that returns a result
has its effect. -/
theorem login_succeeds_iff (es : List Event) {cfg : Config} {env : Conditions} (r : Request) {deadline : Option Int}
    {now : Int} (hq : env.faults.Quiet) (hw : ∀ i, env.wall i = now)
    (hn : (run es Tables.empty).2.findUser? env.userId = none)
    (hd : ¬ Expired deadline (env.mono 0) ∧ ¬ Expired deadline (env.mono 1))
    (hs : ∀ c : Token.Claims, c.issuedAt = now → c.expiresAt = now + cfg.tokenTtl →
      ∃ token, Token.Issue.issue cfg.secret cfg.algorithm c = .ok token) :
    let t := (run es Tables.empty).2
    let out := (Event.mk cfg env (.login r deadline)).outcome t
    ((∃ res, out.answer = .ok (.result res)) ↔ fits now = true ∧ ∃ k a row, Admissible t r now k a row) ∧
      ∀ res, out.answer = .ok (.result res) →
        ∃ k a row, Admissible t r now k a row ∧ Effect cfg t out.tables now k a row res := by
  rw [run_tables] at hn ⊢
  exact (sound_after es).login_iff r hq hw hn hd hs

namespace FirstLogin

/-- The challenge of a first login lets the login be admissible until it is over. -/
theorem admissible {now : Int} (h : now < 600) :
    ∃ row, Admissible (run [asks] Tables.empty).2 request now .solana address row := by
  rw [run_tables]
  exact admissible_iff.mpr ⟨presents, redeemable h⟩

theorem newUser (now : Int) : (run [asks] Tables.empty).2.findUser? (conditions now).userId = none := by
  rw [run_tables]
  exact newUser_asks now

theorem inTime (now : Int) : ¬ Expired none ((conditions now).mono 0) ∧ ¬ Expired none ((conditions now).mono 1) :=
  ⟨expired_none _, expired_none _⟩

end FirstLogin

theorem first_login_succeeds :
    ∃ res, ((FirstLogin.answers 1).outcome (run [FirstLogin.asks] Tables.empty).2).answer = .ok (.result res) := by
  refine (login_succeeds_iff [FirstLogin.asks] FirstLogin.request Faults.quiet_default (fun _ => rfl)
    (FirstLogin.newUser 1) (FirstLogin.inTime 1) (fun c hi he => ?_)).1.mpr ?_
  · exact ⟨_, FirstLogin.signs (by rw [hi]; decide) (by rw [he]; decide)⟩
  · exact ⟨by decide, .solana, FirstLogin.address, FirstLogin.admissible (by decide)⟩

/-- At a second before those that a column holds, an admissible login does not succeed,
though nothing else is in its way. -/
theorem too_early_a_clock_stops_a_login :
    let now : Int := -10000000000000000000
    let t := (run [FirstLogin.asks] Tables.empty).2
    (FirstLogin.conditions now).faults.Quiet ∧ t.findUser? (FirstLogin.conditions now).userId = none ∧
      (∃ row, Admissible t FirstLogin.request now .solana FirstLogin.address row) ∧
      (∀ c : Token.Claims, c.issuedAt = now → c.expiresAt = now + FirstLogin.config.tokenTtl →
        ∃ token, Token.Issue.issue FirstLogin.config.secret FirstLogin.config.algorithm c = .ok token) ∧
      ¬ ∃ res, ((FirstLogin.answers now).outcome t).answer = .ok (.result res) := by
  intro now t
  refine ⟨Faults.quiet_default, FirstLogin.newUser now, FirstLogin.admissible (by decide), fun c hi he => ?_, ?_⟩
  · exact ⟨_, FirstLogin.signs (by rw [hi]; decide) (by rw [he]; decide)⟩
  · rintro ⟨res, hres⟩
    have hs : Sound t := by
      show Sound (run [FirstLogin.asks] Tables.empty).2
      rw [run_tables]
      exact sound_after _
    rcases login_cases hs FirstLogin.config (FirstLogin.conditions now) FirstLogin.request none with
      ⟨res', o, -, hl⟩ | ⟨f, ha, -⟩
    · exact absurd hl.fits (by decide)
    · exact absurd (hres.symm.trans ha) (by simp)

end WalletLogin.Login
