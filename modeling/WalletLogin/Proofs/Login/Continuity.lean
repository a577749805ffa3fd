/-
  WalletLogin.Proofs.Login.Continuity — an account stays the account of its wallet.

  A run is any list of calls, with any default roles, faults and drawn user ids; an id
  may be drawn again. A login that draws an id in use makes no account, and attaches
  nothing to the user that has it: the insertion of the user fails before any wallet row
  is written.

  Proved:
  - `records`: all that one call does to users and wallets. It changes nothing, or the
    time of the last login of one wallet and of its user (and that wallet's key, where
    the login brings one), or it adds one user with one wallet.
  - `tables_retain`: so no row is lost, and none changes in who it is.
  - `accounts_endure`: two logins return one user id exactly when they are of one wallet.
-/

import WalletLogin.Proofs.Login.Agreement

namespace WalletLogin.Login

open Ledger Wallet History

/-! ## Keys -/

/-- A key is blank as a text and as a key of an account alike. -/
theorem trimKey_getD (key : Option String) : (Users.trimKey key).getD "" = trimmed key := by
  unfold Users.trimKey
  split
  · rfl
  · rfl
  · rfl

theorem trimKey_of_trimmed_ne {key : Option String} (h : trimmed key ≠ "") : Users.trimKey key = some (trimmed key) := by
  rw [← trimKey_getD] at h ⊢
  cases hk : Users.trimKey key with
  | none =>
    rw [hk] at h
    exact absurd rfl h
  | some k => rfl

/-- A login of a wallet that has an account; a blank key leaves the wallet's own. -/
theorem touchWallet_trimKey (w : WalletRow) (key : Option String) (now : Int) :
    Tables.touchWallet w (Users.trimKey key) now = { w with
      lastLoginAt := now
      publicKey := if trimmed key = "" then w.publicKey else some (trimmed key) } := by
  unfold Tables.touchWallet
  rw [trimKey_getD]
  by_cases h : trimmed key = ""
  · rw [if_pos h, if_pos h]
  · rw [if_neg h, if_neg h, trimKey_of_trimmed_ne h]

/-! ## One call -/

/-- What a call records of users and wallets. -/
inductive Records (e : Event) (t t' : Tables) : Prop
  | nothing : t'.users = t.users → t'.wallets = t.wallets → Records e t t'
  /-- A login of a wallet that has an account. -/
  | again {r : Request} {deadline : Option Int} {k : Kind} {a : String} {w : WalletRow} :
      e.call = .login r deadline → identify r.walletType r.address = .ok (k, some a) →
      w ∈ t.wallets → w.owner = ⟨k.name, a⟩ →
      t'.users = t.users.map (fun u =>
        if u.id = w.userId then { u with lastLoginAt := e.conditions.wall 1 } else u) →
      t'.wallets = t.wallets.map (fun v =>
        if v.id = w.id then { v with
          lastLoginAt := e.conditions.wall 1
          publicKey := if trimmed r.publicKey = "" then v.publicKey else some (trimmed r.publicKey) }
        else v) →
      Records e t t'
  /-- A first login: a new user under a free id, and the wallet's row. -/
  | first {r : Request} {deadline : Option Int} {k : Kind} {a : String} :
      e.call = .login r deadline → identify r.walletType r.address = .ok (k, some a) →
      (∀ w ∈ t.wallets, w.owner ≠ ⟨k.name, a⟩) → (∀ u ∈ t.users, u.id ≠ e.conditions.userId) →
      t'.users = t.users ++ [⟨e.conditions.userId, e.config.defaultRole.getD Users.defaultRole,
        e.conditions.wall 1, e.conditions.wall 1⟩] →
      t'.wallets = t.wallets ++ [⟨t.nextWalletId, e.conditions.userId, ⟨k.name, a⟩, Users.trimKey r.publicKey,
        e.conditions.wall 1, e.conditions.wall 1⟩] →
      Records e t t'

theorem Leaves.records {e : Event} {t t' : Tables} (h : Leaves e t t') : Records e t t' := by
  cases h with
  | nothing => exact .nothing rfl rfl
  | challenge _ hc => exact hc.stored ▸ .nothing rfl rfl
  | @redeemed r deadline o _ hcall hr =>
    obtain ⟨k, hp, hk⟩ := hr.presented
    have ho : o = ⟨k.name, o.address⟩ := by rw [← hk]
    rcases hr.left with rfl | ⟨o', ho', hs⟩
    · exact .nothing rfl rfl
    · obtain rfl : o = o' := Option.some.inj ho'
      cases hs with
      | known w hw =>
        obtain ⟨hm, hown⟩ := Tables.mem_of_findWallet? hw
        refine .again hcall hp.named hm (hown.trans ho) rfl ?_
        rw [Tables.touch_wallets]
        refine List.map_congr_left fun v _ => ?_
        unfold WalletRow.seen
        rw [touchWallet_trimKey]
      | first hno hid =>
        rw [ho] at hno
        refine .first hcall hp.named (Tables.findWallet?_eq_none_iff.mp hno) (Tables.findUser?_eq_none_iff.mp hid) rfl ?_
        rw [← ho]
        rfl

theorem Leaves.retains {e : Event} {t t' : Tables} (h : Leaves e t t') : Tables.Retains t t' := by
  cases h with
  | nothing => exact .refl t
  | challenge _ hc => exact hc.stored ▸ Tables.retains_of_eq rfl rfl
  | @redeemed r _ o _ _ hr =>
    have hsp : Tables.Retains t (t.spend o (trimmed r.nonce) (e.conditions.wall 0)) := Tables.retains_of_eq rfl rfl
    rcases hr.left with rfl | ⟨_, -, hs⟩
    · exact hsp
    · exact hsp.trans hs.retains

/-! ## Runs -/

section Runs

variable {es : List Event} {i j : Nat} {o o' : Owner} {id id' : String}

theorem records {e : Event} (he : es[i]? = some e) : Records e (tablesAt es i) (tablesAt es (i + 1)) := by
  rw [tablesAt_succ he]
  exact (outcome_spec (sound_tablesAt es i) e).leaves.records

theorem tables_retain (es : List Event) {i j : Nat} (h : i ≤ j) : Tables.Retains (tablesAt es i) (tablesAt es j) :=
  tablesAt_rel Tables.Retains.refl Tables.Retains.trans
    (fun es e => (outcome_spec (sound_after es) e).leaves.retains) es h

/-- Call number `j` of the run logs the wallet `o` in and returns the user `id`. -/
def ReturnsAt (es : List Event) (j : Nat) (o : Owner) (id : String) : Prop :=
  ∃ e r deadline res k a, es[j]? = some e ∧ e.call = .login r deadline ∧
    identify r.walletType r.address = .ok (k, some a) ∧ o = ⟨k.name, a⟩ ∧
    (run es Tables.empty).1[j]? = some (.ok (.result res)) ∧ res.user.id = id

/-- From its login on the wallet has a row, and the row names the user. -/
theorem ReturnsAt.row (h : ReturnsAt es j o id) {n : Nat} (hn : j < n) :
    ∃ w ∈ (tablesAt es n).wallets, w.owner = o ∧ w.userId = id := by
  obtain ⟨e, r, deadline, res, k, a, he, hc, hid, rfl, ha, rfl⟩ := h
  obtain ⟨⟨wt, a'⟩, hl⟩ := logsIn_of_result he hc ha
  obtain ⟨k', hp, rfl⟩ := hl.presented
  obtain ⟨rfl, rfl⟩ : k = k' ∧ a = a' := by simpa using hid.symm.trans hp.named
  have hacc := (sound_tablesAt es (j + 1)).accounts
  obtain ⟨hm, hown⟩ := Tables.mem_of_findWallet? hl.holds.wallet
  have huser := (hacc.findUser?_iff.mp hl.holds.user).2
  -- what the login left is still there later
  obtain ⟨w', hw', hlast⟩ := (tables_retain es hn).wallets _ hm
  exact ⟨w', hw', hlast.owner.trans hown, hlast.userId.trans huser.symm⟩

/-- Two logins return one user exactly when they are of one wallet. -/
theorem ReturnsAt.eq_iff (h : ReturnsAt es i o id) (h' : ReturnsAt es j o' id') : id = id' ↔ o = o' := by
  obtain ⟨w, hw, hown, hid⟩ := h.row (n := max i j + 1) (by omega)
  obtain ⟨w', hw', hown', hid'⟩ := h'.row (n := max i j + 1) (by omega)
  have hacc := (sound_tablesAt es (max i j + 1)).accounts
  constructor
  · intro he
    have hww : w = w' := List.inj_on_of_nodup_map hacc.holders hw hw' (by rw [hid, hid', he])
    rw [← hown, ← hown', hww]
  · intro he
    have hww : w = w' := List.inj_on_of_nodup_map hacc.owners hw hw' (by rw [hown, hown', he])
    rw [← hid, ← hid', hww]

end Runs

/-- Over every run: two logins of one wallet return one user id, and two logins of
different wallets return different ones; between any two points of the run no user and no
wallet row is lost, and none changes its id, its role, its owner, its user or the time of
its making; and a call records nothing of users and wallets but a login of the one wallet
that it names. -/
theorem accounts_endure (es : List Event) :
    (∀ i j o id id', ReturnsAt es i o id → ReturnsAt es j o id' → id = id') ∧
    (∀ i j o o' id id', ReturnsAt es i o id → ReturnsAt es j o' id' → o ≠ o' → id ≠ id') ∧
    (∀ i j, i ≤ j → Tables.Retains (tablesAt es i) (tablesAt es j)) ∧
    ∀ (i : Nat) e, es[i]? = some e → Records e (tablesAt es i) (tablesAt es (i + 1)) := by
  refine ⟨?_, ?_, ?_, ?_⟩
  · intro i j o id id' h h'
    exact (h.eq_iff h').mpr rfl
  · intro i j o o' id id' h h' hne he
    exact hne ((h.eq_iff h').mp he)
  · intro i j hij
    exact tables_retain es hij
  · intro i e he
    exact records he

/-! ## A wallet that comes back -/

namespace LaterLogins

open FirstLogin (config)

def conditions (now : Int) (nonce userId : String) : Conditions := ⟨fun _ => now, fun _ => 0, nonce, userId, {}⟩

def ask (now : Int) (r : Request) : Event :=
  ⟨config, conditions now (trimmed r.nonce) "", .issue r.walletType r.address none⟩

def answer (now : Int) (userId : String) (r : Request) : Event := ⟨config, conditions now "" userId, .login r none⟩

/-- The wallet of the first login again, with another nonce. -/
def again : Request :=
  ⟨some "solana", some FirstLogin.address, some "short",
    some "3ggMwWxQ1ENQ3cHfDhVRhWsEHRttU9EBduYMd8e2kXCdBJp4Tzz11neTsvvNj7SaHsb5KkrZdkLNPAWaBzoAuvNa", none⟩

def otherAddress : String := "GmaDrppBC7P5ARKV8g3djiwP89vz1jLK23V2GBjuAEGB"

/-- Another wallet. -/
def other : Request :=
  ⟨some "solana", some otherAddress, some "def456",
    some "2ffgva3N1BSSS3ZqBxwFC7a6AFr3wZS3tktpnBQHYKbKChaVha2JUN63fkpPBwzp28fc8ppqPPi5kZYNcN66LFXN", none⟩

/-- A first login, one of the same wallet, and one of another wallet. -/
def calls : List Event :=
  [ask 0 FirstLogin.request, answer 1 "user" FirstLogin.request, ask 2 again, answer 3 "second" again, ask 4 other,
    answer 5 "third" other]

theorem presents_again : Presents again .solana FirstLogin.address := by
  constructor <;> decide +kernel

theorem presents_other : Presents other .solana otherAddress := by
  constructor <;> decide +kernel

/-- A challenge under a free nonce leaves its row. -/
theorem asks_for {i : Nat} {t : Tables} {now : Int} {a : String} {r : Request} (he : calls[i]? = some (ask now r))
    (ht : tablesAt calls i = t) (hp : Presents r .solana a) (hn : t.findNonce? (trimmed r.nonce) = none)
    (hf : fits now = true) (hx : fits (now + 600) = true) :
    tablesAt calls (i + 1) = t.withNonce ⟨trimmed r.nonce, ⟨"solana", a⟩, now, now + 600, none⟩ := by
  have hs := sound_tablesAt calls i
  rw [tablesAt_succ he]
  rw [ht] at hs ⊢
  exact tables_of_issue (expired_none _) hf hx Faults.quiet_default hs.differ hp.named hn

/-- A signed request under a live nonce logs its wallet in, and the login does what settling
does. -/
theorem logs_in {i : Nat} {t : Tables} {now : Int} {userId a : String} {r : Request}
    (he : calls[i]? = some (answer now userId r)) (ht : tablesAt calls i = t) (hp : Presents r .solana a)
    (hl : t.Redeemable ⟨"solana", a⟩ (trimmed r.nonce) now) (hid : t.findUser? userId = none)
    (hf : fits now = true) (hi : Token.Issue.fits now = true) (hx : Token.Issue.fits (now + 900) = true) :
    (∃ id, ReturnsAt calls i ⟨"solana", a⟩ id) ∧
      Tables.Settles ⟨"solana", a⟩ (Users.trimKey r.publicKey) Users.defaultRole userId now
        (t.spend ⟨"solana", a⟩ (trimmed r.nonce) now) (tablesAt calls (i + 1)) := by
  have hs := sound_tablesAt calls i
  rw [tablesAt_succ he]
  rw [ht] at hs ⊢
  have hu : Unhindered (conditions now "" userId).faults.Quiet config (conditions now "" userId) none t :=
    FirstLogin.unhindered Faults.quiet_default (fun _ => rfl) hid hf hi hx
  obtain ⟨res, ha, hin⟩ := hs.login_succeeds hu hp hl
  refine ⟨⟨res.user.id, _, r, none, res, .solana, a, he, rfl, hp.named, rfl, (run_answers he).mpr ⟨he, ?_⟩, rfl⟩,
    hin.settled⟩
  rw [← tablesAt_eq, ht]
  exact ha

def firstRow (consumedAt : Option Int) : NonceRow := ⟨"abc123", ⟨"solana", FirstLogin.address⟩, 0, 600, consumedAt⟩

def againRow (consumedAt : Option Int) : NonceRow := ⟨"short", ⟨"solana", FirstLogin.address⟩, 2, 602, consumedAt⟩

def otherRow (consumedAt : Option Int) : NonceRow := ⟨"def456", ⟨"solana", otherAddress⟩, 4, 604, consumedAt⟩

theorem before_first : tablesAt calls 1 = ⟨[firstRow none], [], []⟩ :=
  (asks_for (i := 0) rfl rfl FirstLogin.presents rfl (by decide) (by decide)).trans (by decide)

theorem first_logs_in : (∃ id, ReturnsAt calls 1 ⟨"solana", FirstLogin.address⟩ id) ∧ tablesAt calls 2 =
    ⟨[firstRow (some 1)], [⟨"user", "contributor", 1, 1⟩], [⟨1, "user", ⟨"solana", FirstLogin.address⟩, none, 1, 1⟩]⟩ := by
  obtain ⟨hr, hs⟩ := logs_in (i := 1) rfl before_first FirstLogin.presents
    ⟨firstRow none, List.mem_singleton_self _, by decide, by decide⟩ rfl (by decide) (by decide) (by decide)
  exact ⟨hr, (hs.eq_withAccount (by decide)).trans (by decide)⟩

theorem before_again : tablesAt calls 3 =
    ⟨[firstRow (some 1), againRow none], [⟨"user", "contributor", 1, 1⟩],
      [⟨1, "user", ⟨"solana", FirstLogin.address⟩, none, 1, 1⟩]⟩ :=
  (asks_for (i := 2) rfl first_logs_in.2 presents_again (by decide) (by decide) (by decide)).trans (by decide)

theorem again_logs_in : (∃ id, ReturnsAt calls 3 ⟨"solana", FirstLogin.address⟩ id) ∧ tablesAt calls 4 =
    ⟨[firstRow (some 1), againRow (some 3)], [⟨"user", "contributor", 1, 3⟩],
      [⟨1, "user", ⟨"solana", FirstLogin.address⟩, none, 1, 3⟩]⟩ := by
  obtain ⟨hr, hs⟩ := logs_in (i := 3) rfl before_again presents_again
    ⟨againRow none, List.mem_cons_of_mem _ (List.mem_singleton_self _), by decide, by decide⟩ rfl (by decide) (by decide)
    (by decide)
  exact ⟨hr, (hs.eq_touch (w := ⟨1, "user", ⟨"solana", FirstLogin.address⟩, none, 1, 1⟩) (by decide)).trans (by decide)⟩

theorem before_other : tablesAt calls 5 =
    ⟨[firstRow (some 1), againRow (some 3), otherRow none], [⟨"user", "contributor", 1, 3⟩],
      [⟨1, "user", ⟨"solana", FirstLogin.address⟩, none, 1, 3⟩]⟩ :=
  (asks_for (i := 4) rfl again_logs_in.2 presents_other (by decide) (by decide) (by decide)).trans (by decide)

theorem other_logs_in : ∃ id, ReturnsAt calls 5 ⟨"solana", otherAddress⟩ id :=
  (logs_in (i := 5) rfl before_other presents_other
    ⟨otherRow none, List.mem_cons_of_mem _ (List.mem_cons_of_mem _ (List.mem_singleton_self _)), by decide, by decide⟩
    rfl (by decide) (by decide) (by decide)).1

end LaterLogins

/-- The wallet of a first login comes back as the same user, and another wallet is another
user. -/
theorem a_wallet_that_comes_back_keeps_its_user : ∃ id id', id ≠ id' ∧
    ReturnsAt LaterLogins.calls 1 ⟨"solana", FirstLogin.address⟩ id ∧
    ReturnsAt LaterLogins.calls 3 ⟨"solana", FirstLogin.address⟩ id ∧
    ReturnsAt LaterLogins.calls 5 ⟨"solana", LaterLogins.otherAddress⟩ id' := by
  obtain ⟨id, hfirst⟩ := LaterLogins.first_logs_in.1
  obtain ⟨id₂, hagain⟩ := LaterLogins.again_logs_in.1
  obtain ⟨id₃, hother⟩ := LaterLogins.other_logs_in
  obtain ⟨hsame, hdiffer, -, -⟩ := accounts_endure LaterLogins.calls
  obtain rfl : id = id₂ := hsame _ _ _ _ _ hfirst hagain
  exact ⟨id, id₃, hdiffer _ _ _ _ _ _ hfirst hother (by decide), hfirst, hagain, hother⟩

end WalletLogin.Login
