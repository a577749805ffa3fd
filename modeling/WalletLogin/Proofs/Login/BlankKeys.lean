/-
  WalletLogin.Proofs.Login.BlankKeys — a login with a key of blanks, beside the same login
  without a key.

  Three places decide whether there is a key. For the check of the signature, and for the
  login of a wallet that has an account, a key of blanks is none. The row of a new wallet is
  written with the key as it was trimmed, and there only the empty text is none: blanks are
  stored as the empty key. So the two logins differ in one field of one row, which the login
  also returns (`emptied`). Both are followed at once on the same tables (`Paired`).

  Proved:
  - `login_empty_key`: a login with the empty text as its key is a login without one.
  - `paired_blank_login`: what a key of blanks changes of a login.
  - `blank_keys_show_on_new_wallets`: the same of the answer and the tables, in every state
    that the service reaches.
  - `a_blank_key_is_stored_as_the_empty_key`: a first login on which it shows.
-/

import WalletLogin.Proofs.Login.Isolation
import WalletLogin.Proofs.Wallet.NamedKey

namespace WalletLogin.Ledger

/-- A row whose wallet the tables do not know, with the empty key; any other row as it is. -/
def WalletRow.emptied (t : Tables) (w : WalletRow) : WalletRow :=
  if (t.findWallet? w.owner).isSome then w else { w with publicKey := some "" }

@[simp] theorem WalletRow.emptied_owner (t : Tables) (w : WalletRow) : (w.emptied t).owner = w.owner := by
  unfold WalletRow.emptied
  split <;> rfl

@[simp] theorem WalletRow.emptied_userId (t : Tables) (w : WalletRow) : (w.emptied t).userId = w.userId := by
  unfold WalletRow.emptied
  split <;> rfl

namespace Tables

variable {t t₁ : Tables} {w : WalletRow} {o : Owner}

/-- The wallets of `t₁` are known in `t`. -/
def Knows (t t₁ : Tables) : Prop := ∀ w ∈ t₁.wallets, (t.findWallet? w.owner).isSome

/-- The tables `t₁`, with the empty key in each row whose wallet `t` does not know. -/
def emptied (t t₁ : Tables) : Tables := { t₁ with wallets := t₁.wallets.map (WalletRow.emptied t) }

theorem findWallet?_emptied (t t₁ : Tables) (o : Owner) :
    (t.emptied t₁).findWallet? o = (t₁.findWallet? o).map (WalletRow.emptied t) := by
  have hp : (fun w : WalletRow => decide (w.owner = o)) ∘ WalletRow.emptied t = fun w => decide (w.owner = o) := by
    funext w
    simp
  rw [findWallet?, emptied, List.find?_map, hp, findWallet?]

theorem emptied_of_known (h : (t.findWallet? w.owner).isSome) : w.emptied t = w := if_pos h

theorem emptied_of_new (h : t.findWallet? w.owner = none) : w.emptied t = { w with publicKey := some "" } :=
  if_neg (by simp [h])

theorem knows_of_wallets (h : t₁.wallets = t.wallets) : Knows t t₁ := by
  intro w hw
  rw [h] at hw
  rw [Option.isSome_iff_ne_none]
  exact fun hn => findWallet?_eq_none_iff.mp hn w hw rfl

theorem Knows.emptied (h : Knows t t₁) : t.emptied t₁ = t₁ := by
  have hid : t₁.wallets.map (WalletRow.emptied t) = t₁.wallets :=
    (List.map_congr_left fun w hw => emptied_of_known (h w hw)).trans (List.map_id' t₁.wallets)
  rw [Tables.emptied, hid]

theorem knows_of_emptied (h : t.emptied t₁ = t₁)
    (hkeyless : ∀ w ∈ t₁.wallets, t.findWallet? w.owner = none → w.publicKey = none) : Knows t t₁ := by
  intro w hw
  rw [Option.isSome_iff_ne_none]
  intro hno
  -- a row that is new had no key, and has one now
  have hsame : t₁.wallets.map (WalletRow.emptied t) = t₁.wallets.map id := by
    rw [List.map_id]
    exact congrArg Tables.wallets h
  have hrow := List.map_inj_left.mp hsame w hw
  rw [emptied_of_new hno] at hrow
  have hkey : some "" = w.publicKey := congrArg WalletRow.publicKey hrow
  rw [hkeyless w hw hno] at hkey
  cases hkey

theorem Knows.touch (h : Knows t t₁) (w : WalletRow) (key : Option String) (now : Int) : Knows t (t₁.touch w key now) := by
  intro v' hv'
  obtain ⟨v, hv, rfl⟩ := mem_touch_wallets.mp hv'
  rw [WalletRow.seen_owner]
  exact h v hv

/-- The row of a new wallet is the one that is changed. -/
theorem Knows.emptied_withAccount (h : Knows t t₁) (ho : t.findWallet? o = none) (u : UserRow) {id : Nat}
    {userId : String} {key : Option String} {now : Int} :
    t.emptied (t₁.withAccount u ⟨id, userId, o, key, now, now⟩) =
      t₁.withAccount u ⟨id, userId, o, some "", now, now⟩ := by
  have hid : t₁.wallets.map (WalletRow.emptied t) = t₁.wallets := congrArg Tables.wallets h.emptied
  have hnew : WalletRow.emptied t ⟨id, userId, o, key, now, now⟩ = ⟨id, userId, o, some "", now, now⟩ :=
    emptied_of_new ho
  simp only [Tables.emptied, Tables.withAccount, List.map_append, hid, List.map_cons, List.map_nil, hnew]

/-- The empty key does not replace a wallet's own. -/
theorem touch_empty_key (t : Tables) (w : WalletRow) (now : Int) : t.touch w (some "") now = t.touch w none now := by
  simp [touch, touchWallet]

/-- An account is settled with the empty key as without a key, but for the row of a new wallet. -/
theorem Settles.emptied {role userId : String} {now : Int} {t₂ : Tables} (h : Settles o none role userId now t₁ t₂)
    (hw : t₁.wallets = t.wallets) : Settles o (some "") role userId now t₁ (t.emptied t₂) := by
  have hknows := knows_of_wallets hw
  cases h with
  | known w hfound =>
    rw [(hknows.touch w none now).emptied, ← touch_empty_key]
    exact .known w hfound
  | first hno hu =>
    have ho : t.findWallet? o = none := by rwa [findWallet?, ← hw]
    rw [hknows.emptied_withAccount ho]
    exact .first hno hu

theorem Knows.new_not_mem (h : Knows t t₁) (hno : t.findWallet? w.owner = none) : w ∉ t₁.wallets := by
  intro hw
  have hknown := h w hw
  rw [hno] at hknown
  cases hknown

/-- Settled without a key, the row of a new wallet has none. -/
theorem Settles.keyless_of_new {role userId : String} {now : Int} {t₂ : Tables} (h : Settles o none role userId now t₁ t₂)
    (hknows : Knows t t₁) (hw : w ∈ t₂.wallets) (hno : t.findWallet? w.owner = none) : w.publicKey = none := by
  cases h with
  | known v _ => exact absurd hw ((hknows.touch v none now).new_not_mem hno)
  | first _ _ =>
    rcases mem_withAccount_wallets.mp hw with hw | rfl
    · exact absurd hw (hknows.new_not_mem hno)
    · rfl

end Tables

end WalletLogin.Ledger

namespace WalletLogin.Login

open Ledger Procedure Wallet History Text

/-! ## Keys of blanks -/

/-- The request with this key and no other. -/
def Request.keyed (r : Request) (key : Option String) : Request := { r with publicKey := key }

section Blank

variable {key : String} (hb : ∀ c ∈ key.toList, Blank.isBlank c = true)
include hb

theorem trimKey_blank (hne : key ≠ "") : Users.trimKey (some key) = some "" := by
  have hnil : Blank.trim key.toList = [] := Blank.trim_eq_nil_iff.mpr hb
  rw [Users.trimKey]
  · rw [Blank.strip, hnil]
  · rintro rfl
    exact hne rfl

/-- No signature is judged by a key of blanks. -/
theorem isSigned_blank (k : Kind) (address : Option String) (nonce signature : String) :
    isSigned k address nonce signature (some key) = isSigned k address nonce signature none := by
  unfold isSigned
  simp only [Kind.verify_blank k _ _ signature hb]

theorem Presents.keyed_blank {r : Request} {k : Kind} {a : String} (h : Presents (r.keyed none) k a) :
    Presents (r.keyed (some key)) k a :=
  ⟨h.named, h.nonce, h.signature, (isSigned_blank hb k _ _ _).trans h.signed⟩

theorem vet_blank (cfg : Config) (r : Request) : vet cfg (r.keyed (some key)) = vet cfg (r.keyed none) := by
  unfold vet Request.keyed
  simp only [isSigned_blank hb]

end Blank

/-- A login with the empty text as its key is a login without a key. -/
theorem login_empty_key (cfg : Config) (env : Conditions) (r : Request) (deadline : Option Int) :
    login cfg env (r.keyed (some "")) deadline = login cfg env (r.keyed none) deadline := by
  rw [login_eq, login_eq, vet_blank (by simp)]
  rfl

/-! ## One login, followed twice -/

def Users.Account.emptied (t : Tables) (a : Users.Account) : Users.Account := { a with wallet := a.wallet.emptied t }

def Result.emptied (t : Tables) (r : Result) : Result := { r with wallet := r.wallet.emptied t }

def Answer.emptied (t : Tables) : Answer → Answer
  | .result r => .result (r.emptied t)
  | a => a

/-- The same tables for both logins, which know no wallet that `t` does not. -/
structure Beside (t t₁ t₁' : Tables) : Prop where
  same : t₁' = t₁
  sound : Sound t₁
  wallets : t₁.wallets = t.wallets

/-- The second login's tables are those of the first, with the empty key in a new row. -/
def Emptied (t t₁ t₁' : Tables) : Prop := t₁' = t.emptied t₁

section Paired

variable {t t₁ t₁' : Tables} {o : Owner}

theorem Beside.knows (h : Beside t t₁ t₁') : Tables.Knows t t₁ := Tables.knows_of_wallets h.wallets

theorem Beside.emptied (h : Beside t t₁ t₁') : Emptied t t₁ t₁' := by
  rw [Emptied, h.knows.emptied]
  exact h.same

/-- The nonce is spent for both alike, or for neither. -/
theorem paired_consume_beside (h : Beside t t₁ t₁') {subject : Subject} (ho : subject.owner? = some o) (n : String)
    (now : Int) :
    Paired (Nonces.consume subject (some n) now) (Nonces.consume subject (some n) now) t₁ t₁' Eq (Beside t) := by
  obtain ⟨rfl, hs, hw⟩ := h
  cases hf : fits now with
  | false => exact paired_self (Nonces.yields_consume_wide hs.differ hf _) ⟨rfl, hs, hw⟩
  | true =>
    by_cases hl : t₁'.Redeemable o n now
    · exact paired_self (Nonces.yields_consume hs.differ ho hf hl) ⟨rfl, hs.spend o n now, hw⟩
    · have hrefused : Nonces.Refused t₁' subject (some n) now := by
        intro o' n' ho' hn'
        cases ho.symm.trans ho'
        cases hn'
        exact hl
      exact paired_self (Nonces.yields_consume_refused hs.differ hf hrefused) ⟨rfl, hs, hw⟩

theorem Users.Holds.emptied {a : Users.Account} (h : Users.Holds t₁ o a) (t : Tables) :
    Users.Holds (t.emptied t₁) o (a.emptied t) where
  wallet := by
    rw [Tables.findWallet?_emptied, h.wallet]
    rfl
  user := by
    rw [Users.Account.emptied, WalletRow.emptied_userId]
    exact h.user

variable {key : String} (hb : ∀ c ∈ key.toList, Blank.isBlank c = true) (hne : key ≠ "")
include hb hne

/-- A known wallet keeps its own key in both, and a new one has no key or the empty one. -/
theorem paired_upsert_blank (h : Beside t t₁ t₁') {subject : Subject} (ho : subject.owner? = some o)
    (role : Option String) (userId : String) (now : Int) :
    Paired (Users.upsert subject none role userId now) (Users.upsert subject (some key) role userId now) t₁ t₁'
      (fun a a' => a' = a.emptied t) (Emptied t) := by
  have hat := h.emptied
  obtain ⟨rfl, hs, hw⟩ := h
  have ha := hs.accounts
  cases hf : fits now with
  | false => exact paired_error (Users.yields_upsert_wide _ _ _ ha _ hf) (Users.yields_upsert_wide _ _ _ ha _ hf) hat
  | true =>
    by_cases hfree : t₁'.findWallet? o = none → t₁'.findUser? userId = none
    · -- the account without a key says what the tables with the empty key are
      obtain ⟨t₂, hset⟩ := Users.exists_settles hfree none (role.getD Users.defaultRole) now
      have hset' := hset.emptied hw
      rw [← trimKey_blank hb hne] at hset'
      obtain ⟨a, hh, hy⟩ := Users.yields_upsert subject none role ha ho hf hset
      obtain ⟨a', hh', hy'⟩ := Users.yields_upsert subject (some key) role ha ho hf hset'
      exact paired_ok hy hy' (hh'.unique (hh.emptied t)) rfl
    · -- a new wallet under an id that is taken
      obtain ⟨hno, hu⟩ := Classical.not_imp.mp hfree
      exact paired_error (Users.yields_upsert_unresolved _ _ _ ho hf hno hu)
        (Users.yields_upsert_unresolved _ _ _ ho hf hno hu) hat

variable {cfg : Config} {env : Conditions} {r : Request} {k : Kind}

theorem paired_complete_blank (deadline : Option Int) {a : String} (h : Beside t t₁ t₁') :
    Paired (complete cfg env (r.keyed none) deadline k (some a)) (complete cfg env (r.keyed (some key)) deadline k (some a))
      t₁ t₁' (fun x x' => x' = x.emptied t) (Emptied t) := by
  refine (paired_checkDeadline h _ _).bind Beside.emptied fun _ h => ?_
  refine (paired_upsert_blank hb hne h rfl _ _ _).bind id fun {x y} {t₂ t₂'} hv hr => ?_
  -- the token does not name the key
  have hclaims : claims cfg y.user y.wallet (env.wall 2) = claims cfg x.user x.wallet (env.wall 2) := by
    rw [hv, claims, claims, Users.Account.emptied, WalletRow.emptied_owner]
  rw [hclaims]
  refine (paired_lift _ hr).bind id fun {c c'} {t₃ t₃'} hc hr => ?_
  cases hc
  cases hv
  exact paired_ok (yields_pure _ _) (yields_pure _ _) rfl hr

/-- With a key of blanks a login comes to what it comes to without a key, but for the key in
the row of a new wallet. -/
theorem paired_blank_login (hs : Sound t) (deadline : Option Int) :
    Paired (login cfg env (r.keyed none) deadline) (login cfg env (r.keyed (some key)) deadline) t t
      (fun x x' => x' = x.emptied t) (Emptied t) := by
  have hstart : Beside t t t := ⟨rfl, hs, rfl⟩
  rw [login_eq, login_eq, vet_blank hb]
  cases hv : vet cfg (r.keyed none) with
  | error e => exact paired_error (yields_refuse e t) (yields_refuse e t) hstart.emptied
  | ok kx =>
    obtain ⟨k, x⟩ := kx
    obtain ⟨-, a, rfl, -⟩ := vet_eq_ok_iff.mp hv
    rw [lift_ok_bind, lift_ok_bind]
    refine (paired_checkDeadline hstart _ _).bind Beside.emptied fun _ h => ?_
    refine (paired_consume_beside h rfl _ _).bind Beside.emptied fun _ h => ?_
    exact paired_complete_blank hb hne deadline h

end Paired

/-! ## Answers and tables -/

section Outcome

variable {t : Tables} (hs : Sound t) (cfg : Config) (env : Conditions) (r : Request) (deadline : Option Int)
include hs

/-- After a login without a key, the row of a new wallet has none. -/
theorem Sound.keyless_of_new {w : WalletRow}
    (hw : w ∈ ((Event.mk cfg env (.login (r.keyed none) deadline)).outcome t).tables.wallets)
    (hno : t.findWallet? w.owner = none) : w.publicKey = none := by
  have hleaves := (outcome_spec hs ⟨cfg, env, .login (r.keyed none) deadline⟩).leaves
  generalize ((Event.mk cfg env (.login (r.keyed none) deadline)).outcome t).tables = t' at hw hleaves
  have hknows : ∀ {t₁ : Tables}, t₁.wallets = t.wallets → Tables.Knows t t₁ := Tables.knows_of_wallets
  cases hleaves with
  | nothing => exact absurd hw ((hknows rfl).new_not_mem hno)
  | challenge hc _ => cases hc
  | redeemed hc hr =>
    cases hc
    rcases hr.left with rfl | ⟨o, -, hset⟩
    · exact absurd hw ((hknows rfl).new_not_mem hno)
    · exact hset.keyless_of_new (hknows rfl) hw hno

/-- A result shows a row of the tables. -/
theorem Sound.emptied_answer (h : Tables.Knows t ((Event.mk cfg env (.login r deadline)).outcome t).tables) :
    ((Event.mk cfg env (.login r deadline)).outcome t).answer.map (Answer.emptied t) =
      ((Event.mk cfg env (.login r deadline)).outcome t).answer := by
  cases ha : ((Event.mk cfg env (.login r deadline)).outcome t).answer with
  | error f => rfl
  | ok a =>
    cases a with
    | challenge c => rfl
    | profile p => rfl
    | result res =>
      obtain ⟨o, hl⟩ := hs.logsIn rfl ha
      have hknown := h _ (Tables.mem_of_findWallet? hl.holds.wallet).1
      have hrow : res.wallet.emptied t = res.wallet := Tables.emptied_of_known hknown
      simp only [Except.map, Answer.emptied, Result.emptied, hrow]

/-- A login with a key of blanks, beside the same login without a key. -/
theorem Sound.blank_login {key : String} (hb : ∀ c ∈ key.toList, Blank.isBlank c = true) (hne : key ≠ "")
    (hq : env.faults.Quiet) :
    let plain := (Event.mk cfg env (.login (r.keyed none) deadline)).outcome t
    let blank := (Event.mk cfg env (.login (r.keyed (some key)) deadline)).outcome t
    blank.answer = plain.answer.map (Answer.emptied t) ∧ blank.tables = t.emptied plain.tables := by
  have hpaired : Paired (Answer.result <$> login cfg env (r.keyed none) deadline)
      (Answer.result <$> login cfg env (r.keyed (some key)) deadline) t t (fun a a' => a' = a.emptied t) (Emptied t) :=
    (paired_blank_login hb hne hs deadline).map fun h => congrArg Answer.result h
  obtain ⟨ha, ht⟩ := perform_of_paired hpaired hq
  exact ⟨ha.eq_map, ht⟩

end Outcome

/-- In every state that the service reaches, a login with a key of blanks comes to what the
same login comes to without a key, but for the row of a wallet that is new: that has the
empty key, in the tables and in the answer, where without a key it has none. So the two
differ in nothing exactly where no wallet is new, or the key is the empty text. -/
theorem blank_keys_show_on_new_wallets (es : List Event) (cfg : Config) (env : Conditions) (hq : env.faults.Quiet)
    (r : Request) (deadline : Option Int) {key : String} (hb : ∀ c ∈ key.toList, Blank.isBlank c = true) :
    let t := (run es Tables.empty).2
    let plain := (Event.mk cfg env (.login (r.keyed none) deadline)).outcome t
    let blank := (Event.mk cfg env (.login (r.keyed (some key)) deadline)).outcome t
    (key = "" → blank = plain) ∧
    (key ≠ "" → blank.answer = plain.answer.map (Answer.emptied t) ∧ blank.tables = t.emptied plain.tables) ∧
    (∀ w ∈ plain.tables.wallets, t.findWallet? w.owner = none → w.publicKey = none) ∧
    (blank.answer = plain.answer ∧ blank.tables = plain.tables ↔ key = "" ∨ t.Knows plain.tables) := by
  intro t plain blank
  have hs : Sound t := by
    show Sound (run es Tables.empty).2
    rw [run_tables]
    exact sound_after es
  have hempty : key = "" → blank = plain := by
    rintro rfl
    show perform (Answer.result <$> login cfg env (r.keyed (some "")) deadline) env.faults t = _
    rw [login_empty_key]
    rfl
  have hblank : key ≠ "" → blank.answer = plain.answer.map (Answer.emptied t) ∧ blank.tables = t.emptied plain.tables :=
    fun hne => hs.blank_login cfg env r deadline hb hne hq
  have hkeyless : ∀ w ∈ plain.tables.wallets, t.findWallet? w.owner = none → w.publicKey = none :=
    fun w hw hno => hs.keyless_of_new cfg env r deadline hw hno
  refine ⟨hempty, hblank, hkeyless, ?_⟩
  by_cases hne : key = ""
  · rw [hempty hne]
    exact iff_of_true ⟨rfl, rfl⟩ (Or.inl hne)
  · obtain ⟨ha, ht⟩ := hblank hne
    rw [ha, ht, or_iff_right hne]
    constructor
    · rintro ⟨-, hsame⟩
      exact Tables.knows_of_emptied hsame hkeyless
    · intro hknows
      exact ⟨hs.emptied_answer cfg env _ deadline hknows, hknows.emptied⟩

/-! ## A first login with one blank as its key -/

namespace BlankKey

open FirstLogin (config conditions request address asks)

def key : String := " "

theorem isBlank : ∀ c ∈ key.toList, Text.Blank.isBlank c = true :=
  List.all_eq_true.mp rfl

theorem trimKey_key : Users.trimKey (some key) = some "" := trimKey_blank isBlank (by decide)

/-- The login that answers the first challenge, with this key. -/
def answers (key : Option String) : Event := ⟨config, conditions 1, .login (request.keyed key) none⟩

/-- The row of the wallet. -/
def wallet (key : Option String) : WalletRow := ⟨1, "user", ⟨"solana", address⟩, key, 1, 1⟩

theorem presents : Presents (request.keyed (some key)) .solana address :=
  Presents.keyed_blank isBlank (r := request) FirstLogin.presents

/-- A login of the wallet makes its row, with the key as it was trimmed. -/
theorem answers_ends {k : Option String} (hp : Presents (request.keyed k) .solana address) :
    ∃ res, ((answers k).outcome (run [asks] Tables.empty).2).answer = .ok (.result res) ∧
      res.wallet = wallet (Users.trimKey k) ∧
      ((answers k).outcome (run [asks] Tables.empty).2).tables.wallets = [wallet (Users.trimKey k)] := by
  rw [run_tables]
  unfold answers
  have hu : Unhindered (conditions 1).faults.Quiet config (conditions 1) none (after Event.outcome [asks]) :=
    FirstLogin.unhindered Faults.quiet_default (fun _ => rfl) (FirstLogin.newUser_asks 1) (by decide) (by decide) (by decide)
  obtain ⟨res, ha, hl⟩ := (sound_after [asks]).login_succeeds hu hp (FirstLogin.redeemable (by decide))
  have hnew : ((after Event.outcome [asks]).spend ⟨Kind.solana.name, address⟩ (trimmed (request.keyed k).nonce)
      ((conditions 1).wall 0)).findWallet? ⟨Kind.solana.name, address⟩ = none := by
    rw [FirstLogin.after_asks]
    rfl
  have ht := hl.settled.eq_withAccount hnew
  have hmem := (Tables.mem_of_findWallet? hl.holds.wallet).1
  have hwallets : ((Event.mk config (conditions 1) (.login (request.keyed k) none)).outcome
      (after Event.outcome [asks])).tables.wallets = [wallet (Users.trimKey k)] := by
    rw [ht, FirstLogin.after_asks]
    rfl
  rw [hwallets] at hmem
  exact ⟨res, ha, List.mem_singleton.mp hmem, hwallets⟩

/-- The same wallet when it comes back, with this key. -/
def returns (key : Option String) : Event :=
  ⟨config, LaterLogins.conditions 3 "" "second", .login (LaterLogins.again.keyed key) none⟩

theorem knows_returns : Tables.Knows (run (LaterLogins.calls.take 3) Tables.empty).2
    ((returns none).outcome (run (LaterLogins.calls.take 3) Tables.empty).2).tables := by
  have hcall : LaterLogins.calls[3]? = some (returns none) := rfl
  have hafter := tablesAt_succ hcall
  rw [LaterLogins.again_logs_in.2] at hafter
  rw [← tablesAt, ← hafter, LaterLogins.before_again]
  intro w hw
  rw [List.mem_singleton.mp hw]
  simp [Tables.findWallet?]

end BlankKey

open BlankKey in
/-- On a first login a key of one blank is stored and returned as the empty key; on a login
of the same wallet later on it changes nothing. -/
theorem blank_key_of_a_wallet_that_comes_back :
    (let t := (run [FirstLogin.asks] Tables.empty).2;
      ((answers (some key)).outcome t).answer = ((answers none).outcome t).answer.map (Answer.emptied t) ∧
        ((answers (some key)).outcome t).tables = t.emptied ((answers none).outcome t).tables) ∧
      let t := (run (LaterLogins.calls.take 3) Tables.empty).2
      ((returns (some key)).outcome t).answer = ((returns none).outcome t).answer ∧
        ((returns (some key)).outcome t).tables = ((returns none).outcome t).tables := by
  obtain ⟨-, hfirst, -, -⟩ := blank_keys_show_on_new_wallets [FirstLogin.asks] FirstLogin.config
    (FirstLogin.conditions 1) Faults.quiet_default FirstLogin.request none isBlank
  obtain ⟨-, -, -, hagain⟩ := blank_keys_show_on_new_wallets (LaterLogins.calls.take 3) FirstLogin.config
    (LaterLogins.conditions 3 "" "second") Faults.quiet_default LaterLogins.again none isBlank
  exact ⟨hfirst (by decide), hagain.mpr (Or.inr knows_returns)⟩

open BlankKey in
/-- The first login of a wallet leaves and answers otherwise with one blank as its key than
without a key. -/
theorem a_blank_key_is_stored_as_the_empty_key :
    let t := (run [FirstLogin.asks] Tables.empty).2
    (∀ c ∈ key.toList, Text.Blank.isBlank c = true) ∧
      ((answers none).outcome t).tables.wallets = [wallet none] ∧
      ((answers (some key)).outcome t).tables.wallets = [wallet (some "")] ∧
      (∃ res, ((answers none).outcome t).answer = .ok (.result res) ∧ res.wallet = wallet none) ∧
      ∃ res, ((answers (some key)).outcome t).answer = .ok (.result res) ∧ res.wallet = wallet (some "") := by
  obtain ⟨res, hplain, hrow, hrows⟩ := answers_ends (k := none) FirstLogin.presents
  obtain ⟨res', hblank, hrow', hrows'⟩ := answers_ends presents
  rw [trimKey_key] at hrow' hrows'
  exact ⟨isBlank, hrows, hrows', ⟨res, hplain, hrow⟩, ⟨res', hblank, hrow'⟩⟩

end WalletLogin.Login
