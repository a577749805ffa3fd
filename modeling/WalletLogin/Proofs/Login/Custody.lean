/-
  WalletLogin.Proofs.Login.Custody — a challenge waits for its wallet.

  Only a login that names the row's owner and nonce, with a signature of that owner over
  one of the nonce's two messages, can spend a row (`SignedFor`): the signature is
  checked before the conditional statement, and the statement asks for the owner and the
  nonce. Newer challenges of the wallet, wrong signatures and other wallets that present
  the nonce leave it alone.

  Proved:
  - `Leaves.keeps_row`: no call changes a row that its request is not signed for.
  - `challenge_waits_for_its_wallet`: after any such calls the row is as it was, and the
    owner's signed request logs it in, while the row is in time and nothing else is in
    its way.
  `too_early_a_clock_stops_the_owner` shows that a reading that no column holds is in its
  way.
-/

import WalletLogin.Proofs.Login.Admission
import WalletLogin.Proofs.Login.Continuity

namespace WalletLogin

open Encoding Wallet

/-! ## Empty signatures -/

theorem Curve.Ed25519.verify_nil (key m : Bytes) : Curve.Ed25519.verify key m [] = false := by
  simp [Curve.Ed25519.verify]

/-- No wallet signs with the empty text, which reads as no bytes. -/
theorem Wallet.Kind.accepts_empty (k : Kind) (address : String) (signed : Bytes) (key : Option String) :
    k.accepts address signed "" key = false := by
  unfold Kind.accepts
  cases k with
  | evm =>
    have hb : Evm.signatureBytes? "".toList = some [] := by decide
    simp only [Evm.verify, hb]
    simp [Evm.signer?]
  | solana =>
    have hb : Solana.signatureBytes? "".toList = some [] := by decide
    simp only [Solana.verify, hb]
    cases Base58.decode address.toList with
    | ok b => simp [Curve.Ed25519.verify_nil]
    | error f => rfl
  | cardano =>
    have hb : Lenient.decode? "".toList = some [] := by decide
    cases key with
    | none => rfl
    | some s =>
      simp only [Cardano.Ownership.verify, Option.map_some, hb]
      cases Cardano.Ownership.publicKey? s.toList with
      | none => simp
      | some b => simp [Curve.Ed25519.verify_nil]

end WalletLogin

namespace WalletLogin.Login

open Ledger Wallet History

/-! ## Requests that can spend a row -/

/-- The request names the row's owner, of kind `k`, and its nonce, and the owner signed one
of the nonce's messages. -/
structure SignedFor (r : Request) (k : Kind) (row : NonceRow) : Prop where
  kind : row.owner.walletType = k.name
  named : identify r.walletType r.address = .ok (k, some row.owner.address)
  nonce : trimmed r.nonce = row.nonce
  verified : k.verify row.owner.address (Message.current row.nonce) (trimmed r.signature) r.publicKey = true ∨
    k.verify row.owner.address (Message.legacy row.nonce) (trimmed r.signature) r.publicKey = true

section SignedFor

variable {r : Request} {k : Kind} {row : NonceRow}

theorem SignedFor.signature (h : SignedFor r k row) : trimmed r.signature ≠ "" := by
  intro he
  have hv := h.verified
  simp only [he, Kind.verify, Kind.accepts_empty, Bool.false_eq_true, or_self] at hv

theorem SignedFor.presents (h : SignedFor r k row) (hn : row.nonce ≠ "") : Presents r k row.owner.address where
  named := h.named
  nonce := by
    rw [h.nonce]
    exact hn
  signature := h.signature
  signed := by
    rw [h.nonce]
    exact isSigned_iff.mpr h.verified

theorem SignedFor.owner (h : SignedFor r k row) : row.owner = ⟨k.name, row.owner.address⟩ := by
  rw [← h.kind]

/-- What presents a wallet and a live nonce of its own is signed for the nonce's row. -/
theorem Presents.signedFor {o : Owner} {now : Int} (h : Presents r k o.address) (hk : o.walletType = k.name)
    (hn : row.nonce = trimmed r.nonce) (hl : row.isLive o now = true) : SignedFor r k row := by
  obtain ⟨rfl, -, -⟩ := NonceRow.isLive_iff.mp hl
  refine ⟨hk, h.named, hn.symm, ?_⟩
  rw [hn]
  exact isSigned_iff.mp h.signed

end SignedFor

/-! ## Rows that wait -/

/-- No login of the calls is signed for the row. -/
def NoneSigned (es : List Event) (row : NonceRow) : Prop :=
  ∀ e ∈ es, ∀ r deadline, e.call = .login r deadline → ∀ k, ¬ SignedFor r k row

theorem Leaves.keeps_row {e : Event} {t t' : Tables} (h : Leaves e t t') {row : NonceRow} (hr : row ∈ t.nonces)
    (he : ∀ r deadline, e.call = .login r deadline → ∀ k, ¬ SignedFor r k row) : row ∈ t'.nonces := by
  cases h with
  | nothing => exact hr
  | challenge _ hc =>
    rw [hc.stored]
    exact List.mem_append_left _ hr
  | @redeemed r deadline o _ hcall hred =>
    obtain ⟨k, hp, hk⟩ := hred.presented
    -- the statement marks a row only where the request is signed for it
    have hno : ¬ (row.nonce = trimmed r.nonce ∧ row.isLive o (e.conditions.wall 0) = true) := by
      rintro ⟨hn, hl⟩
      exact he r deadline hcall k (hp.signedFor hk hn hl)
    rw [hred.nonces]
    refine Tables.mem_spend.mpr ⟨row, hr, ?_⟩
    unfold NonceRow.marked
    rw [if_neg hno]

theorem after_keeps_row {es : List Event} {row : NonceRow} (hr : row ∈ (after Event.outcome es).nonces) (fs : List Event)
    (hf : NoneSigned fs row) : row ∈ (after Event.outcome (es ++ fs)).nonces := by
  induction fs using List.reverseRecOn with
  | nil =>
    rw [List.append_nil]
    exact hr
  | append_singleton fs e ih =>
    have hfs : NoneSigned fs row := fun x hx => hf x (List.mem_append_left _ hx)
    have he := hf e (List.mem_append_right _ (List.mem_singleton_self e))
    rw [← List.append_assoc, after_snoc]
    exact (outcome_spec (sound_after (es ++ fs)) e).leaves.keeps_row (ih hfs) he

/-- The row's owner logs in, where nothing is in the way of its request. -/
theorem Sound.owner_logs_in {t : Tables} (h : Sound t) {row : NonceRow} (hr : row ∈ t.nonces) (hc : row.consumedAt = none)
    (hn : row.nonce ≠ "") {cfg : Config} {env : Conditions} {r : Request} {deadline : Option Int} {k : Kind}
    (hs : SignedFor r k row) (hu : Unhindered env.faults.Quiet cfg env deadline t) (ht : env.wall 0 < row.expiresAt) :
    ∃ res, ((Event.mk cfg env (.login r deadline)).outcome t).answer = .ok (.result res) ∧ res.wallet.owner = row.owner := by
  have hlive : t.Redeemable ⟨k.name, row.owner.address⟩ (trimmed r.nonce) (env.wall 0) :=
    ⟨row, hr, hs.nonce.symm, NonceRow.isLive_iff.mpr ⟨hs.owner, hc, ht⟩⟩
  obtain ⟨res, ha, hl⟩ := h.login_succeeds hu (hs.presents hn) hlive
  refine ⟨res, ha, ?_⟩
  rw [hs.owner]
  exact (Tables.mem_of_findWallet? hl.holds.wallet).2

/-- In every state that the service reaches, an unspent row stays as it is through any
calls of which no login is signed for it; and then a request that is signed for it logs
its owner in, at any second before the row is over, where nothing else is in the way. -/
theorem challenge_waits_for_its_wallet (es fs : List Event) {row : NonceRow} (hr : row ∈ (run es Tables.empty).2.nonces)
    (hc : row.consumedAt = none) (hf : NoneSigned fs row) :
    let t := (run (es ++ fs) Tables.empty).2
    row ∈ t.nonces ∧ (row.nonce ≠ "" →
      ∀ cfg env r deadline k, SignedFor r k row → Unhindered env.faults.Quiet cfg env deadline t →
        env.wall 0 < row.expiresAt →
        ∃ res, ((Event.mk cfg env (.login r deadline)).outcome t).answer = .ok (.result res) ∧
          res.wallet.owner = row.owner) := by
  rw [run_tables] at hr ⊢
  have hstays := after_keeps_row hr fs hf
  refine ⟨hstays, ?_⟩
  intro hn cfg env r deadline k hs hu ht
  exact (sound_after (es ++ fs)).owner_logs_in hstays hc hn hs hu ht

/-! ## Strangers -/

namespace Strangers

open FirstLogin (asks request address)
open LaterLogins (ask answer again otherAddress)

/-- A signature that no wallet made, under the nonce of the first challenge. -/
def forged : Request := { request with signature := some "x" }

/-- The same nonce, presented for another wallet. -/
def foreign : Request := { forged with address := some otherAddress }

/-- The same nonce, presented for another kind of wallet. -/
def misnamed : Request := { forged with walletType := some "cardano" }

/-- A newer challenge for the wallet, and three attempts at the older one. -/
def calls : List Event :=
  [answer 1 "second" forged, ask 2 again, answer 3 "third" foreign, answer 4 "fourth" misnamed]

def row : NonceRow := ⟨"abc123", ⟨"solana", address⟩, 0, 600, none⟩

/-- The tables in which the first challenge waits. -/
def tables : Tables := ⟨[row], [], []⟩

/-- The text `x` is a signature of no kind of wallet. -/
theorem x_not_accepted (k : Kind) (a : String) (b : Bytes) : k.accepts a b "x" none = false := by
  cases k with
  | evm =>
    have hb : Evm.signatureBytes? "x".toList = none := by decide
    simp only [Kind.accepts, Evm.verify, hb]
  | solana =>
    have hb : Solana.signatureBytes? "x".toList = none := by decide
    simp only [Kind.accepts, Solana.verify, hb]
    cases Encoding.Base58.decode a.toList <;> rfl
  | cardano => rfl

section Forged

variable {r : Request} (hs : r.signature = some "x") (hk : r.publicKey = none)
include hs hk

theorem not_signed (k : Kind) : ¬ SignedFor r k row := by
  intro h
  have hx : trimmed (some "x") = "x" := by decide
  have hv := h.verified
  simp only [hs, hk, hx, Kind.verify, x_not_accepted, Bool.false_eq_true, or_self] at hv

theorem not_presents (k : Kind) (a : String) : ¬ Presents r k a := by
  intro h
  have hx : trimmed (some "x") = "x" := by decide
  have hv := isSigned_iff.mp h.signed
  simp only [hs, hk, hx, Kind.verify, x_not_accepted, Bool.false_eq_true, or_self] at hv

end Forged

theorem none_signed : NoneSigned calls row := by
  intro e he r deadline hc
  simp only [calls, List.mem_cons, List.not_mem_nil, or_false] at he
  rcases he with rfl | rfl | rfl | rfl
  · cases hc
    exact not_signed rfl rfl
  · cases hc
  · cases hc
    exact not_signed rfl rfl
  · cases hc
    exact not_signed rfl rfl

theorem before : (run [asks] Tables.empty).2 = tables := by
  rw [run_tables, FirstLogin.after_asks]
  rfl

theorem sound : Sound tables := by
  rw [← before, run_tables]
  exact sound_after [asks]

theorem after_calls : (run ([asks] ++ calls) Tables.empty).2 = ⟨[row, LaterLogins.againRow none], [], []⟩ := by
  have hcalls : [asks] ++ calls =
      [asks] ++ [answer 1 "second" forged] ++ [ask 2 again] ++ [answer 3 "third" foreign] ++
        [answer 4 "fourth" misnamed] := rfl
  have hforged : ((answer 1 "second" forged).outcome tables).tables = tables :=
    tables_of_unsigned _ Faults.quiet_default (not_presents rfl rfl)
  have hasked : ((ask 2 again).outcome tables).tables = tables.withNonce (LaterLogins.againRow none) :=
    tables_of_issue (expired_none _) (by decide) (by decide) Faults.quiet_default sound.differ
      LaterLogins.presents_again.named (by decide)
  have hforeign : ∀ t, ((answer 3 "third" foreign).outcome t).tables = t := fun t =>
    tables_of_unsigned t Faults.quiet_default (not_presents rfl rfl)
  have hmisnamed : ∀ t, ((answer 4 "fourth" misnamed).outcome t).tables = t := fun t =>
    tables_of_unsigned t Faults.quiet_default (not_presents rfl rfl)
  rw [run_tables, hcalls, after_snoc, after_snoc, after_snoc, after_snoc, ← run_tables, before, hforged, hasked, hforeign,
    hmisnamed]
  rfl

theorem signed : SignedFor request .solana row where
  kind := rfl
  named := FirstLogin.presents.named
  nonce := by decide
  verified := isSigned_iff.mp FirstLogin.presents.signed

end Strangers

/-- The challenge of second 0 is there for its wallet at second 5, whoever came between. -/
theorem strangers_leave_the_challenge : ∃ res,
    ((LaterLogins.answer 5 "user" FirstLogin.request).outcome
      (run ([FirstLogin.asks] ++ Strangers.calls) Tables.empty).2).answer = .ok (.result res) := by
  have hr : Strangers.row ∈ (run [FirstLogin.asks] Tables.empty).2.nonces := by
    rw [Strangers.before]
    exact List.mem_singleton_self _
  obtain ⟨-, hlogs⟩ := challenge_waits_for_its_wallet [FirstLogin.asks] Strangers.calls hr rfl Strangers.none_signed
  have hid : (run ([FirstLogin.asks] ++ Strangers.calls) Tables.empty).2.findUser? "user" = none := by
    rw [Strangers.after_calls]
    rfl
  obtain ⟨res, hres, -⟩ := hlogs (by decide) FirstLogin.config (LaterLogins.conditions 5 "" "user") FirstLogin.request none
    .solana Strangers.signed
    (FirstLogin.unhindered Faults.quiet_default (fun _ => rfl) hid (by decide) (by decide) (by decide)) (by decide)
  exact ⟨res, hres⟩

/-- At a second before those that a column holds, the owner's signed request does not log it
in, though its row waits and nothing else is in the way. -/
theorem too_early_a_clock_stops_the_owner :
    let now : Int := -10000000000000000000
    let t := (run [FirstLogin.asks] Tables.empty).2
    Strangers.row ∈ t.nonces ∧ Strangers.row.consumedAt = none ∧ Strangers.row.nonce ≠ "" ∧
      SignedFor FirstLogin.request .solana Strangers.row ∧ now < Strangers.row.expiresAt ∧
      (FirstLogin.conditions now).faults.Quiet ∧ t.findUser? (FirstLogin.conditions now).userId = none ∧
      (∀ u w, ∃ token, sign FirstLogin.config (claims FirstLogin.config u w now) = .ok token) ∧
      ¬ ∃ res, ((FirstLogin.answers now).outcome t).answer = .ok (.result res) := by
  intro now t
  have ht : t = Strangers.tables := Strangers.before
  have hs : Sound t := ht ▸ Strangers.sound
  refine ⟨?_, rfl, by decide, Strangers.signed, by decide, Faults.quiet_default, ?_, fun u w => ?_, ?_⟩
  · rw [ht]
    exact List.mem_singleton_self _
  · rw [ht]
    rfl
  · refine ⟨Token.Issue.token .hs256 FirstLogin.config.secret (claims FirstLogin.config u w now), ?_⟩
    have hi : Token.Issue.fits now = true := by decide
    have hx : Token.Issue.fits (now + 900) = true := by decide
    exact sign_eq_ok_iff.mpr (FirstLogin.signs hi hx)
  · rintro ⟨res, hres⟩
    exact absurd (hs.fits_of_result hres) (by decide)

end WalletLogin.Login
