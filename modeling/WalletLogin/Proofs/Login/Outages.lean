/-
  WalletLogin.Proofs.Login.Outages — what a client can make of a healthy service.

  A challenge is stored for the owner that its address names. The reader of addresses is
  more generous than the writer of their canonical texts: a cardano address that points at
  a certificate can be read though its own text would be over the limit of bech32. Such an
  address is accepted without a text (`Textless`), its nonce has no owner, and a column
  that may not be empty turns the request into a failure of the storage.

  Proved, where nothing is planned to fail, the drawn nonce is free and there is time:
  - `identify_eq_none_iff`: which requests name a wallet without an address.
  - `only_textless_addresses_look_like_outages`: every other request gets its challenge, or
    is refused for its kind of wallet or its address.
  - `a_long_pointer_looks_like_an_outage`: an address of this kind.
-/

import WalletLogin.Proofs.Login.Health
import WalletLogin.Proofs.Login.Identities
import WalletLogin.Proofs.Wallet.Canonical

namespace WalletLogin.Login

open Encoding Ledger Procedure Text Wallet Cardano

/-- The address reads as one of cardano, with a pointer that makes its text too long. -/
def Textless (walletType address : Option String) : Prop :=
  Kind.read? (walletType.getD "") = some .cardano ∧ ∃ (a : Shelley) (p : Credential) (s : Pointer),
    Address.ofText? (Blank.trim (address.getD "").toList) = some (.shelley a) ∧ a.parts = .pointer p s ∧
      Bech32.maxLength < a.text.length

/-- What is normalized to no text. -/
theorem normalize_eq_none {k : Kind} {raw : Option String} (h : k.normalize raw = .ok none) :
    k = .cardano ∧ ∃ (a : Shelley) (p : Credential) (s : Pointer),
      Address.ofText? (Blank.trim (raw.getD "").toList) = some (.shelley a) ∧ a.parts = .pointer p s ∧
        Bech32.maxLength < a.text.length := by
  obtain ⟨y, hy, hnone⟩ := Kind.normalize_eq_ok h
  obtain rfl : y = none := by simpa using hnone
  cases k with
  | evm =>
    obtain ⟨z, -, hz⟩ := Evm.canonical_eq_ok hy
    cases hz
  | solana =>
    obtain ⟨z, -, hz⟩ := Solana.canonical_eq_ok hy
    cases hz
  | cardano =>
    obtain ⟨x, hx, htext⟩ := Address.canonical_eq_ok hy
    rcases Address.ofText?_eq_some hx with ⟨a, b, rfl, hread⟩ | ⟨a, b, rfl, hread⟩
    · obtain ⟨-, b', hw⟩ := Byron.isChecked_of_ofBytes? hread
      rw [Address.text?, Byron.text?_of_toBytes? hw] at htext
      cases htext
    · obtain ⟨hlong, hpointer⟩ := Shelley.text?_eq_none hread
      obtain ⟨p, s, hp⟩ := hpointer htext.symm
      exact ⟨rfl, a, p, s, hx, hp, hlong.mp htext.symm⟩

theorem identify_eq_none_iff {walletType address : Option String} {k : Kind} :
    identify walletType address = .ok (k, none) ↔ k = .cardano ∧ Textless walletType address := by
  rw [identify_eq_ok_iff]
  constructor
  · intro h
    obtain ⟨hk, hn⟩ := h
    obtain ⟨rfl, htext⟩ := normalize_eq_none hn
    exact ⟨rfl, hk, htext⟩
  · intro h
    obtain ⟨rfl, hk, a, p, s, hread, -, hlong⟩ := h
    refine ⟨hk, ?_⟩
    have hne : ¬ (Blank.trim (address.getD "").toList).isEmpty = true := by
      intro hempty
      rw [List.isEmpty_iff.mp hempty] at hread
      cases hread
    have htext : a.text? = none := if_neg (Nat.not_le.mpr hlong)
    rw [Kind.normalize, if_neg hne, Address.canonical_of_ofText? hread, Address.text?, htext]
    rfl

/-- A request whose kind and address can be read gets its challenge, unless the address has
no text: then the storage seems to have failed. A reading that no column holds stops it
before that. A request that names no wallet is refused, as the client's fault. Only a
challenge leaves anything behind. -/
theorem only_textless_addresses_look_like_outages {t : Tables} (hd : t.NoncesDiffer) (cfg : Config) {env : Conditions}
    (hq : env.faults.Quiet) (hn : t.findNonce? env.nonce = none) (hx : fits (env.wall 0 + cfg.nonceTtl) = true)
    {deadline : Option Int} (he : ¬ Expired deadline (env.mono 0)) (walletType address : Option String) :
    let o := (Event.mk cfg env (.issue walletType address deadline)).outcome t
    (∀ e, identify walletType address = .error e →
      o.answer = .error (.refused e) ∧ (e.code = "invalid_wallet_type" ∨ e.code = "invalid_address") ∧ o.tables = t) ∧
    (∀ k a, identify walletType address = .ok (k, a) → fits (env.wall 0) = true → ¬ Textless walletType address →
      ∃ a', a = some a' ∧
        o.answer = .ok (.challenge ⟨env.nonce, Message.current env.nonce, env.wall 0 + cfg.nonceTtl⟩) ∧
        o.tables = t.withNonce (challengeRow cfg env ⟨k.name, a'⟩)) ∧
    (Textless walletType address → fits (env.wall 0) = true → o.answer = .error (.refused .storage) ∧ o.tables = t) ∧
    (∀ ka, identify walletType address = .ok ka → fits (env.wall 0) = false →
      o.answer = .error .numberTooWide ∧ o.tables = t) := by
  intro o
  refine ⟨?_, ?_, ?_, ?_⟩
  · intro e hi
    obtain ⟨ha, ht⟩ := outcome_of_yields ((yields_issue_refused hi).map Answer.challenge) hq
    exact ⟨ha, identify_code hi, ht⟩
  · intro k a hi hf htext
    cases a with
    | none => exact absurd (identify_eq_none_iff.mp hi).2 htext
    | some a => exact ⟨a, rfl, outcome_of_yields ((yields_issue he hf hx hd hi hn).map Answer.challenge) hq⟩
  · intro htext hf
    have hi := identify_eq_none_iff.mpr ⟨rfl, htext⟩
    exact outcome_of_yields ((yields_issue_unnamed he hf hx hi).map Answer.challenge) hq
  · intro ka hi hf
    have hw : ¬ (fits (env.wall 0) = true ∧ fits (env.wall 0 + cfg.nonceTtl) = true) := by simp [hf]
    exact outcome_of_yields ((yields_issue_wide he hi hw).map Answer.challenge) hq

/-- The wallet of a first login gets its challenge; the empty address is refused. -/
theorem a_first_wallet_gets_its_challenge :
    (FirstLogin.asks.outcome Tables.empty).answer = .ok (.challenge ⟨"abc123", Message.current "abc123", 600⟩) ∧
      ∃ e, e.code = "invalid_address" ∧
        ((Event.mk FirstLogin.config (FirstLogin.conditions 0) (.issue (some "solana") none none)).outcome
          Tables.empty).answer = .error (.refused e) := by
  have hfree : Tables.empty.findNonce? (FirstLogin.conditions 0).nonce = none := rfl
  have hfits : fits ((FirstLogin.conditions 0).wall 0 + FirstLogin.config.nonceTtl) = true := by decide
  obtain ⟨-, hchallenge, -, -⟩ := only_textless_addresses_look_like_outages sound_empty.differ FirstLogin.config
    Faults.quiet_default hfree hfits (expired_none _) (some "solana") (some FirstLogin.address)
  obtain ⟨hrefused, -, -, -⟩ := only_textless_addresses_look_like_outages sound_empty.differ FirstLogin.config
    Faults.quiet_default hfree hfits (expired_none _) (some "solana") none
  refine ⟨?_, .address .solana .required, rfl, ?_⟩
  · have hnot : ¬ Textless (some "solana") (some FirstLogin.address) := by
      intro htext
      have hk : Kind.read? "solana" = some .solana := by decide
      cases hk.symm.trans htext.1
    obtain ⟨a', -, ha, -⟩ := hchallenge .solana (some FirstLogin.address) FirstLogin.presents.named (by decide) hnot
    exact ha
  · exact (hrefused (.address .solana .required) (by decide +kernel)).1

namespace LongPointer

/-- An address under a short name of its own; cardano's name makes its text too long. -/
def address : String :=
  "a1gqqszqgpqyqszqgpqyqszqgpqyqszqgpqyqszqgpqyqszq0" ++ "lllllllllllllllllllllllllllllllllllllllll0upqx5x59jm"

def asks : Event := ⟨FirstLogin.config, FirstLogin.conditions 0, .issue (some "cardano") (some address) none⟩

theorem identify_address : identify (some "cardano") (some address) = .ok (.cardano, none) := by
  decide +kernel

/-- Nothing is planned to fail, the nonce is free, the numbers fit, and there is time, but
the address alone makes a challenge fail as if the storage had. -/
theorem a_long_pointer_looks_like_an_outage :
    asks.conditions.faults.Quiet ∧ Tables.empty.findNonce? asks.conditions.nonce = none ∧
      fits (asks.conditions.wall 0) = true ∧ fits (asks.conditions.wall 0 + asks.config.nonceTtl) = true ∧
      ¬ Expired none (asks.conditions.mono 0) ∧
      (asks.outcome Tables.empty).answer = .error (.refused .storage) ∧ Refusal.code .storage = "storage_error" := by
  have hstored : fits ((FirstLogin.conditions 0).wall 0) = true := by decide
  have hexpires : fits ((FirstLogin.conditions 0).wall 0 + FirstLogin.config.nonceTtl) = true := by decide
  have hy := yields_issue_unnamed (t := Tables.empty) (expired_none ((FirstLogin.conditions 0).mono 0)) hstored hexpires
    identify_address
  have ha := (outcome_of_yields (hy.map Answer.challenge) Faults.quiet_default).1
  exact ⟨Faults.quiet_default, rfl, hstored, hexpires, expired_none _, ha, rfl⟩

end LongPointer

end WalletLogin.Login
