/-
  WalletLogin.Proofs.Wallet.NamedKey — the public key that a client may name beside an
  address.

  A key of blanks is no key, for every kind of wallet. Beside an address that is a key
  itself, any other key has to be that address once more. It is read as it stands: the
  blanks at its end are dropped with those of any text in base 58, but those in front are
  not, while an address is trimmed at both ends before it is read
  (`Solana.normalize_eq_ok_iff_of_kind`). So a key with a blank in front is refused though as
  an address it would be the right one.

  Proved:
  - `Kind.verify_blank`: a blank key counts as none.
  - `named_keys_are_read_as_they_stand`: when a key beside a solana address is accepted.
  - `a_blank_in_front_refuses_the_key`: a key that is refused for its first character.
-/

import WalletLogin.Proofs.Wallet.Solana
import WalletLogin.Wallet.Message

namespace WalletLogin.Wallet

open Encoding Text

namespace Solana

variable {address signature k y : List Char} {m : Bytes}

/-- The key has no part in the check of the signature. -/
theorem verify_eq (address : List Char) (m : Bytes) (signature : List Char) (publicKey : Option (List Char)) :
    verify address m signature publicKey = (verify address m signature none && admitsKey address publicKey) := by
  unfold verify
  cases Base58.decode address with
  | error f => rfl
  | ok key =>
    cases signatureBytes? signature with
    | none => rfl
    | some b => exact Bool.and_comm _ _

theorem admitsKey_some_iff :
    admitsKey address (some k) = true ↔ (∀ c ∈ k, Blank.isBlank c = true) ∨ normalize k = .ok address := by
  simp only [admitsKey, Bool.or_eq_true, List.all_eq_true]
  cases normalize k <;> simp

/-- What is read as it stands is read alike as an address, unless a blank stands in front. -/
theorem normalize_eq_ok_iff_of_kind : normalize k = .ok y ↔
    Kind.normalize .solana (some (String.ofList k)) = .ok (some (String.ofList y)) ∧ ∀ c ∈ k.head?, Blank.isBlank c = false := by
  rw [normalize_eq_ok_iff, normalize_solana_eq_ok_iff, Option.getD_some, Blank.strip, String.toList_ofList,
    Option.some.injEq, String.ofList_inj]
  constructor
  · rintro ⟨htext, key, hl, rfl⟩
    have hne := encode_key_ne_nil hl
    have hvisible : ∀ c ∈ (Base58.encode key).head?, Blank.isBlank c = false := fun c hc =>
      (Base58.isVisible_of_mem_encode (List.mem_of_mem_head? hc)).isBlank
    have htrim := Blank.trim_of_trimRight htext hne hvisible
    rw [htrim]
    refine ⟨⟨⟨key, spells_iff.mpr ⟨rfl, hl⟩⟩, rfl⟩, ?_⟩
    obtain ⟨a, rfl⟩ : ∃ a, Base58.encode key ++ a = k := htext ▸ Blank.trimRight_prefix k
    rwa [List.head?_append_of_ne_nil _ hne]
  · rintro ⟨⟨⟨key, hkey⟩, rfl⟩, hhead⟩
    obtain ⟨htext, hl⟩ := spells_iff.mp hkey
    rw [Blank.trim, Blank.dropLeft_eq_self hhead] at htext ⊢
    exact ⟨rfl, key, hl, htext⟩

end Solana

theorem Kind.verify_solana_eq (address message signature : String) (publicKey : Option String) :
    Kind.verify .solana address message signature publicKey = (Kind.verify .solana address message signature none &&
      Solana.admitsKey address.toList (publicKey.map String.toList)) :=
  Solana.verify_eq _ _ _ _

/-! ## Blank keys -/

/-- A key of blanks counts as none, for every kind of wallet. -/
theorem Kind.verify_blank (k : Kind) (address message signature : String) {key : String}
    (h : ∀ c ∈ key.toList, Blank.isBlank c = true) :
    k.verify address message signature (some key) = k.verify address message signature none := by
  cases k with
  | evm => rfl
  | solana =>
    rw [verify_solana_eq, Option.map_some, Solana.admitsKey_some_iff.mpr (.inl h), Bool.and_true]
  | cardano =>
    have hblank : key.toList.all Blank.isBlank = true := List.all_eq_true.mpr h
    show Cardano.Ownership.verify _ _ _ (some key.toList) = false
    simp only [Cardano.Ownership.verify, hblank, Bool.not_true, Bool.false_and]

/-! ## Keys beside an address that is one -/

/-- A solana signature is accepted with a key beside it exactly where it is accepted without
one, and the key is absent, or blank, or a text of the same address that does not start
with a blank. -/
theorem named_keys_are_read_as_they_stand (address message signature : String) (publicKey : Option String) :
    Kind.verify .solana address message signature publicKey = true ↔
      Kind.verify .solana address message signature none = true ∧
        (publicKey = none ∨ ∃ k, publicKey = some k ∧
          ((∀ c ∈ k.toList, Blank.isBlank c = true) ∨
            Kind.normalize .solana (some k) = .ok (some address) ∧ ∀ c ∈ k.toList.head?, Blank.isBlank c = false)) := by
  rw [Kind.verify_solana_eq, Bool.and_eq_true]
  refine and_congr_right fun _ => ?_
  cases publicKey with
  | none => exact iff_of_true rfl (.inl rfl)
  | some k =>
    rw [Option.map_some, Solana.admitsKey_some_iff, Solana.normalize_eq_ok_iff_of_kind, String.ofList_toList,
      String.ofList_toList]
    simp

namespace RepeatedKey

def address : String := "Ejija96QuS9y1KfC22m8bXDg5ZWE5EMSqg43xos2XLe3"

/-- The same key behind a blank. -/
def blankAndAddress : String := " Ejija96QuS9y1KfC22m8bXDg5ZWE5EMSqg43xos2XLe3"

def message : String := Message.current "abc123"

def signature : String := "V8jcAQt9KPuexNjmcL9Bmg7XUkTdpYidg7y4vSeYPbbnTg7LucYEKRQ1CNShqQgSgF9BiNJpE74jLBiu4Fwwex7"

theorem verifies : Kind.verify .solana address message signature none = true := by
  decide +kernel

end RepeatedKey

open RepeatedKey in
/-- Both texts are the address; the signature is accepted without a key, and refused with the
second text as its key. -/
theorem a_blank_in_front_refuses_the_key :
    Kind.normalize .solana (some address) = .ok (some address) ∧
      Kind.normalize .solana (some blankAndAddress) = .ok (some address) ∧
      Kind.verify .solana address message signature none = true ∧
      Kind.verify .solana address message signature (some blankAndAddress) = false := by
  refine ⟨by decide +kernel, by decide +kernel, verifies, ?_⟩
  have hrefused : Solana.admitsKey address.toList (some blankAndAddress.toList) = false := by decide +kernel
  rw [Kind.verify_solana_eq, Option.map_some, hrefused, Bool.and_false]

end WalletLogin.Wallet
