/-
  WalletLogin.Proofs.Wallet.Solana — an address that is a key, and the one text it has.

  A key has one text over the alphabet, so a text that is accepted is canonical as it
  stands: normalizing takes off the blanks around it and changes nothing else.

  Proved:
  - `normalize_solana_eq_ok_iff`: the accepted texts are those that spell a key.
  - `texts_of_keys_are_canonical`: base 58 is read and written without loss, the accepted
    texts are kept, and two of them are one exactly when they spell one key.
-/

import WalletLogin.Proofs.Wallet.Canonical

namespace WalletLogin.Wallet.Solana

open Encoding Text

/-- A text over the alphabet that is read as a key. -/
structure Spells (s : List Char) (key : Bytes) : Prop where
  alphabet : ∀ c ∈ s, c ∈ Base58.alphabet
  read : Base58.decode s = .ok key
  length : key.length = keyLength

variable {s t : List Char} {key : Bytes}

/-- A text without blanks around it spells a key exactly when it is the key's text. -/
theorem spells_iff : Spells s key ↔ Base58.encode key = s ∧ key.length = keyLength := by
  constructor
  · rintro ⟨hs, hread, hl⟩
    obtain ⟨b, hb, rfl⟩ := Base58.encode_decode hs
    rw [hread] at hb
    rw [Except.ok.inj hb]
    exact ⟨rfl, Except.ok.inj hb ▸ hl⟩
  · rintro ⟨rfl, hl⟩
    exact ⟨fun c hc => Base58.mem_alphabet_of_mem_encode hc, Base58.decode_encode key, hl⟩

theorem Spells.text_eq (hs : Spells s key) (ht : Spells t key) : s = t :=
  (spells_iff.mp hs).1.symm.trans (spells_iff.mp ht).1

theorem Spells.ne_nil (h : Spells s key) : s ≠ [] := by
  obtain ⟨rfl, hl⟩ := spells_iff.mp h
  exact encode_key_ne_nil hl

/-- What is accepted, after trimming, spells a key, and is kept as it is. -/
theorem normalize_solana_eq_ok_iff {raw r : Option String} :
    Kind.normalize .solana raw = .ok r ↔
      (∃ key, Spells (Blank.trim (raw.getD "").toList) key) ∧ r = some (Blank.strip (raw.getD "")) := by
  constructor
  · intro h
    obtain ⟨t, ht, rfl⟩ := Kind.normalize_eq_ok h
    obtain ⟨y, hy, rfl⟩ := canonical_eq_ok ht
    obtain ⟨htext, key, hl, rfl⟩ := normalize_eq_ok_iff.mp hy
    rw [Blank.trimRight_trim] at htext
    exact ⟨⟨key, spells_iff.mpr ⟨htext.symm, hl⟩⟩, by rw [Blank.strip, htext]; rfl⟩
  · rintro ⟨⟨key, hkey⟩, rfl⟩
    obtain ⟨htext, hl⟩ := spells_iff.mp hkey
    have hy := normalize_eq_ok_iff.mpr ⟨Blank.trimRight_trim _, key, hl, htext⟩
    rw [Kind.normalize_of_ne_nil hkey.ne_nil, Kind.canonical, hy]
    rfl

/-- Base 58 loses nothing in either direction. So a text is accepted exactly when it
spells a key once it is trimmed, it is then kept as it stands, and two accepted texts
become one exactly when they spell one key. -/
theorem texts_of_keys_are_canonical :
    (∀ b, Base58.decode (Base58.encode b) = .ok b) ∧
    (∀ s : List Char, (∀ c ∈ s, c ∈ Base58.alphabet) → ∃ b, Base58.decode s = .ok b ∧ Base58.encode b = s) ∧
    (∀ raw, (∃ r, Kind.normalize .solana raw = .ok r) ↔ ∃ key, Spells (Blank.trim (raw.getD "").toList) key) ∧
    (∀ raw r, Kind.normalize .solana raw = .ok r → r = some (Blank.strip (raw.getD ""))) ∧
    (∀ raw raw' r r', Kind.normalize .solana raw = .ok r → Kind.normalize .solana raw' = .ok r' →
      (r = r' ↔ ∃ key, Spells (Blank.trim (raw.getD "").toList) key ∧ Spells (Blank.trim (raw'.getD "").toList) key)) := by
  refine ⟨Base58.decode_encode, fun s hs => Base58.encode_decode hs, fun raw => ?_, fun raw r h => ?_, ?_⟩
  · constructor
    · rintro ⟨r, hr⟩
      exact (normalize_solana_eq_ok_iff.mp hr).1
    · intro hkey
      exact ⟨_, normalize_solana_eq_ok_iff.mpr ⟨hkey, rfl⟩⟩
  · exact (normalize_solana_eq_ok_iff.mp h).2
  · intro raw raw' r r' h h'
    obtain ⟨⟨key, hkey⟩, rfl⟩ := normalize_solana_eq_ok_iff.mp h
    obtain ⟨-, rfl⟩ := normalize_solana_eq_ok_iff.mp h'
    rw [Option.some.injEq, Blank.strip, Blank.strip, String.ofList_inj]
    constructor
    · intro htext
      exact ⟨key, hkey, htext ▸ hkey⟩
    · rintro ⟨key', hs, ht⟩
      exact hs.text_eq ht

/-- The text of 32 ones. -/
def ones : String := "4vJ9JU1bJJE96FWSJKvHsmmFADCg4gpZQff4P3bkLKi"

def onesAndBlank : String := "4vJ9JU1bJJE96FWSJKvHsmmFADCg4gpZQff4P3bkLKi "

theorem spells_ones : Spells ones.toList (List.replicate keyLength 1) :=
  spells_iff.mpr ⟨by decide +kernel, rfl⟩

theorem normalize_ones {raw : String} (h : Blank.trim raw.toList = ones.toList) :
    Kind.normalize .solana (some raw) = .ok (some ones) := by
  refine normalize_solana_eq_ok_iff.mpr ⟨⟨List.replicate keyLength 1, ?_⟩, ?_⟩
  · rw [Option.getD_some, h]
    exact spells_ones
  · rw [Option.getD_some, Blank.strip, h, String.ofList_toList]

theorem ones_are_kept :
    (∃ b, Base58.decode ones.toList = .ok b ∧ Base58.encode b = ones.toList) ∧
      some ones = some (Blank.strip onesAndBlank) ∧
      ∃ key, Spells (Blank.trim ones.toList) key ∧ Spells (Blank.trim onesAndBlank.toList) key := by
  have hones : Kind.normalize .solana (some ones) = .ok (some ones) := normalize_ones (by decide)
  have hblank : Kind.normalize .solana (some onesAndBlank) = .ok (some ones) := normalize_ones (by decide)
  obtain ⟨-, hwritten, -, hkept, hsame⟩ := texts_of_keys_are_canonical
  have hblanks := hkept _ _ hblank
  have hkey := (hsame _ _ _ _ hones hblank).mp rfl
  rw [Option.getD_some] at hblanks
  rw [Option.getD_some, Option.getD_some] at hkey
  exact ⟨hwritten _ spells_ones.alphabet, hblanks, hkey⟩

end WalletLogin.Wallet.Solana
