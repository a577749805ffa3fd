/-
  WalletLogin.Proofs.Wallet.Spelling — the many spellings of a Shelley address, and the one
  text that they all become.

  A text that spells an address may have any readable part, either letter case and either
  checksum, and a pointer's numbers may have zeros in front (`Shelley.Spelled`). Normalizing
  writes the address anew, so nothing is left of these choices.

  Proved:
  - `spellings_become_one_text`: the texts that are read as an address are its spellings;
    each becomes the canonical text, unless that is too long; the canonical text is read as
    the address, and that of another address is another.
  - `pointer_is_respelled`: a pointer address in capitals.
-/

import WalletLogin.Proofs.Wallet.Canonical

namespace WalletLogin.Wallet

open Cardano Encoding Text

/-- A spelling holds its checksum at least. -/
theorem Cardano.Shelley.Spelled.ne_nil {a : Shelley} {s : List Char} (h : a.Spelled s) : s ≠ [] := by
  rintro rfl
  obtain ⟨readable, b, ⟨-, hne, -, v, hwritten⟩, -⟩ := h
  rw [Bech32.encode_eq] at hwritten
  exact List.append_ne_nil_of_left_ne_nil hne _ hwritten.symm

/-- An address is read from its spellings and from no other text. If its canonical text is
not too long, that is one of them, and they all become it. Two addresses have two canonical
texts. -/
theorem spellings_become_one_text {a : Shelley} (h : Shelley.HasHashes a.parts) :
    (∀ s, Address.ofText? s = some (.shelley a) ↔ a.Spelled s) ∧
    (a.text.length ≤ Bech32.maxLength →
      Address.ofText? a.text = some (.shelley a) ∧
      ∀ raw : Option String, a.Spelled (Blank.trim (raw.getD "").toList) →
        Kind.normalize .cardano raw = .ok (some (String.ofList a.text))) ∧
    ∀ b : Shelley, Shelley.HasHashes b.parts → a ≠ b → a.text ≠ b.text := by
  have hread : ∀ s, Address.ofText? s = some (.shelley a) ↔ a.Spelled s := by
    intro s
    rw [Shelley.ofText?_eq_some_iff, and_iff_right h]
  refine ⟨hread, fun hl => ⟨Shelley.ofText?_text h hl, fun raw hs => ?_⟩, fun b hb hne htext => ?_⟩
  · have hcanonical := Address.canonical_of_ofText? ((hread _).mpr hs)
    rw [Address.text?, Shelley.text?, if_pos hl] at hcanonical
    rw [Kind.normalize_of_ne_nil hs.ne_nil, hcanonical]
    rfl
  · exact hne (Shelley.text_injective h hb htext)

/-! ## A pointer in capitals -/

namespace Respelled

/-- An address that points at a certificate. -/
def address : Shelley := ⟨.main, .pointer OnesAddress.credential ⟨2498243, 27, 3⟩⟩

def text : String := "addr1gyqszqgpqyqszqgpqyqszqgpqyqszqgpqyqszqgpqyqszqvpnz75xxcrzqjkd2"

/-- With another readable part and the other checksum, in capitals and between blanks. -/
def spelling : String :=
  " WALLET1GYQSZQGPQYQSZQGPQYQSZQGPQYQSZQGPQYQSZQGPQYQSZQVQSZQE302RSQDS8PG6LVCZC\n"

/-- Zeros stand in front of the first two numbers, and a group that ends no number behind the
third. -/
def pointer : Bytes := Pointer.padded 2 2498243 ++ (Pointer.padded 1 27 ++ (Pointer.padded 0 3 ++ Pointer.markAll [5]))

def bytes : Bytes := 0x41 :: (OnesAddress.credential.hash ++ pointer)

theorem text_eq : address.text = text.toList := by
  decide +kernel

theorem spelled : address.Spelled (Blank.trim spelling.toList) := by
  have htext : Case.lower (Blank.trim spelling.toList) = Bech32.encode .modified "wallet".toList bytes := by decide +kernel
  have hspells : Bech32.Spells (Blank.trim spelling.toList) "wallet".toList bytes :=
    ⟨by decide, by decide, by decide, .modified, htext⟩
  exact ⟨_, _, hspells, rfl, pointer, ⟨2, 1, 0, [5], by decide, rfl⟩, rfl⟩

end Respelled

open Respelled in
theorem pointer_is_respelled :
    Kind.normalize .cardano (some spelling) = .ok (some text) ∧
      Address.ofText? text.toList = some (.shelley address) ∧
      address.text ≠ OnesAddress.shelley.text := by
  have hl : address.text.length ≤ Bech32.maxLength := by
    rw [text_eq]
    decide
  obtain ⟨-, htext, hothers⟩ := spellings_become_one_text (a := address) rfl
  obtain ⟨hread, hspellings⟩ := htext hl
  have hnormal := hspellings (some spelling) spelled
  rw [text_eq, String.ofList_toList] at hnormal
  rw [text_eq] at hread
  exact ⟨hnormal, hread, hothers _ rfl (by decide)⟩

end WalletLogin.Wallet
