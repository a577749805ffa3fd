/-
  WalletLogin.Proofs.Wallet.Rendering — the notations in which wallets hand out signatures
  and keys, and what is read where a text could be in more than one.

  The readers guess: base 58 first if that gives a signature, then hexadecimal, then base
  64. For the lengths that matter no guess is wrong. A text of base 64 ends in padding
  unless its bytes are a multiple of three, and no other notation has padding. Of the other
  two, base 58 is short and hexadecimal is long: 64 bytes take at most 96 characters in the
  one, leading ones included, and 128 in the other (`told`).

  Proved:
  - `eq_told`: the notation of a signature shows in its text.
  - `Rendering.lenient_eq_some_iff`, `Solana.signatureBytes?_eq_some_iff`: each reader finds
    the reading that there is.
  - `renderings_are_told_apart`: so a signature or a key is read from all its texts, and no
    text has two readings as a signature.
-/

import Mathlib.Data.Bool.AllAny
import WalletLogin.Proofs.Encoding.Base58
import WalletLogin.Proofs.Encoding.Base64
import WalletLogin.Proofs.Encoding.Hex
import WalletLogin.Wallet.Cardano.Ownership
import WalletLogin.Wallet.Solana

namespace WalletLogin.Wallet

open Encoding Text

inductive Rendering where
  | base58
  | hex
  | base64
  deriving DecidableEq, Repr

namespace Rendering

def read? : Rendering → List Char → Option Bytes
  | .base58, s => (Base58.decode s).toOption
  | .hex, s => Hex.decodeMarked? s
  | .base64, s => Base64.decode? s

/-- The text is one of the bytes in this notation; hexadecimal has many. -/
def Writes : Rendering → Bytes → List Char → Prop
  | .base58, b, s => s = Base58.encode b
  | .hex, b, s => Hex.Spells s b
  | .base64, b, s => s = Base64.encode b

/-- The same between blanks. -/
def Shows (r : Rendering) (b : Bytes) (s : List Char) : Prop :=
  ∃ before t behind, (∀ c ∈ before, Blank.isBlank c = true) ∧ (∀ c ∈ behind, Blank.isBlank c = true) ∧
    r.Writes b t ∧ s = before ++ t ++ behind

variable {r : Rendering} {s : List Char} {b : Bytes}

theorem Writes.read? (h : r.Writes b s) : r.read? s = some b := by
  cases r with
  | base58 => rw [show s = Base58.encode b from h, Rendering.read?, Base58.decode_encode, Except.toOption]
  | hex => exact Hex.decodeMarked?_eq_some_iff.mpr h
  | base64 => rw [show s = Base64.encode b from h, Rendering.read?, Base64.decode?_encode]

theorem Writes.isVisible (h : r.Writes b s) : ∀ c ∈ s, Blank.IsVisible c := by
  cases r with
  | base58 =>
    obtain rfl : s = Base58.encode b := h
    exact fun c hc => Base58.isVisible_of_mem_encode hc
  | hex => exact fun c hc => Hex.Spells.isVisible h hc
  | base64 =>
    obtain rfl : s = Base64.encode b := h
    exact fun c hc => Base64.isVisible_of_mem_encode hc

theorem Shows.read?_trim (h : r.Shows b s) : r.read? (Blank.trim s) = some b := by
  obtain ⟨before, t, behind, hbefore, hbehind, ht, rfl⟩ := h
  rw [Blank.trim_between ht.isVisible hbefore hbehind]
  exact ht.read?

/-! ## Padding and length -/

theorem base58_eq_some_iff : base58.read? s = some b ↔ Base58.decode s = .ok b := by
  rw [read?]
  cases Base58.decode s <;> simp [Except.toOption]

theorem text_of_base58 (hs : Blank.trim s = s) (h : base58.read? s = some b) : s = Base58.encode b := by
  have hright := Base58.decode_eq_ok_iff.mp (base58_eq_some_iff.mp h)
  rwa [← hs, Blank.trimRight_trim, hs] at hright

theorem padding_not_mem_of_hex (h : hex.read? s = some b) : '=' ∉ s := by
  intro hmem
  have hword := (Hex.decodeMarked?_eq_some_iff.mp h).isDigit_or_mark hmem
  simp [show Hex.isDigit '=' = false from rfl] at hword

theorem padding_mem_of_base64 (hb : b.length % 3 ≠ 0) (h : base64.read? s = some b) : '=' ∈ s :=
  Base64.padding_mem_of_decode? h hb

/-- The notation that a text is in, if it is that of a signature. -/
def told (s : List Char) : Rendering :=
  if '=' ∈ s then .base64 else if s.length < 128 then .base58 else .hex

theorem eq_told (hs : Blank.trim s = s) (hl : b.length = Solana.signatureLength) (h : r.read? s = some b) : r = told s := by
  have h64 : b.length = 64 := hl
  cases r with
  | base58 =>
    obtain rfl := text_of_base58 hs h
    have hpadding : '=' ∉ Base58.encode b := fun hmem =>
      absurd (Base58.mem_alphabet_of_mem_encode hmem) (by decide)
    have hshort := Base58.two_mul_length_encode_le b
    rw [told, if_neg hpadding, if_pos (by omega)]
  | hex =>
    have hlong := (Hex.decodeMarked?_eq_some_iff.mp h).length
    rw [told, if_neg (padding_not_mem_of_hex h), if_neg (by omega)]
  | base64 => rw [told, if_pos (padding_mem_of_base64 (by rw [h64]; decide) h)]

/-! ## What the readers find -/

theorem lenient_of_hex (h : hex.read? (Blank.trim s) = some b) : Lenient.decode? s = some b := by
  have hread : Hex.decodeMarked? (Blank.trim s) = some b := h
  rw [Lenient.decode?, hread, Option.some_or]

theorem lenient_eq_some_iff (hb : b.length % 3 ≠ 0) :
    Lenient.decode? s = some b ↔ hex.read? (Blank.trim s) = some b ∨ base64.read? (Blank.trim s) = some b := by
  constructor
  · intro h
    rw [Lenient.decode?, Option.or_eq_some_iff] at h
    exact h.imp_right And.right
  · rintro (h | h)
    · exact lenient_of_hex h
    · have hpadding := padding_mem_of_base64 hb h
      have hhex : Hex.decodeMarked? (Blank.trim s) = none :=
        Option.eq_none_iff_forall_ne_some.mpr fun c hc => padding_not_mem_of_hex hc hpadding
      rw [Lenient.decode?, hhex, Option.none_or]
      exact h

theorem lenient_of_shows (hr : r ≠ .base58) (hb : b.length % 3 ≠ 0) (h : r.Shows b s) : Lenient.decode? s = some b := by
  rw [lenient_eq_some_iff hb]
  cases r with
  | base58 => exact absurd rfl hr
  | hex => exact .inl h.read?_trim
  | base64 => exact .inr h.read?_trim

end Rendering

namespace Solana

variable {s : List Char} {b : Bytes}

theorem signatureBytes?_of_base58 (h : Rendering.base58.read? (Blank.trim s) = some b) (hl : b.length = signatureLength) :
    signatureBytes? s = some b := by
  simp only [signatureBytes?, Rendering.base58_eq_some_iff.mp h, hl, if_true]

theorem signatureBytes?_of_not_base58
    (h : ∀ c, Rendering.base58.read? (Blank.trim s) = some c → c.length ≠ signatureLength) :
    signatureBytes? s = Lenient.decode? s := by
  have htrim : Lenient.decode? (Blank.trim s) = Lenient.decode? s := by
    rw [Lenient.decode?, Lenient.decode?, Blank.trim_trim]
  rw [← htrim]
  unfold signatureBytes?
  dsimp only
  split
  case h_1 c hc => exact if_neg (h c (Rendering.base58_eq_some_iff.mpr hc))
  case h_2 => rfl

theorem signatureBytes?_eq_some_iff (hl : b.length = signatureLength) :
    signatureBytes? s = some b ↔ ∃ r : Rendering, r.read? (Blank.trim s) = some b := by
  by_cases h58 : ∃ c, Rendering.base58.read? (Blank.trim s) = some c ∧ c.length = signatureLength
  · obtain ⟨c, hc, hcl⟩ := h58
    rw [signatureBytes?_of_base58 hc hcl]
    constructor
    · rintro ⟨⟩
      exact ⟨_, hc⟩
    · rintro ⟨r, hr⟩
      -- the text tells one notation only
      have hsame : r = .base58 :=
        (Rendering.eq_told (Blank.trim_trim s) hl hr).trans (Rendering.eq_told (Blank.trim_trim s) hcl hc).symm
      rw [← hc, ← hr, hsame]
  · have hnot : ∀ c, Rendering.base58.read? (Blank.trim s) = some c → c.length ≠ signatureLength :=
      fun c hc hcl => h58 ⟨c, hc, hcl⟩
    rw [signatureBytes?_of_not_base58 hnot, Rendering.lenient_eq_some_iff (by rw [hl]; decide)]
    constructor
    · exact fun h => h.elim (fun h => ⟨_, h⟩) fun h => ⟨_, h⟩
    · rintro ⟨r, hr⟩
      cases r with
      | base58 => exact absurd hl (hnot b hr)
      | hex => exact .inl hr
      | base64 => exact .inr hr

end Solana

namespace Cardano.Ownership

theorem unwrap_wrapped {key : Bytes} (hl : key.length = 32) : unwrap (0x58 :: 0x20 :: key) = key := if_pos hl

theorem unwrap_key {key : Bytes} (hl : key.length = 32) : unwrap key = key := by
  unfold unwrap
  split
  case h_1 r =>
    rw [List.length_cons, List.length_cons] at hl
    exact if_neg (by omega)
  case h_2 => rfl

/-- A text of the key as a wallet hands it out: in hexadecimal or base 64, bare or wrapped. -/
def Hands (key : Bytes) (s : List Char) : Prop :=
  ∃ r : Rendering, r ≠ .base58 ∧ (r.Shows key s ∨ r.Shows (0x58 :: 0x20 :: key) s)

theorem publicKey?_of_hands {key : Bytes} {s : List Char} (hl : key.length = 32) (h : Hands key s) :
    publicKey? s = some key := by
  obtain ⟨r, hr, hbare | hwrapped⟩ := h
  · rw [publicKey?, Rendering.lenient_of_shows hr (by rw [hl]; decide) hbare, Option.map_some, unwrap_key hl]
  · have hlength : (0x58 :: 0x20 :: key).length % 3 ≠ 0 := by
      rw [List.length_cons, List.length_cons, hl]
      decide
    rw [publicKey?, Rendering.lenient_of_shows hr hlength hwrapped, Option.map_some, unwrap_wrapped hl]

end Cardano.Ownership

/-! ## All notations -/

/-- A signature is read from its texts in all notations, whatever blanks are around them.
Bytes are read from their texts in hexadecimal, and from that in base 64 if they are no
multiple of three. A cardano key is read bare and wrapped. And a text without blanks around
it is a signature in one notation at most, and if it is in one it is read in it. -/
theorem renderings_are_told_apart :
    (∀ (r : Rendering) (b : Bytes) (s : List Char), b.length = Solana.signatureLength → r.Shows b s →
      Solana.signatureBytes? s = some b) ∧
    (∀ (b : Bytes) (s : List Char), Rendering.hex.Shows b s ∨ b.length % 3 ≠ 0 ∧ Rendering.base64.Shows b s →
      Lenient.decode? s = some b) ∧
    (∀ (key : Bytes) (s : List Char), key.length = 32 → Cardano.Ownership.Hands key s →
      Cardano.Ownership.publicKey? s = some key) ∧
    (∀ (s : List Char) (r : Rendering) (b : Bytes), Blank.trim s = s → r.read? s = some b →
      b.length = Solana.signatureLength →
      Solana.signatureBytes? s = some b ∧
        ∀ (r' : Rendering) (b' : Bytes), r'.read? s = some b' → b'.length = Solana.signatureLength → r' = r) := by
  refine ⟨fun r b s hl h => ?_, fun b s h => ?_, fun key s hl h => ?_, fun s r b hs h hl => ⟨?_, fun r' b' h' hl' => ?_⟩⟩
  · exact (Solana.signatureBytes?_eq_some_iff hl).mpr ⟨r, h.read?_trim⟩
  · rcases h with h | ⟨hb, h⟩
    · exact Rendering.lenient_of_hex h.read?_trim
    · exact Rendering.lenient_of_shows (by decide) hb h
  · exact Cardano.Ownership.publicKey?_of_hands hl h
  · exact (Solana.signatureBytes?_eq_some_iff hl).mpr ⟨r, by rwa [hs]⟩
  · exact (Rendering.eq_told hs hl' h').trans (Rendering.eq_told hs hl h).symm

namespace Mixed

def signature : Bytes := List.replicate 64 0xab

def key : Bytes := List.replicate 32 0xab

/-- Letters of both cases, which are digits in base 58 as well. -/
def letters : List Char := (List.replicate 64 ['a', 'B']).flatten

theorem lower_letters : Case.lower letters = Hex.encode signature := by
  decide +kernel

def markedText : List Char := [' ', '\t'] ++ (['0', 'X'] ++ letters) ++ ['\n']

def wrappedText : String := "WCCrq6urq6urq6urq6urq6urq6urq6urq6urq6urq6urqw=="

theorem shows_marked : Rendering.hex.Shows signature markedText :=
  ⟨_, _, _, List.all_eq_true.mp (by decide), List.all_eq_true.mp (by decide),
    ⟨['0', 'X'], by simp [Hex.marks], letters, rfl, lower_letters⟩, rfl⟩

theorem hands_wrapped : Cardano.Ownership.Hands key wrappedText.toList := by
  have htext : wrappedText.toList = Base64.encode (0x58 :: 0x20 :: key) := by decide +kernel
  exact ⟨.base64, by decide, .inr ⟨[], _, [], by simp, by simp, htext, by simp⟩⟩

theorem read?_letters : Rendering.hex.read? letters = some signature :=
  Rendering.Writes.read? (r := .hex) ⟨[], by simp [Hex.marks], letters, rfl, lower_letters⟩

end Mixed

open Mixed in
theorem letters_are_a_signature_in_hexadecimal_only :
    Solana.signatureBytes? markedText = some signature ∧
      Lenient.decode? [' ', 'q', 'w', '=', '='] = some [0xab] ∧
      Cardano.Ownership.publicKey? wrappedText.toList = some key ∧
      Solana.signatureBytes? letters = some signature ∧
      ∃ b, Rendering.base58.read? letters = some b ∧ b.length ≠ Solana.signatureLength := by
  obtain ⟨hsignature, hlenient, hkey, honly⟩ := renderings_are_told_apart
  have htrim : Blank.trim letters = letters := by decide +kernel
  have hshort : Rendering.base64.Shows [0xab] [' ', 'q', 'w', '=', '='] :=
    ⟨[' '], ['q', 'w', '=', '='], [], List.all_eq_true.mp (by decide), by simp, show _ = Base64.encode [0xab] by decide, rfl⟩
  obtain ⟨hread, hno⟩ := honly letters .hex signature htrim read?_letters rfl
  obtain ⟨b, hb, -⟩ := Base58.encode_decode (s := letters) (List.all_iff_forall_prop.mp (by decide +kernel))
  have hb58 : Rendering.base58.read? letters = some b := Rendering.base58_eq_some_iff.mpr hb
  refine ⟨hsignature .hex _ _ rfl shows_marked, hlenient _ _ (.inr ⟨by decide, hshort⟩), hkey _ _ rfl hands_wrapped, hread,
    b, hb58, fun hl => ?_⟩
  exact absurd (hno .base58 b hb58 hl) (by decide)

end WalletLogin.Wallet
