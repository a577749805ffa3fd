/-
  WalletLogin.Proofs.Wallet.Message — what was signed tells the challenge.

  A text is signed as its bytes in UTF-8, and by an evm wallet behind a banner and the
  number of these bytes, with nothing between the number and the text. A text may start
  with digits, so the number cannot be read off the front; but a longer text has no shorter
  number, so two preimages of one length hold texts of one length. The two formats part
  where the greeting ends, before the nonce, whatever the nonce holds.

  Proved:
  - `Evm.preimage_injective`: no two messages have one preimage.
  - `signed_bytes_tell_the_challenge`: equal bytes were signed for one nonce in one format,
    also by wallets of two kinds.
  - `Kind.verified_bytes`: what a signature over a message is checked against are its signed
    bytes and nothing else of the message, so no other nonce passes for it.
-/

import WalletLogin.Proofs.Encoding.Radix
import WalletLogin.Proofs.Text.Unicode
import WalletLogin.Wallet.Message
import WalletLogin.Wallet.Scheme

namespace WalletLogin.Wallet

open Encoding

/-! ## Texts -/

namespace Message

inductive Format where
  | current
  | legacy
  deriving DecidableEq, Repr

def Format.text (f : Format) (nonce : String) : String :=
  match f with
  | .current => Message.current nonce
  | .legacy => Message.legacy nonce

theorem candidates_eq (nonce : String) : candidates nonce = [Format.current, Format.legacy].map (·.text nonce) := rfl

/-- What stands between the greeting and the nonce. -/
def Format.separator : Format → List Char
  | .current => '\n' :: "Nonce: ".toList
  | .legacy => '\\' :: 'n' :: "Nonce: ".toList

theorem Format.toList_text (f : Format) (nonce : String) :
    (f.text nonce).toList = greeting.toList ++ (f.separator ++ nonce.toList) := by
  have hcurrent : "\nNonce: ".toList = Format.separator .current := by decide
  have hlegacy : "\\nNonce: ".toList = Format.separator .legacy := by decide
  cases f with
  | current => rw [text, Message.current, String.toList_append, String.toList_append, List.append_assoc, hcurrent]
  | legacy => rw [text, Message.legacy, String.toList_append, String.toList_append, List.append_assoc, hlegacy]

theorem Format.text_inj {f f' : Format} {n n' : String} : f.text n = f'.text n' ↔ n = n' ∧ f = f' := by
  constructor
  · intro h
    rw [← String.toList_inj, toList_text, toList_text, List.append_cancel_left_eq] at h
    -- the first character behind the greeting is the format's own
    have hformat : f = f' := by
      cases f <;> cases f'
      case current.current | legacy.legacy => rfl
      case current.legacy | legacy.current => exact absurd (List.cons.inj h).1 (by decide)
    subst hformat
    rw [List.append_cancel_left_eq, String.toList_inj] at h
    exact ⟨h, rfl⟩
  · rintro ⟨rfl, rfl⟩
    rfl

end Message

/-! ## Preimages -/

namespace Evm

theorem length_renderNat (n : Nat) : (Decimal.Digit.renderNat n).length = max 1 (Radix.digits 10 n).length := by
  rw [Decimal.Digit.renderNat, Decimal.Digit.digits_eq]
  split
  case isTrue h =>
    subst h
    rfl
  case isFalse h =>
    have hpos : ¬ (Radix.digits 10 n).length ≤ 0 := by
      rw [Radix.length_digits_le_iff (by decide), pow_zero]
      omega
    rw [List.length_map]
    omega

theorem length_renderNat_mono {m n : Nat} (h : m ≤ n) :
    (Decimal.Digit.renderNat m).length ≤ (Decimal.Digit.renderNat n).length := by
  have hn := (Radix.length_digits_le_iff (show 2 ≤ 10 by decide)).mp (Nat.le_refl (Radix.digits 10 n).length)
  have hm := (Radix.length_digits_le_iff (show 2 ≤ 10 by decide)).mpr (h.trans_lt hn)
  rw [length_renderNat, length_renderNat]
  omega

theorem length_preimage (m : Bytes) :
    (preimage m).length = banner.length + (Decimal.Digit.renderNat m.length).length + m.length := by
  rw [preimage, List.length_append, List.length_append, List.length_map]

theorem preimage_injective {m m' : Bytes} (h : preimage m = preimage m') : m = m' := by
  have htotal := congrArg List.length h
  rw [length_preimage, length_preimage] at htotal
  have hlength : m.length = m'.length := by
    rcases Nat.lt_trichotomy m.length m'.length with hlt | heq | hgt
    · have := length_renderNat_mono hlt.le
      omega
    · exact heq
    · have := length_renderNat_mono hgt.le
      omega
  rw [preimage, preimage, hlength] at h
  exact List.append_cancel_left h

end Evm

/-! ## Signed bytes -/

theorem ofText_injective {s s' : String} (h : Bytes.ofText s = Bytes.ofText s') : s = s' := by
  have hread := Bytes.toText?_ofText s
  rw [h, Bytes.toText?_ofText] at hread
  exact Eq.symm (Option.some.inj hread)

theorem Kind.signed_of_ne {k : Kind} (hk : k ≠ .evm) (text : String) : k.signed text = Bytes.ofText text := by
  cases k with
  | evm => exact absurd rfl hk
  | solana => rfl
  | cardano => rfl

theorem head?_ofText_text (f : Message.Format) (n : String) : (Bytes.ofText (f.text n)).head? = some 0x53 := by
  have hgreeting : Message.greeting.toList = 'S' :: "ign in to Grainlify".toList := by decide
  have hbyte : String.utf8EncodeChar 'S' = [0x53] := by decide
  rw [Bytes.ofText_eq, Message.Format.toList_text, hgreeting, List.cons_append, List.flatMap_cons, hbyte]
  rfl

/-- The banner tells an evm wallet's bytes from any others. -/
theorem Kind.head?_signed (k : Kind) (f : Message.Format) (n : String) :
    (k.signed (f.text n)).head? = some (if k = .evm then 0x19 else 0x53) := by
  by_cases hk : k = .evm
  · rw [if_pos hk, hk]
    rfl
  · rw [if_neg hk, signed_of_ne hk, head?_ofText_text]

theorem Kind.signed_text_inj {k k' : Kind} {f f' : Message.Format} {n n' : String}
    (h : k.signed (f.text n) = k'.signed (f'.text n')) : n = n' ∧ f = f' ∧ (k = .evm ↔ k' = .evm) := by
  have hkind : k = .evm ↔ k' = .evm := by
    have hhead := congrArg List.head? h
    rw [k.head?_signed, k'.head?_signed, Option.some.injEq] at hhead
    split_ifs at hhead with hk hk' hk'
    · exact iff_of_true hk hk'
    · exact absurd hhead (by decide)
    · exact absurd hhead (by decide)
    · exact iff_of_false hk hk'
  have htext : f.text n = f'.text n' := by
    by_cases hk : k = .evm
    · rw [hkind.mp hk, hk] at h
      exact ofText_injective (Evm.preimage_injective h)
    · rw [Kind.signed_of_ne hk, Kind.signed_of_ne (mt hkind.mpr hk)] at h
      exact ofText_injective h
  obtain ⟨hn, hf⟩ := Message.Format.text_inj.mp htext
  exact ⟨hn, hf, hkind⟩

/-- Equal bytes were signed for one nonce in one format, and by evm wallets both times or
neither time. -/
theorem signed_bytes_tell_the_challenge (k k' : Kind) (f f' : Message.Format) (n n' : String) :
    k.signed (f.text n) = k'.signed (f'.text n') ↔ n = n' ∧ f = f' ∧ (k = .evm ↔ k' = .evm) := by
  refine ⟨Kind.signed_text_inj, ?_⟩
  rintro ⟨rfl, rfl, hkind⟩
  by_cases hk : k = .evm
  · rw [hk, hkind.mp hk]
  · rw [Kind.signed_of_ne hk, Kind.signed_of_ne (mt hkind.mpr hk)]

/-- Of a message that is verified only the signed bytes were looked at, and they are the
bytes of no other challenge. -/
theorem Kind.verified_bytes {k : Kind} {a n s : String} {f : Message.Format} {key : Option String}
    (h : k.verify a (f.text n) s key = true) : ∃ b, k.accepts a b s key = true ∧
      ∀ (k' : Kind) (f' : Message.Format) (n' : String), k'.signed (f'.text n') = b → n' = n ∧ f' = f := by
  refine ⟨k.signed (f.text n), h, fun k' f' n' hb => ?_⟩
  obtain ⟨hn, hf, -⟩ := Kind.signed_text_inj hb
  exact ⟨hn, hf⟩

end WalletLogin.Wallet
