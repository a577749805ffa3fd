/-
  WalletLogin.Proofs.Wallet.Ownership — what it takes to prove that one owns a cardano
  address.

  Four texts come from outside, and each may be anything. The check holds exactly where all
  of them can be read and fit each other (`Evidence`): a key of 32 bytes under which the
  message is signed, and a Shelley address whose payment part is the hash of that key. What
  cannot be read, has another length or is missing is a signature that does not hold.

  Proved:
  - `verify_of_read`: the verdict depends on what is read from the texts of the key and of
    the signature, not on their notations.
  - `verify_eq_true_iff`: the check holds exactly where there is evidence.
  - `only_evidence_proves_ownership`: the same of what a login calls. So addresses without a
    payment part are never proved to be owned, nor are Byron addresses.
-/

import WalletLogin.Proofs.Wallet.Canonical
import WalletLogin.Proofs.Wallet.Rendering
import WalletLogin.Wallet.Message

namespace WalletLogin

open Encoding Text

namespace Curve.Ed25519

theorem lengths_of_verify {key m signature : Bytes} (h : verify key m signature = true) :
    key.length = 32 ∧ signature.length = 64 := by
  unfold verify at h
  dsimp only at h
  split at h
  · rename_i hl
    exact ⟨hl.1, hl.2.1⟩
  · cases h

end Curve.Ed25519

namespace Wallet.Cardano

/-! ## The payment part -/

namespace Shelley

/-- The part that is paid to, which is the hash of a key or of a script. -/
def payment? (a : Shelley) : Option Credential :=
  match a.parts with
  | .base p _ => some p
  | .pointer p _ => some p
  | .payment p => some p
  | .stake _ => none

theorem paymentHash?_eq (a : Shelley) : a.paymentHash? = a.payment?.map Credential.hash := by
  unfold paymentHash? payment?
  cases a.parts <;> rfl

theorem length_of_payment? {a : Shelley} {c : Credential} (h : HasHashes a.parts) (hc : a.payment? = some c) :
    c.hash.length = hashLength := by
  unfold payment? at hc
  cases hp : a.parts with
  | base p s => rw [hp] at h hc; exact Option.some.inj hc ▸ h.1
  | pointer p s => rw [hp] at h hc; exact Option.some.inj hc ▸ h
  | payment p => rw [hp] at h hc; exact Option.some.inj hc ▸ h
  | stake s => rw [hp] at hc; cases hc

end Shelley

namespace Ownership

variable {address signature k : List Char} {m key sig : Bytes}

theorem isPaymentKey_iff : isPaymentKey address key = true ↔
    ∃ (a : Shelley) (c : Credential), Address.ofText? address = some (.shelley a) ∧ a.payment? = some c ∧
      c.hash.length = hashLength ∧ c.hash = keyHash key := by
  constructor
  · intro h
    unfold isPaymentKey at h
    split at h
    case h_2 => cases h
    case h_1 x hx =>
      rw [decide_eq_true_eq] at h
      cases x with
      | byron b => cases h
      | shelley a =>
        rw [Address.paymentHash?, a.paymentHash?_eq, Option.map_eq_some_iff] at h
        obtain ⟨c, hc, hhash⟩ := h
        exact ⟨a, c, hx, hc, Shelley.length_of_payment? (Shelley.ofText?_eq_some_iff.mp hx).1 hc, hhash⟩
  · rintro ⟨a, c, ha, hc, -, hhash⟩
    simp [isPaymentKey, ha, Address.paymentHash?, a.paymentHash?_eq, hc, hhash]

/-! ## The verdict -/

/-- A text that is read as something is not blank: nothing is read as no bytes. -/
theorem trim_ne_nil_of_publicKey? (h : publicKey? k = some key) (hne : key ≠ []) : Blank.trim k ≠ [] := by
  intro hnil
  have hread : publicKey? k = some [] := by
    rw [publicKey?, Lenient.decode?, hnil]
    rfl
  exact hne (Option.some.inj (h.symm.trans hread))

theorem verify_of_read (hk : publicKey? k = some key) (hl : key.length = 32) (hs : Lenient.decode? signature = some sig) :
    verify address m signature (some k) = (Curve.Ed25519.verify key m sig && isPaymentKey address key) := by
  have hvisible : k.all Blank.isBlank = false := by
    rw [Bool.eq_false_iff, Ne, List.all_eq_true, ← Blank.trim_eq_nil_iff]
    exact trim_ne_nil_of_publicKey? hk (List.ne_nil_of_length_pos (by omega))
  simp only [verify, hvisible, hk, hs, Bool.not_false, Bool.true_and]

/-- The texts prove that the address is owned: what is read from each of them, and how that
fits together. -/
structure Evidence (address : List Char) (m : Bytes) (signature : List Char) (publicKey : Option (List Char))
    (key sig : Bytes) (a : Shelley) (paid : Credential) : Prop where
  named : ∃ k, publicKey = some k ∧ Blank.trim k ≠ [] ∧ publicKey? k = some key
  keyLength : key.length = 32
  /-- The signature is in hexadecimal, marked or not, or else in base 64. -/
  given : Rendering.hex.read? (Blank.trim signature) = some sig ∨ Rendering.base64.read? (Blank.trim signature) = some sig
  signatureLength : sig.length = 64
  signed : Curve.Ed25519.verify key m sig = true
  decoded : Address.ofText? address = some (.shelley a)
  payment : a.payment? = some paid
  hashLength : paid.hash.length = hashLength
  hash : paid.hash = keyHash key

theorem verify_eq_true_iff {publicKey : Option (List Char)} : verify address m signature publicKey = true ↔
    ∃ key sig a paid, Evidence address m signature publicKey key sig a paid := by
  constructor
  · intro h
    cases publicKey with
    | none => cases h
    | some k =>
      cases hk : publicKey? k with
      | none => simp [verify, hk] at h
      | some key =>
        cases hs : Lenient.decode? signature with
        | none => simp [verify, hk, hs] at h
        | some sig =>
          have hboth : Curve.Ed25519.verify key m sig = true ∧ isPaymentKey address key = true := by
            simp only [verify, hk, hs, Bool.and_eq_true] at h
            exact h.2
          obtain ⟨hkey, hsig⟩ := Curve.Ed25519.lengths_of_verify hboth.1
          obtain ⟨a, paid, ha, hpaid, hlength, hhash⟩ := isPaymentKey_iff.mp hboth.2
          have hvisible := trim_ne_nil_of_publicKey? hk (List.ne_nil_of_length_pos (by omega))
          have hgiven := (Rendering.lenient_eq_some_iff (by rw [hsig]; decide)).mp hs
          exact ⟨key, sig, a, paid, ⟨k, rfl, hvisible, hk⟩, hkey, hgiven, hsig, hboth.1, ha, hpaid, hlength, hhash⟩
  · rintro ⟨key, sig, a, paid, e⟩
    obtain ⟨k, rfl, -, hk⟩ := e.named
    have hs := (Rendering.lenient_eq_some_iff (by rw [e.signatureLength]; decide)).mpr e.given
    have hpaid := isPaymentKey_iff.mpr ⟨a, paid, e.decoded, e.payment, e.hashLength, e.hash⟩
    rw [verify_of_read hk e.keyLength hs, e.signed, hpaid, Bool.and_self]

/-- No key proves that an address without a payment part is owned. -/
theorem verify_eq_false {publicKey : Option (List Char)} {x : Address} (hx : Address.ofText? address = some x)
    (hnone : x.paymentHash? = none) : verify address m signature publicKey = false := by
  rw [Bool.eq_false_iff]
  intro h
  obtain ⟨key, sig, a, paid, e⟩ := verify_eq_true_iff.mp h
  obtain rfl : x = .shelley a := Option.some.inj (hx.symm.trans e.decoded)
  rw [Address.paymentHash?, a.paymentHash?_eq, e.payment] at hnone
  cases hnone

end Ownership

end Wallet.Cardano

namespace Wallet

open Cardano Ownership

/-- The verdict on a key and a signature, whatever their texts look like. -/
theorem verify_of_shown {address message s k : String} {key sig : Bytes} (hkey : key.length = 32) (hsig : sig.length = 64)
    (hk : Hands key k.toList) {r : Rendering} (hr : r ≠ .base58) (hs : r.Shows sig s.toList) :
    Kind.verify .cardano address message s (some k) =
      (Curve.Ed25519.verify key (Bytes.ofText message) sig && isPaymentKey address.toList key) := by
  have hthree : sig.length % 3 ≠ 0 := by
    rw [hsig]
    decide
  exact verify_of_read (publicKey?_of_hands hkey hk) hkey (Rendering.lenient_of_shows hr hthree hs)

/-- A cardano signature proves ownership exactly where there is evidence. There is none for a
Byron address, and none for an address that only has a stake part. And key and signature
give the same verdict in all notations, the key also in its wrapping. -/
theorem only_evidence_proves_ownership (address message : String) :
    (∀ (signature : String) (publicKey : Option String),
      Kind.verify .cardano address message signature publicKey = true ↔
        ∃ key sig a paid, Evidence address.toList (Bytes.ofText message) signature.toList (publicKey.map String.toList)
          key sig a paid) ∧
    (((∃ b, Address.ofText? address.toList = some (.byron b)) ∨
        ∃ n s, Address.ofText? address.toList = some (.shelley ⟨n, .stake s⟩)) →
      ∀ (signature : String) (publicKey : Option String),
        Kind.verify .cardano address message signature publicKey = false) ∧
    (∀ key sig : Bytes, key.length = 32 → sig.length = 64 →
      ∀ k k' : String, Hands key k.toList → Hands key k'.toList →
      ∀ (r r' : Rendering) (s s' : String), r ≠ .base58 → r' ≠ .base58 → r.Shows sig s.toList → r'.Shows sig s'.toList →
        Kind.verify .cardano address message s (some k) = Kind.verify .cardano address message s' (some k')) := by
  refine ⟨fun signature publicKey => verify_eq_true_iff, ?_, ?_⟩
  · rintro (⟨b, hb⟩ | ⟨n, s, hs⟩) signature publicKey
    · exact verify_eq_false hb rfl
    · exact verify_eq_false hs rfl
  · intro key sig hkey hsig k k' hk hk' r r' s s' hr hr' hs hs'
    rw [verify_of_shown hkey hsig hk hr hs, verify_of_shown hkey hsig hk' hr' hs']

namespace HandedKey

def address : String := "addr1vx9jrppy446d7fwntsh23cy55nzutt4jew6yysvnx9tfxychfqm3y"

/-- A stake part alone, over the same hash of ones as the Byron address. -/
def stake : Shelley := ⟨.main, .stake OnesAddress.credential⟩

def stakeText : String := "stake1uyqszqgpqyqszqgpqyqszqgpqyqszqgpqyqszqgpqyqszqg6jacpu"

def message : String := Message.current "c0ffee"

def key : Bytes := Bytes.ofBigEndian 32 0xea4a6c63e29c520abef5507b132ec5f9954776aebebe7b92421eea691446d22c

def wrappedText : String := "5820ea4a6c63e29c520abef5507b132ec5f9954776aebebe7b92421eea691446d22c"

def bareText : String := " 6kpsY+KcUgq+9VB7Ey7F+ZVHdq6+vnuSQh7qaRRG0iw="

def signature : Bytes := Bytes.ofBigEndian 64
  0xa2fc3606c46a9ed4390315e6bfaa0802eec89c34ec23e20c7bd09cd251d73d630d96aa1feb56f7b16803976f0b41e1620c4c790c4ad40a2977816a66f4d86708

def base64Text : String := "ovw2BsRqntQ5AxXmv6oIAu7InDTsI+IMe9Cc0lHXPWMNlqof61b3sWgDl28LQeFiDEx5DErUCil3gWpm9NhnCA=="

def hexText : String := "0Xa2fc3606c46a9ed4390315e6bfaa0802eec89c34ec23e20c7bd09cd251d73d63" ++
  "0d96aa1feb56f7b16803976f0b41e1620c4c790c4ad40a2977816a66f4d86708\n"

theorem hands_wrapped : Hands key wrappedText.toList := by
  have hlower : Case.lower wrappedText.toList = Hex.encode (0x58 :: 0x20 :: key) := by decide +kernel
  exact ⟨.hex, by decide, .inr ⟨[], _, [], by simp, by simp, ⟨[], by simp [Hex.marks], _, rfl, hlower⟩, by simp⟩⟩

theorem hands_bare : Hands key bareText.toList := by
  have htext : bareText.toList = [' '] ++ Base64.encode key ++ [] := by decide +kernel
  exact ⟨.base64, by decide, .inl ⟨[' '], _, [], List.all_eq_true.mp (by decide), by simp, rfl, htext⟩⟩

theorem shows_base64 : Rendering.base64.Shows signature base64Text.toList := by
  have htext : base64Text.toList = Base64.encode signature := by decide +kernel
  exact ⟨[], _, [], by simp, by simp, htext, by simp⟩

theorem shows_hex : Rendering.hex.Shows signature hexText.toList := by
  have htext : hexText.toList = [] ++ (['0', 'X'] ++ Hex.encode signature) ++ ['\n'] := by decide +kernel
  have hlower : Case.lower (Hex.encode signature) = Hex.encode signature := by decide +kernel
  exact ⟨_, _, _, by simp, List.all_eq_true.mp (by decide), ⟨['0', 'X'], by simp [Hex.marks], _, rfl, hlower⟩, htext⟩

theorem verifies : Kind.verify .cardano address message base64Text (some wrappedText) = true := by
  decide +kernel

theorem ofText?_stakeText : Address.ofText? stakeText.toList = some (.shelley stake) := by
  have htext : stake.text = stakeText.toList := by decide +kernel
  have hl : stake.text.length ≤ Bech32.maxLength := by
    rw [htext]
    decide
  rw [← htext]
  exact Shelley.ofText?_text rfl hl

end HandedKey

open HandedKey in
theorem a_key_proves_its_address_in_all_notations :
    Kind.verify .cardano address message hexText (some bareText) = true ∧
      (∃ key sig a paid, Evidence address.toList (Bytes.ofText message) hexText.toList (some bareText.toList)
        key sig a paid) ∧
      Kind.verify .cardano OnesAddress.byronText message hexText (some bareText) = false ∧
      Kind.verify .cardano stakeText message hexText (some bareText) = false := by
  obtain ⟨hiff, -, hsame⟩ := only_evidence_proves_ownership address message
  have hverifies : Kind.verify .cardano address message hexText (some bareText) = true :=
    (hsame key signature (Bytes.length_ofBigEndian _ _) (Bytes.length_ofBigEndian _ _) bareText wrappedText hands_bare hands_wrapped .hex .base64 hexText base64Text
      (by decide) (by decide) shows_hex shows_base64).trans verifies
  refine ⟨hverifies, (hiff _ _).mp hverifies, ?_, ?_⟩
  · exact (only_evidence_proves_ownership _ message).2.1 (.inl ⟨_, OnesAddress.ofText?_byronText⟩) _ _
  · exact (only_evidence_proves_ownership _ message).2.1 (.inr ⟨_, _, ofText?_stakeText⟩) _ _

end Wallet

end WalletLogin
