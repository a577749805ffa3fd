/-
  WalletLogin.Proofs.Wallet.Canonical — canonical texts of addresses that are normalized
  again.

  Canonical texts have no blanks, so trimming leaves them alone, and what is left is each
  kind's own reader against its own writer. For two of the kinds the writer's text always
  reads as the address again. A Shelley address has a text unless its pointer makes that too
  long. A Byron address that was not in shortest form keeps a checksum its text does not
  have, and the text is then refused.

  Proved:
  - `normalize_of_visible`: a visible text is normalized as it stands.
  - `normalize_normalized`: what becomes of the canonical text of an address of each kind.
  - `noncanonical_content_loses_its_address`: a Byron text that is refused, and an address
    without a text.
-/

import Mathlib.Data.Bool.AllAny
import WalletLogin.Proofs.Encoding.Base58
import WalletLogin.Proofs.Encoding.Hex
import WalletLogin.Proofs.Wallet.Byron
import WalletLogin.Proofs.Wallet.Shelley
import WalletLogin.Wallet.Scheme

namespace WalletLogin.Wallet

open Encoding Text

/-! ## Visible texts -/

namespace Kind

variable {k : Kind}

/-- What has blanks around it is normalized as what stands between them. -/
theorem normalize_of_ne_nil {raw : Option String} (hne : Blank.trim (raw.getD "").toList ≠ []) :
    k.normalize raw = (k.canonical (Blank.trim (raw.getD "").toList)).map (·.map String.ofList) :=
  if_neg (by simpa using hne)

theorem normalize_of_visible {s : List Char} (hne : s ≠ []) (hv : ∀ c ∈ s, Blank.IsVisible c) :
    k.normalize (some (String.ofList s)) = (k.canonical s).map (·.map String.ofList) := by
  have htrim : Blank.trim ((some (String.ofList s)).getD "").toList = s := by
    rw [Option.getD_some, String.toList_ofList, Blank.trim_of_visible hv]
  rw [normalize_of_ne_nil (by rwa [htrim]), htrim]

theorem normalize_eq_ok {raw r : Option String} (h : k.normalize raw = .ok r) :
    ∃ t, k.canonical (Blank.trim (raw.getD "").toList) = .ok t ∧ r = t.map String.ofList := by
  rw [normalize] at h
  split at h
  case isTrue => cases h
  case isFalse =>
    cases hc : k.canonical (Blank.trim (raw.getD "").toList) with
    | error f => rw [hc] at h; cases h
    | ok t => rw [hc] at h; exact ⟨t, rfl, Eq.symm (Except.ok.inj h)⟩

/-- Normalizing the text gives it again. -/
structure IsCanonical (k : Kind) (y : String) : Prop where
  nonempty : y ≠ ""
  again : k.normalize (some y) = .ok (some y)

theorem isCanonical_ofList {s : List Char} (hne : s ≠ []) (hv : ∀ c ∈ s, Blank.IsVisible c)
    (h : k.canonical s = .ok (some s)) :
    k.IsCanonical (String.ofList s) where
  nonempty := by simpa using hne
  again := by rw [normalize_of_visible hne hv, h]; rfl

end Kind

/-! ## Hexadecimal addresses -/

namespace Evm

theorem normalize?_eq_some {s y : List Char} (h : normalize? s = some y) :
    ∃ ds, ds.length = 40 ∧ ds.all Hex.isDigit = true ∧ y = mark ++ Case.lower ds := by
  simp only [normalize?, Bool.and_eq_true, decide_eq_true_eq, Option.ite_none_right_eq_some, Option.some.injEq] at h
  obtain ⟨⟨hl, hd⟩, rfl⟩ := h
  exact ⟨_, hl, hd, rfl⟩

section Lower

variable {ds : List Char} (hd : ds.all Hex.isDigit = true)
include hd

theorem lower_isDigit : (Case.lower ds).all Hex.isDigit = true := by
  rw [List.all_eq_true] at hd ⊢
  intro c hc
  obtain ⟨e, he, rfl⟩ := List.mem_map.mp hc
  exact (Hex.isDigit_lowerChar (hd e he)).2

theorem isVisible_marked : ∀ c ∈ mark ++ Case.lower ds, Blank.IsVisible c := by
  have hmark : ∀ c ∈ mark, Blank.IsVisible c := List.all_iff_forall_prop.mp (by decide)
  rw [List.all_eq_true] at hd
  intro c hc
  rcases List.mem_append.mp hc with hc | hc
  · exact hmark c hc
  · obtain ⟨e, he, rfl⟩ := List.mem_map.mp hc
    exact Case.isVisible_lowerChar (Hex.isDigit_lowerChar (hd e he)).1

theorem normalize?_marked (hl : ds.length = 40) : normalize? (mark ++ Case.lower ds) = some (mark ++ Case.lower ds) := by
  have hunmarked : Hex.unmarked (mark ++ Case.lower ds) = Case.lower ds := rfl
  have hlength : (Case.lower ds).length = 40 := by rw [Case.lower, List.length_map, hl]
  rw [normalize?, hunmarked]
  simp only [hlength, lower_isDigit hd, Case.lower_lower, decide_true, Bool.and_self, if_true]

end Lower

theorem canonical_eq_ok {s : List Char} {t : Option (List Char)} (h : Kind.canonical .evm s = .ok t) :
    ∃ y, normalize? s = some y ∧ t = some y := by
  rw [Kind.canonical] at h
  split at h
  case h_1 y hy => exact ⟨y, hy, Eq.symm (Except.ok.inj h)⟩
  case h_2 => cases h

theorem isCanonical_of_normalize? {s y : List Char} (h : normalize? s = some y) :
    Kind.IsCanonical .evm (String.ofList y) := by
  obtain ⟨ds, hl, hd, rfl⟩ := normalize?_eq_some h
  refine Kind.isCanonical_ofList (List.cons_ne_nil _ _) (isVisible_marked hd) ?_
  rw [Kind.canonical, normalize?_marked hd hl]

end Evm

/-! ## Addresses that are keys -/

namespace Solana

theorem encode_key_ne_nil {key : Bytes} (hl : key.length = keyLength) : Base58.encode key ≠ [] :=
  Base58.encode_ne_nil (List.ne_nil_of_length_pos (by rw [hl]; decide))

/-- A key is accepted in the text that it is written in, and in no other. -/
theorem normalize_eq_ok_iff {s y : List Char} :
    normalize s = .ok y ↔ Blank.trimRight s = y ∧ ∃ key : Bytes, key.length = keyLength ∧ Base58.encode key = y := by
  constructor
  · intro h
    unfold normalize at h
    split at h
    case h_1 => cases h
    case h_2 key hkey =>
      split at h
      case isFalse => cases h
      case isTrue hl =>
        cases h
        exact ⟨Base58.decode_eq_ok_iff.mp hkey, key, hl, rfl⟩
  · rintro ⟨hs, key, hl, rfl⟩
    simp only [normalize, Base58.decode_eq_ok_iff.mpr hs, hl, if_true]

theorem canonical_eq_ok {s : List Char} {t : Option (List Char)} (h : Kind.canonical .solana s = .ok t) :
    ∃ y, normalize s = .ok y ∧ t = some y := by
  rw [Kind.canonical] at h
  split at h
  case h_1 y hy => exact ⟨y, hy, Eq.symm (Except.ok.inj h)⟩
  case h_2 => cases h

theorem isCanonical_of_normalize {s y : List Char} (h : normalize s = .ok y) :
    Kind.IsCanonical .solana (String.ofList y) := by
  obtain ⟨-, key, hl, rfl⟩ := normalize_eq_ok_iff.mp h
  have hv : ∀ c ∈ Base58.encode key, Blank.IsVisible c := fun c hc => Base58.isVisible_of_mem_encode hc
  refine Kind.isCanonical_ofList (encode_key_ne_nil hl) hv ?_
  rw [Kind.canonical, normalize_eq_ok_iff.mpr ⟨Blank.trimRight_of_visible hv, key, hl, rfl⟩]

end Solana

/-! ## Addresses of either era -/

namespace Cardano

theorem Byron.toBytes?_ne_nil {a : Byron} {b : Bytes} (h : a.toBytes? = some b) : b ≠ [] := by
  simp only [Byron.toBytes?, Option.bind_eq_bind, Option.bind_eq_some_iff, Cbor.write?, Option.map_eq_some_iff] at h
  obtain ⟨p, -, r, -, rfl⟩ := h
  rw [Cbor.Reader.head_eq]
  exact List.cons_ne_nil _ _

theorem Shelley.text_ne_nil (a : Shelley) : a.text ≠ [] := by
  rw [Shelley.text, Bech32.encode_eq]
  exact List.append_ne_nil_of_left_ne_nil a.isReadable_readable.1 _

theorem Shelley.isVisible_text (a : Shelley) : ∀ c ∈ a.text, Blank.IsVisible c := fun _ hc =>
  (Bech32.mem_encode a.isReadable_readable hc).1

namespace Address

/-- Whether a text is read as that of a Byron address. -/
def ReadsAsByron (s : List Char) : Prop := byronBeginnings.any (·.isPrefixOf s) = true ∨ Bech32.decode? s = none

theorem ofText?_of_readsAsByron {s : List Char} (h : ReadsAsByron s) : ofText? s = ofByronText? s := by
  rw [ofText?]
  rcases h with h | h
  · exact if_pos h
  · rw [h, ite_self]

theorem ofByronText?_eq_some {s : List Char} {x : Address} (h : ofByronText? s = some x) :
    ∃ a b, x = .byron a ∧ Byron.ofBytes? b = some a := by
  unfold ofByronText? at h
  split at h
  case h_2 => cases h
  case h_1 b _ =>
    obtain ⟨a, ha, rfl⟩ := Option.map_eq_some_iff.mp h
    exact ⟨a, b, rfl, ha⟩

/-- An address that was read from a text was read from some bytes. -/
theorem ofText?_eq_some {s : List Char} {x : Address} (h : ofText? s = some x) :
    (∃ a b, x = .byron a ∧ Byron.ofBytes? b = some a) ∨ ∃ a b, x = .shelley a ∧ Shelley.ofBytes? b = some a := by
  unfold ofText? at h
  split at h
  case isTrue => exact .inl (ofByronText?_eq_some h)
  case isFalse =>
    split at h
    case h_2 => exact .inl (ofByronText?_eq_some h)
    case h_1 r b _ =>
      rw [ofBytes?, Option.or_eq_some_iff] at h
      rcases h with h | ⟨-, h⟩
      · obtain ⟨a, ha, rfl⟩ := Option.map_eq_some_iff.mp h
        exact .inl ⟨a, b, rfl, ha⟩
      · obtain ⟨a, ha, rfl⟩ := Option.map_eq_some_iff.mp h
        exact .inr ⟨a, b, rfl, ha⟩

theorem ofByronText?_encode (b : Bytes) : ofByronText? (Base58.encode b) = (Byron.ofBytes? b).map .byron := by
  rw [ofByronText?, Base58.decode_encode]

theorem canonical_of_ofText? {s : List Char} {x : Address} (h : ofText? s = some x) :
    Kind.canonical .cardano s = .ok x.text? := by
  rw [Kind.canonical, h]

theorem canonical_of_ofText?_eq_none {s : List Char} (h : ofText? s = none) :
    Kind.canonical .cardano s = .error .undecodable := by
  rw [Kind.canonical, h]

theorem canonical_eq_ok {s : List Char} {t : Option (List Char)} (h : Kind.canonical .cardano s = .ok t) :
    ∃ x, ofText? s = some x ∧ t = x.text? := by
  rw [Kind.canonical] at h
  split at h
  case h_1 x hx => exact ⟨x, hx, Eq.symm (Except.ok.inj h)⟩
  case h_2 => cases h

end Address

/-- The text of a Shelley address, if it has one, is its canonical text. -/
theorem Shelley.isCanonical_of_text? {a : Shelley} {b : Bytes} (hread : ofBytes? b = some a) {y : List Char}
    (h : a.text? = some y) : Kind.IsCanonical .cardano (String.ofList y) := by
  rw [text?, Option.ite_none_right_eq_some, Option.some.injEq] at h
  obtain ⟨hl, rfl⟩ := h
  refine Kind.isCanonical_ofList a.text_ne_nil a.isVisible_text ?_
  rw [Address.canonical_of_ofText? (ofText?_text ((ofBytes?_eq_some_iff.mp hread).1) hl), Address.text?, text?, if_pos hl]

theorem Shelley.text?_eq_none {a : Shelley} {b : Bytes} (hread : ofBytes? b = some a) :
    (a.text? = none ↔ Bech32.maxLength < a.text.length) ∧ (a.text? = none → ∃ p s, a.parts = .pointer p s) := by
  have hnone : a.text? = none ↔ Bech32.maxLength < a.text.length := by
    simp [text?]
  refine ⟨hnone, fun h => ?_⟩
  by_contra hparts
  have hl := length_text_le ((ofBytes?_eq_some_iff.mp hread).1) fun p s hp => hparts ⟨p, s, hp⟩
  exact absurd (hnone.mp h) (Nat.not_lt.mpr hl)

section Written

variable {a : Byron} {b : Bytes} (hw : a.toBytes? = some b)
include hw

theorem Byron.text?_of_toBytes? : a.text? = some (Base58.encode b) := by
  rw [text?, hw, Option.map_some]

theorem Byron.encode_ne_nil : Base58.encode b ≠ [] := Base58.encode_ne_nil (toBytes?_ne_nil hw)

variable (hs : a.IsStandard) (hc : a.IsChecked) (hr : Address.ReadsAsByron (Base58.encode b))
include hs hc hr

theorem Byron.isCanonical_of_holds (h : a.Holds) : Kind.IsCanonical .cardano (String.ofList (Base58.encode b)) := by
  have htext : Address.ofText? (Base58.encode b) = some (.byron a) := by
    rw [Address.ofText?_of_readsAsByron hr, Address.ofByronText?_encode, (ofBytes?_toBytes hs hc hw).1 h, Option.map_some]
  refine Kind.isCanonical_ofList (encode_ne_nil hw) (fun _ hc => Base58.isVisible_of_mem_encode hc) ?_
  rw [Address.canonical_of_ofText? htext, Address.text?, text?_of_toBytes? hw]

theorem Byron.undecodable_of_not_holds (h : ¬ a.Holds) :
    Kind.normalize .cardano (some (String.ofList (Base58.encode b))) = .error .undecodable := by
  have htext : Address.ofText? (Base58.encode b) = none := by
    rw [Address.ofText?_of_readsAsByron hr, Address.ofByronText?_encode, (ofBytes?_toBytes hs hc hw).2 h, Option.map_none]
  rw [Kind.normalize_of_visible (encode_ne_nil hw) fun _ hc => Base58.isVisible_of_mem_encode hc,
    Address.canonical_of_ofText?_eq_none htext]
  rfl

end Written

end Cardano

/-! ## All kinds -/

open Cardano in
/-- What normalizing gives, and what becomes of that when it is normalized again. -/
theorem normalize_normalized (raw : Option String) :
    (∀ k r, k ≠ .cardano → Kind.normalize k raw = .ok r → ∃ y, r = some y ∧ k.IsCanonical y) ∧
    (∀ r, Kind.normalize .cardano raw = .ok r →
      (∃ a : Shelley, Address.ofText? (Blank.trim (raw.getD "").toList) = some (.shelley a) ∧
        (r = none ↔ Bech32.maxLength < a.text.length) ∧
        (r = none → ∃ p s, a.parts = .pointer p s) ∧
        ∀ y, r = some y → Kind.IsCanonical .cardano y) ∨
      (∃ a : Byron, Address.ofText? (Blank.trim (raw.getD "").toList) = some (.byron a) ∧
        ∃ y, r = some y ∧ y ≠ "" ∧
          (a.IsStandard → Address.ReadsAsByron y.toList →
            (a.Holds → Kind.IsCanonical .cardano y) ∧
            (¬ a.Holds → Kind.normalize .cardano (some y) = .error .undecodable)))) := by
  constructor
  · intro k r hk hr
    obtain ⟨t, ht, rfl⟩ := Kind.normalize_eq_ok hr
    cases k with
    | cardano => exact absurd rfl hk
    | evm =>
      obtain ⟨y, hy, rfl⟩ := Evm.canonical_eq_ok ht
      exact ⟨_, rfl, Evm.isCanonical_of_normalize? hy⟩
    | solana =>
      obtain ⟨y, hy, rfl⟩ := Solana.canonical_eq_ok ht
      exact ⟨_, rfl, Solana.isCanonical_of_normalize hy⟩
  · intro r hr
    obtain ⟨t, ht, rfl⟩ := Kind.normalize_eq_ok hr
    obtain ⟨x, hx, rfl⟩ := Address.canonical_eq_ok ht
    rcases Address.ofText?_eq_some hx with ⟨a, b, rfl, hread⟩ | ⟨a, b, rfl, hread⟩
    · right
      obtain ⟨hc, b', hw⟩ := Byron.isChecked_of_ofBytes? hread
      rw [Address.text?, Byron.text?_of_toBytes? hw, Option.map_some]
      have hne : String.ofList (Base58.encode b') ≠ "" := by simpa using Byron.encode_ne_nil hw
      refine ⟨a, hx, _, rfl, hne, fun hs hr => ?_⟩
      rw [String.toList_ofList] at hr
      exact ⟨Byron.isCanonical_of_holds hw hs hc hr, Byron.undecodable_of_not_holds hw hs hc hr⟩
    · left
      obtain ⟨hnone, hpointer⟩ := Shelley.text?_eq_none hread
      rw [Address.text?, Option.map_eq_none_iff]
      refine ⟨a, hx, hnone, hpointer, fun y hy => ?_⟩
      obtain ⟨z, hz, rfl⟩ := Option.map_eq_some_iff.mp hy
      exact Shelley.isCanonical_of_text? hread hz

/-! ## Addresses over a hash of ones -/

namespace OnesAddress

open Cardano

def credential : Credential := ⟨false, List.replicate 28 1⟩

def shelley : Shelley := ⟨.test, .payment credential⟩

def shelleyText : String := "addr_test1vqqszqgpqyqszqgpqyqszqgpqyqszqgpqyqszqgpqyqszqgasfzjt"

theorem ofText?_shelleyText : Address.ofText? shelleyText.toList = some (.shelley shelley) := by
  have htext : shelley.text = shelleyText.toList := by decide +kernel
  have hl : shelley.text.length ≤ Encoding.Bech32.maxLength := by
    rw [htext]
    decide
  rw [← htext]
  exact Shelley.ofText?_text rfl hl

def byron : Byron := ⟨credential.hash, [], .int 0, .int 0x346d9aac⟩

def byronText : String := "Ae2tdPwUPEYvuaDnd7PfXxZpPX5fS72Q5ZnsmQ97DRY5gKirx7pnnXmp2c3"

/-- The content is short, and the number in the address is its checksum. -/
theorem byron_payload : ∃ p, byron.payload? = some p ∧ p.length < 2 ^ 64 ∧
    byron.checksum.isNumber (Byron.checksumOf p) = true := by
  have h : byron.payload?.any (fun p => p.length < 2 ^ 64 && byron.checksum.isNumber (Byron.checksumOf p)) = true := by
    decide +kernel
  obtain ⟨p, hp, hall⟩ := Option.any_eq_true _ _ |>.mp h
  obtain ⟨hl, hsum⟩ := Bool.and_eq_true_iff.mp hall
  exact ⟨p, hp, of_decide_eq_true hl, hsum⟩

theorem byron_isStandard : byron.IsStandard where
  attributes := ⟨[], rfl, List.nodup_nil, by simp⟩
  type := ⟨0, rfl⟩
  checksum := ⟨_, rfl⟩
  size p hp := by
    obtain ⟨p', hp', hl, -⟩ := byron_payload
    cases hp.symm.trans hp'
    exact hl

theorem byron_holds : byron.Holds := by
  obtain ⟨p, hp, -, hsum⟩ := byron_payload
  exact ⟨p, hp, hsum⟩

theorem byron_isChecked : byron.IsChecked where
  hash := rfl
  type := rfl
  checksum := byron_holds.imp fun _ h => h.2

theorem ofText?_byronText : Address.ofText? byronText.toList = some (.byron byron) := by
  have h : byron.toBytes?.any (fun b => Base58.encode b = byronText.toList) = true := by decide +kernel
  obtain ⟨b, hw, htext⟩ := Option.any_eq_true _ _ |>.mp h
  have hr : Address.byronBeginnings.any (·.isPrefixOf byronText.toList) = true := by decide
  rw [Address.ofText?_of_readsAsByron (.inl hr), ← of_decide_eq_true htext, Address.ofByronText?_encode,
    (Byron.ofBytes?_toBytes byron_isStandard byron_isChecked hw).1 byron_holds, Option.map_some]

end OnesAddress

open OnesAddress in
theorem texts_of_ones_are_canonical :
    Kind.IsCanonical .evm "0x0101010101010101010101010101010101010101" ∧
      Kind.IsCanonical .solana "4vJ9JU1bJJE96FWSJKvHsmmFADCg4gpZQff4P3bkLKi" ∧
      Kind.IsCanonical .cardano shelleyText ∧ Kind.IsCanonical .cardano byronText := by
  refine ⟨?_, ?_, ?_, ?_⟩
  · have h : Kind.normalize .evm (some "0101010101010101010101010101010101010101") =
        .ok (some "0x0101010101010101010101010101010101010101") := by decide +kernel
    obtain ⟨y, hy, hlasts⟩ := (normalize_normalized _).1 _ _ (by decide) h
    rwa [Option.some.inj hy]
  · have h : Kind.normalize .solana (some "4vJ9JU1bJJE96FWSJKvHsmmFADCg4gpZQff4P3bkLKi ") =
        .ok (some "4vJ9JU1bJJE96FWSJKvHsmmFADCg4gpZQff4P3bkLKi") := by decide +kernel
    obtain ⟨y, hy, hlasts⟩ := (normalize_normalized _).1 _ _ (by decide) h
    rwa [Option.some.inj hy]
  · have h : Kind.normalize .cardano (some shelleyText) = .ok (some shelleyText) := by decide +kernel
    have htrim : Text.Blank.trim shelleyText.toList = shelleyText.toList := by decide +kernel
    rcases (normalize_normalized _).2 _ h with ⟨a, -, -, -, hlasts⟩ | ⟨a, ha, -⟩
    · exact hlasts _ rfl
    · rw [Option.getD_some, htrim, ofText?_shelleyText] at ha
      cases ha
  · have h : Kind.normalize .cardano (some byronText) = .ok (some byronText) := by decide +kernel
    have htrim : Text.Blank.trim byronText.toList = byronText.toList := by decide +kernel
    rcases (normalize_normalized _).2 _ h with ⟨a, ha, -⟩ | ⟨a, ha, y, hy, -, hagain⟩
    · rw [Option.getD_some, htrim, ofText?_byronText] at ha
      cases ha
    · rw [Option.getD_some, htrim, ofText?_byronText] at ha
      cases ha
      cases hy
      exact (hagain byron_isStandard (.inl (by decide +kernel))).1 byron_holds

/-- A type that was written in two bytes is written in one, under the checksum of the longer
content; and a text for an address whose own text would be too long. -/
theorem noncanonical_content_loses_its_address :
    Kind.normalize .cardano (some "jYTLseJK1m1V1ahfP2ubvYDha7Kc81aSrS4CbhVpyz5xiFEEDzQAXxBUeSVz") =
        .ok (some "Ae2tdPwUPEYvuaDnd7PfXxZpPX5fS72Q5ZnsmQ97DRY5gKirx7pnna6YGkk") ∧
      Kind.normalize .cardano (some "Ae2tdPwUPEYvuaDnd7PfXxZpPX5fS72Q5ZnsmQ97DRY5gKirx7pnna6YGkk") =
        .error .undecodable ∧
      Kind.normalize .cardano (some ("a1gqqszqgpqyqszqgpqyqszqgpqyqszqgpqyqszqgpqyqszq0" ++
        "lllllllllllllllllllllllllllllllllllllllll0upqx5x59jm")) = .ok none := by
  refine ⟨?_, ?_, ?_⟩ <;> decide +kernel

end WalletLogin.Wallet
