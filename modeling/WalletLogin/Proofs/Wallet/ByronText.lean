/-
  WalletLogin.Proofs.Wallet.ByronText — the texts of Byron addresses in shortest form.

  Such a text says everything in its one shortest way: the hash, the attributes in the order
  they have, the type, and around them the checksum of just these bytes. Reading it loses
  nothing, so writing the address anew gives the same bytes, and the checksum that was kept
  is theirs.

  Proved:
  - `shortest_content`, `shortest_envelope`: both layers have a shortest form if their sizes
    can be said.
  - `short_texts_are_kept`: there is one such text for each address, and if it is read as
    that of a Byron address, it is normalized to itself.
-/

import WalletLogin.Proofs.Encoding.Cbor.Shortest
import WalletLogin.Proofs.Wallet.Canonical

namespace WalletLogin.Wallet.Cardano.Byron

open Encoding Encoding.Cbor

/-- A text of the address with this hash, these attributes and this type, both layers in
shortest form. -/
def IsShortText (hash : Bytes) (es : List (Int × Bytes)) (t : Int) (s : List Char) : Prop :=
  ∃ p b, Shortest (content hash es t) p ∧ Shortest (envelope p (checksumOf p)) b ∧ Base58.encode b = s

/-! ## Both layers have a shortest form -/

section Shortest

variable {hash : Bytes} {es : List (Int × Bytes)} {t : Int}

theorem shortest_content (hh : hash.length < 2 ^ 64) (hes : ∀ e ∈ es, (0 ≤ e.1 ∧ e.1 < 2 ^ 64) ∧ e.2.length < 2 ^ 64)
    (hl : es.length < 2 ^ 64) (ht : 0 ≤ t ∧ t < 2 ^ 64) : Shortest (content hash es t) (contentBytes hash es t) := by
  have hmap : Shortest (.map false (es.map numberedBytes)) (head 5 es.length ++ es.flatMap writeNumberedBytes) := by
    refine .map ?_ (shortest_numberedBytes hes)
    rw [List.length_map]
    exact shortHead_head hl
  rw [contentBytes, ← List.append_nil (writeInt t)]
  refine .array (shortHead_head (by simp)) ?_
  exact .cons (shortest_bytes hh) (.cons hmap (.cons (shortest_int ht) .nil))

theorem shortest_envelope {p : Bytes} {c : Int} (hp : p.length < 2 ^ 64) (hc : 0 ≤ c ∧ c < 2 ^ 64) :
    Shortest (envelope p c) (envelopeBytes p c) := by
  rw [envelopeBytes, ← List.append_nil (writeInt c)]
  refine .array (shortHead_head (by simp)) ?_
  exact .cons (.tag (shortHead_head (by decide)) (shortest_bytes hp)) (.cons (shortest_int hc) .nil)

/-- Content with a shortest form around it is no longer than a head can say. -/
theorem length_lt_of_shortest_envelope {p b : Bytes} {c : Int} (h : Shortest (envelope p c) b) : p.length < 2 ^ 64 := by
  unfold envelope at h
  cases h with
  | array _ hall =>
    cases hall with
    | cons htag _ =>
      cases htag with
      | tag _ hbytes =>
        cases hbytes with
        | bytes hhead => exact (shortHead_iff.mp hhead).1

theorem checksumOf_bounds (p : Bytes) : 0 ≤ checksumOf p ∧ checksumOf p < 2 ^ 64 := by
  have hlt := (Hash.Crc32.crc32 p).toNat_lt
  rw [checksumOf]
  omega

/-! ## The size of the content -/

theorem length_contentBytes_le (hes : ∀ e ∈ es, 0 ≤ e.1 ∧ e.1 < 2 ^ 64) (ht : 0 ≤ t ∧ t < 2 ^ 64) :
    (contentBytes hash es t).length ≤ hash.length + (es.map fun e => e.2.length + 18).sum + 36 := by
  have h₄ := length_head_le 4 3
  have h₂ := length_head_le 2 hash.length
  have h₅ := length_head_le 5 es.length
  have h := length_writeInt_le ht
  have hflat := length_writeNumberedBytes_le hes
  simp only [contentBytes, writeBytes, List.length_append]
  omega

end Shortest

/-! ## Their texts -/

section Text

variable {hash : Bytes} {es : List (Int × Bytes)} {t : Int} {s : List Char}

theorem IsShortText.unique {s' : List Char} (h : IsShortText hash es t s) (h' : IsShortText hash es t s') : s' = s := by
  obtain ⟨p, b, hp, hb, rfl⟩ := h
  obtain ⟨p', b', hp', hb', rfl⟩ := h'
  obtain rfl : p = p' := Option.some.inj (hp.write?.symm.trans hp'.write?)
  obtain rfl : b = b' := Option.some.inj (hb.write?.symm.trans hb'.write?)
  rfl

theorem isShortText_encode (hh : hash.length = 28) (hes : ∀ e ∈ es, 0 ≤ e.1 ∧ e.1 < 2 ^ 64) (ht : 0 ≤ t ∧ t < 2 ^ 64)
    (hsize : (es.map fun e => e.2.length + 18).sum + 64 < 2 ^ 64) :
    IsShortText hash es t
      (Base58.encode (envelopeBytes (contentBytes hash es t) (checksumOf (contentBytes hash es t)))) := by
  have hflat := length_writeNumberedBytes_le hes
  have hlengths : ∀ e ∈ es, (0 ≤ e.1 ∧ e.1 < 2 ^ 64) ∧ e.2.length < 2 ^ 64 := fun e he =>
    ⟨hes e he, (le_flatMap_length.2 e he).trans_lt (by omega)⟩
  have hcontent : Shortest (content hash es t) (contentBytes hash es t) :=
    shortest_content (by omega) hlengths (le_flatMap_length.1.trans_lt (by omega)) ht
  have hp : (contentBytes hash es t).length < 2 ^ 64 := by
    refine (length_contentBytes_le hes ht).trans_lt ?_
    omega
  exact ⟨_, _, hcontent, shortest_envelope hp (checksumOf_bounds _), rfl⟩

/-- What such a text says is an address of the standard form, under its own checksum. -/
theorem IsShortText.isCanonical (h : IsShortText hash es t s) (hh : hash.length = 28) (hk : (es.map Prod.fst).Nodup)
    (hes : ∀ e ∈ es, 0 ≤ e.1 ∧ e.1 < 2 ^ 64) (ht : t = 0 ∨ t = 2) (hr : Address.ReadsAsByron s) :
    Kind.IsCanonical .cardano (String.ofList s) := by
  obtain ⟨p, b, hp, hb, rfl⟩ := h
  let a : Byron := ⟨hash, es.map numberedBytes, .int t, .int (checksumOf p)⟩
  have hpayload : a.payload? = some p := hp.write?
  have hbytes : a.toBytes? = some b := by
    rw [toBytes?, hpayload]
    exact hb.write?
  have hstandard : a.IsStandard := by
    refine ⟨⟨es, rfl, hk, fun e he => ?_⟩, ⟨t, rfl⟩, ⟨_, rfl⟩, fun q hq => ?_⟩
    · have := hes e he
      omega
    · obtain rfl : p = q := Option.some.inj (hpayload.symm.trans hq)
      exact length_lt_of_shortest_envelope hb
  have hsum : a.checksum.isNumber (checksumOf p) = true := by simp [a, isNumber]
  have hchecked : a.IsChecked := ⟨hh, by simpa [a, isType, isNumber] using ht, p, hsum⟩
  exact isCanonical_of_holds hbytes hstandard hchecked hr ⟨p, hpayload, hsum⟩

end Text

/-- An address that can be written has one text in shortest form, and that text, where it is
read as a Byron address's, is normalized to itself, once and again. -/
theorem short_texts_are_kept {hash : Bytes} {es : List (Int × Bytes)} {t : Int} (hh : hash.length = 28)
    (hk : (es.map Prod.fst).Nodup) (hes : ∀ e ∈ es, 0 ≤ e.1 ∧ e.1 < 2 ^ 64) (ht : t = 0 ∨ t = 2) :
    ((es.map fun e => e.2.length + 18).sum + 64 < 2 ^ 64 → ∃! s, IsShortText hash es t s) ∧
      ∀ s, IsShortText hash es t s → Address.ReadsAsByron s →
        Kind.normalize .cardano (some (String.ofList s)) = .ok (some (String.ofList s)) ∧
          (Kind.normalize .cardano (some (String.ofList s))).bind (Kind.normalize .cardano) =
            .ok (some (String.ofList s)) := by
  constructor
  · intro hsize
    have hword : 0 ≤ t ∧ t < 2 ^ 64 := by omega
    have hs := isShortText_encode hh hes hword hsize
    exact ⟨_, hs, fun s' hs' => hs.unique hs'⟩
  · intro s hs hr
    have hagain := (hs.isCanonical hh hk hes ht hr).again
    exact ⟨hagain, by rw [hagain]; exact hagain⟩

/-- Two attributes under a hash of ones, the larger number first. -/
theorem two_attributes_are_kept :
    let hash : Bytes := List.replicate 28 1
    let es : List (Int × Bytes) := [(300, [1]), (1, [])]
    let x := "2cWKMJemoBah9PC1PyBS3Rs6bEvBhqideYegN6naR7Z5GHcEWMpUQkSRMmjZE6U3tPAFB"
    (∃! s, IsShortText hash es 0 s) ∧ IsShortText hash es 0 x.toList ∧
      Kind.normalize .cardano (some x) = .ok (some x) := by
  intro hash es x
  have hkeys : ∀ e ∈ es, 0 ≤ e.1 ∧ e.1 < 2 ^ 64 := by decide
  have hsize : (es.map fun e => e.2.length + 18).sum + 64 < 2 ^ 64 := by decide
  have hx : Base58.encode (envelopeBytes (contentBytes hash es 0) (checksumOf (contentBytes hash es 0))) = x.toList := by
    decide +kernel
  have hshort : IsShortText hash es 0 x.toList := hx ▸ isShortText_encode rfl hkeys (by decide) hsize
  have hlength : hash.length = 28 := rfl
  obtain ⟨honly, hkept⟩ := short_texts_are_kept hlength (by decide) hkeys (.inl (Eq.refl 0))
  have hnormal := (hkept x.toList hshort (.inr (by decide +kernel))).1
  rw [String.ofList_toList] at hnormal
  exact ⟨honly hsize, hshort, hnormal⟩

end WalletLogin.Wallet.Cardano.Byron
