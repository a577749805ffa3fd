/-
  WalletLogin.Proofs.Wallet.Byron — Byron addresses that are written and read again.

  Written anew, the content of an address keeps what it says but perhaps not its bytes,
  and the checksum that goes with it is the one that was read. So what is written can be
  read again exactly when that checksum is the one of the content as it is written.

  Proved:
  - `isChecked_of_ofBytes?`: what the reader makes sure of.
  - `ofBytes?_toBytes`, for addresses of the standard form (attributes that are byte strings
    by numbers): what was written is the address again, if its checksum holds, and else no
    address.
-/

import WalletLogin.Proofs.Encoding.Cbor.RoundTrip
import WalletLogin.Wallet.Cardano.Byron

namespace WalletLogin.Wallet.Cardano.Byron

open Encoding Encoding.Cbor

/-- An address as wallets make them: its attributes are byte strings under numbers that
differ, and its type and checksum are numbers. -/
structure IsStandard (a : Byron) : Prop where
  attributes : ∃ es : List (Int × Bytes), a.attributes = es.map numberedBytes ∧ (es.map Prod.fst).Nodup ∧
    ∀ e ∈ es, -2 ^ 64 ≤ e.1 ∧ e.1 < 2 ^ 64
  type : ∃ n, a.type = .int n
  checksum : ∃ n, a.checksum = .int n
  /-- The content is no longer than a head can say. -/
  size : ∀ p, a.payload? = some p → p.length < 2 ^ 64

/-- Whether the checksum is that of the content as it is written. -/
def Holds (a : Byron) : Prop := ∃ p, a.payload? = some p ∧ a.checksum.isNumber (checksumOf p) = true

/-- What the reader makes sure of: the hash's length, one of the two types, and a checksum
that some bytes have. -/
structure IsChecked (a : Byron) : Prop where
  hash : a.hash.length = 28
  type : isType a.type = true
  checksum : ∃ p, a.checksum.isNumber (checksumOf p) = true

/-- An address that was read has been checked, and can be written. -/
theorem isChecked_of_ofBytes? {b : Bytes} {a : Byron} (h : ofBytes? b = some a) :
    a.IsChecked ∧ ∃ b', a.toBytes? = some b' := by
  unfold ofBytes? at h
  split at h
  case h_2 => cases h
  case h_1 payload checksum _ _ =>
    split at h
    case isFalse => cases h
    case isTrue hsum =>
      obtain ⟨hp, hw⟩ := Option.filter_eq_some_iff.mp h
      unfold ofPayload? at hp
      split at hp
      case h_2 => cases hp
      case h_1 =>
        split at hp
        case isFalse => cases hp
        case isTrue hform =>
          rw [Bool.and_eq_true, decide_eq_true_eq] at hform
          cases hp
          exact ⟨⟨hform.1, hform.2, ⟨payload, hsum⟩⟩, Option.isSome_iff_exists.mp hw⟩

/-! ## The content -/

section Content

variable {hash : Bytes} {es : List (Int × Bytes)} {t c : Int}

/-- The content of an address of the standard form. -/
def content (hash : Bytes) (es : List (Int × Bytes)) (t : Int) : Cbor :=
  .array false [.bytes hash, .map false (es.map numberedBytes), .int t]

def contentBytes (hash : Bytes) (es : List (Int × Bytes)) (t : Int) : Bytes :=
  head 4 3 ++ (writeBytes hash ++ ((head 5 es.length ++ es.flatMap writeNumberedBytes) ++ writeInt t))

theorem write?_content (hash : Bytes) (es : List (Int × Bytes)) (t : Int) :
    write? (content hash es t) = some (contentBytes hash es t) := by
  simp [content, contentBytes, write?, writeAll?, writeEntries?_numberedBytes]

theorem le_flatMap_length {es : List (Int × Bytes)} :
    es.length ≤ (es.flatMap writeNumberedBytes).length ∧
      ∀ e ∈ es, e.2.length ≤ (es.flatMap writeNumberedBytes).length := by
  induction es with
  | nil => simp
  | cons e es ih =>
    have hhead : 1 ≤ (head 2 e.2.length).length := by rw [Reader.head_eq]; simp
    have hlen : (writeNumberedBytes e).length = (writeInt e.1).length + ((head 2 e.2.length).length + e.2.length) := by
      simp [writeNumberedBytes, writeBytes]
    rw [List.flatMap_cons, List.length_append, List.length_cons]
    refine ⟨by omega, fun f hf => ?_⟩
    rcases List.mem_cons.mp hf with rfl | hf
    · omega
    · have := ih.2 f hf
      omega

theorem reads_content {depth : Nat} (hh : hash.length < 2 ^ 64) (hk : (es.map Prod.fst).Nodup)
    (he : ∀ e ∈ es, -2 ^ 64 ≤ e.1 ∧ e.1 < 2 ^ 64) (hs : (contentBytes hash es t).length < 2 ^ 64)
    (ht : -2 ^ 64 ≤ t ∧ t < 2 ^ 64) :
    Reader.Reads (Reader.item (depth + 3) ⟨false, none⟩) (contentBytes hash es t) (content hash es t) := by
  have hflat : (es.flatMap writeNumberedBytes).length < 2 ^ 64 := by
    rw [contentBytes] at hs
    simp only [List.length_append] at hs
    omega
  have hentry : ∀ e ∈ es, (-2 ^ 64 ≤ e.1 ∧ e.1 < 2 ^ 64) ∧ e.2.length < 2 ^ 64 := fun e hm =>
    ⟨he e hm, (le_flatMap_length.2 e hm).trans_lt hflat⟩
  have hmap : Reader.Reads (Reader.item (depth + 2) ⟨false, none⟩) (head 5 es.length ++ es.flatMap writeNumberedBytes)
      (.map false (es.map numberedBytes)) := by
    have hcount : (es.map numberedBytes).length < 2 ^ 64 := by
      rw [List.length_map]
      exact le_flatMap_length.1.trans_lt hflat
    rw [show es.length = (es.map numberedBytes).length by simp]
    refine Reader.item_map hcount fun grow hgrow => ?_
    rw [List.length_map]
    exact Reader.reads_entries hgrow hentry [] hk
  have hthree : ([.bytes hash, .map false (es.map numberedBytes), .int t] : List Cbor).length < 2 ^ 64 := by simp
  refine Reader.item_array hthree fun grow hgrow => ?_
  refine Reader.items_cons hgrow (Reader.item_bytes rfl hh) ?_
  refine Reader.items_cons hgrow hmap ?_
  rw [← List.append_nil (writeInt t)]
  exact Reader.items_cons hgrow (Reader.item_int rfl ht) (Reader.items_nil _)

theorem settle?_content (hash : Bytes) (es : List (Int × Bytes)) (t : Int) :
    settle? [] (content hash es t) = some (content hash es t) := by
  simp [settle?, settleFuel, content, substitute, substituteAll, substituteEntries_numberedBytes]

/-! ## The whole -/

/-- The address around its content's bytes. -/
def envelope (p : Bytes) (c : Int) : Cbor := .array false [.tag contentTag (.bytes p), .int c]

def envelopeBytes (p : Bytes) (c : Int) : Bytes := head 4 2 ++ ((head 6 contentTag ++ writeBytes p) ++ writeInt c)

theorem write?_envelope (p : Bytes) (c : Int) : write? (envelope p c) = some (envelopeBytes p c) := by
  simp [envelope, envelopeBytes, write?, writeAll?]

theorem settle?_envelope (p : Bytes) (c : Int) : settle? [] (envelope p c) = some (envelope p c) := rfl

theorem reads_envelope {depth : Nat} {p : Bytes} (hp : p.length < 2 ^ 64) (hc : -2 ^ 64 ≤ c ∧ c < 2 ^ 64) :
    Reader.Reads (Reader.item (depth + 3) ⟨false, none⟩) (envelopeBytes p c) (envelope p c) := by
  have htag : Reader.Reads (Reader.item (depth + 2) ⟨false, none⟩) (head 6 contentTag ++ writeBytes p)
      (.tag contentTag (.bytes p)) :=
    Reader.item_tag (by decide) rfl (by decide) (Reader.item_bytes rfl hp)
  have htwo : ([.tag contentTag (.bytes p), .int c] : List Cbor).length < 2 ^ 64 := by simp
  refine Reader.item_array htwo fun grow hgrow => ?_
  refine Reader.items_cons hgrow htag ?_
  rw [← List.append_nil (writeInt c)]
  exact Reader.items_cons hgrow (Reader.item_int rfl hc) (Reader.items_nil _)

end Content

/-- What was written of an address is that address, if its checksum holds, and else no
address. -/
theorem ofBytes?_toBytes {a : Byron} {b : Bytes} (hs : a.IsStandard) (hc : a.IsChecked) (hw : a.toBytes? = some b) :
    (a.Holds → ofBytes? b = some a) ∧ (¬ a.Holds → ofBytes? b = none) := by
  obtain ⟨hash, attributes, type, checksum⟩ := a
  obtain ⟨⟨es, rfl, hkeys, hes⟩, ⟨t, rfl⟩, ⟨c, rfl⟩, hsize⟩ := hs
  obtain ⟨hhash, htype, ⟨p₀, hsum⟩⟩ := hc
  have hpayload : payload? ⟨hash, es.map numberedBytes, .int t, .int c⟩ = some (contentBytes hash es t) :=
    write?_content hash es t
  have ht : t = 0 ∨ t = 2 := by simpa [isType, isNumber] using htype
  have hc : c = checksumOf p₀ := by simpa [isNumber] using hsum
  have hword : -2 ^ 64 ≤ c ∧ c < 2 ^ 64 := by
    have hlt := (Hash.Crc32.crc32 p₀).toNat_lt
    rw [hc, checksumOf]
    omega
  have hcontent : read? (contentBytes hash es t) = some (content hash es t, []) :=
    read?_of_reads (reads_content (by rw [hhash]; decide) hkeys hes (hsize _ hpayload) (by omega)) (settle?_content hash es t)
  have henvelope : read? (envelopeBytes (contentBytes hash es t) c) = some (envelope (contentBytes hash es t) c, []) :=
    read?_of_reads (reads_envelope (hsize _ hpayload) hword) (settle?_envelope _ c)
  have hbytes : b = envelopeBytes (contentBytes hash es t) c := by
    rw [toBytes?, hpayload] at hw
    exact (Option.some.inj (hw.symm.trans (write?_envelope _ c)))
  have hback : ofPayload? (contentBytes hash es t) (.int c) = some ⟨hash, es.map numberedBytes, .int t, .int c⟩ := by
    have hform : (decide (hash.length = 28) && isType (.int t)) = true := by
      rw [htype, hhash]
      rfl
    rw [ofPayload?, hcontent, content]
    exact if_pos hform
  have hof : ofBytes? b = if (Cbor.int c).isNumber (checksumOf (contentBytes hash es t)) then
      (ofPayload? (contentBytes hash es t) (.int c)).filter fun a => a.toBytes?.isSome else none := by
    rw [ofBytes?, hbytes, henvelope]
    rfl
  rw [hback, Option.filter_some, hw, Option.isSome_some, if_pos rfl] at hof
  rw [hof]
  constructor
  · rintro ⟨p, hp, hsame⟩
    rw [Option.some.inj (hpayload.symm.trans hp), if_pos hsame]
  · intro hnot
    exact if_neg fun hsame => hnot ⟨_, hpayload, hsame⟩

end WalletLogin.Wallet.Cardano.Byron
