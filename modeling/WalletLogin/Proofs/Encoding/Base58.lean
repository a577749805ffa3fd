/-
  WalletLogin.Proofs.Encoding.Base58 — bytes and their texts in base 58.

  The zero bytes in front become ones and stay apart from the number that the rest
  spells: its digits do not start with a zero in either base. So a text and its bytes are
  both a count of marks and a number (`encode_append`, `decodeDigits_append`).

  Proved:
  - `decode_encode` / `encode_decode`: what was written is read back, and what was read
    is written again.
  - `decode_eq_ok_iff`: the bytes of a text are those whose text it is, up to blanks at
    its end.
  - `two_mul_length_encode_le`: a written text is not much longer than its bytes.
  - `isVisible_of_mem_encode`: a written text holds visible characters of ASCII only.
-/

import WalletLogin.Encoding.Base58
import WalletLogin.Proofs.Bytes
import WalletLogin.Proofs.Text.Blank

namespace WalletLogin.Encoding.Base58

open Text

/-! ## Characters -/

theorem value?_char : ∀ n < 58, value? (char n) = some n := by
  decide

theorem isVisible_char : ∀ n < 58, Blank.IsVisible (char n) := by
  decide

theorem char_ne_one : ∀ n < 58, n ≠ 0 → char n ≠ '1' := by
  decide

theorem mem_alphabet {c : Char} : c ∈ alphabet ↔ ∃ n < 58, char n = c := by
  have halphabet : alphabet = (List.range 58).map char := by decide
  simp [halphabet]

theorem mem_alphabet_of_value? {c : Char} {n : Nat} (h : value? c = some n) : c ∈ alphabet :=
  List.isSome_idxOf?.mp (Option.isSome_of_eq_some h)

theorem isVisible_of_mem_alphabet {c : Char} (hc : c ∈ alphabet) : Blank.IsVisible c := by
  obtain ⟨n, hn, rfl⟩ := mem_alphabet.mp hc
  exact isVisible_char n hn

theorem mem_alphabet_of_mem_encode {b : Bytes} {c : Char} (hc : c ∈ encode b) : c ∈ alphabet := by
  rcases List.mem_append.mp hc with hc | hc
  · rw [List.eq_of_mem_replicate hc]
    decide
  · obtain ⟨n, hn, rfl⟩ := List.mem_map.mp hc
    exact mem_alphabet.mpr ⟨n, Radix.digits_lt (by decide) hn, rfl⟩

theorem isVisible_of_mem_encode {b : Bytes} {c : Char} (hc : c ∈ encode b) : Blank.IsVisible c :=
  isVisible_of_mem_alphabet (mem_alphabet_of_mem_encode hc)

/-- What is over the alphabet is read digit by digit. -/
theorem decode_of_alphabet {s : List Char} (hs : ∀ c ∈ s, c ∈ alphabet) : decode s = decodeDigits s := by
  have hvisible : ∀ c ∈ s, Blank.IsVisible c := fun c hc => isVisible_of_mem_alphabet (hs c hc)
  have hascii : s.all (·.toNat < 128) = true :=
    List.all_eq_true.mpr fun c hc => decide_eq_true ((hvisible c hc).2.trans (by decide))
  rw [decode, Blank.trimRight_of_visible hvisible, if_pos hascii]

/-! ## A count of marks and a number -/

/-- The text of any number of zeros and the bytes of a number. -/
theorem encode_append (n m : Nat) :
    encode (List.replicate n 0 ++ (Radix.digits 256 m).map UInt8.ofNat) =
      List.replicate n '1' ++ (Radix.digits 58 m).map char := by
  have hbyte : ∀ d ∈ Radix.digits 256 m, d < 256 := fun d hd => Radix.digits_lt (by decide) hd
  have hzero : ∀ x ∈ List.replicate n (0 : UInt8), decide (x = 0) = true := fun x hx =>
    decide_eq_true (List.eq_of_mem_replicate hx)
  have hrest : ((Radix.digits 256 m).map UInt8.ofNat).takeWhile (· = 0) = [] := by
    cases hd : Radix.digits 256 m with
    | nil => rfl
    | cons d ds =>
      have hd0 : d ≠ 0 := by
        rintro rfl
        exact Radix.head?_digits_ne_zero (show 2 ≤ 256 by decide) m (by rw [hd]; rfl)
      have hd256 : d < 256 := hbyte d (by rw [hd]; exact List.mem_cons_self)
      refine List.takeWhile_cons_of_neg (by_contra fun h => hd0 ?_)
      have hx : UInt8.ofNat d = 0 := by simpa using h
      rw [← UInt8.toNat_ofNat_of_lt' hd256, hx]
      rfl
  have hvalue : Bytes.toBigEndian (List.replicate n 0 ++ (Radix.digits 256 m).map UInt8.ofNat) = m := by
    rw [Bytes.toBigEndian_eq, List.map_append, List.map_replicate, UInt8.toNat_zero, Radix.value_replicate_zero,
      Bytes.map_toNat_ofNat hbyte, Radix.value_digits (by decide)]
  rw [encode, List.takeWhile_append_of_pos hzero, hrest, List.append_nil, List.length_replicate, hvalue]

/-- All bytes are zeros and the bytes of a number. -/
theorem zeros_append_digits (b : Bytes) :
    List.replicate (b.takeWhile (· = 0)).length 0 ++ (Radix.digits 256 (Bytes.toBigEndian b)).map UInt8.ofNat = b := by
  rw [Bytes.digits_toBigEndian, Bytes.map_ofNat_toNat, ← Bytes.takeWhile_zero, List.takeWhile_append_dropWhile]

/-- Digits that do not start with a zero, behind any number of ones. -/
theorem decodeDigits_append {ds : List Nat} (hd : ∀ d ∈ ds, d < 58) (hz : ds.head? ≠ some 0) (n : Nat) :
    decodeDigits (List.replicate n '1' ++ ds.map char) =
      .ok (List.replicate n 0 ++ (Radix.digits 256 (Radix.value 58 ds)).map UInt8.ofNat) := by
  have hones : ∀ c ∈ List.replicate n '1', decide (c = '1') = true := fun c hc => by
    rw [List.eq_of_mem_replicate hc]
    rfl
  have hhead : ∀ c ∈ (ds.map char).head?, decide (c = '1') = false := fun c hc => by
    rw [List.head?_map] at hc
    obtain ⟨d, hdm, rfl⟩ := Option.map_eq_some_iff.mp hc
    have hd0 : d ≠ 0 := by
      rintro rfl
      exact hz hdm
    exact decide_eq_false (char_ne_one d (hd d (List.mem_of_head? hdm)) hd0)
  have htake : (List.replicate n '1' ++ ds.map char).takeWhile (· = '1') = List.replicate n '1' := by
    rw [List.takeWhile_append_of_pos hones]
    cases hm : ds.map char with
    | nil => simp
    | cons c r =>
      rw [hm] at hhead
      rw [List.takeWhile_cons_of_neg (by simp [hhead c rfl]), List.append_nil]
  have hdrop : (List.replicate n '1' ++ ds.map char).dropWhile (· = '1') = ds.map char :=
    Blank.dropLeft_append hones hhead
  rw [decodeDigits, htake, hdrop, Radix.mapM_map_pure fun d hdm => by rw [value?_char d (hd d hdm)]; rfl,
    List.length_replicate]
  rfl

/-! ## Reading and writing -/

/-- What was written is read back. -/
theorem decode_encode (b : Bytes) : decode (encode b) = .ok b := by
  rw [decode_of_alphabet fun c hc => mem_alphabet_of_mem_encode hc, encode,
    decodeDigits_append (fun d hd => Radix.digits_lt (by decide) hd) (Radix.head?_digits_ne_zero (by decide) _),
    Radix.value_digits (by decide), zeros_append_digits]

theorem encode_injective {a b : Bytes} (h : encode a = encode b) : a = b := by
  have hread := decode_encode a
  rw [h, decode_encode] at hread
  exact Eq.symm (Except.ok.inj hread)

theorem encode_ne_nil {b : Bytes} (hb : b ≠ []) : encode b ≠ [] := fun hnil => hb (encode_injective hnil)

/-- Every text over the alphabet is read, and written again from what was read. -/
theorem encode_decode {s : List Char} (hs : ∀ c ∈ s, c ∈ alphabet) : ∃ b, decode s = .ok b ∧ encode b = s := by
  obtain ⟨ds, hd, rfl⟩ : ∃ ds : List Nat, (∀ d ∈ ds, d < 58) ∧ ds.map char = s :=
    Radix.exists_map_eq fun c hc => mem_alphabet.mp (hs c hc)
  obtain ⟨n, es, rfl, hz⟩ := Radix.exists_zeros_append ds
  have he : ∀ d ∈ es, d < 58 := fun d h => hd d (List.mem_append_right _ h)
  have htext : (List.replicate n 0 ++ es).map char = List.replicate n '1' ++ es.map char := by
    rw [List.map_append, List.map_replicate]
    rfl
  rw [htext] at hs ⊢
  refine ⟨_, (decode_of_alphabet hs).trans (decodeDigits_append he hz n), ?_⟩
  rw [encode_append, Radix.digits_value (by decide) he hz]

/-- Three characters are enough for two bytes. -/
theorem two_mul_length_encode_le (b : Bytes) : 2 * (encode b).length ≤ 3 * b.length + 1 := by
  have hlength : b.length = (b.takeWhile (· = 0)).length + (b.dropWhile (· = 0)).length := by
    rw [← List.length_append, List.takeWhile_append_dropWhile]
  have hvalue : Bytes.toBigEndian b < 256 ^ (b.dropWhile (· = 0)).length := by
    rw [← Radix.length_digits_le_iff (by decide), Bytes.digits_toBigEndian, List.length_map]
  generalize (b.dropWhile (· = 0)).length = m at hlength hvalue
  have hpow : 256 ^ m ≤ 58 ^ ((3 * m + 1) / 2) := by
    rw [← Nat.pow_le_pow_iff_left (show (2 : Nat) ≠ 0 by decide)]
    calc (256 ^ m) ^ 2 = (256 ^ 2) ^ m := by rw [← pow_mul, ← pow_mul, Nat.mul_comm]
      _ ≤ (58 ^ 3) ^ m := Nat.pow_le_pow_left (by decide) m
      _ = 58 ^ (3 * m) := by rw [← pow_mul]
      _ ≤ 58 ^ ((3 * m + 1) / 2 * 2) := Nat.pow_le_pow_right (by decide) (by omega)
      _ = (58 ^ ((3 * m + 1) / 2)) ^ 2 := by rw [pow_mul]
  have hdigits := (Radix.length_digits_le_iff (show 2 ≤ 58 by decide)).mpr (hvalue.trans_le hpow)
  rw [encode, List.length_append, List.length_replicate, List.length_map]
  omega

theorem mem_alphabet_of_decodeDigits {s : List Char} {b : Bytes} (h : decodeDigits s = .ok b) : ∀ c ∈ s, c ∈ alphabet := by
  have hbind : ∀ {γ δ : Type} {x : Except Fault γ} {f : γ → Except Fault δ} {d : δ},
      x >>= f = pure d → ∃ c, x = pure c ∧ f c = pure d := by
    intro γ δ x f d hx
    cases x with
    | error e => cases hx
    | ok c => exact ⟨c, rfl, hx⟩
  obtain ⟨ds, hds, -⟩ := hbind h
  intro c hc
  rw [← List.takeWhile_append_dropWhile (p := fun c => decide (c = '1')) (l := s), List.mem_append] at hc
  rcases hc with hc | hc
  · have hone : c = '1' := by simpa using List.mem_takeWhile_imp hc
    rw [hone]
    decide
  · obtain ⟨d, hd⟩ := Radix.forall_of_mapM_eq_pure hbind hds c hc
    split at hd
    case h_1 n hn => exact mem_alphabet_of_value? hn
    case h_2 => cases hd

/-- The bytes of a text are those whose text it is, up to blanks at its end. -/
theorem decode_eq_ok_iff {s : List Char} {b : Bytes} : decode s = .ok b ↔ Blank.trimRight s = encode b := by
  constructor
  · intro h
    rw [decode] at h
    split at h
    case isFalse => cases h
    case isTrue =>
      have hs := mem_alphabet_of_decodeDigits h
      obtain ⟨c, hc, hw⟩ := encode_decode hs
      rw [decode_of_alphabet hs, h] at hc
      rw [Except.ok.inj hc, hw]
  · intro h
    have hread := decode_encode b
    rw [decode, Blank.trimRight_of_visible fun c hc => isVisible_of_mem_encode hc, ← h] at hread
    exact hread

end WalletLogin.Encoding.Base58
