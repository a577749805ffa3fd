/-
  WalletLogin.Proofs.Encoding.Base64 — bytes and their texts in the standard alphabet.

  Each character says six bits. The bytes that a text says are a multiple of three exactly
  when its characters are whole groups of four, so every other text ends in padding, which
  no other notation has.

  Proved:
  - `decode?_encode`: what was written is read back, at every length.
  - `padding_mem_of_decode?`: bytes that are not a multiple of three come with padding.
-/

import Mathlib.Data.List.TakeWhile
import WalletLogin.Encoding.Base64
import WalletLogin.Proofs.Bytes
import WalletLogin.Proofs.Encoding.Bits
import WalletLogin.Proofs.Text.Blank

namespace WalletLogin.Encoding.Base64

open Text

/-! ## Groups of six bits -/

theorem sextets_lt {b : Bytes} {n : Nat} (hn : n ∈ sextets b) : n < 64 := Bits.gatherPadded_lt hn

/-- The bytes come back, and the last character has only zeros beyond them. -/
theorem gather_spread_sextets (b : Bytes) : Bits.gather 8 (Bits.spread 6 (sextets b)) =
    (b.map UInt8.toNat, Bits.filling 6 (Bits.spread 8 (b.map UInt8.toNat))) := by
  exact Bits.gather_spread_gatherPadded (by decide) (by decide) fun n hn => Bytes.lt_of_mem_map_toNat hn

theorem length_sextets (b : Bytes) : (sextets b).length = (b.length * 8 + (6 - b.length * 8 % 6) % 6) / 6 := by
  rw [sextets, Bits.length_gatherPadded, Bits.length_spread, List.length_map]

theorem bytesOf_sextets (b : Bytes) : bytesOf (sextets b) = b := by
  rw [bytesOf, gather_spread_sextets, Bytes.map_ofNat_toNat]

theorem length_bytesOf (ns : List Nat) : (bytesOf ns).length = ns.length * 6 / 8 := by
  rw [bytesOf, List.length_map, Bits.gather_eq, Bits.length_groups, Bits.length_spread]

/-! ## Characters -/

theorem value?_char : ∀ n < 64, value? (char n) = some n := by
  decide

theorem isVisible_char : ∀ n < 64, Blank.IsVisible (char n) := by
  decide

theorem isVisible_of_mem_encode {b : Bytes} {c : Char} (hc : c ∈ encode b) : Blank.IsVisible c := by
  rcases List.mem_append.mp hc with hc | hc
  · obtain ⟨n, hn, rfl⟩ := List.mem_map.mp hc
    exact isVisible_char n (sextets_lt hn)
  · rw [List.eq_of_mem_replicate hc]
    decide

theorem isDigit_char {n : Nat} (hn : n < 64) : isDigit (char n) = true := by
  rw [isDigit, value?_char n hn, Option.isSome_some]

theorem filterMap_value?_char {ns : List Nat} (h : ∀ n ∈ ns, n < 64) : (ns.map char).filterMap value? = ns := by
  rw [List.filterMap_map]
  exact (List.filterMap_congr fun n hn => value?_char n (h n hn)).trans List.filterMap_some

theorem length_filterMap_value? {s : List Char} (h : ∀ c ∈ s, isDigit c = true) : (s.filterMap value?).length = s.length :=
  List.filterMap_length_eq_length.mpr h

/-! ## Reading -/

theorem padded_sextets (b : Bytes) : padded (sextets b).length ((3 - b.length % 3) % 3) = true := by
  rw [length_sextets]
  have hthree : b.length % 3 = 0 ∨ b.length % 3 = 1 ∨ b.length % 3 = 2 := by omega
  unfold padded
  rcases hthree with h | h | h
  · have hn : (b.length * 8 + (6 - b.length * 8 % 6) % 6) / 6 % 4 = 0 := by omega
    simp [hn, h]
  · have hn : (b.length * 8 + (6 - b.length * 8 % 6) % 6) / 6 % 4 = 2 := by omega
    simp [hn, h]
  · have hn : (b.length * 8 + (6 - b.length * 8 % 6) % 6) / 6 % 4 = 3 := by omega
    simp [hn, h]

theorem decode?_encode (b : Bytes) : decode? (encode b) = some b := by
  have hbody : ∀ c ∈ (sextets b).map char, isDigit c = true := by
    intro c hc
    obtain ⟨n, hn, rfl⟩ := List.mem_map.mp hc
    exact isDigit_char (sextets_lt hn)
  have hpadding : ∀ c ∈ (List.replicate ((3 - b.length % 3) % 3) '=').head?, isDigit c = false := by
    intro c hc
    rw [List.eq_of_mem_replicate (List.mem_of_mem_head? hc)]
    rfl
  have hdrop : (encode b).dropWhile isDigit = List.replicate ((3 - b.length % 3) % 3) '=' :=
    Blank.dropLeft_append hbody hpadding
  have htake : (encode b).takeWhile isDigit = (sextets b).map char := by
    have h := List.takeWhile_append_dropWhile (p := isDigit) (l := encode b)
    rw [hdrop] at h
    exact List.append_cancel_right h
  have hall : (List.replicate ((3 - b.length % 3) % 3) '=').all (· = '=') = true :=
    List.all_eq_true.mpr fun c hc => decide_eq_true (List.eq_of_mem_replicate hc)
  have hpadded := padded_sextets b
  unfold decode?
  simp only [htake, hdrop, hall, List.length_map, List.length_replicate, hpadded, Bool.and_self, if_true,
    filterMap_value?_char fun n hn => sextets_lt hn, bytesOf_sextets]

/-- Bytes that are not a multiple of three are read from texts with padding only. -/
theorem padding_mem_of_decode? {s : List Char} {b : Bytes} (h : decode? s = some b) (hb : b.length % 3 ≠ 0) : '=' ∈ s := by
  unfold decode? at h
  rw [Option.ite_none_right_eq_some, Bool.and_eq_true, Option.some.injEq] at h
  obtain ⟨⟨hall, hpadded⟩, rfl⟩ := h
  rw [length_bytesOf, length_filterMap_value? fun c hc => List.mem_takeWhile_imp hc] at hb
  cases hpad : s.dropWhile isDigit with
  | nil =>
    -- without padding the characters are whole groups of four
    have hfour : (s.takeWhile isDigit).length % 4 = 0 := by
      rw [hpad, List.length_nil] at hpadded
      unfold padded at hpadded
      split at hpadded <;> simp_all
    omega
  | cons c r =>
    have hc : c = '=' := by
      rw [hpad, List.all_cons, Bool.and_eq_true] at hall
      exact of_decide_eq_true hall.1
    rw [← List.takeWhile_append_dropWhile (p := isDigit) (l := s), hpad, hc]
    exact List.mem_append_right _ List.mem_cons_self

end WalletLogin.Encoding.Base64
