/-
  WalletLogin.Proofs.Bytes — byte strings and the numbers they spell.

  Proved:
  - `digits_toBigEndian`: the digits of the number are the bytes behind the zeros in front.
  - `toBigEndian_ofBigEndian` / `ofBigEndian_toBigEndian`: a number of a fixed width and its
    bytes determine each other.
-/

import Mathlib.Data.List.TakeWhile
import WalletLogin.Bytes
import WalletLogin.Proofs.Encoding.Radix

namespace WalletLogin.Bytes

open Encoding

theorem lt_of_mem_map_toNat {b : Bytes} {n : Nat} (hn : n ∈ b.map UInt8.toNat) : n < 256 := by
  obtain ⟨x, -, rfl⟩ := List.mem_map.mp hn
  exact x.toNat_lt

theorem map_ofNat_toNat (b : Bytes) : (b.map UInt8.toNat).map UInt8.ofNat = b := by
  rw [List.map_map]
  exact (List.map_congr_left fun x _ => UInt8.ofNat_toNat).trans (List.map_id b)

theorem map_toNat_ofNat {ds : List Nat} (h : ∀ d ∈ ds, d < 256) : (ds.map UInt8.ofNat).map UInt8.toNat = ds := by
  rw [List.map_map]
  exact (List.map_congr_left fun d hd => UInt8.toNat_ofNat_of_lt' (h d hd)).trans (List.map_id ds)

theorem toBigEndian_eq (b : Bytes) : toBigEndian b = Radix.value 256 (b.map UInt8.toNat) := by
  rw [toBigEndian, Radix.value, List.foldl_map]

/-! ## Zeros in front -/

theorem takeWhile_zero (b : Bytes) : b.takeWhile (· = 0) = List.replicate (b.takeWhile (· = 0)).length 0 :=
  List.eq_replicate_of_mem fun x hx => by simpa using List.mem_takeWhile_imp hx

/-- The zeros in front do not count. -/
theorem digits_toBigEndian (b : Bytes) :
    Radix.digits 256 (toBigEndian b) = (b.dropWhile (· = 0)).map UInt8.toNat := by
  have hzero : (fun d => decide (d = 0)) ∘ UInt8.toNat = fun x : UInt8 => decide (x = 0) := by
    funext x
    simp [← UInt8.toNat_inj]
  rw [toBigEndian_eq, Radix.digits_value_dropWhile (by decide) fun d hd => lt_of_mem_map_toNat hd, List.dropWhile_map, hzero]

/-! ## Numbers of a fixed width -/

theorem toBigEndian_ofBigEndian (width n : Nat) : toBigEndian (ofBigEndian width n) = n % 256 ^ width := by
  rw [toBigEndian_eq, ofBigEndian, map_toNat_ofNat fun d hd => Radix.lowDigits_lt (by decide) hd, Radix.value_lowDigits]

@[simp] theorem length_ofBigEndian (width n : Nat) : (ofBigEndian width n).length = width := by
  rw [ofBigEndian, List.length_map, Radix.length_lowDigits]

theorem ofBigEndian_toBigEndian (b : Bytes) : ofBigEndian b.length (toBigEndian b) = b := by
  have hlt : ∀ d ∈ b.map UInt8.toNat, d < 256 := fun d hd => lt_of_mem_map_toNat hd
  have hdigits := Radix.lowDigits_value hlt
  rw [List.length_map] at hdigits
  rw [ofBigEndian, toBigEndian_eq, hdigits, map_ofNat_toNat]

theorem toBigEndian_lt (b : Bytes) : toBigEndian b < 256 ^ b.length := by
  have hmod := toBigEndian_ofBigEndian b.length (toBigEndian b)
  rw [ofBigEndian_toBigEndian] at hmod
  rw [hmod]
  exact Nat.mod_lt _ (by positivity)

end WalletLogin.Bytes
