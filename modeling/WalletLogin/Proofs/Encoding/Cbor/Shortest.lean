/-
  WalletLogin.Proofs.Encoding.Cbor.Shortest — items in shortest form, without mention of the
  writer.

  A head says its argument in the least room that there is for it, and lengths are definite
  (`ShortHead`). An item of the kinds that addresses are made of is its head and what the
  head announces (`Shortest`), numbers from zero up only.

  Proved:
  - `shortHead_iff`: an argument has one shortest head if any head can hold it, and else none.
  - `Shortest.write?`: an item has one shortest form, and the writer writes it.
  - `shortest_numberedBytes`, `length_writeNumberedBytes_le`: byte strings under numbers have
    a shortest form, and how long that is at most.
-/

import Mathlib.Algebra.Order.BigOperators.Group.List
import WalletLogin.Proofs.Encoding.Cbor.RoundTrip

namespace WalletLogin.Encoding.Cbor

/-- The head of an item with this argument. It stands in the low five bits if it is small,
and else in the least of one, two, four and eight bytes that holds it. -/
inductive ShortHead (major n : Nat) : Bytes → Prop where
  | inline : n < 24 → ShortHead major n [UInt8.ofNat (major * 32 + n)]
  | behind (k : Nat) (b : Bytes) : k < 4 → b.length = 2 ^ k → Bytes.toBigEndian b = n → 24 ≤ n →
      (∀ j < k, 256 ^ 2 ^ j ≤ n) → ShortHead major n (UInt8.ofNat (major * 32 + (24 + k)) :: b)

mutual

/-- The bytes are the item in shortest form. -/
inductive Shortest : Cbor → Bytes → Prop where
  | number {n : Nat} {h : Bytes} : ShortHead 0 n h → Shortest (.int n) h
  | bytes {b h : Bytes} : ShortHead 2 b.length h → Shortest (.bytes b) (h ++ b)
  | array {xs : List Cbor} {h c : Bytes} : ShortHead 4 xs.length h → ShortestAll xs c → Shortest (.array false xs) (h ++ c)
  | map {es : List (Cbor × Cbor)} {h c : Bytes} : ShortHead 5 es.length h → ShortestEntries es c →
      Shortest (.map false es) (h ++ c)
  | tag {t : Nat} {x : Cbor} {h c : Bytes} : ShortHead 6 t h → Shortest x c → Shortest (.tag t x) (h ++ c)

inductive ShortestAll : List Cbor → Bytes → Prop where
  | nil : ShortestAll [] []
  | cons {x : Cbor} {r : List Cbor} {a b : Bytes} : Shortest x a → ShortestAll r b → ShortestAll (x :: r) (a ++ b)

inductive ShortestEntries : List (Cbor × Cbor) → Bytes → Prop where
  | nil : ShortestEntries [] []
  | cons {k v : Cbor} {r : List (Cbor × Cbor)} {a b c : Bytes} : Shortest k a → Shortest v b → ShortestEntries r c →
      ShortestEntries ((k, v) :: r) (a ++ (b ++ c))

end

/-! ## Heads -/

section Heads

variable {major n : Nat} {b : Bytes}

/-- The room that an argument gets which no smaller room holds. -/
theorem head_of_room {k : Nat} (hk : k < 4) (hfits : n < 256 ^ 2 ^ k) (hbig : 24 ≤ n) (hleast : ∀ j < k, 256 ^ 2 ^ j ≤ n) :
    head major n = UInt8.ofNat (major * 32 + (24 + k)) :: Bytes.ofBigEndian (2 ^ k) n := by
  have hroom (j : Nat) (hj : j < k) : ¬ n < 256 ^ 2 ^ j := Nat.not_lt.mpr (hleast j hj)
  rw [head, if_neg (by omega)]
  match k, hk with
  | 0, _ => exact if_pos hfits
  | 1, _ => exact (if_neg (hroom 0 (by decide))).trans (if_pos hfits)
  | 2, _ => exact (if_neg (hroom 0 (by decide))).trans ((if_neg (hroom 1 (by decide))).trans (if_pos hfits))
  | 3, _ =>
    exact (if_neg (hroom 0 (by decide))).trans ((if_neg (hroom 1 (by decide))).trans (if_neg (hroom 2 (by decide))))

/-- The least of the rooms for an argument that is not small. -/
theorem exists_room (hn : n < 2 ^ 64) : ∃ k < 4, n < 256 ^ 2 ^ k ∧ ∀ j < k, 256 ^ 2 ^ j ≤ n := by
  have hfits : ∃ k, n < 256 ^ 2 ^ k := ⟨3, hn⟩
  refine ⟨Nat.find hfits, ?_, Nat.find_spec hfits, fun j hj => Nat.not_lt.mp (Nat.find_min hfits hj)⟩
  exact Nat.lt_succ_of_le (Nat.find_min' hfits hn)

/-- An argument has one shortest head if any head can hold it, and else none. -/
theorem shortHead_iff : ShortHead major n b ↔ n < 2 ^ 64 ∧ b = head major n := by
  constructor
  · intro h
    cases h with
    | inline h => exact ⟨h.trans (by decide), by rw [head, if_pos h]⟩
    | behind k b hk hl hn hbig hleast =>
      have hfits : n < 256 ^ 2 ^ k := hn ▸ hl ▸ Bytes.toBigEndian_lt b
      have hb : Bytes.ofBigEndian (2 ^ k) n = b := hn ▸ hl ▸ Bytes.ofBigEndian_toBigEndian b
      refine ⟨hfits.trans_le ?_, by rw [head_of_room hk hfits hbig hleast, hb]⟩
      calc 256 ^ 2 ^ k ≤ 256 ^ 2 ^ 3 := Nat.pow_le_pow_right (by decide) (Nat.pow_le_pow_right (by decide) (by omega))
        _ = 2 ^ 64 := by decide
  · rintro ⟨hn, rfl⟩
    by_cases hsmall : n < 24
    · rw [head, if_pos hsmall]
      exact .inline hsmall
    · obtain ⟨k, hk, hfits, hleast⟩ := exists_room hn
      rw [head_of_room hk hfits (by omega) hleast]
      refine .behind k _ hk (Bytes.length_ofBigEndian _ _) ?_ (by omega) hleast
      rw [Bytes.toBigEndian_ofBigEndian, Nat.mod_eq_of_lt hfits]

theorem shortHead_head (hn : n < 2 ^ 64) : ShortHead major n (head major n) := shortHead_iff.mpr ⟨hn, rfl⟩

theorem length_head_le (major n : Nat) : (head major n).length ≤ 9 := by
  unfold head
  split_ifs <;> simp [Bytes.length_ofBigEndian]

end Heads

/-! ## Items -/

theorem writeInt_natCast {n : Nat} (hn : n < 2 ^ 64) : writeInt n = head 0 n := by
  rw [writeInt, if_pos (Int.natCast_nonneg n), Int.toNat_natCast, Reader.writeNumber_eq_head 0 hn]

-- along the derivation, which has the writer's recursion
mutual

theorem Shortest.write? {x : Cbor} {b : Bytes} : Shortest x b → write? x = some b
  | .number h => by
    obtain ⟨hn, rfl⟩ := shortHead_iff.mp h
    rw [Cbor.write?, writeInt_natCast hn]
  | .bytes h => by
    obtain ⟨-, rfl⟩ := shortHead_iff.mp h
    rw [Cbor.write?, writeBytes]
  | .array h hxs => by
    obtain ⟨-, rfl⟩ := shortHead_iff.mp h
    rw [Cbor.write?, hxs.write?, Option.map_some]
  | .map h hes => by
    obtain ⟨-, rfl⟩ := shortHead_iff.mp h
    rw [Cbor.write?, hes.write?, Option.map_some]
  | .tag h hx => by
    obtain ⟨-, rfl⟩ := shortHead_iff.mp h
    rw [Cbor.write?, hx.write?, Option.map_some]

theorem ShortestAll.write? {xs : List Cbor} {b : Bytes} : ShortestAll xs b → writeAll? xs = some b
  | .nil => rfl
  | .cons hx hr => by
    rw [writeAll?, hx.write?, hr.write?]
    rfl

theorem ShortestEntries.write? {es : List (Cbor × Cbor)} {b : Bytes} : ShortestEntries es b → writeEntries? es = some b
  | .nil => rfl
  | .cons hk hv hr => by
    rw [writeEntries?, hk.write?, hv.write?, hr.write?]
    rfl

end

/-! ## Byte strings by numbers -/

section Numbered

variable {es : List (Int × Bytes)} {i : Int}

theorem shortest_int (hi : 0 ≤ i ∧ i < 2 ^ 64) : Shortest (.int i) (writeInt i) := by
  obtain ⟨n, rfl⟩ := Int.eq_ofNat_of_zero_le hi.1
  have hn : n < 2 ^ 64 := by omega
  rw [writeInt_natCast hn]
  exact .number (shortHead_head hn)

theorem shortest_bytes {b : Bytes} (hb : b.length < 2 ^ 64) : Shortest (.bytes b) (writeBytes b) :=
  .bytes (shortHead_head hb)

theorem shortest_numberedBytes (hes : ∀ e ∈ es, (0 ≤ e.1 ∧ e.1 < 2 ^ 64) ∧ e.2.length < 2 ^ 64) :
    ShortestEntries (es.map numberedBytes) (es.flatMap writeNumberedBytes) := by
  induction es with
  | nil => exact .nil
  | cons e es ih =>
    rw [List.forall_mem_cons] at hes
    rw [List.map_cons, List.flatMap_cons, writeNumberedBytes, List.append_assoc]
    exact .cons (shortest_int hes.1.1) (shortest_bytes hes.1.2) (ih hes.2)

theorem length_writeInt_le (hi : 0 ≤ i ∧ i < 2 ^ 64) : (writeInt i).length ≤ 9 := by
  obtain ⟨n, rfl⟩ := Int.eq_ofNat_of_zero_le hi.1
  rw [writeInt_natCast (by omega)]
  exact length_head_le _ _

theorem length_writeNumberedBytes_le (hes : ∀ e ∈ es, 0 ≤ e.1 ∧ e.1 < 2 ^ 64) :
    (es.flatMap writeNumberedBytes).length ≤ (es.map fun e => e.2.length + 18).sum := by
  rw [List.length_flatMap]
  refine List.sum_le_sum fun e he => ?_
  have hkey := length_writeInt_le (hes e he)
  have hhead := length_head_le 2 e.2.length
  rw [writeNumberedBytes, writeBytes, List.length_append, List.length_append]
  omega

end Numbered

end WalletLogin.Encoding.Cbor
