/-
  WalletLogin.Proofs.Encoding.Radix — what digits spell.

  The digits of a number stand here most significant first and without zeros in front;
  they are those of `Nat.digits` in the other order (`digits_eq`), and to read them is
  `Nat.ofDigits` (`value_eq`).

  Proved, for a base of two or more:
  - `value_digits` / `digits_value`: digits and number determine each other.
  - `digits_value_dropWhile`: zeros in front do not come back.
  - `value_lowDigits` / `lowDigits_value`: the low digits, which may start with zeros, spell
    the remainder, and are those of what they spell.
-/

import Mathlib.Data.Nat.Digits.Lemmas
import WalletLogin.Bytes
import WalletLogin.Decimal.Digit

namespace WalletLogin.Encoding.Radix

/-- What bounds the recursion does not show in its result, if it is enough. -/
theorem digitsFuel_eq {base : Nat} (hb : 2 ≤ base) {fuel n : Nat} (hf : n < 2 ^ fuel) (acc : List Nat) :
    digitsFuel base fuel n acc = (Nat.digits base n).reverse ++ acc := by
  induction fuel generalizing n acc with
  | zero =>
    obtain rfl : n = 0 := by omega
    simp [digitsFuel]
  | succ fuel ih =>
    unfold digitsFuel
    split
    · rename_i hn
      simp [hn]
    · rename_i hn
      have hlt : n / base < 2 ^ fuel := by
        rw [Nat.div_lt_iff_lt_mul (by omega)]
        calc n < 2 ^ fuel * 2 := by rwa [← pow_succ]
          _ ≤ 2 ^ fuel * base := Nat.mul_le_mul_left _ hb
      rw [ih hlt, Nat.digits_def' (by omega) (Nat.pos_of_ne_zero hn)]
      simp

theorem digits_eq {base : Nat} (hb : 2 ≤ base) (n : Nat) : digits base n = (Nat.digits base n).reverse := by
  rw [digits, digitsFuel_eq hb Nat.lt_log2_self, List.append_nil]

@[simp] theorem value_nil (base : Nat) : value base [] = 0 := rfl

@[simp] theorem value_concat (base : Nat) (ds : List Nat) (d : Nat) : value base (ds ++ [d]) = value base ds * base + d := by
  simp [value]

theorem value_eq (base : Nat) (ds : List Nat) : value base ds = Nat.ofDigits base ds.reverse := by
  induction ds using List.reverseRecOn with
  | nil => rfl
  | append_singleton ds d ih =>
    rw [value_concat, ih, List.reverse_append, List.reverse_singleton, List.singleton_append, Nat.ofDigits_cons]
    ring

/-- Zeros in front do not count. -/
theorem value_replicate_zero (base n : Nat) (ds : List Nat) : value base (List.replicate n 0 ++ ds) = value base ds := by
  induction n with
  | zero => rfl
  | succ n ih =>
    rw [List.replicate_succ, List.cons_append, ← ih]
    simp [value]

theorem value_digits {base : Nat} (hb : 2 ≤ base) (n : Nat) : value base (digits base n) = n := by
  rw [value_eq, digits_eq hb, List.reverse_reverse, Nat.ofDigits_digits]

theorem digits_lt {base : Nat} (hb : 2 ≤ base) {n d : Nat} (hd : d ∈ digits base n) : d < base := by
  rw [digits_eq hb, List.mem_reverse] at hd
  exact Nat.digits_lt_base (by omega) hd

theorem length_digits_le_iff {base : Nat} (hb : 2 ≤ base) {n k : Nat} : (digits base n).length ≤ k ↔ n < base ^ k := by
  rw [digits_eq hb, List.length_reverse, Nat.digits_length_le_iff (by omega)]

/-- No zeros stand in front. -/
theorem head?_digits_ne_zero {base : Nat} (hb : 2 ≤ base) (n : Nat) : (digits base n).head? ≠ some 0 := by
  rw [digits_eq hb, List.head?_reverse]
  intro h
  obtain ⟨hne, hlast⟩ := List.mem_getLast?_eq_getLast h
  have hn : n ≠ 0 := by
    rintro rfl
    exact hne (Nat.digits_zero base)
  exact Nat.getLast_digit_ne_zero base hn hlast.symm

theorem digits_value {base : Nat} (hb : 2 ≤ base) {ds : List Nat} (hd : ∀ d ∈ ds, d < base) (hz : ds.head? ≠ some 0) :
    digits base (value base ds) = ds := by
  rw [digits_eq hb, value_eq, Nat.digits_ofDigits base (by omega) ds.reverse, List.reverse_reverse]
  · exact fun d h => hd d (List.mem_reverse.mp h)
  · intro hne hlast
    refine hz ?_
    rw [← List.getLast?_reverse, List.getLast?_eq_some_getLast hne, hlast]

/-- Zeros in front do not come back. -/
theorem digits_value_dropWhile {base : Nat} (hb : 2 ≤ base) {ds : List Nat} (hd : ∀ d ∈ ds, d < base) :
    digits base (value base ds) = ds.dropWhile (· = 0) := by
  induction ds with
  | nil => rfl
  | cons d ds ih =>
    by_cases h0 : d = 0
    · subst h0
      have hvalue : value base (0 :: ds) = value base ds := value_replicate_zero base 1 ds
      rw [hvalue, ih fun e he => hd e (List.mem_cons_of_mem _ he), List.dropWhile_cons_of_pos (by simp)]
    · rw [digits_value hb hd (by simpa using h0), List.dropWhile_cons_of_neg (by simpa using h0)]

/-- The zeros in front and what stands behind them. -/
theorem exists_zeros_append (ds : List Nat) : ∃ n es, ds = List.replicate n 0 ++ es ∧ es.head? ≠ some 0 := by
  induction ds with
  | nil => exact ⟨0, [], rfl, by simp⟩
  | cons d ds ih =>
    by_cases h0 : d = 0
    · obtain ⟨n, es, rfl, hz⟩ := ih
      exact ⟨n + 1, es, by rw [h0, List.replicate_succ, List.cons_append], hz⟩
    · exact ⟨0, d :: ds, rfl, by simpa using h0⟩

/-! ## A fixed number of digits -/

@[simp] theorem length_lowDigits (base width n : Nat) : (lowDigits base width n).length = width := by
  induction width generalizing n with
  | zero => rfl
  | succ w ih => simp [lowDigits, ih]

theorem lowDigits_lt {base : Nat} (hb : 0 < base) {width n d : Nat} (hd : d ∈ lowDigits base width n) : d < base := by
  induction width generalizing n with
  | zero => cases hd
  | succ w ih =>
    rw [lowDigits, List.mem_append, List.mem_singleton] at hd
    rcases hd with hd | rfl
    · exact ih hd
    · exact Nat.mod_lt n hb

theorem value_lowDigits (base width n : Nat) : value base (lowDigits base width n) = n % base ^ width := by
  induction width generalizing n with
  | zero => simp [lowDigits, Nat.mod_one]
  | succ w ih =>
    rw [lowDigits, value_concat, ih, pow_succ, Nat.mul_comm (base ^ w) base, Nat.mod_mul]
    ring

theorem lowDigits_value {base : Nat} {ds : List Nat} (hd : ∀ d ∈ ds, d < base) :
    lowDigits base ds.length (value base ds) = ds := by
  induction ds using List.reverseRecOn with
  | nil => rfl
  | append_singleton ds d ih =>
    have hlast : d < base := hd d (List.mem_append_right _ (List.mem_singleton_self d))
    have hdiv : (value base ds * base + d) / base = value base ds := by
      rw [Nat.mul_comm, Nat.mul_add_div (by omega), Nat.div_eq_of_lt hlast, Nat.add_zero]
    have hmod : (value base ds * base + d) % base = d := by
      rw [Nat.mul_comm, Nat.mul_add_mod, Nat.mod_eq_of_lt hlast]
    rw [List.length_append, List.length_singleton, value_concat, lowDigits, hdiv, hmod,
      ih fun e he => hd e (List.mem_append_left _ he)]

/-! ## Digits as characters -/

/-- A reading that undoes the writing of each digit undoes that of all. -/
theorem mapM_map_pure {α β : Type} {m : Type → Type} [Monad m] [LawfulMonad m] {read : α → m β} {write : β → α}
    {ds : List β} (h : ∀ d ∈ ds, read (write d) = pure d) : (ds.map write).mapM read = pure ds := by
  induction ds with
  | nil => simp
  | cons d ds ih =>
    rw [List.forall_mem_cons] at h
    simp [h.1, ih h.2]

/-- A reading of all that succeeds has succeeded at each. -/
theorem forall_of_mapM_eq_pure {α β : Type} {m : Type → Type} [Monad m] [LawfulMonad m] {read : α → m β}
    (hm : ∀ {γ δ : Type} {x : m γ} {f : γ → m δ} {d : δ}, x >>= f = pure d → ∃ c, x = pure c ∧ f c = pure d)
    {s : List α} {ds : List β} (h : s.mapM read = pure ds) : ∀ c ∈ s, ∃ d, read c = pure d := by
  induction s generalizing ds with
  | nil => simp
  | cons c s ih =>
    rw [List.mapM_cons] at h
    obtain ⟨d, hd, h⟩ := hm h
    obtain ⟨es, hes, -⟩ := hm h
    exact List.forall_mem_cons.mpr ⟨⟨d, hd⟩, ih hes⟩

/-- A text of written digits is the writing of a list of digits. -/
theorem exists_map_eq {α β : Type} {write : β → α} {p : β → Prop} {s : List α} (h : ∀ c ∈ s, ∃ d, p d ∧ write d = c) :
    ∃ ds : List β, (∀ d ∈ ds, p d) ∧ ds.map write = s := by
  induction s with
  | nil => exact ⟨[], by simp, rfl⟩
  | cons c s ih =>
    obtain ⟨⟨d, hp, rfl⟩, hs⟩ := List.forall_mem_cons.mp h
    obtain ⟨ds, hds, rfl⟩ := ih hs
    exact ⟨d :: ds, List.forall_mem_cons.mpr ⟨hp, hds⟩, rfl⟩

end WalletLogin.Encoding.Radix

namespace WalletLogin

open Encoding

theorem Decimal.Digit.digits_eq (n : Nat) : Decimal.Digit.digits n = Radix.digits 10 n := by
  have hf : ∀ fuel m acc, Decimal.Digit.digitsFuel fuel m acc = Radix.digitsFuel 10 fuel m acc := by
    intro fuel
    induction fuel with
    | zero => exact fun m acc => rfl
    | succ fuel ih =>
      intro m acc
      simp only [Decimal.Digit.digitsFuel, Radix.digitsFuel, ih]
  exact hf _ _ _

end WalletLogin
