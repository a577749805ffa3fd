/-
  WalletLogin.Proofs.Encoding.Bits — cutting bit strings into groups and back.

  Groups of `w` bits spread into a bit string, and a bit string gathers into its whole
  groups with fewer than `w` bits left over; the two undo each other (`gather_spread`,
  `spread_gather`). Numbers of one width, gathered in groups of a smaller one with zeros
  at the end, come back with those zeros left over (`gather_spread_gatherPadded`), and
  groups that leave only such zeros over come back from the numbers they gather to
  (`gatherPadded_spread_gather`).
-/

import Mathlib.Data.List.Basic
import Mathlib.Tactic.Ring
import WalletLogin.Encoding.Bits

namespace WalletLogin.Encoding.Bits

@[simp] theorem length_ofNat (w n : Nat) : (ofNat w n).length = w := by
  induction w with
  | zero => rfl
  | succ w ih => simp [ofNat, ih]

theorem toNat_cons (x : Bool) (b : List Bool) : toNat (x :: b) = x.toNat * 2 ^ b.length + toNat b := by
  have h : ∀ (b : List Bool) (n : Nat), b.foldl (fun n x => n * 2 + x.toNat) n = n * 2 ^ b.length + toNat b := by
    intro b
    induction b with
    | nil => simp [toNat]
    | cons y b ih =>
      intro n
      simp only [toNat, List.foldl_cons, List.length_cons, pow_succ]
      rw [ih, ih (0 * 2 + y.toNat)]
      ring
  rw [toNat, List.foldl_cons, h]
  simp

theorem toNat_lt (b : List Bool) : toNat b < 2 ^ b.length := by
  induction b with
  | nil => simp [toNat]
  | cons x b ih =>
    rw [toNat_cons, List.length_cons, pow_succ]
    cases x <;> simp <;> omega

/-- The low bits of a number spell its remainder. -/
theorem toNat_ofNat (w n : Nat) : toNat (ofNat w n) = n % 2 ^ w := by
  induction w with
  | zero => simp [ofNat, toNat, Nat.mod_one]
  | succ w ih =>
    rw [ofNat, toNat_cons, ih, length_ofNat, Nat.toNat_testBit, Nat.mod_pow_succ]
    ring

theorem toNat_inj {a b : List Bool} (hl : a.length = b.length) (h : toNat a = toNat b) : a = b := by
  induction a generalizing b with
  | nil => exact (List.eq_nil_of_length_eq_zero hl.symm).symm
  | cons x a ih =>
    cases b with
    | nil => cases hl
    | cons y b =>
      have hl' : a.length = b.length := Nat.succ.inj hl
      have ha := toNat_lt a
      have hb := toNat_lt b
      rw [toNat_cons, toNat_cons, hl'] at h
      rw [hl'] at ha
      -- the first bits weigh more than all that follow
      obtain rfl : x = y := by
        cases x <;> cases y <;> simp at h ⊢ <;> omega
      rw [ih hl' (by omega)]

theorem ofNat_toNat (b : List Bool) : ofNat b.length (toNat b) = b :=
  toNat_inj (length_ofNat _ _) (by rw [toNat_ofNat, Nat.mod_eq_of_lt (toNat_lt b)])

/-! ## Groups -/

@[simp] theorem spread_nil (w : Nat) : spread w [] = [] := rfl

@[simp] theorem spread_cons (w n : Nat) (ns : List Nat) : spread w (n :: ns) = ofNat w n ++ spread w ns := rfl

@[simp] theorem length_spread (w : Nat) (ns : List Nat) : (spread w ns).length = ns.length * w := by
  induction ns with
  | nil => simp
  | cons n ns ih => rw [spread_cons, List.length_append, ih, length_ofNat, List.length_cons]; ring

@[simp] theorem length_groups (w k : Nat) (bits : List Bool) : (groups w k bits).length = k := by
  induction k generalizing bits with
  | zero => rfl
  | succ k ih => simp [groups, ih]

theorem groups_lt {w k : Nat} {bits : List Bool} {n : Nat} (hn : n ∈ groups w k bits) : n < 2 ^ w := by
  induction k generalizing bits with
  | zero => cases hn
  | succ k ih =>
    rcases List.mem_cons.mp hn with rfl | hn
    · exact (toNat_lt _).trans_le (Nat.pow_le_pow_right (by omega) (List.length_take_le _ _))
    · exact ih hn

theorem groups_spread {w : Nat} {ns : List Nat} (hn : ∀ n ∈ ns, n < 2 ^ w) (rest : List Bool) :
    groups w ns.length (spread w ns ++ rest) = ns := by
  induction ns with
  | nil => rfl
  | cons n ns ih =>
    have hlen : (ofNat w n).length = w := length_ofNat w n
    rw [List.length_cons, groups, spread_cons, List.append_assoc, List.take_left' hlen, List.drop_left' hlen, toNat_ofNat,
      Nat.mod_eq_of_lt (hn n List.mem_cons_self), ih fun m hm => hn m (List.mem_cons_of_mem _ hm)]

theorem spread_groups {w k : Nat} {bits : List Bool} (hk : k * w ≤ bits.length) :
    spread w (groups w k bits) = bits.take (k * w) := by
  induction k generalizing bits with
  | zero => simp [groups]
  | succ k ih =>
    have hle : k * w + w ≤ bits.length := by rwa [← Nat.succ_mul]
    have hlen : (bits.take w).length = w := by rw [List.length_take]; omega
    have hfirst := ofNat_toNat (bits.take w)
    rw [hlen] at hfirst
    rw [groups, spread_cons, hfirst, ih (by rw [List.length_drop]; omega), Nat.succ_mul, Nat.add_comm, List.take_add]

theorem gather_eq (w : Nat) (bits : List Bool) :
    gather w bits = (groups w (bits.length / w) bits, bits.drop (bits.length / w * w)) := rfl

/-- Numbers of `w` bits, spread, gather to themselves with what follows them left over. -/
theorem gather_spread {w : Nat} {ns : List Nat} (hn : ∀ n ∈ ns, n < 2 ^ w) {rest : List Bool} (hr : rest.length < w) :
    gather w (spread w ns ++ rest) = (ns, rest) := by
  have hk : (spread w ns ++ rest).length / w = ns.length := by
    rw [List.length_append, length_spread, Nat.mul_comm, Nat.mul_add_div (by omega), Nat.div_eq_of_lt hr, Nat.add_zero]
  rw [gather_eq, hk, groups_spread hn, List.drop_left' (length_spread w ns)]

/-- What was gathered spreads to the bits that it was gathered from. -/
theorem spread_gather (w : Nat) (bits : List Bool) : spread w (gather w bits).1 ++ (gather w bits).2 = bits := by
  rw [gather_eq, spread_groups (Nat.div_mul_le_self _ _), List.take_append_drop]

/-- What fills a length up to a multiple of `v`, and is less than that, is determined. -/
theorem filling_unique {v l r : Nat} (hr : r < v) (h : (l + r) % v = 0) : (v - l % v) % v = r := by
  have hl := Nat.mod_lt l (Nat.zero_lt_of_lt hr)
  have hsum : (l % v + r) % v = 0 := by rw [Nat.mod_add_mod, h]
  by_cases hz : l % v = 0
  · rw [hz, Nat.zero_add, Nat.mod_eq_of_lt hr] at hsum
    rw [hz, Nat.sub_zero, Nat.mod_self, hsum]
  · have hv : l % v + r = v := by
      obtain ⟨k, hk⟩ := Nat.dvd_of_mod_eq_zero hsum
      have hk1 : k = 1 := by
        have hpos : 0 < v * k := by omega
        have hlt : v * k < v * 2 := by omega
        have := Nat.lt_of_mul_lt_mul_left hlt
        have := Nat.pos_of_mul_pos_left hpos
        omega
      rw [hk, hk1, Nat.mul_one]
    rw [Nat.mod_eq_of_lt (by omega)]
    omega

/-- The zeros that fill up the last group of `w` bits. -/
def filling (w : Nat) (bits : List Bool) : List Bool := List.replicate ((w - bits.length % w) % w) false

theorem length_filling_lt {w : Nat} (hw : 0 < w) (bits : List Bool) : (filling w bits).length < w := by
  rw [filling, List.length_replicate]
  exact Nat.mod_lt _ hw

theorem spread_gatherPadded {w : Nat} (hw : 0 < w) (bits : List Bool) :
    spread w (gatherPadded w bits) = bits ++ filling w bits := by
  have hdvd : (bits ++ filling w bits).length % w = 0 := by
    have hlt := Nat.mod_lt bits.length hw
    rw [List.length_append, filling, List.length_replicate, Nat.add_mod, Nat.mod_mod]
    by_cases hz : bits.length % w = 0
    · simp [hz]
    · rw [Nat.mod_eq_of_lt (a := w - bits.length % w) (by omega), Nat.add_sub_cancel' (by omega), Nat.mod_self]
  have hrest : (gather w (bits ++ filling w bits)).2 = [] := by
    rw [gather_eq, Nat.div_mul_cancel (Nat.dvd_of_mod_eq_zero hdvd), List.drop_length]
  have h := spread_gather w (bits ++ filling w bits)
  rwa [hrest, List.append_nil] at h

theorem length_gatherPadded (w : Nat) (bits : List Bool) :
    (gatherPadded w bits).length = (bits.length + (w - bits.length % w) % w) / w := by
  simp [gatherPadded, gather_eq]

theorem gatherPadded_lt {w : Nat} {bits : List Bool} {n : Nat} (hn : n ∈ gatherPadded w bits) : n < 2 ^ w :=
  groups_lt hn

/-- Numbers that were regrouped come back, and the zeros of the last group are left over. -/
theorem gather_spread_gatherPadded {w v : Nat} (hv : 0 < v) (hvw : v ≤ w) {ns : List Nat} (hn : ∀ n ∈ ns, n < 2 ^ w) :
    gather w (spread v (gatherPadded v (spread w ns))) = (ns, filling v (spread w ns)) := by
  rw [spread_gatherPadded hv, gather_spread hn ((length_filling_lt hv _).trans_le hvw)]

/-- Groups that gather to numbers, with fewer zeros left over than a group has, are what
regrouping the numbers gives. -/
theorem gatherPadded_spread_gather {w v : Nat} {ns : List Nat} (hn : ∀ n ∈ ns, n < 2 ^ v)
    (hl : (gather w (spread v ns)).2.length < v) (hz : ∀ x ∈ (gather w (spread v ns)).2, x = false) :
    gatherPadded v (spread w (gather w (spread v ns)).1) = ns := by
  have hbits := spread_gather w (spread v ns)
  have hlength := congrArg List.length hbits
  rw [List.length_append, length_spread v] at hlength
  -- what is left over has the length of the filling, and it too is zeros
  have hfilling : (gather w (spread v ns)).2 = filling v (spread w (gather w (spread v ns)).1) := by
    rw [List.eq_replicate_of_mem hz, filling]
    congr 1
    have hmod : ((spread w (gather w (spread v ns)).1).length + (gather w (spread v ns)).2.length) % v = 0 := by
      rw [hlength, Nat.mul_mod_left]
    exact Eq.symm (filling_unique hl hmod)
  have hall : gather v (spread v ns ++ []) = (ns, []) := gather_spread hn (by rw [List.length_nil]; omega)
  rw [List.append_nil] at hall
  rw [gatherPadded, ← filling, ← hfilling, hbits, hall]

end WalletLogin.Encoding.Bits
