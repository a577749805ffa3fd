/-
  WalletLogin.Proofs.Text.Pieces — texts that a mark cuts.

  A piece does not hold the mark, so the first mark behind it ends it.
-/

import Mathlib.Data.List.TakeWhile
import WalletLogin.Text.Pieces

namespace WalletLogin.Text.Pieces

theorem not_mem_takeWhile (mark : Char) (s : List Char) : mark ∉ s.takeWhile (· ≠ mark) := by
  intro h
  simpa using List.mem_takeWhile_imp h

/-- A text that holds the mark is cut by the first one. -/
theorem eq_takeWhile_append {mark : Char} {s : List Char} (h : mark ∈ s) :
    s = s.takeWhile (· ≠ mark) ++ mark :: (s.dropWhile (· ≠ mark)).drop 1 := by
  induction s with
  | nil => cases h
  | cons c s ih =>
    by_cases hc : c = mark
    · simp [hc]
    · have hs : mark ∈ s := (List.mem_cons.mp h).resolve_left (Ne.symm hc)
      rw [List.takeWhile_cons_of_pos (by simpa using hc), List.dropWhile_cons_of_pos (by simpa using hc),
        List.cons_append, ← ih hs]

variable {mark : Char} {s : List Char} (h : mark ∉ s)
include h

theorem cut_of_not_mem : cut mark s = [s] := by
  induction s with
  | nil => rfl
  | cons c s ih =>
    rw [List.mem_cons, not_or] at h
    rw [cut, if_neg (Ne.symm h.1), ih h.2]

theorem cut_append (r : List Char) : cut mark (s ++ mark :: r) = s :: cut mark r := by
  induction s with
  | nil => rw [List.nil_append, cut, if_pos rfl]
  | cons c s ih =>
    rw [List.mem_cons, not_or] at h
    rw [List.cons_append, cut, if_neg (Ne.symm h.1), ih h.2]

theorem takeWhile_before (r : List Char) : (s ++ mark :: r).takeWhile (· ≠ mark) = s := by
  rw [List.takeWhile_append_of_pos fun c hc => by simpa using fun he : c = mark => h (he ▸ hc)]
  simp

theorem dropWhile_before (r : List Char) : (s ++ mark :: r).dropWhile (· ≠ mark) = mark :: r := by
  rw [List.dropWhile_append_of_pos fun c hc => by simpa using fun he : c = mark => h (he ▸ hc)]
  simp

end WalletLogin.Text.Pieces
