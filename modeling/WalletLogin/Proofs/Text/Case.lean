/-
  WalletLogin.Proofs.Text.Case — what lower case keeps.

  Proved:
  - `lower_lower`: a text in lower case stays as it is.
  - `isVisible_lowerChar`: a visible character stays visible.
  - `lowerChar_of_toLower`, `toLower_of_lowerChar`: for letters of ASCII, this lower case is
    the one of Unicode; only for k it is that of one more character.
-/

import WalletLogin.Proofs.Text.Blank
import WalletLogin.Text.Case

namespace WalletLogin.Text

open Blank (IsVisible)

/-- What holds of all 128 characters of ASCII, as `decide` can see. -/
theorem of_ascii (P : Char → Prop) (hall : ∀ n < 128, P (Char.ofNat n)) {c : Char} (hc : c.toNat < 128) : P c := by
  have h := hall c.toNat hc
  rwa [Char.ofNat_toNat] at h

theorem ascii_of_le {c l : Char} (h : c ≤ l) (hl : l.toNat < 128) : c.toNat < 128 :=
  Nat.lt_of_le_of_lt (show c.toNat ≤ l.toNat from h) hl

namespace Case

/-- Only the capital letters and the Kelvin sign are changed. -/
theorem lowerChar_of_not_upper {c : Char} (h : ¬ ('A' ≤ c ∧ c ≤ 'Z')) (hk : c.toNat ≠ 0x212a) : lowerChar c = c := by
  rw [lowerChar, if_neg h, if_neg hk]

theorem lowerChar_lowerChar (c : Char) : lowerChar (lowerChar c) = lowerChar c := by
  by_cases hc : 'A' ≤ c ∧ c ≤ 'Z'
  · exact of_ascii (fun c => lowerChar (lowerChar c) = lowerChar c) (by decide) (ascii_of_le hc.2 (by decide))
  · by_cases hk : c.toNat = 0x212a
    · have hlower : lowerChar c = 'k' := by rw [lowerChar, if_neg hc, if_pos hk]
      rw [hlower]
      decide
    · rw [lowerChar_of_not_upper hc hk, lowerChar_of_not_upper hc hk]

theorem lower_lower (s : List Char) : lower (lower s) = lower s := by
  rw [lower, lower, List.map_map]
  exact List.map_congr_left fun c _ => lowerChar_lowerChar c

theorem isVisible_lowerChar {c : Char} (h : IsVisible c) : IsVisible (lowerChar c) :=
  of_ascii (fun c => IsVisible c → IsVisible (lowerChar c)) (by decide) (Nat.lt_succ_of_lt h.2) h

/-- Lower case, but for a letter that no word of ASCII letters has. -/
theorem lowerChar_of_toLower {c l : Char} (h : c.toLower = l) (hl : l.toNat < 128) : lowerChar c = l := by
  by_cases hc : 'A' ≤ c ∧ c ≤ 'Z'
  · rw [← h]
    exact of_ascii (fun c => 'A' ≤ c ∧ c ≤ 'Z' → lowerChar c = c.toLower) (by decide) (ascii_of_le hc.2 (by decide)) hc
  · have hc' : ¬ (c.val ≥ 'A'.val ∧ c.val ≤ 'Z'.val) := hc
    unfold Char.toLower at h
    rw [dif_neg hc'] at h
    rw [lowerChar_of_not_upper hc (by rw [h]; omega), h]

/-- But for the Kelvin sign, only characters of ASCII have one as their lower case. -/
theorem toLower_of_lowerChar {c l : Char} (h : lowerChar c = l) (hl : l ≠ 'k') : c.toLower = l := by
  by_cases hc : 'A' ≤ c ∧ c ≤ 'Z'
  · rw [← h]
    exact of_ascii (fun c => 'A' ≤ c ∧ c ≤ 'Z' → c.toLower = lowerChar c) (by decide) (ascii_of_le hc.2 (by decide)) hc
  · by_cases hk : c.toNat = 0x212a
    · rw [lowerChar, if_neg hc, if_pos hk] at h
      exact absurd h.symm hl
    · have hc' : ¬ (c.val ≥ 'A'.val ∧ c.val ≤ 'Z'.val) := hc
      rw [← h, lowerChar_of_not_upper hc hk]
      unfold Char.toLower
      rw [dif_neg hc']

theorem eq_space_of_lowerChar {c : Char} (h : lowerChar c = ' ') : c = ' ' := by
  by_cases hc : 'A' ≤ c ∧ c ≤ 'Z'
  · exact of_ascii (fun c => lowerChar c = ' ' → c = ' ') (by decide) (ascii_of_le hc.2 (by decide)) h
  · by_cases hk : c.toNat = 0x212a
    · rw [lowerChar, if_neg hc, if_pos hk] at h
      exact absurd h (by decide)
    · rwa [lowerChar_of_not_upper hc hk] at h

theorem isVisible_of_toLower {c l : Char} (h : c.toLower = l) (hl : IsVisible l) : IsVisible c := by
  unfold Char.toLower at h
  split at h
  case isTrue hc =>
    have hlow : 65 ≤ c.toNat := hc.1
    have hhigh : c.toNat ≤ 90 := hc.2
    exact ⟨by omega, by omega⟩
  case isFalse => rwa [h]

end Case

end WalletLogin.Text
