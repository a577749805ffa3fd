/-
  WalletLogin.Proofs.Text.Blank — trimming takes off the blanks around a text and nothing
  else, and what it leaves has none to take off.
-/

import Mathlib.Data.List.DropRight
import Mathlib.Data.List.TakeWhile
import WalletLogin.Text.Blank

namespace WalletLogin.Text.Blank

variable {p : Char → Bool} {b s a : List Char}

theorem dropLeft_append (hb : ∀ c ∈ b, p c = true) (hs : ∀ c ∈ s.head?, p c = false) : dropLeft p (b ++ s) = s := by
  rw [dropLeft, List.dropWhile_append_of_pos hb]
  cases s with
  | nil => rfl
  | cons c s => rw [List.dropWhile_cons_of_neg (by simp [hs c rfl])]

theorem dropRight_append (ha : ∀ c ∈ a, p c = true) (hs : ∀ c ∈ s.getLast?, p c = false) : dropRight p (s ++ a) = s := by
  have h := dropLeft_append (b := a.reverse) (s := s.reverse) (fun c hc => ha c (List.mem_reverse.mp hc))
    (by rwa [List.head?_reverse])
  rw [dropLeft] at h
  rw [dropRight, List.reverse_append, h, List.reverse_reverse]

/-- A text that starts and ends with characters that are not blank, between blanks. -/
theorem trim_append (hb : ∀ c ∈ b, isBlank c = true) (ha : ∀ c ∈ a, isBlank c = true) (hne : s ≠ [])
    (hhead : ∀ c ∈ s.head?, isBlank c = false) (hlast : ∀ c ∈ s.getLast?, isBlank c = false) :
    trim (b ++ s ++ a) = s := by
  have hleft : dropLeft isBlank (b ++ (s ++ a)) = s ++ a := by
    refine dropLeft_append hb fun c hc => hhead c ?_
    rwa [List.head?_append, List.head?_eq_some_head hne, Option.some_or, ← List.head?_eq_some_head hne] at hc
  rw [trim, trimRight, List.append_assoc, hleft, dropRight_append ha hlast]

theorem trim_blanks_append (hb : ∀ c ∈ b, isBlank c = true) (s : List Char) : trim (b ++ s) = trim s := by
  rw [trim, dropLeft, List.dropWhile_append_of_pos hb, trim, dropLeft]

/-! ## Trimmed texts -/

theorem dropLeft_eq_self (hs : ∀ c ∈ s.head?, p c = false) : dropLeft p s = s :=
  dropLeft_append (b := []) (by simp) hs

theorem trimRight_prefix (s : List Char) : trimRight s <+: s := List.rdropWhile_prefix isBlank s

theorem head?_of_trimRight {c : Char} (h : c ∈ (trimRight s).head?) : c ∈ s.head? := by
  obtain ⟨a, ha⟩ := trimRight_prefix s
  rw [← ha, List.head?_append, Option.mem_def.mp h]
  rfl

theorem trimRight_trim (s : List Char) : trimRight (trim s) = trim s := List.rdropWhile_idempotent isBlank _

theorem head?_trim (s : List Char) : ∀ c ∈ (trim s).head?, isBlank c = false := by
  intro c hc
  have hnot := List.head?_dropWhile_not isBlank s
  rw [show (s.dropWhile isBlank).head? = some c from head?_of_trimRight hc] at hnot
  simpa using hnot

theorem getLast?_trim (s : List Char) : ∀ c ∈ (trim s).getLast?, isBlank c = false := by
  intro c hc
  obtain ⟨hne, rfl⟩ := List.mem_getLast?_eq_getLast hc
  exact Bool.eq_false_iff.mpr (List.rdropWhile_last_not isBlank _ hne)

theorem trim_trim (s : List Char) : trim (trim s) = trim s := by
  rw [trim, dropLeft_eq_self (head?_trim s), trimRight_trim]

theorem trim_eq_nil_iff : trim s = [] ↔ ∀ c ∈ s, isBlank c = true := by
  constructor
  · intro h
    by_contra hs
    have hne : dropLeft isBlank s ≠ [] := mt List.dropWhile_eq_nil_iff.mp hs
    have hblank : isBlank ((dropLeft isBlank s).head hne) = true :=
      List.rdropWhile_eq_nil_iff.mp h _ (List.head_mem hne)
    rw [show isBlank ((dropLeft isBlank s).head hne) = false from List.head_dropWhile_not isBlank hne] at hblank
    cases hblank
  · intro h
    have hnil : dropLeft isBlank s = [] := List.dropWhile_eq_nil_iff.mpr h
    rw [trim, hnil]
    rfl

/-- If no blank stands in front, trimming takes off the blanks at the end only. -/
theorem trim_of_trimRight (h : trimRight s = a) (hne : a ≠ []) (ha : ∀ c ∈ a.head?, isBlank c = false) : trim s = a := by
  obtain ⟨b, rfl⟩ : ∃ b, a ++ b = s := h ▸ trimRight_prefix s
  rw [trim, dropLeft_eq_self, h]
  rwa [List.head?_append_of_ne_nil a hne]

/-! ## Visible texts -/

/-- A visible character of ASCII. -/
def IsVisible (c : Char) : Prop := 33 ≤ c.toNat ∧ c.toNat < 127

instance (c : Char) : Decidable (IsVisible c) := inferInstanceAs (Decidable (_ ∧ _))

theorem IsVisible.isBlank {c : Char} (h : IsVisible c) : isBlank c = false := by
  have hall : ∀ n < 127, 33 ≤ n → isBlankCode n = false := by decide
  exact hall c.toNat h.2 h.1

section Visible

variable (h : ∀ c ∈ s, IsVisible c)
include h

theorem trimRight_of_visible : trimRight s = s := by
  have htrim : trimRight (s ++ []) = s :=
    dropRight_append (by simp) fun c hc => (h c (List.mem_of_getLast? hc)).isBlank
  rwa [List.append_nil] at htrim

theorem trim_of_visible : trim s = s := by
  have hleft : dropLeft isBlank ([] ++ s) = s :=
    dropLeft_append (by simp) fun c hc => (h c (List.mem_of_mem_head? hc)).isBlank
  rw [List.nil_append] at hleft
  rw [trim, hleft, trimRight_of_visible h]

/-- A visible text between blanks, which may be empty. -/
theorem trim_between (hb : ∀ c ∈ b, isBlank c = true) (ha : ∀ c ∈ a, isBlank c = true) : trim (b ++ s ++ a) = s := by
  by_cases hne : s = []
  · subst hne
    rw [List.append_nil, trim_eq_nil_iff]
    exact fun c hc => (List.mem_append.mp hc).elim (hb c) (ha c)
  · exact trim_append hb ha hne (fun c hc => (h c (List.mem_of_mem_head? hc)).isBlank)
      fun c hc => (h c (List.mem_of_getLast? hc)).isBlank

end Visible

end WalletLogin.Text.Blank
