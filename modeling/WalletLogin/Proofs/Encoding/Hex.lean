/-
  WalletLogin.Proofs.Encoding.Hex — bytes and their texts in hexadecimal.

  Letter case does not matter, so the texts of some bytes are all those that are the
  written one in lower case, and the same behind a mark (`Spells`). No mark can be taken
  for digits: x is none.

  Proved:
  - `decode?_eq_some_iff`, `decodeMarked?_eq_some_iff`: bytes are read from their texts
    and from no others.
-/

import WalletLogin.Encoding.Hex
import WalletLogin.Proofs.Bytes
import WalletLogin.Proofs.Text.Case

namespace WalletLogin.Encoding.Hex

open Text

/-! ## Digits -/

theorem ascii_of_isDigit {c : Char} (h : isDigit c = true) : c.toNat < 128 := by
  unfold isDigit value? at h
  split_ifs at h with h₁ h₂ h₃
  · exact ascii_of_le h₁.2 (by decide)
  · exact ascii_of_le h₂.2 (by decide)
  · exact ascii_of_le h₃.2 (by decide)
  · cases h

/-- A digit is visible, and its lower case is one too. -/
theorem isDigit_lowerChar {c : Char} (h : isDigit c = true) :
    Blank.IsVisible c ∧ isDigit (Case.lowerChar c) = true :=
  of_ascii (fun c => isDigit c = true → Blank.IsVisible c ∧ isDigit (Case.lowerChar c) = true) (by decide)
    (ascii_of_isDigit h) h

theorem isDigit_of_value? {c : Char} {n : Nat} (h : value? c = some n) : isDigit c = true :=
  Option.isSome_of_eq_some h

theorem value?_lt {c : Char} {n : Nat} (h : value? c = some n) : n < 16 :=
  of_ascii (fun c => ∀ n ∈ value? c, n < 16) (by decide) (ascii_of_isDigit (isDigit_of_value? h)) n h

/-- A written digit is in lower case, so a character is read as a number if it is that digit
in either case. -/
theorem value?_eq_some_iff {c : Char} {n : Nat} (hn : n < 16) :
    value? c = some n ↔ Case.lowerChar c = Quoted.hexDigit n := by
  have hall : ∀ m < 128, ∀ n < 16, value? (Char.ofNat m) = some n ↔ Case.lowerChar (Char.ofNat m) = Quoted.hexDigit n := by
    decide
  by_cases hc : c.toNat < 128
  · exact of_ascii (fun c => ∀ n < 16, value? c = some n ↔ Case.lowerChar c = Quoted.hexDigit n) hall hc n hn
  · have hdigits : ∀ n < 16, Quoted.hexDigit n ≠ 'k' ∧ (Quoted.hexDigit n).toNat < 128 := by decide
    have hvalue : value? c ≠ some n := fun h => hc (ascii_of_isDigit (isDigit_of_value? h))
    have hlower : Case.lowerChar c ≠ Quoted.hexDigit n := by
      intro h
      by_cases hk : c.toNat = 0x212a
      · have hkelvin : Case.lowerChar c = 'k' := by
          rw [Case.lowerChar, if_neg fun hz => hc (ascii_of_le hz.2 (by decide)), if_pos hk]
        exact (hdigits n hn).1 (h.symm.trans hkelvin)
      · rw [Case.lowerChar_of_not_upper (fun hz => hc (ascii_of_le hz.2 (by decide))) hk] at h
        exact hc (h ▸ (hdigits n hn).2)
    exact iff_of_false hvalue hlower

/-! ## Bytes -/

theorem encode_cons (x : UInt8) (b : Bytes) :
    encode (x :: b) = Quoted.hexDigit (x.toNat / 16 % 16) :: Quoted.hexDigit (x.toNat % 16) :: encode b := rfl

theorem length_encode (b : Bytes) : (encode b).length = 2 * b.length := by
  induction b with
  | nil => rfl
  | cons x b ih =>
    rw [encode_cons, List.length_cons, List.length_cons, List.length_cons, ih]
    ring

/-- Bytes are read from their text in any mix of letter cases, and from no other. -/
theorem decode?_eq_some_iff {s : List Char} {b : Bytes} : decode? s = some b ↔ Case.lower s = encode b := by
  induction s using decode?.induct generalizing b with
  | case1 => cases b <;> simp [decode?, Case.lower, encode_cons, show encode [] = [] from rfl]
  | case2 c =>
    -- one digit over is nothing that was written
    have hodd : Case.lower [c] ≠ encode b := by
      intro h
      have hl := congrArg List.length h
      rw [length_encode, Case.lower, List.length_map, List.length_singleton] at hl
      omega
    exact iff_of_false (by simp [decode?]) hodd
  | case3 c d r ih =>
    cases b with
    | nil => simp [decode?, Case.lower, show encode [] = [] from rfl, Option.bind_eq_some_iff]
    | cons x b =>
      have hlower : Case.lower (c :: d :: r) = encode (x :: b) ↔
          value? c = some (x.toNat / 16 % 16) ∧ value? d = some (x.toNat % 16) ∧ decode? r = some b := by
        rw [ih, value?_eq_some_iff (Nat.mod_lt _ (by decide)), value?_eq_some_iff (Nat.mod_lt _ (by decide)), encode_cons]
        simp [Case.lower]
      rw [hlower, decode?]
      simp only [Option.bind_eq_bind, Option.bind_eq_some_iff, Option.pure_def, Option.some.injEq, List.cons.injEq]
      constructor
      · rintro ⟨m, hm, n, hn, b', hb, hx, rfl⟩
        have hm16 := value?_lt hm
        have hn16 := value?_lt hn
        have hbyte : x.toNat = 16 * m + n := by
          rw [← hx]
          exact UInt8.toNat_ofNat_of_lt' (show 16 * m + n < 256 by omega)
        have hhigh : x.toNat / 16 % 16 = m := by omega
        have hlow : x.toNat % 16 = n := by omega
        exact ⟨hhigh ▸ hm, hlow ▸ hn, hb⟩
      · rintro ⟨hm, hn, hb⟩
        have hsum : 16 * (x.toNat / 16 % 16) + x.toNat % 16 = x.toNat := by
          have := x.toNat_lt
          omega
        exact ⟨_, hm, _, hn, b, hb, by rw [hsum, UInt8.ofNat_toNat], rfl⟩

/-! ## Marks -/

/-- What may stand in front of the digits. -/
def marks : List (List Char) := [[], ['0', 'x'], ['0', 'X']]

/-- A text of the bytes in any mix of letter cases, marked or not. -/
def Spells (s : List Char) (b : Bytes) : Prop := ∃ mark ∈ marks, ∃ t, s = mark ++ t ∧ Case.lower t = encode b

theorem isDigit_of_decode? {s : List Char} {b : Bytes} (h : decode? s = some b) : ∀ c ∈ s, isDigit c = true := by
  induction s using decode?.induct generalizing b with
  | case1 => simp
  | case2 c => cases h
  | case3 c d r ih =>
    simp only [decode?, Option.bind_eq_bind, Option.bind_eq_some_iff] at h
    obtain ⟨m, hm, n, hn, b', hb, -⟩ := h
    exact List.forall_mem_cons.mpr ⟨isDigit_of_value? hm, List.forall_mem_cons.mpr ⟨isDigit_of_value? hn, ih hb⟩⟩

/-- Two digits were read for each byte. -/
theorem length_of_decode? {s : List Char} {b : Bytes} (h : decode? s = some b) : s.length = 2 * b.length := by
  rw [← length_encode, ← decode?_eq_some_iff.mp h, Case.lower, List.length_map]

/-- Digits are read if there are an even number of them. -/
theorem exists_decode? {s : List Char} (heven : s.length % 2 = 0) (h : ∀ c ∈ s, isDigit c = true) : ∃ b, decode? s = some b := by
  induction s using decode?.induct with
  | case1 => exact ⟨[], rfl⟩
  | case2 c => cases heven
  | case3 c d r ih =>
    obtain ⟨m, hm⟩ := Option.isSome_iff_exists.mp (h c (by simp))
    obtain ⟨n, hn⟩ := Option.isSome_iff_exists.mp (h d (by simp))
    have hr : r.length % 2 = 0 := by
      rw [List.length_cons, List.length_cons] at heven
      omega
    obtain ⟨b, hb⟩ := ih hr fun e he => h e (by simp [he])
    exact ⟨UInt8.ofNat (16 * m + n) :: b, by simp only [decode?, hm, hn, hb, Option.bind_eq_bind, Option.bind_some]; rfl⟩

theorem unmarked_of_isDigit {s : List Char} (h : ∀ c ∈ s, isDigit c = true) : unmarked s = s := by
  unfold unmarked
  split
  case h_1 r => exact absurd (h 'x' (by simp)) (by decide)
  case h_2 r => exact absurd (h 'X' (by simp)) (by decide)
  case h_3 => rfl

theorem exists_mark (s : List Char) : ∃ mark ∈ marks, s = mark ++ unmarked s := by
  unfold unmarked
  split
  case h_1 r => exact ⟨['0', 'x'], by simp [marks], rfl⟩
  case h_2 r => exact ⟨['0', 'X'], by simp [marks], rfl⟩
  case h_3 => exact ⟨[], by simp [marks], rfl⟩

theorem decodeMarked?_eq_some_iff {s : List Char} {b : Bytes} : decodeMarked? s = some b ↔ Spells s b := by
  constructor
  · intro h
    obtain ⟨mark, hmark, hs⟩ := exists_mark s
    exact ⟨mark, hmark, _, hs, decode?_eq_some_iff.mp h⟩
  · rintro ⟨mark, hmark, t, rfl, ht⟩
    have hread := decode?_eq_some_iff.mpr ht
    have hunmarked : unmarked (mark ++ t) = t := by
      simp only [marks, List.mem_cons, List.not_mem_nil, or_false] at hmark
      rcases hmark with rfl | rfl | rfl
      · exact unmarked_of_isDigit (isDigit_of_decode? hread)
      · rfl
      · rfl
    rw [decodeMarked?, hunmarked, hread]

theorem Spells.isDigit_or_mark {s : List Char} {b : Bytes} (h : Spells s b) {c : Char} (hc : c ∈ s) :
    isDigit c = true ∨ c = 'x' ∨ c = 'X' := by
  have hmarks : ∀ mark ∈ marks, ∀ c ∈ mark, isDigit c = true ∨ c = 'x' ∨ c = 'X' := by
    simp [marks, show isDigit '0' = true from rfl]
  obtain ⟨mark, hmark, t, rfl, ht⟩ := h
  rcases List.mem_append.mp hc with hc | hc
  · exact hmarks mark hmark c hc
  · exact .inl (isDigit_of_decode? (decode?_eq_some_iff.mpr ht) c hc)

theorem Spells.isVisible {s : List Char} {b : Bytes} (h : Spells s b) {c : Char} (hc : c ∈ s) : Blank.IsVisible c := by
  rcases h.isDigit_or_mark hc with hd | rfl | rfl
  · exact (isDigit_lowerChar hd).1
  · decide
  · decide

/-- A text of the bytes has two characters a byte, and two more where it is marked. -/
theorem Spells.length {s : List Char} {b : Bytes} (h : Spells s b) : s.length = 2 * b.length ∨ s.length = 2 * b.length + 2 := by
  obtain ⟨mark, hmark, t, rfl, ht⟩ := h
  have hl := length_of_decode? (decode?_eq_some_iff.mpr ht)
  simp only [marks, List.mem_cons, List.not_mem_nil, or_false] at hmark
  rcases hmark with rfl | rfl | rfl <;> simp [hl]

end WalletLogin.Encoding.Hex
