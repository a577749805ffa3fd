/-
  WalletLogin.Proofs.Wallet.Evm — an address that is twenty bytes in hexadecimal, and the
  one text that it becomes.

  Blanks around it, a mark in either case or none, and the case of each digit are the
  client's choice (`Denotes`). Normalizing writes the bytes anew, so two texts become one
  exactly when they denote the same bytes.

  Proved:
  - `normalize?_eq_some_iff`: the accepted texts, and what they become.
  - `normalize_evm_eq_ok_iff`: the same of what a client sends.
  - `normalize_alike_iff`: when two texts become one.
-/

import WalletLogin.Proofs.Wallet.Canonical

namespace WalletLogin.Wallet.Evm

open Encoding Text

/-- The number of bytes of an address. -/
def addressLength : Nat := 20

/-- The canonical text of an address. -/
def text (b : Bytes) : String := String.ofList (mark ++ Hex.encode b)

/-- Once it is trimmed, the text is one of these twenty bytes. -/
structure Denotes (raw : Option String) (b : Bytes) : Prop where
  length : b.length = addressLength
  spelled : Hex.Spells (Blank.trim (raw.getD "").toList) b

variable {raw raw' : Option String} {b b' : Bytes}

theorem normalize?_eq_some_iff {s y : List Char} :
    normalize? s = some y ↔ ∃ b : Bytes, b.length = addressLength ∧ Hex.Spells s b ∧ y = mark ++ Hex.encode b := by
  simp only [normalize?, Bool.and_eq_true, decide_eq_true_eq, Option.ite_none_right_eq_some, Option.some.injEq,
    List.all_eq_true, ← Hex.decodeMarked?_eq_some_iff, Hex.decodeMarked?]
  constructor
  · rintro ⟨⟨hl, hd⟩, rfl⟩
    obtain ⟨b, hb⟩ := Hex.exists_decode? (by rw [hl]) hd
    have hbytes := Hex.length_of_decode? hb
    refine ⟨b, ?_, hb, ?_⟩
    · rw [addressLength]
      omega
    · rw [Hex.decode?_eq_some_iff.mp hb]
  · rintro ⟨b, hl, hb, rfl⟩
    refine ⟨⟨?_, Hex.isDigit_of_decode? hb⟩, ?_⟩
    · rw [Hex.length_of_decode? hb, hl, addressLength]
    · rw [Hex.decode?_eq_some_iff.mp hb]

/-- What is accepted denotes twenty bytes, and becomes their text. -/
theorem normalize_evm_eq_ok_iff {r : Option String} :
    Kind.normalize .evm raw = .ok r ↔ ∃ b, Denotes raw b ∧ r = some (text b) := by
  constructor
  · intro h
    obtain ⟨t, ht, rfl⟩ := Kind.normalize_eq_ok h
    obtain ⟨y, hy, rfl⟩ := canonical_eq_ok ht
    obtain ⟨b, hl, hs, rfl⟩ := normalize?_eq_some_iff.mp hy
    exact ⟨b, ⟨hl, hs⟩, rfl⟩
  · rintro ⟨b, h, rfl⟩
    have hne : Blank.trim (raw.getD "").toList ≠ [] := by
      intro he
      have hl := h.spelled.length
      rw [he, h.length] at hl
      exact absurd hl (by decide)
    rw [Kind.normalize_of_ne_nil hne, Kind.canonical, normalize?_eq_some_iff.mpr ⟨b, h.length, h.spelled, rfl⟩]
    rfl

/-- A text denotes one address at most. -/
theorem Denotes.unique (h : Denotes raw b) (h' : Denotes raw b') : b = b' := by
  have hread := Hex.decodeMarked?_eq_some_iff.mpr h.spelled
  rw [Hex.decodeMarked?_eq_some_iff.mpr h'.spelled] at hread
  exact (Option.some.inj hread).symm

/-- What is written alike is spelled alike. -/
theorem Denotes.of_text_eq (h : Denotes raw b) (hl : b'.length = addressLength) (ht : text b = text b') : Denotes raw b' := by
  rw [text, text, String.ofList_inj, List.append_cancel_left_eq] at ht
  refine ⟨hl, ?_⟩
  rw [Hex.Spells, ← ht]
  exact h.spelled

/-- Two texts become one exactly when they denote the same bytes. -/
theorem normalize_alike_iff :
    (∃ r, Kind.normalize .evm raw = .ok r ∧ Kind.normalize .evm raw' = .ok r) ↔ ∃ b, Denotes raw b ∧ Denotes raw' b := by
  constructor
  · rintro ⟨r, h, h'⟩
    obtain ⟨b, hb, rfl⟩ := normalize_evm_eq_ok_iff.mp h
    obtain ⟨b', hb', ht⟩ := normalize_evm_eq_ok_iff.mp h'
    exact ⟨b, hb, hb'.of_text_eq hb.length (Option.some.inj ht).symm⟩
  · rintro ⟨b, hb, hb'⟩
    exact ⟨_, normalize_evm_eq_ok_iff.mpr ⟨b, hb, rfl⟩, normalize_evm_eq_ok_iff.mpr ⟨b, hb', rfl⟩⟩

/-! ## Canonical texts -/

/-- A mark in lower case, and forty digits in lower case. -/
def IsText (y : String) : Prop :=
  ∃ ds : List Char, y = String.ofList (mark ++ ds) ∧ ds.length = 40 ∧ ∀ c ∈ ds, c ∈ "0123456789abcdef".toList

theorem isText_text (hl : b.length = addressLength) : IsText (text b) := by
  refine ⟨_, rfl, by rw [Hex.length_encode, hl, addressLength], fun c hc => ?_⟩
  obtain ⟨x, -, hx⟩ := List.mem_flatMap.mp hc
  have hdigits : ∀ n < 16, Quoted.hexDigit n ∈ "0123456789abcdef".toList := by decide
  have hpair : Quoted.hexDigits 2 x.toNat = [Quoted.hexDigit (x.toNat / 16 % 16), Quoted.hexDigit (x.toNat % 16)] := rfl
  rw [hpair, List.mem_cons, List.mem_singleton] at hx
  rcases hx with rfl | rfl
  · exact hdigits _ (Nat.mod_lt _ (by decide))
  · exact hdigits _ (Nat.mod_lt _ (by decide))

theorem isText_of_normalize {r : Option String} (h : Kind.normalize .evm raw = .ok r) : ∃ y, r = some y ∧ IsText y := by
  obtain ⟨b, hb, rfl⟩ := normalize_evm_eq_ok_iff.mp h
  exact ⟨_, rfl, isText_text hb.length⟩

end WalletLogin.Wallet.Evm
