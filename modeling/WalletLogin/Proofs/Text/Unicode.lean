/-
  WalletLogin.Proofs.Text.Unicode — texts, their bytes, and the encoding that the bytes
  show.

  Proved:
  - `Bytes.toText?_ofText`: a text is read back from its bytes.
  - `Unicode.ofBytes?_ofText`: a text of ASCII characters without zeros shows itself to
    be in UTF-8, so that its characters are read.
-/

import WalletLogin.Text.Unicode

namespace WalletLogin

theorem Bytes.toText?_ofText (s : String) : Bytes.toText? (Bytes.ofText s) = some s := by
  have hb : (⟨(Bytes.ofText s).toArray⟩ : ByteArray) = s.toByteArray := by
    simp [Bytes.ofText, String.toUTF8]
  rw [Bytes.toText?, hb, String.fromUTF8?, dif_pos s.isValidUTF8]
  rfl

theorem Bytes.ofText_eq (s : String) : Bytes.ofText s = s.toList.flatMap String.utf8EncodeChar := by
  rw [Bytes.ofText, String.toUTF8, ← String.utf8Encode_toList]
  simp [List.utf8Encode]

namespace Text.Unicode

/-- A character of one byte that is not zero. -/
def IsPlain (c : Char) : Prop := 0 < c.toNat ∧ c.toNat < 128

instance (c : Char) : Decidable (IsPlain c) := inferInstanceAs (Decidable (_ ∧ _))

theorem IsPlain.encode {c : Char} (h : IsPlain c) : String.utf8EncodeChar c = [UInt8.ofNat c.toNat] := by
  have hs : c.utf8Size = 1 := Char.utf8Size_eq_one_iff.mpr (UInt32.le_iff_toNat_le.mpr (Nat.le_of_lt_succ h.2))
  rw [String.utf8EncodeChar_eq_singleton hs]
  rfl

theorem IsPlain.byte {c : Char} (h : IsPlain c) : (UInt8.ofNat c.toNat).toNat = c.toNat := by
  have := h.2
  rw [UInt8.toNat_ofNat']
  omega

section Plain

variable {b : Bytes} (h : ∀ x ∈ b, 0 < x.toNat ∧ x.toNat < 128)
include h

theorem find?_marks_of_plain : marks.find? (·.1.isPrefixOf b) = none := by
  have hmarks : marks.all (fun m => m.1.any fun x => x.toNat = 0 || 128 ≤ x.toNat) = true := by decide +kernel
  rw [List.find?_eq_none]
  intro m hm hprefix
  obtain ⟨x, hx, hforeign⟩ := List.any_eq_true.mp (List.all_eq_true.mp hmarks m hm)
  have hplain := h x ((List.isPrefixOf_iff_prefix.mp hprefix).subset hx)
  simp only [Bool.or_eq_true, decide_eq_true_eq] at hforeign
  omega

theorem zeros_of_plain : (b.take 4).map (· == 0) = List.replicate (b.take 4).length false := by
  rw [List.eq_replicate_iff, List.length_map]
  refine ⟨rfl, fun z hz => ?_⟩
  obtain ⟨x, hx, rfl⟩ := List.mem_map.mp hz
  have hplain := (h x (List.mem_of_mem_take hx)).1
  rw [beq_eq_false_iff_ne]
  rintro rfl
  exact absurd hplain (by decide)

/-- Bytes between 1 and 127 hold no byte order mark, and are in no wide encoding. -/
theorem detect_of_plain : detect b = (.utf8, b) := by
  have hall : ∀ n ≤ 4, ofZeros (List.replicate n false) = .utf8 := by decide
  rw [detect, find?_marks_of_plain h]
  simp only [zeros_of_plain h, hall _ (List.length_take_le 4 b)]

end Plain

theorem ofBytes?_ofText {s : String} (h : ∀ c ∈ s.toList, IsPlain c) : ofBytes? (Bytes.ofText s) = some s.toList := by
  have hb : ∀ x ∈ Bytes.ofText s, 0 < x.toNat ∧ x.toNat < 128 := by
    intro x hx
    rw [Bytes.ofText_eq, List.mem_flatMap] at hx
    obtain ⟨c, hc, hx⟩ := hx
    rw [(h c hc).encode, List.mem_singleton] at hx
    rw [hx, (h c hc).byte]
    exact h c hc
  rw [ofBytes?, detect_of_plain hb]
  simp only [decode?, Bytes.toText?_ofText, Option.map_some]

end Text.Unicode

end WalletLogin
