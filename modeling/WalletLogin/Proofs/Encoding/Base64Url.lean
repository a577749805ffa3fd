/-
  WalletLogin.Proofs.Encoding.Base64Url — bytes and their texts in the alphabet of
  tokens.

  Proved:
  - `decode?_encode`: what was written is read back, at every length.
  - `isUrlSafe_of_mem_encode`: a written text holds letters, digits, dashes and
    underscores only, so neither a point nor padding.
-/

import WalletLogin.Encoding.Base64Url
import WalletLogin.Proofs.Encoding.Base64

namespace WalletLogin.Encoding.Base64Url

/-- The characters of a segment of a token. -/
def IsUrlSafe (c : Char) : Prop := c.isAlphanum = true ∨ c = '-' ∨ c = '_'

instance (c : Char) : Decidable (IsUrlSafe c) := inferInstanceAs (Decidable (_ ∨ _))

theorem value?_char : ∀ n < 64, value? (char n) = some n := by
  decide

theorem isUrlSafe_char : ∀ n < 64, IsUrlSafe (char n) := by
  decide

theorem isUrlSafe_of_mem_encode {b : Bytes} {c : Char} (hc : c ∈ encode b) : IsUrlSafe c := by
  obtain ⟨n, hn, rfl⟩ := List.mem_map.mp hc
  exact isUrlSafe_char n (Base64.sextets_lt hn)

theorem point_not_mem_encode (b : Bytes) : '.' ∉ encode b := by
  intro h
  exact absurd (isUrlSafe_of_mem_encode h) (by decide)

theorem isDigit_of_mem_encode {b : Bytes} {c : Char} (hc : c ∈ encode b) : isDigit c = true := by
  obtain ⟨n, hn, rfl⟩ := List.mem_map.mp hc
  rw [isDigit, value?_char n (Base64.sextets_lt hn), Option.isSome_some]

theorem filterMap_value?_encode (b : Bytes) : (encode b).filterMap value? = Base64.sextets b := by
  rw [encode, List.filterMap_map]
  exact (List.filterMap_congr fun n hn => value?_char n (Base64.sextets_lt hn)).trans List.filterMap_some

theorem decode?_encode (b : Bytes) : decode? (encode b) = some b := by
  have hall : ∀ c ∈ encode b, isDigit c = true := fun c hc => isDigit_of_mem_encode hc
  have hpad : padded (encode b).length 0 = true := by
    -- no length leaves one character over
    have hlen : (encode b).length % 4 ≠ 1 := by
      rw [encode, List.length_map, Base64.length_sextets]
      omega
    simpa [padded] using hlen
  have hspare : (spare (Base64.sextets b)).all (· = false) = true := by
    rw [spare, Base64.gather_spread_sextets, Bits.filling]
    simp
  unfold decode?
  rw [List.takeWhile_eq_self_iff.mpr hall, List.dropWhile_eq_nil_iff.mpr hall]
  simp only [filterMap_value?_encode, List.all_nil, List.length_nil, hpad, hspare, Bool.and_self, if_true,
    Base64.bytesOf_sextets]

end WalletLogin.Encoding.Base64Url
