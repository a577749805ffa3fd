/-
  WalletLogin.Text.Case — lower case, for comparison with words of ASCII letters.

  Besides A to Z only the Kelvin sign U+212A has a lower-case form made of ASCII
  letters alone, so a text equals such a word after full lower-casing exactly when it
  does after this one.
-/

namespace WalletLogin.Text.Case

def lowerChar (c : Char) : Char :=
  if 'A' ≤ c ∧ c ≤ 'Z' then Char.ofNat (c.toNat + 32)
  else if c.toNat = 0x212a then 'k'
  else c

def lower (s : List Char) : List Char := s.map lowerChar

def lowerText (s : String) : String := String.ofList (lower s.toList)

end WalletLogin.Text.Case
