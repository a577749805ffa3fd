/-
  WalletLogin.Text.Blank — the characters that trimming removes at either end of an
  input, and trimming itself.

  The set holds the white space of Unicode and the four information separators
  U+001C to U+001F; it leaves out the zero-width characters U+200B and U+FEFF.
-/

namespace WalletLogin.Text.Blank

def isBlankCode (n : Nat) : Bool :=
  (9 ≤ n && n ≤ 13) || (28 ≤ n && n ≤ 32) || n == 0x85 || n == 0xa0 || n == 0x1680 ||
  (0x2000 ≤ n && n ≤ 0x200a) || n == 0x2028 || n == 0x2029 || n == 0x202f || n == 0x205f || n == 0x3000

def isBlank (c : Char) : Bool := isBlankCode c.toNat

/-- White space in the narrower sense of the Unicode property, as it may stand around
a number. -/
def isSpace (c : Char) : Bool := isBlank c && !(28 ≤ c.toNat && c.toNat ≤ 31)

def dropLeft (p : Char → Bool) (s : List Char) : List Char := s.dropWhile p

def dropRight (p : Char → Bool) (s : List Char) : List Char := (s.reverse.dropWhile p).reverse

def trimRight (s : List Char) : List Char := dropRight isBlank s

def trim (s : List Char) : List Char := trimRight (dropLeft isBlank s)

def trimSpace (s : List Char) : List Char := dropRight isSpace (dropLeft isSpace s)

/-- The text without the blanks at its ends. -/
def strip (s : String) : String := String.ofList (trim s.toList)

end WalletLogin.Text.Blank
