/-
  WalletLogin.Text.Quoted — a text between quotes, as it stands inside a message.

  Single quotes are used, and double quotes for a text that holds a single quote and
  no double one. A backslash and the quote in use are written after a backslash, line
  feed, carriage return and tab by letters, and any other character that is not
  printable by its code point in two, four or eight hexadecimal digits. Bytes are quoted
  as characters of which only those of ASCII are printable.
-/

import WalletLogin.Bytes
import WalletLogin.Encoding.Radix
import WalletLogin.Text.Printable

namespace WalletLogin.Text.Quoted

open Encoding

def hexDigit (n : Nat) : Char := if n < 10 then Char.ofNat (48 + n) else Char.ofNat (87 + n)

/-- The low `width` hexadecimal digits of `n`. -/
def hexDigits (width n : Nat) : List Char := (Radix.lowDigits 16 width n).map hexDigit

def escapeCode (n : Nat) : List Char :=
  if n < 0x100 then '\\' :: 'x' :: hexDigits 2 n
  else if n < 0x10000 then '\\' :: 'u' :: hexDigits 4 n
  else '\\' :: 'U' :: hexDigits 8 n

def escapeUnless (isShown : Char → Bool) (quote c : Char) : List Char :=
  if c = quote ∨ c = '\\' then ['\\', c]
  else if c = '\n' then ['\\', 'n']
  else if c = '\r' then ['\\', 'r']
  else if c = '\t' then ['\\', 't']
  else if isShown c then [c]
  else escapeCode c.toNat

def escape (quote c : Char) : List Char := escapeUnless Printable.isPrintable quote c

def quoteFor (s : List Char) : Char := if s.contains '\'' && !s.contains '"' then '"' else '\''

def encode (s : List Char) : List Char :=
  let q := quoteFor s
  q :: s.flatMap (escape q) ++ [q]

def encodeBytes (b : Bytes) : List Char :=
  let s := b.map fun x => Char.ofNat x.toNat
  let q := quoteFor s
  q :: s.flatMap (escapeUnless (fun c => ' ' ≤ c && c ≤ '~') q) ++ [q]

def quote (s : String) : String := String.ofList (encode s.toList)

end WalletLogin.Text.Quoted
