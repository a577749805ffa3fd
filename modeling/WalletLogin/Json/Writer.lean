/-
  WalletLogin.Json.Writer — values to JSON texts, without blanks and in ASCII alone.

  A character outside U+0020 to U+007E is written by a letter or by the four
  hexadecimal digits of each of its UTF-16 units.
-/

import WalletLogin.Json.Basic
import WalletLogin.Decimal.Shortest
import WalletLogin.Text.Quoted

namespace WalletLogin.Json.Writer

def unit (n : Nat) : List Char := '\\' :: 'u' :: Text.Quoted.hexDigits 4 n

def escapeCode (n : Nat) : List Char :=
  if n < 0x10000 then unit n
  else unit (0xd800 + (n - 0x10000) / 0x400) ++ unit (0xdc00 + (n - 0x10000) % 0x400)

def escape (c : Char) : List Char :=
  if c = '"' then ['\\', '"']
  else if c = '\\' then ['\\', '\\']
  else if c = '\n' then ['\\', 'n']
  else if c = '\r' then ['\\', 'r']
  else if c = '\t' then ['\\', 't']
  else if c.toNat = 8 then ['\\', 'b']
  else if c.toNat = 12 then ['\\', 'f']
  else if 32 ≤ c.toNat ∧ c.toNat ≤ 126 then [c]
  else escapeCode c.toNat

def string (s : String) : List Char := '"' :: s.toList.flatMap escape ++ ['"']

def number (x : Decimal.Binary64) : List Char :=
  match x with
  | .nan => "NaN".toList
  | .infinite false => "Infinity".toList
  | .infinite true => "-Infinity".toList
  | x => Decimal.Shortest.render x

mutual

def chars : Json → List Char
  | .null => "null".toList
  | .bool true => "true".toList
  | .bool false => "false".toList
  | .int n => Decimal.Digit.renderInt n
  | .float x => number x
  | .text s => string s
  | .list xs => '[' :: elements xs ++ [']']
  | .object fs => '{' :: members fs ++ ['}']

def elements : List Json → List Char
  | [] => []
  | [v] => chars v
  | v :: r => chars v ++ ',' :: elements r

def members : List (String × Json) → List Char
  | [] => []
  | [(k, v)] => string k ++ ':' :: chars v
  | (k, v) :: r => string k ++ ':' :: chars v ++ ',' :: members r

end

def write (j : Json) : String := String.ofList (chars j)

end WalletLogin.Json.Writer
