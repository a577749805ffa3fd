/-
  WalletLogin.Encoding.Lenient — signatures and keys as wallets hand them out: in
  hexadecimal, marked or not, or else in base 64.
-/

import WalletLogin.Encoding.Hex
import WalletLogin.Encoding.Base64
import WalletLogin.Text.Blank

namespace WalletLogin.Encoding.Lenient

def decode? (s : List Char) : Option Bytes :=
  let s := Text.Blank.trim s
  (Hex.decodeMarked? s).or (Base64.decode? s)

end WalletLogin.Encoding.Lenient
