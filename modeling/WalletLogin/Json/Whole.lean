/-
  WalletLogin.Json.Whole — the whole number that a value stands for: a number without
  its fraction, one or zero for a truth value, and the lenient reading of a text.
-/

import WalletLogin.Json.Basic
import WalletLogin.Decimal.Digit

namespace WalletLogin.Json

def whole? : Json → Option Int
  | .int n => some n
  | .bool b => some b.toNat
  | .float x => x.truncate?
  | .text s => Decimal.Digit.whole? s.toList
  | _ => none

end WalletLogin.Json
