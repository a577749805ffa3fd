/-
  WalletLogin.Hash.Hmac — keyed hashes. A key longer than a block is hashed first, and
  a shorter one is filled up with zero bytes.
-/

import WalletLogin.Bytes

namespace WalletLogin.Hash.Hmac

def blockKey (hash : Bytes → Bytes) (block : Nat) (key : Bytes) : Bytes :=
  let k := if block < key.length then hash key else key
  k ++ List.replicate (block - k.length) 0

def hmac (hash : Bytes → Bytes) (block : Nat) (key m : Bytes) : Bytes :=
  let k := blockKey hash block key
  hash (k.map (· ^^^ 0x5c) ++ hash (k.map (· ^^^ 0x36) ++ m))

end WalletLogin.Hash.Hmac
