/-
  WalletLogin.Hash.Crc32 — the 32-bit checksum of Byron addresses, one bit at a time
  from the low end.
-/

import WalletLogin.Bytes

namespace WalletLogin.Hash.Crc32

def shift (c : UInt32) : UInt32 := if c &&& 1 = 1 then (c >>> 1) ^^^ 0xedb88320 else c >>> 1

def shifts : Nat → UInt32 → UInt32
  | 0, c => c
  | n + 1, c => shifts n (shift c)

def step (c : UInt32) (x : UInt8) : UInt32 := shifts 8 (c ^^^ x.toUInt32)

def crc32 (b : Bytes) : UInt32 := b.foldl step 0xffffffff ^^^ 0xffffffff

end WalletLogin.Hash.Crc32
