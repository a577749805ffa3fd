/-
  WalletLogin.Encoding.Cbor.Writer — items as bytes, with the shortest heads and
  definite lengths. Values of kinds of their own are written under a tag of that kind;
  streams, stops and references have no bytes.
-/

import WalletLogin.Encoding.Cbor.Item
import WalletLogin.Mail.Writer

namespace WalletLogin.Encoding.Cbor

open Decimal

def head (major n : Nat) : Bytes :=
  let sized (info width : Nat) := UInt8.ofNat (major * 32 + info) :: Bytes.ofBigEndian width n
  if n < 24 then [UInt8.ofNat (major * 32 + n)]
  else if n < 0x100 then sized 24 1
  else if n < 0x10000 then sized 25 2
  else if n < 0x100000000 then sized 26 4
  else sized 27 8

def writeBytes (b : Bytes) : Bytes := head 2 b.length ++ b

def writeText (s : String) : Bytes := let b := Bytes.ofText s; head 3 b.length ++ b

/-- A number of any size, as a big number where no head is large enough. -/
def writeNumber (major n : Nat) : Bytes :=
  if n < 0x10000000000000000 then head major n
  else head 6 (2 + major) ++ writeBytes ((Radix.digits 256 n).map UInt8.ofNat)

def writeInt (n : Int) : Bytes :=
  if 0 ≤ n then writeNumber 0 n.toNat else writeNumber 1 (-1 - n).toNat

def floatBits (neg : Bool) (mant : Nat) (exp : Int) : Nat :=
  let magnitude :=
    if mant < Binary64.leading then mant
    else mant - Binary64.leading + (exp + 1075).toNat * Binary64.leading
  magnitude + if neg then 0x8000000000000000 else 0

def writeFloat : Binary64 → Bytes
  | .nan => [0xf9, 0x7e, 0x00]
  | .infinite false => [0xf9, 0x7c, 0x00]
  | .infinite true => [0xf9, 0xfc, 0x00]
  | .finite neg m e => 0xfb :: Bytes.ofBigEndian 8 (floatBits neg m e)

/-- Two items in an array under a tag. -/
def writePair (t : Nat) (a b : Bytes) : Bytes := head 6 t ++ (head 4 2 ++ (a ++ b))

def writeTagged (t : Nat) (s : List Char) : Bytes := head 6 t ++ writeText (String.ofList s)

def writeScaled : Scaled → Bytes
  | .number neg c e => writePair 4 (writeInt e) (writeInt (Binary64.signed neg c))
  | .infinite neg => writeFloat (.infinite neg)
  | .nan .. => writeFloat .nan

mutual

def write? : Cbor → Option Bytes
  | .int n => some (writeInt n)
  | .bytes b => some (writeBytes b)
  | .text s => some (writeText s)
  | .array _ xs => (writeAll? xs).map (head 4 xs.length ++ ·)
  | .map _ es => (writeEntries? es).map (head 5 es.length ++ ·)
  | .tag t x => (write? x).map (head 6 t ++ ·)
  | .bool false => some [0xf4]
  | .bool true => some [0xf5]
  | .null => some [0xf6]
  | .undefined => some [0xf7]
  | .simple n => some (if n < 24 then [UInt8.ofNat (224 + n)] else [0xf8, UInt8.ofNat n])
  | .float x => some (writeFloat x)
  | .decimal x => some (writeScaled x)
  | .fraction x => some (writePair 30 (writeInt x.num) (writeInt x.den))
  | .complex re im => some (writePair 43000 (writeFloat re) (writeFloat im))
  | .moment m => some (writeTagged 0 m.render)
  | .date d => some (writeTagged 1004 d.render)
  | .pattern p => some (writeTagged 35 p.source)
  | .mail p => p.render?.map (writeTagged 36)
  | .lone _ x => write? x
  | .stream _ => none
  | .stop => none
  | .held _ => none

def writeAll? : List Cbor → Option Bytes
  | [] => some []
  | x :: r => do
    let b ← write? x
    return b ++ (← writeAll? r)

def writeEntries? : List (Cbor × Cbor) → Option Bytes
  | [] => some []
  | (k, v) :: r => do
    let a ← write? k
    let b ← write? v
    return a ++ (b ++ (← writeEntries? r))

end

end WalletLogin.Encoding.Cbor
