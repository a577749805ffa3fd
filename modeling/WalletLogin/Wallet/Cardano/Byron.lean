/-
  WalletLogin.Wallet.Cardano.Byron — the older addresses: a tagged byte string with
  its checksum, whose content is a hash, a map of attributes and a type.

  The canonical text writes the content anew and keeps the checksum that was read, so
  a content that was not in shortest form has a text whose checksum fails. Attributes
  may hold items that can be read and not be written; such an address is refused.
-/

import WalletLogin.Encoding.Base58
import WalletLogin.Encoding.Cbor.Reader
import WalletLogin.Encoding.Cbor.Writer
import WalletLogin.Hash.Crc32

namespace WalletLogin.Wallet.Cardano

open Encoding

structure Byron where
  hash : Bytes
  attributes : List (Cbor × Cbor)
  type : Cbor
  checksum : Cbor

namespace Byron

/-- The tag of a byte string that holds an encoded item. -/
def contentTag : Nat := 24

def checksumOf (payload : Bytes) : Int := (Hash.Crc32.crc32 payload).toNat

def isType (x : Cbor) : Bool := x.isNumber 0 || x.isNumber 2

def payload? (a : Byron) : Option Bytes :=
  Cbor.write? (.array false [.bytes a.hash, .map false a.attributes, a.type])

def toBytes? (a : Byron) : Option Bytes := do
  Cbor.write? (.array false [.tag contentTag (.bytes (← a.payload?)), a.checksum])

def ofPayload? (payload : Bytes) (checksum : Cbor) : Option Byron :=
  match Cbor.read? payload with
  | some (.array _ [.bytes hash, .map false attributes, type], _) =>
    if hash.length = 28 && isType type then some ⟨hash, attributes, type, checksum⟩ else none
  | _ => none

/-- Bytes behind the item are not looked at. -/
def ofBytes? (b : Bytes) : Option Byron :=
  match Cbor.read? b with
  | some (.array _ [.tag 24 (.bytes payload), checksum], _) =>
    if checksum.isNumber (checksumOf payload) then
      (ofPayload? payload checksum).filter fun a => a.toBytes?.isSome
    else none
  | _ => none

def text? (a : Byron) : Option (List Char) := a.toBytes?.map Base58.encode

end Byron

end WalletLogin.Wallet.Cardano
