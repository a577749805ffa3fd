/-
  WalletLogin.Encoding.Cbor.Item — items of the concise binary object representation,
  as the values that they stand for.

  Some tags give values of kinds of their own, and the items under other tags are kept
  with the tag. Arrays and maps within a key are frozen; only frozen ones can be keys.
  An array of indefinite length is a stream, which is neither. An item that equals only
  itself, such as a not-a-number, carries the place where it was read. A reference to a
  container that may not be complete yet holds that container's place.
-/

import WalletLogin.Calendar.Moment
import WalletLogin.Decimal.Fraction
import WalletLogin.Mail.Part
import WalletLogin.Pattern.Syntax

namespace WalletLogin.Encoding

open Decimal

inductive Cbor where
  | int (n : Int)
  | bool (b : Bool)
  | float (x : Binary64)
  | decimal (x : Scaled)
  | fraction (x : Fraction)
  | complex (re im : Binary64)
  | bytes (b : Bytes)
  | text (s : String)
  | array (frozen : Bool) (xs : List Cbor)
  | stream (xs : List Cbor)
  | map (frozen : Bool) (entries : List (Cbor × Cbor))
  | tag (t : Nat) (x : Cbor)
  | null
  | undefined
  | stop
  | simple (n : Nat)
  | moment (m : Calendar.Moment)
  | date (d : Calendar.Date)
  | pattern (p : Pattern)
  | mail (p : Mail.Part)
  | lone (place : Nat) (x : Cbor)
  | held (place : Nat)
  deriving Inhabited

namespace Cbor

/-- An item without the place that it carries. -/
def bare : Cbor → Cbor
  | .lone _ x => x
  | x => x

/-- The whole number that an item is, or that a truth value counts as. -/
def int? : Cbor → Option Int
  | .int n => some n
  | .bool b => some b.toNat
  | _ => none

def isStop : Cbor → Bool
  | .stop => true
  | _ => false

/-- What an item consists of: texts of their characters, maps of their keys, and
messages of the names of their fields. -/
def elements? (x : Cbor) : Option (List Cbor) :=
  match x.bare with
  | .array _ xs => some xs
  | .stream xs => some xs
  | .map _ es => some (es.map (·.1))
  | .text s => some (s.toList.map fun c => .text (String.singleton c))
  | .bytes b => some (b.map fun x => .int x.toNat)
  | .simple n => some [.int n]
  | .mail p => some (p.names.map fun s => .text (String.ofList s))
  | _ => none

mutual

/-- The item with what `find` gives in place of the containers that it refers to. -/
def substitute (find : Nat → Option Cbor) : Cbor → Option Cbor
  | .held p => find p
  | .array frozen xs => (substituteAll find xs).map (.array frozen)
  | .stream xs => (substituteAll find xs).map .stream
  | .map frozen es => (substituteEntries find es).map (.map frozen)
  | .tag t x => (substitute find x).map (.tag t)
  | x => some x

def substituteAll (find : Nat → Option Cbor) : List Cbor → Option (List Cbor)
  | [] => some []
  | x :: r => do
    let y ← substitute find x
    return y :: (← substituteAll find r)

def substituteEntries (find : Nat → Option Cbor) : List (Cbor × Cbor) → Option (List (Cbor × Cbor))
  | [] => some []
  | (k, v) :: r => do
    let k ← substitute find k
    let v ← substitute find v
    return (k, v) :: (← substituteEntries find r)

end

/-- The item with `n` layers of references replaced by the containers. -/
def settleFuel (containers : List (Nat × Cbor)) : Nat → Cbor → Option Cbor
  | 0, x => substitute (fun _ => none) x
  | n + 1, x => substitute (fun p => (containers.lookup p).bind (settleFuel containers n)) x

/-- The item without references. References that lead on through all containers and
further lead back to one of them, and such an item has no end. -/
def settle? (containers : List (Nat × Cbor)) (x : Cbor) : Option Cbor :=
  settleFuel containers containers.length x

end Cbor

end WalletLogin.Encoding
