/-
  WalletLogin.Encoding.Cbor.Sameness — which items can be keys, and when two of them
  are the same key.

  Numbers of all kinds are the same when their values are; moments when they are the
  same instant; a simple value is the same as an array of its number alone. Of entries
  of a map with the same key the first keeps its place and the last gives the value.
-/

import WalletLogin.Decimal.Exact
import WalletLogin.Encoding.Cbor.Item

namespace WalletLogin.Encoding.Cbor

open Decimal

/-- The real and the imaginary part of a number. -/
def value? : Cbor → Option (Exact × Exact)
  | .int n => some (Exact.ofInt n, .zero)
  | .bool b => some (Exact.ofInt b.toNat, .zero)
  | .float x => (Exact.ofBinary64? x).map (·, .zero)
  | .decimal x => (Exact.ofScaled? x).map (·, .zero)
  | .fraction x => some (Exact.ofFraction x, .zero)
  | .complex re im => do return (← Exact.ofBinary64? re, ← Exact.ofBinary64? im)
  | _ => none

def sameValue (x y : Cbor) : Bool :=
  match x.value?, y.value? with
  | some a, some b => a = b
  | _, _ => false

/-- Whether an item counts as this whole number; a simple value does by its own. -/
def isNumber (n : Int) : Cbor → Bool
  | .int m => m = n
  | .simple m => m = n
  | x => sameValue x (.int n)

mutual

def same : Cbor → Cbor → Bool
  | .int a, .int b => a = b
  | .bytes a, .bytes b => a = b
  | .text a, .text b => a = b
  | .array _ xs, .array _ ys => sameAll xs ys
  | .map _ es, .map _ fs => es.length = fs.length && within es fs
  | .tag s x, .tag t y => s = t && same x y
  | .null, .null => true
  | .undefined, .undefined => true
  | .stop, .stop => true
  | .simple a, .simple b => a = b
  | .simple a, .array _ [y] => sameValue (.int a) y
  | .array _ [x], .simple b => sameValue x (.int b)
  | .moment a, .moment b => a.instant = b.instant
  | .date a, .date b => a = b
  | .pattern a, .pattern b => a = b
  | .lone p _, .lone q _ => p = q
  | x, y => sameValue x y

def sameAll : List Cbor → List Cbor → Bool
  | [], [] => true
  | x :: xs, y :: ys => same x y && sameAll xs ys
  | _, _ => false

/-- Whether each entry of the first map is in the second. -/
def within : List (Cbor × Cbor) → List (Cbor × Cbor) → Bool
  | [], _ => true
  | (k, v) :: es, fs => fs.any (fun f => same k f.1 && same v f.2) && within es fs

end

mutual

def isKey : Cbor → Bool
  | .array frozen xs => frozen && areKeys xs
  | .map frozen es => frozen && areKeyEntries es
  | .tag _ x => isKey x
  | .lone _ x => isKey x
  | .decimal (.nan signals _ _) => !signals
  | .stream _ => false
  | .held _ => false
  | _ => true

def areKeys : List Cbor → Bool
  | [] => true
  | x :: r => isKey x && areKeys r

def areKeyEntries : List (Cbor × Cbor) → Bool
  | [] => true
  | (k, v) :: r => isKey k && isKey v && areKeyEntries r

end

def put (key value : Cbor) : List (Cbor × Cbor) → List (Cbor × Cbor)
  | [] => [(key, value)]
  | (k, v) :: r => if same k key then (k, value) :: r else (k, v) :: put key value r

end WalletLogin.Encoding.Cbor
