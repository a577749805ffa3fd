/-
  WalletLogin.Internet.Host — the numbers of hosts, of 32 or 128 bits, and their texts.

  A short one is written as four decimal numbers up to 255 without zeros in front. A
  long one is written as eight hexadecimal numbers of up to four digits between colons;
  one run of zeros may be left out, the last two may be written as a short one, and the
  name of a scope may follow a percent sign.
-/

import WalletLogin.Bytes
import WalletLogin.Decimal.Entry
import WalletLogin.Encoding.Hex
import WalletLogin.Text.Pieces

namespace WalletLogin.Internet

open Decimal Encoding Text

inductive Family where
  | short
  | long
  deriving DecidableEq, Repr

namespace Family

def bytes : Family → Nat
  | .short => 4
  | .long => 16

def bits (f : Family) : Nat := 8 * f.bytes

/-- The number of hosts. -/
def size (f : Family) : Nat := Nat.pow 2 f.bits

end Family

/-- What stands for a host or for a mask: a number, bytes or a text. -/
inductive Given where
  | number (n : Int)
  | bytes (b : Bytes)
  | text (s : List Char)

namespace Host

def octet? (s : List Char) : Option Nat :=
  if s.isEmpty || !s.all Entry.isDigit || 3 < s.length || (s.head? = some '0' && s.length ≠ 1) then none
  else if Entry.number s < 256 then some (Entry.number s) else none

def ofShortText? (s : List Char) : Option Nat := do
  match ← (Pieces.cut '.' s).mapM octet? with
  | [a, b, c, d] => some (((a * 256 + b) * 256 + c) * 256 + d)
  | _ => none

/-- The number of a piece between colons, of which an empty one has none. -/
def group? (s : List Char) : Option (Option Nat) :=
  if s.isEmpty then some none
  else if 4 < s.length then none
  else (s.mapM Hex.value?).map fun ds => some (ds.foldl (fun n d => n * 16 + d) 0)

def lastGroups? (s : List Char) : Option (List (Option Nat)) :=
  if s.contains '.' then (ofShortText? s).map fun n => [some (n / 65536), some (n % 65536)]
  else (group? s).map ([·])

/-- A colon at the front has to be one of two. -/
def withoutFirst? : List (Option Nat) → Option (List (Option Nat))
  | none :: none :: r => some (none :: r)
  | none :: _ => none
  | gs => some gs

/-- The groups in full, with zeros for the one gap. -/
def filled? (gs : List (Option Nat)) : Option (List Nat) :=
  let before := (gs.takeWhile Option.isSome).filterMap id
  match gs.dropWhile Option.isSome with
  | [] => if before.length = 8 then some before else none
  | _ :: behind =>
    let behind' := behind.filterMap id
    if behind'.length < behind.length ∨ 7 < before.length + behind'.length then none
    else some (before ++ List.replicate (8 - before.length - behind'.length) 0 ++ behind')

def ofGroups? (gs : List (Option Nat)) : Option Nat := do
  let gs ← withoutFirst? gs
  let gs ← withoutFirst? gs.reverse
  return (← filled? gs.reverse).foldl (fun n g => n * 65536 + g) 0

def ofLongText? (s : List Char) : Option Nat :=
  let parts := Pieces.cut ':' s
  if parts.length < 3 then none
  else do
    let front ← parts.dropLast.mapM group?
    ofGroups? (front ++ (← lastGroups? (parts.getLastD [])))

/-- Without the scope, which has a name without a second percent sign. -/
def unscoped? (s : List Char) : Option (List Char) :=
  match Pieces.cutOnce '%' s with
  | (a, none) => some a
  | (a, some scope) => if scope.isEmpty || scope.contains '%' then none else some a

def number? (f : Family) : Given → Option Nat
  | .number n => if 0 ≤ n ∧ n < f.size then some n.toNat else none
  | .bytes b => if b.length = f.bytes then some (Bytes.toBigEndian b) else none
  | .text s =>
    if s.contains '/' then none
    else
      match f with
      | .short => ofShortText? s
      | .long => (unscoped? s).bind ofLongText?

end Host

end WalletLogin.Internet
