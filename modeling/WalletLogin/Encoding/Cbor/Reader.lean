/-
  WalletLogin.Encoding.Cbor.Reader — the item at the front of a byte string.

  Heads may be longer than they need to be. An item under tag 28 is shared: it gets a
  slot, from which tag 29 takes it by its number, also while it is not complete. Within
  tag 256 each string that is long enough for a reference to be shorter is numbered,
  and tag 25 takes it by its number. Numbers below zero count from the last. Tag 55799
  says nothing. Items nest up to a limit.
-/

import WalletLogin.Encoding.Cbor.Sameness
import WalletLogin.Encoding.Cbor.Tagged

namespace WalletLogin.Encoding.Cbor

open Decimal

structure Input where
  rest : Bytes
  /-- The shared items; one that cannot be taken leaves its slot empty. -/
  slots : List (Option Cbor)
  /-- What the containers that are shared hold up to now, by their places. -/
  containers : List (Nat × Cbor)
  /-- The strings that have numbers, where they are to have them. -/
  strings : Option (List Cbor)

abbrev Reader := StateT Input Option

/-- Where an item stands: within a key or not, and the slot that waits for it. -/
structure Position where
  frozen : Bool
  slot : Option Nat

namespace Reader

def take (n : Nat) : Reader Bytes := do
  let s ← get
  if n ≤ s.rest.length then do
    set { s with rest := s.rest.drop n }
    return s.rest.take n
  else failure

/-- The number of bytes left, which no two items have at their starts. -/
def place : Reader Nat := return (← get).rest.length

/-- The number in the `n` bytes that follow. -/
def number (n : Nat) : Reader Nat := return Bytes.toBigEndian (← take n)

/-- The argument behind a head's low five bits `info`; none inside stands for an
indefinite length. -/
def argument (info : Nat) : Reader (Option Nat) := do
  if info < 24 then return some info
  else
    match info with
    | 24 => return some (← number 1)
    | 25 => return some (← number 2)
    | 26 => return some (← number 4)
    | 27 => return some (← number 8)
    | 31 => return none
    | _ => failure

def size (info : Nat) : Reader Nat := do
  match ← argument info with
  | some n => return n
  | none => failure

/-! ## Sharing -/

/-- Puts an item into the slot that waits for it. -/
def share (at_ : Position) (x : Cbor) : Reader Cbor := do
  match at_.slot with
  | some k => modify fun s => { s with slots := s.slots.set k (some x) }
  | none => return x
  return x

/-- Says what a container holds up to now, if it is shared. -/
def hold (at_ : Position) (place : Nat) (x : Cbor) : Reader Unit :=
  if at_.slot.isSome then
    modify fun s => { s with containers := (place, x) :: s.containers.filter (·.1 ≠ place) }
  else return ()

/-- Starts a container: references to it are by its place from now on. -/
def begin (at_ : Position) (place : Nat) (x : Cbor) : Reader Unit := do
  hold at_ place x
  let _ ← share at_ (.held place)

/-- The item with the containers it refers to, or, when they have no end, with the
outermost one only. -/
def settled (x : Cbor) : Reader Cbor := do
  let containers := (← get).containers
  let outer := match x with
    | .held p => (containers.lookup p).getD x
    | _ => x
  return (settle? containers x).getD outer

/-- The element with this number; one below zero counts from the end. -/
def nth? {α : Type} (xs : List α) (n : Int) : Option α :=
  if 0 ≤ n then xs[n.toNat]? else if -n ≤ xs.length then xs[(xs.length + n).toNat]? else none

def fromSlot (n : Cbor) : Reader Cbor := do
  match n.int?.bind (nth? (← get).slots) with
  | some (some x) => return x
  | _ => failure

def numbered (n : Cbor) : Reader Cbor := do
  match n.int?.bind (nth? ((← get).strings.getD [])) with
  | some x => return x
  | none => failure

/-! ## Strings -/

/-- The least length of a string that gets a number when `n` have one. -/
def leastNumbered (n : Nat) : Nat :=
  if n < 24 then 3 else if n < 256 then 4 else if n < 65536 then 5 else 7

/-- Gives a string of this many bytes a number, if it is to have one. -/
def enumerate (length : Nat) (x : Cbor) : Reader Cbor := do
  modify fun s =>
    { s with strings := s.strings.map fun xs => if leastNumbered xs.length ≤ length then xs ++ [x] else xs }
  return x

def byte : Reader UInt8 := do
  match ← take 1 with
  | [x] => return x
  | _ => failure

/-- The definite chunks of one major type up to the stop. -/
def chunks (major : Nat) : Nat → Reader (List Bytes)
  | 0 => failure
  | fuel + 1 => do
    let x ← byte
    if x = 0xff then return []
    else if x.toNat / 32 = major then do
      let b ← take (← size (x.toNat % 32))
      return b :: (← chunks major fuel)
    else failure

def allChunks (major : Nat) : Reader (List Bytes) := do chunks major ((← get).rest.length + 1)

def decoded (b : Bytes) : Reader String := do
  match Bytes.toText? b with
  | some s => return s
  | none => failure

def byteString (info : Nat) : Reader Cbor := do
  match ← argument info with
  | some n => enumerate n (.bytes (← take n))
  | none => return .bytes (← allChunks 2).flatten

def textString (info : Nat) : Reader Cbor := do
  match ← argument info with
  | some n => enumerate n (.text (← decoded (← take n)))
  | none => return .text (String.join (← (← allChunks 3).mapM decoded))

/-! ## Containers -/

/-- So many items behind those read; `grow` is told of all of them after each. -/
def items (read : Reader Cbor) (grow : List Cbor → Reader Unit) : Nat → List Cbor → Reader (List Cbor)
  | 0, xs => return xs
  | n + 1, xs => do
    let x ← read
    grow (xs ++ [x])
    items read grow n (xs ++ [x])

def itemsToStop (read : Reader Cbor) (grow : List Cbor → Reader Unit) : Nat → List Cbor → Reader (List Cbor)
  | 0, _ => failure
  | fuel + 1, xs => do
    let x ← read
    if x.isStop then return xs
    else do
      grow (xs ++ [x])
      itemsToStop read grow fuel (xs ++ [x])

/-- The entries with one more, if its key can be one. -/
def entered (key value : Cbor) (es : List (Cbor × Cbor)) : Reader (List (Cbor × Cbor)) := do
  match settle? (← get).containers key with
  | some k => if k.isKey then return put k value es else failure
  | none => failure

def entries (key value : Reader Cbor) (grow : List (Cbor × Cbor) → Reader Unit) :
    Nat → List (Cbor × Cbor) → Reader (List (Cbor × Cbor))
  | 0, es => return es
  | n + 1, es => do
    let k ← key
    let es ← entered k (← value) es
    grow es
    entries key value grow n es

def entriesToStop (key value : Reader Cbor) (grow : List (Cbor × Cbor) → Reader Unit) :
    Nat → List (Cbor × Cbor) → Reader (List (Cbor × Cbor))
  | 0, _ => failure
  | fuel + 1, es => do
    let k ← key
    if k.isStop then return es
    else do
      let es ← entered k (← value) es
      grow es
      entriesToStop key value grow fuel es

/-- A frozen array is shared when it is complete, and any other from its start on. -/
def array (at_ : Position) (place info : Nat) (read : Reader Cbor) : Reader Cbor := do
  let size ← argument info
  let grow (xs : List Cbor) : Reader Unit := if at_.frozen then return () else hold at_ place (.array false xs)
  if !at_.frozen then begin at_ place (.array false [])
  let fuel := (← get).rest.length + 1
  let xs ← match size with
    | some n => items read grow n []
    | none => itemsToStop read grow fuel []
  if at_.frozen then let _ ← share at_ (.array true xs)
  return if size.isSome then .array at_.frozen xs else .stream xs

def map (at_ : Position) (place info : Nat) (key value : Reader Cbor) : Reader Cbor := do
  let size ← argument info
  let grow (es : List (Cbor × Cbor)) : Reader Unit := hold at_ place (.map false es)
  begin at_ place (.map false [])
  let fuel := (← get).rest.length + 1
  let es ← match size with
    | some n => entries key value grow n []
    | none => entriesToStop key value grow fuel []
  if at_.frozen then share at_ (.map true es) else return .map false es

/-! ## Tags and the last major type -/

def tagged (at_ : Position) (place t : Nat) (read : Position → Reader Cbor) : Reader Cbor := do
  match t with
  | 25 => numbered (← read at_)
  | 28 => do
    let k := (← get).slots.length
    modify fun s => { s with slots := s.slots ++ [none] }
    read { at_ with slot := some k }
  | 29 => fromSlot (← read { at_ with slot := none })
  | 256 => do
    let strings := (← get).strings
    modify fun s => { s with strings := some [] }
    let x ← read at_
    modify fun s => { s with strings }
    return x
  | 55799 => read at_
  | t =>
    match meaning? t with
    | some make => do
      match make (← settled (← read at_)) with
      | some x => share at_ (x.placed place)
      | none => failure
    | none => do
      begin at_ place (.tag t .null)
      let x ← read { at_ with slot := none }
      hold at_ place (.tag t x)
      return .tag t x

/-- The value of a floating-point number with `e` bits of exponent and `m` of
fraction. -/
def floatOf (e m n : Nat) : Binary64 :=
  let unit := Nat.pow 2 m
  let range := Nat.pow 2 e
  let neg := n / (unit * range) % 2 = 1
  let exp := n / unit % range
  let frac := n % unit
  let bias : Int := (range / 2 : Nat) - 1
  if exp = range - 1 then (if frac = 0 then .infinite neg else .nan)
  else
    let mant := if exp = 0 then frac else frac + unit
    let s := Binary64.scale 2 mant 1 ((max exp 1 : Nat) - bias - m)
    Binary64.ofRatio neg s.1 s.2

def float (at_ : Position) (place e m : Nat) : Reader Cbor := do
  let n ← number ((1 + e + m) / 8)
  share at_ (placed place (.float (floatOf e m n)))

/-- Items of the last major type, whose low five bits are `info`. Only floating-point
numbers go into a slot. -/
def other (at_ : Position) (place info : Nat) : Reader Cbor := do
  match info with
  | 20 => return .bool false
  | 21 => return .bool true
  | 22 => return .null
  | 23 => return .undefined
  | 24 => do
    let n ← number 1
    if 24 ≤ n ∧ n < 32 then failure else return .simple n
  | 25 => float at_ place 5 10
  | 26 => float at_ place 8 23
  | 27 => float at_ place 11 52
  | 31 => return .stop
  | n => if n < 20 then return .simple n else failure

/-- An item, with no more than so many levels. -/
def item : Nat → Position → Reader Cbor
  | 0, _ => failure
  | depth + 1, at_ => do
    let start ← place
    let x ← byte
    let info := x.toNat % 32
    match x.toNat / 32 with
    | 0 => share at_ (.int (← size info))
    | 1 => share at_ (.int (-1 - ((← size info) : Int)))
    | 2 => share at_ (← byteString info)
    | 3 => share at_ (← textString info)
    | 4 => array at_ start info (item depth { at_ with slot := none })
    | 5 => map at_ start info (item depth ⟨true, none⟩) (item depth { at_ with slot := none })
    | 6 => do tagged at_ start (← size info) (item depth)
    | _ => other at_ start info

end Reader

/-- The greatest number of levels. -/
def nestingLimit : Nat := 195

/-- The item at the front and the bytes behind it. -/
def read? (b : Bytes) : Option (Cbor × Bytes) := do
  let (x, s) ← (Reader.item nestingLimit ⟨false, none⟩).run ⟨b, [], [], none⟩
  return (← settle? s.containers x, s.rest)

end WalletLogin.Encoding.Cbor
