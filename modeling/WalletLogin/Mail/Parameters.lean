/-
  WalletLogin.Mail.Parameters — the parameters behind a content type: names and values
  between semicolons, which do not count within quotes.

  A value may come in numbered pieces, or with percent signs for bytes and the name of
  an encoding in front. Pieces with and without numbers do not go together.
-/

import WalletLogin.Bytes
import WalletLogin.Decimal.Digit
import WalletLogin.Decimal.Entry
import WalletLogin.Encoding.Hex
import WalletLogin.Text.Blank
import WalletLogin.Text.Case
import WalletLogin.Text.Pieces
import WalletLogin.Text.Quoted

namespace WalletLogin.Mail

open Decimal Encoding Text

namespace Parameters

/-- The text between semicolons outside of quotes; a quote behind a backslash does not
count. -/
def segments (isOpen isEscaped : Bool) (done : List Char) : List Char → List (List Char)
  | [] => [done.reverse]
  | c :: r =>
    if c = ';' && !isOpen then done.reverse :: segments false false [] r
    else segments (isOpen != (c = '"' && !isEscaped)) (c = '\\') (c :: done) r

def named (segment : List Char) : List Char × List Char :=
  match Pieces.cutOnce '=' segment with
  | (name, some value) => (Case.lower (Blank.trim name), Blank.trim value)
  | (name, none) => (Case.lower (Blank.trim name), [])

def replacePair (a b by_ : Char) : List Char → List Char
  | [] => []
  | [c] => [c]
  | c :: d :: r => if c = a && d = b then by_ :: replacePair a b by_ r else c :: replacePair a b by_ (d :: r)

/-- Without the quotes or angle brackets around a text. -/
def unquoted (s : List Char) : List Char :=
  let inner := (s.drop 1).dropLast
  if s.length < 2 then s
  else if s.head? = some '"' && s.getLast? = some '"' then
    replacePair '\\' '"' '"' (replacePair '\\' '\\' '\\' inner)
  else if s.head? = some '<' && s.getLast? = some '>' then inner
  else s

def quoted (s : List Char) : List Char :=
  s.flatMap fun c => if c = '\\' ∨ c = '"' then ['\\', c] else [c]

/-- What a quoted text stands for; this need not be the text itself. -/
def requoted (s : List Char) : List Char := unquoted ('"' :: quoted s ++ ['"'])

def percentDecoded : List Char → List Char
  | '%' :: a :: b :: r =>
    match Hex.value? a, Hex.value? b with
    | some m, some n => Char.ofNat (m * 16 + n) :: percentDecoded r
    | _, _ => '%' :: percentDecoded (a :: b :: r)
  | c :: r => c :: percentDecoded r
  | [] => []

structure Segment where
  number : Option Nat
  value : List Char
  isCoded : Bool

def Segment.le (a b : Segment) : Bool :=
  let s := String.ofList a.value
  let t := String.ofList b.value
  match a.number, b.number with
  | some m, some n => m < n || (m = n && (s < t || (s = t && (!a.isCoded || b.isCoded))))
  | _, _ => s < t || (s = t && (!a.isCoded || b.isCoded))

def isWordChar (c : Char) : Bool := c.isAlphanum || c = '_'

/-- Whether a name is `key` with the marks of a piece, and then the piece's number, if
it has one. -/
def pieceNumber? (key name : List Char) : Option (Option (List Char)) :=
  match Pieces.cutOnce '*' name with
  | (k, some r) =>
    let ds := r.takeWhile Entry.isDigit
    let tail := r.drop ds.length
    if k = key && !k.isEmpty && k.all isWordChar then
      if r.isEmpty then some none
      else if !ds.isEmpty && (tail.isEmpty || tail = ['*']) then some (some ds)
      else none
    else none
  | _ => none

def segment? (number : Option (List Char)) (name value : List Char) : Option Segment :=
  let make (n : Option Nat) : Segment := ⟨n, unquoted value, name.getLast? = some '*'⟩
  match number with
  | none => some (make none)
  | some ds => if ds.length ≤ Digit.digitLimit then some (make (some (Entry.number ds))) else none

def areOrdered (ps : List Segment) : Bool :=
  ps.all (·.number.isSome) || ps.all (·.number.isNone)

def byteOf (c : Char) : Bytes :=
  if c.toNat < 256 then [UInt8.ofNat c.toNat]
  else Bytes.ofText (String.ofList (Quoted.escapeCode c.toNat))

/-- The text of bytes in a named encoding. -/
def decoded (encoding : List Char) (s : List Char) : List Char :=
  let b := s.flatMap byteOf
  let name := String.ofList (Case.lower encoding)
  if name ∈ ["us-ascii", "ascii"] then
    b.map fun x => if x.toNat < 128 then Char.ofNat x.toNat else Char.ofNat 0xfffd
  else if name ∈ ["iso-8859-1", "latin-1", "latin1", "iso8859-1"] then b.map fun x => Char.ofNat x.toNat
  else if name ∈ ["utf-8", "utf8"] then ((Bytes.toText? b).map String.toList).getD s
  else unquoted s

/-- The value that pieces make up. -/
def assembled (ps : List Segment) : List Char :=
  let whole := (ps.flatMap fun p => if p.isCoded then percentDecoded p.value else p.value)
  if ps.any (·.isCoded) then
    match Pieces.cutOnce '\'' (quoted whole) with
    | (encoding, some r) =>
      match Pieces.cutOnce '\'' r with
      | (_, some s) => decoded encoding (unquoted ('"' :: s ++ ['"']))
      | _ => decoded "us-ascii".toList (requoted whole)
    | _ => decoded "us-ascii".toList (requoted whole)
  else unquoted (requoted whole)

/-- The value of a parameter: of the first with the plain name, or else of the pieces.
There is no answer when the pieces of some parameter cannot be put in order. -/
def find? (key : List Char) (s : List Char) : Option (Option (List Char)) :=
  let params := ((segments false false [] s).map named).drop 1
  let keys := (params.map fun p => (Pieces.cutOnce '*' p.1).1).eraseDups
  let piecesOf (k : List Char) : List (Option Segment) := params.filterMap fun (name, value) =>
    (pieceNumber? k name).map fun n => segment? n name value
  if keys.all fun k => (piecesOf k).all (·.isSome) && areOrdered ((piecesOf k).filterMap id) then
    match params.find? fun p => p.1 = key with
    | some (_, value) => some (some (unquoted (requoted (unquoted value))))
    | none =>
      let ps := (piecesOf key).filterMap id
      some (if ps.isEmpty then none else some (assembled (ps.mergeSort Segment.le)))
  else none

end Parameters

end WalletLogin.Mail
