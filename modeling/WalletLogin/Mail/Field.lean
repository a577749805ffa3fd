/-
  WalletLogin.Mail.Field — the fields at the head of a message: read from its first
  lines, and written.

  A field is a name of printable ASCII characters, a colon and a value, which goes on
  in the lines behind that start with a blank. Lines that name a sender as mailboxes do
  and lines without a name are left out, with what would go on from them.

  A value is written as it is if it is ASCII, but its later lines lose a single space
  at their ends and join the line before when only blanks are left. Any other value is
  written as words in UTF-8, one for each line, in the shorter of two encodings. A
  later line has to start with a blank.
-/

import WalletLogin.Bytes
import WalletLogin.Encoding.Base64
import WalletLogin.Text.Blank
import WalletLogin.Text.Lines

namespace WalletLogin.Mail

open Encoding Text

structure Field where
  name : List Char
  value : List Char
  deriving DecidableEq, Repr

namespace Field

def isIndent (c : Char) : Bool := c = ' ' || c = '\t'

def isNameChar (c : Char) : Bool := '!' ≤ c && c ≤ '~' && c ≠ ':'

def isEnvelope (line : List Char) : Bool := "From ".toList.isPrefixOf line

/-- Whether a line may be one of a head. -/
def isLine (line : List Char) : Bool :=
  isEnvelope line || line.head?.any isIndent || (line.dropWhile isNameChar).head? = some ':'

/-- The field of a first line and those it goes on in. -/
def ofLines (first : List Char) (more : List (List Char)) : Field :=
  let value := ((first.dropWhile (· ≠ ':')).drop 1).dropWhile isIndent ++ more.flatten
  ⟨first.takeWhile (· ≠ ':'), Blank.dropRight Lines.isEnd value⟩

/-- The field that is being read, with the lines it goes on in. -/
abbrev Open := Option (List Char × List (List Char))

def closed : Open → List Field
  | none => []
  | some (first, more) => [ofLines first more]

/-- The fields of the lines of a head. A sender's line at the end, unless it is the
only one, belongs to what follows the head. -/
def ofHead (isFirst : Bool) (current : Open) : List (List Char) → List Field × Option (List Char)
  | [] => (closed current, none)
  | line :: r =>
    if line.head?.any isIndent then
      ofHead false (current.map fun (first, more) => (first, more ++ [line])) r
    else if isEnvelope line && !isFirst && r.isEmpty then (closed current, some line)
    else
      let next : Open := if isEnvelope line || line.head? = some ':' then none else some (line, [])
      let (fields, rest) := ofHead false next r
      (closed current ++ fields, rest)

/-! ## Writing -/

def isPlainInWord (c : Char) : Bool := c.isAlphanum || "-!*+/".toList.contains c

def upperHexDigit (n : Nat) : Char := if n < 10 then Char.ofNat (48 + n) else Char.ofNat (55 + n)

def wordByte (x : UInt8) : List Char :=
  let c := Char.ofNat x.toNat
  if c = ' ' then ['_']
  else if isPlainInWord c then [c]
  else ['=', upperHexDigit (x.toNat / 16), upperHexDigit (x.toNat % 16)]

def word (s : List Char) : List Char :=
  let b := Bytes.ofText (String.ofList s)
  let quoted := b.flatMap wordByte
  let coded := Base64.encode b
  if b.isEmpty then []
  else if coded.length < quoted.length then "=?utf-8?b?".toList ++ coded ++ "?=".toList
  else "=?utf-8?q?".toList ++ quoted ++ "?=".toList

/-- A line without a single blank at its end when that is a space. -/
def withoutSpace (line : List Char) : List Char :=
  match line.reverse with
  | ' ' :: c :: r => if isIndent c then line else (c :: r).reverse
  | [' '] => []
  | _ => line

/-- The lines with a further one. -/
def addLine (lines : List (List Char)) (line : List Char) : List (List Char) :=
  let line := withoutSpace line
  if line.all Blank.isBlank then lines.dropLast ++ [lines.getLastD [] ++ line] else lines ++ [line]

def plainLines : List (List Char) → List (List Char)
  | [] => [[]]
  | [line] => [line]
  | line :: r => r.foldl addLine [withoutSpace line]

def wordLines : List (List Char) → List (List Char)
  | [] => [[]]
  | line :: r => word line :: r.map fun l => ' ' :: word (' ' :: Blank.dropLeft Blank.isBlank l)

def renderLines (s : List Char) : List (List Char) :=
  let lines := Lines.separated s
  if s.all (·.toNat < 128) then plainLines lines else wordLines lines

def render? (f : Field) : Option (List Char) :=
  let lines := renderLines f.value
  if (lines.drop 1).all fun l => l.head?.any isIndent then
    some (f.name ++ ':' :: ' ' :: (lines.intersperse ['\n']).flatten ++ ['\n'])
  else none

end Field

end WalletLogin.Mail
