/-
  WalletLogin.Web.Target — the path that the target of a request names.

  A target is a path, which may have a scheme and a host in front and a query and a
  fragment behind. Segments of one dot go, those of two take the segment before them
  along, and only then escapes are read; what they leave is read once more.
-/

import WalletLogin.Encoding.Hex
import WalletLogin.Text.Pieces

namespace WalletLogin.Web.Target

open WalletLogin.Text

def isSchemeChar (c : Char) : Bool := c.isAlphanum || c = '+' || c = '.' || c = '-'

/-- What is behind a scheme and its colon, if a scheme is there. -/
def afterScheme? (s : List Char) : Option (List Char) :=
  match s, s.dropWhile isSchemeChar with
  | c :: _, ':' :: r => if c.isAlpha then some r else none
  | _, _ => none

/-- Host and path. Without two slashes in front there is no host. -/
def hostAndPath : List Char → List Char × List Char
  | '/' :: '/' :: r => (r.takeWhile (· ≠ '/'), r.dropWhile (· ≠ '/'))
  | r => ([], r)

/-- The path from the root on. One that comes without scheme and host may lack its
first slash or have it several times. -/
def rooted (target : List Char) : List Char :=
  let s := target.takeWhile fun c => c ≠ '?' && c ≠ '#'
  let (host, path) := hostAndPath ((afterScheme? s).getD s)
  if (afterScheme? s).isSome && host ≠ [] && path ≠ [] then path else '/' :: path.dropWhile (· = '/')

/-- The segments kept so far, last first, without the last; the one before the first
slash stays. -/
def without (kept : List (List Char)) : List (List Char) :=
  match kept with
  | [[]] => [[]]
  | kept => kept.tail

def settled (kept : List (List Char)) : List (List Char) → List (List Char)
  | [] => kept.reverse
  | p :: r =>
    if p = ['.'] then settled kept r
    else if p = ['.', '.'] then settled (without kept) r
    else settled (p :: kept) r

def withoutDots (path : List Char) : List Char :=
  List.intercalate ['/'] (settled [] (Pieces.cut '/' path))

/-- The ASCII character that an escape stands for. -/
def escaped? (mark a b : Char) : Option Char := do
  let n := (← Encoding.Hex.value? a) * 16 + (← Encoding.Hex.value? b)
  if mark = '%' ∧ n < 128 then some (Char.ofNat n) else none

/-- The path with its escapes read. Other escapes than those of ASCII characters stay,
for no route has such a character. -/
def unescaped : List Char → List Char
  | c :: a :: b :: r =>
    match escaped? c a b with
    | some d => d :: unescaped r
    | none => c :: unescaped (a :: b :: r)
  | s => s

def path (target : List Char) : List Char := unescaped (unescaped (withoutDots (rooted target)))

end WalletLogin.Web.Target
