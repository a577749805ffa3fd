/-
  WalletLogin.Text.Lines — texts cut into lines.

  Lines of a file end with a line feed, a carriage return or the two together, and may
  be kept with their ends. Lines in the wider sense of Unicode end with any of its line
  and paragraph separators too.
-/

namespace WalletLogin.Text.Lines

def isEnd (c : Char) : Bool := c = '\n' || c = '\r'

def isSeparator (c : Char) : Bool :=
  (10 ≤ c.toNat && c.toNat ≤ 13) || (28 ≤ c.toNat && c.toNat ≤ 30) ||
    c.toNat = 0x85 || c.toNat = 0x2028 || c.toNat = 0x2029

/-- The lines of which the first goes on behind `done`, which is in reverse. -/
def cutBehind (isCut : Char → Bool) (keep : Bool) (done : List Char) : List Char → List (List Char)
  | [] => if done.isEmpty then [] else [done.reverse]
  | '\r' :: '\n' :: r =>
    (if keep then '\n' :: '\r' :: done else done).reverse :: cutBehind isCut keep [] r
  | c :: r =>
    if isCut c then (if keep then c :: done else done).reverse :: cutBehind isCut keep [] r
    else cutBehind isCut keep (c :: done) r

def withEnds (s : List Char) : List (List Char) := cutBehind isEnd true [] s

def separated (s : List Char) : List (List Char) := cutBehind isSeparator false [] s

/-- Without the end of the last line. -/
def withoutEnd (s : List Char) : List Char :=
  match s.reverse with
  | '\n' :: '\r' :: r => r.reverse
  | '\n' :: r => r.reverse
  | '\r' :: r => r.reverse
  | _ => s

/-- With a line feed for every end of a line. -/
def normal : List Char → List Char
  | [] => []
  | '\r' :: '\n' :: r => '\n' :: normal r
  | c :: r => (if c = '\r' then '\n' else c) :: normal r

end WalletLogin.Text.Lines
