/-
  WalletLogin.Text.Pieces — texts cut at a mark: into all the pieces between its
  occurrences, or into what is before and behind the first one.
-/

namespace WalletLogin.Text.Pieces

/-- One piece more than there are marks. -/
def cut (mark : Char) : List Char → List (List Char)
  | [] => [[]]
  | c :: r =>
    if c = mark then [] :: cut mark r
    else
      match cut mark r with
      | p :: ps => (c :: p) :: ps
      | [] => [[c]]

/-- The text behind the mark, if it is there. -/
def cutOnce (mark : Char) (s : List Char) : List Char × Option (List Char) :=
  match s.dropWhile (· ≠ mark) with
  | [] => (s, none)
  | _ :: r => (s.takeWhile (· ≠ mark), some r)

end WalletLogin.Text.Pieces
