/-
  WalletLogin.Pattern.Token — search patterns cut into plain characters and characters
  behind a backslash, and the widths of what parts of them match.
-/

namespace WalletLogin.Pattern

inductive Token where
  | plain (c : Char)
  | escaped (c : Char)
  deriving DecidableEq, Repr

namespace Token

/-- A backslash at the end has nothing to stand before. -/
def ofText? : List Char → Option (List Token)
  | [] => some []
  | '\\' :: c :: r => (ofText? r).map (.escaped c :: ·)
  | c :: r => if c = '\\' then none else (ofText? r).map (.plain c :: ·)

def chars : Token → List Char
  | .plain c => [c]
  | .escaped c => ['\\', c]

/-- The plain characters of one kind at the front. -/
def plainRun (p : Char → Bool) : List Token → List Char
  | .plain c :: r => if p c then c :: plainRun p r else []
  | _ => []

end Token

/-- The least and the greatest number of characters that a part matches. -/
structure Width where
  least : Nat
  most : Nat
  deriving DecidableEq, Repr

namespace Width

/-- Stands for any number from here on, 2 ^ 64. -/
def limit : Nat := 0x10000000000000000

def none : Width := ⟨0, 0⟩

def one : Width := ⟨1, 1⟩

def plus (a b : Width) : Width := ⟨min limit (a.least + b.least), min limit (a.most + b.most)⟩

def either (a b : Width) : Width := ⟨min a.least b.least, max a.most b.most⟩

def optional (a : Width) : Width := ⟨0, a.most⟩

def times (a : Width) (least : Nat) (most : Option Nat) : Width :=
  ⟨min limit (a.least * least),
    match most with
    | some n => min limit (a.most * n)
    | .none => if a.most = 0 then 0 else limit⟩

end Width

/-- What may be said about a part when a sign of repetition follows it: places have no
width to repeat, and a repeated part is not repeated again. -/
inductive Kind where
  | place
  | repeated
  | other
  deriving DecidableEq, Repr

structure Piece where
  kind : Kind
  width : Width
  deriving DecidableEq, Repr

namespace Piece

def place : Piece := ⟨.place, .none⟩

def one : Piece := ⟨.other, .one⟩

def total (ps : List Piece) : Width := ps.foldl (fun w p => w.plus p.width) .none

end Piece

end WalletLogin.Pattern
