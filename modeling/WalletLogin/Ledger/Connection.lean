/-
  WalletLogin.Ledger.Connection — how the tables are reached, and under what names.

  A file on disk is shared between threads and its writers wait for the lock. A server
  gets a limit for connecting, and its idle connections are probed before use and
  replaced after an hour.
-/

namespace WalletLogin.Ledger

inductive Connection where
  | file (lockTimeout : Nat)
  | server (connectTimeout recycleAfter : Nat)
  deriving DecidableEq, Repr

def Connection.ofUrl (url : String) : Connection :=
  if "sqlite".toList.isPrefixOf url.toList then .file 30 else .server 30 3600

/-- The name of a table in the schema that is set, if one is. -/
def qualified (schema : Option String) (table : String) : String :=
  match schema with
  | none => table
  | some s => if s = "" then table else s ++ "." ++ table

end WalletLogin.Ledger
