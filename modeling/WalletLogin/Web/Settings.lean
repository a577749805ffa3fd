/-
  WalletLogin.Web.Settings — the settings of the service, from environment variables.

  The names of variables do not depend on letter case; of several that differ in case
  alone the last in order counts. A variable that is not a setting is ignored. The list
  of origins is a JSON text, and one that is not JSON, or that nests too deep to be read,
  is told apart from a value of the wrong kind.
-/

import WalletLogin.Decimal.Entry
import WalletLogin.Json.Reader
import WalletLogin.Text.Case
import WalletLogin.Web.Issue

namespace WalletLogin.Web

open Decimal

structure Settings where
  projectName : String := "Grainlify Auth"
  port : Int := 8000
  host : String := "127.0.0.1"
  version : String := "0.1.0"
  debug : Bool := false
  logLevel : String := "INFO"
  corsOrigins : List String := ["*"]
  databaseUrl : String := "sqlite:///./grainlify_auth.db"
  databaseSchema : Option String := none
  createsTables : Bool := false
  secret : String := ""
  algorithm : String := "HS256"
  tokenTtl : Int := 900
  nonceTtl : Int := 600
  defaultRole : String := "contributor"
  /-- Seconds. -/
  timeout : Binary64 := Binary64.ofInt 10
  deriving DecidableEq, Repr

inductive SettingsFault where
  | notJson
  | tooDeep
  | issues (is : List Issue)
  deriving DecidableEq, Repr

namespace Settings

abbrev Read (α : Type) := Except Complaint α

def truths : List String := ["1", "on", "t", "true", "y", "yes"]

def falsehoods : List String := ["0", "off", "f", "false", "n", "no"]

/-- Lower case of A to Z alone. -/
def asciiLower (c : Char) : Char := if 'A' ≤ c ∧ c ≤ 'Z' then Char.ofNat (c.toNat + 32) else c

def readBool (s : String) : Read Bool :=
  let word := String.ofList (s.toList.map asciiLower)
  if word ∈ truths then .ok true else if word ∈ falsehoods then .ok false else .error .notBool

def readWhole (s : String) : Read Int :=
  match Entry.whole s.toList with
  | .ok n => .ok n
  | .error .malformed => .error .notWholeText
  | .error .tooLong => .error .tooLongText

def readFloat (s : String) : Read Binary64 :=
  match Entry.float? s.toList with
  | some x => .ok x
  | none => .error .notFloat

/-- The variable of a setting. -/
def lookup? (env : List (String × String)) (name : String) : Option String :=
  let same := (env.mergeSort fun a b => a.1 ≤ b.1).filter fun e =>
    Text.Case.lowerText e.1 = Text.Case.lowerText name
  same.getLast?.map (·.2)

def issue (name : String) (c : Complaint) : Issue := ⟨c, [.field name]⟩

/-- The value of a setting, its default, or what is wrong with it. -/
def setting {α : Type} (env : List (String × String)) (name : String) (read : String → Read α)
    (default : α) : α × List Issue :=
  match (lookup? env name).map read with
  | none => (default, [])
  | some (.ok a) => (a, [])
  | some (.error c) => (default, [issue name c])

def originIssues (n : Nat) : List Json → List Issue
  | [] => []
  | .text _ :: r => originIssues (n + 1) r
  | _ :: r => ⟨.notText, [.field "CORS_ORIGINS", .index n]⟩ :: originIssues (n + 1) r

def origins (default : List String) : Json → List String × List Issue
  | .null => (default, [])
  | .list xs => (xs.filterMap Json.text?, originIssues 0 xs)
  | _ => (default, [issue "CORS_ORIGINS" .notList])

def originsSetting (env : List (String × String)) (default : List String) :
    Except SettingsFault (List String × List Issue) :=
  match lookup? env "CORS_ORIGINS" with
  | none => .ok (default, [])
  | some s =>
    match Json.Reader.read s.toList with
    | .ok j => .ok (origins default j)
    | .error .tooDeep => .error .tooDeep
    | .error _ => .error .notJson

def ofEnvironment (env : List (String × String)) : Except SettingsFault Settings := do
  let d : Settings := {}
  let text (name : String) (default : String) := (setting env name Except.ok default).1
  let (port, i₁) := setting env "PORT" readWhole d.port
  let (debug, i₂) := setting env "DEBUG" readBool d.debug
  let (origins, i₃) ← originsSetting env d.corsOrigins
  let (creates, i₄) := setting env "DB_AUTO_CREATE" readBool d.createsTables
  let (tokenTtl, i₅) := setting env "ACCESS_TOKEN_EXPIRE_SECONDS" readWhole d.tokenTtl
  let (nonceTtl, i₆) := setting env "NONCE_EXPIRY_SECONDS" readWhole d.nonceTtl
  let (timeout, i₇) := setting env "AUTH_REQUEST_TIMEOUT_SECONDS" readFloat d.timeout
  let issues := i₁ ++ i₂ ++ i₃ ++ i₄ ++ i₅ ++ i₆ ++ i₇
  if !issues.isEmpty then .error (.issues issues)
  return {
    projectName := text "PROJECT_NAME" d.projectName
    port := port
    host := text "HOST" d.host
    version := text "VERSION" d.version
    debug := debug
    logLevel := text "LOG_LEVEL" d.logLevel
    corsOrigins := origins
    databaseUrl := text "DATABASE_URL" d.databaseUrl
    databaseSchema := (setting env "DB_SCHEMA" (Except.ok ∘ some) none).1
    createsTables := creates
    secret := text "ENCODE_KEY" d.secret
    algorithm := text "ENCODE_ALGORITHM" d.algorithm
    tokenTtl := tokenTtl
    nonceTtl := nonceTtl
    defaultRole := text "DEFAULT_USER_ROLE" d.defaultRole
    timeout := timeout }

end Settings

end WalletLogin.Web
