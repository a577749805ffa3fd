/-
  WalletLogin.Web.Site — the routes of the service: health, a challenge, a login and
  the caller's profile.

  A body that is not JSON is refused before anything else is looked at. A body of the
  wrong shape and everything that goes wrong without a refusal of its own answer alike,
  as a fault of the service. A path with slashes too many at its end leads to the one
  without.
-/

import WalletLogin.Login.Script
import WalletLogin.Web.Caller
import WalletLogin.Web.Model
import WalletLogin.Web.Target

namespace WalletLogin.Web

open Login Ledger

structure Site where
  settings : Settings
  world : World

structure WebRequest where
  method : String
  /-- What is asked for: a path, as a rule. -/
  target : String
  authorization : Option String
  /-- The body's text; an empty one is none. -/
  body : String
  deriving DecidableEq, Repr

structure Response where
  status : Nat
  body : Json

inductive Route where
  | health
  | nonce
  | verify
  | me
  deriving DecidableEq, Repr

namespace Route

def all : List Route := [.health, .nonce, .verify, .me]

def path : Route → String
  | .health => "/health"
  | .nonce => "/auth/nonce"
  | .verify => "/auth/verify"
  | .me => "/auth/me"

def method : Route → String
  | .health => "GET"
  | .nonce => "POST"
  | .verify => "POST"
  | .me => "GET"

/-- The route at the end of a target's path, whatever slashes follow. -/
def ofTarget? (target : String) : Option Route :=
  let path := Text.Blank.dropRight (· = '/') (Target.path target.toList)
  all.find? fun r => r.path.toList = path

end Route

namespace Response

def detail (status : Nat) (d : Json) : Response := ⟨status, .object [("detail", d)]⟩

def words (status : Nat) (s : String) : Response := detail status (.text s)

/-- The answer to whatever has no refusal of its own, once there is a session. -/
def broken : Response := words 500 "Query data error"

def notJson (position : Nat) : Response :=
  detail 422 (.list [.object [("type", .text "json_invalid"), ("loc", .list [.text "body", .int position])]])

def refusal (r : Refusal) : Response := words r.status r.code

/-- The answer to a caller who is not let in. A check that breaks off does so before there
is a session, and the answer is plain text. -/
def callerFault (f : CallerFault) : Response :=
  match f with
  | .token .tooDeep => ⟨f.status, .text f.detail⟩
  | _ => words f.status f.detail

def failure : Failure → Response
  | .refused r => refusal r
  | _ => broken

/-- A body made of parts that fit its model. -/
def made (r : Reading) (m : Model) (parts : List (String × Json)) : Response :=
  match m.read r (.object parts) with
  | .ok body => ⟨200, body⟩
  | .error _ => broken

end Response

/-- The last reading before which a request has to be done. -/
def deadline (start : Int) (timeout : Decimal.Binary64) : Option Int :=
  timeout.ceiling?.map (start + ·)

def config (s : Settings) : Config := ⟨s.secret, s.algorithm, s.nonceTtl, s.tokenTtl, some s.defaultRole⟩

/-- The position at which the text of a body stops being JSON, of whose characters
`left` are left. -/
def position (body : String) (left : Nat) : Nat :=
  let size := ((Text.Unicode.ofBytes? (Bytes.ofText body)).getD []).length
  size - left

/-- The members of a body that fits its model. -/
def members (m : Model) (body : String) : Except Response (List (String × Json)) :=
  if body = "" then .error .broken
  else
    match Json.Reader.readBytes (Bytes.ofText body) with
    | .error (.malformed left) => .error (.notJson (position body left))
    | .error _ => .error (.words 400 "There was an error parsing the body")
    | .ok j =>
      match m.read .strict j with
      | .ok (.object fields) => .ok fields
      | _ => .error .broken

def member? (fields : List (String × Json)) (name : String) : Option String :=
  (Json.find? name fields).bind Json.text?

def walletJson (w : WalletRow) : Json :=
  .object [("wallet_type", .text w.owner.walletType), ("address", .text w.owner.address)]

def challengeResponse (c : Challenge) : Response :=
  .made .converting .nonceResponse [("nonce", .text c.nonce), ("message", .text c.message),
    ("expires_at", .int c.expiresAt)]

def loginResponse (r : Result) : Response :=
  .made .converting .authResponse [("token", .text r.token), ("wallet", walletJson r.wallet),
    ("user", .object [("id", .text r.user.id), ("role", .text r.user.role)])]

def profileResponse : Option Users.Profile → Response
  | none => .words 404 "user_not_found"
  | some p => .made .rows .meResponse [("id", .text p.user.id), ("role", .text p.user.role),
      ("wallets", .list (p.wallets.map walletJson))]

def answered {α : Type} (f : α → Response) : Except Failure α → Response
  | .ok a => f a
  | .error e => .failure e

namespace Site

def perform {α : Type} (s : Site) (env : Conditions) (f : α → Response) (work : Procedure α) :
    Response × Site :=
  let (answer, w) := s.world.perform env work
  (answered f answer, { s with world := w })

/-- The deadline takes the first reading of the monotonic clock. -/
def later (env : Conditions) : Conditions := { env with mono := fun k => env.mono (k + 1) }

def challenge (s : Site) (env : Conditions) (fields : List (String × Json)) : Response × Site :=
  let due := deadline (env.mono 0) s.settings.timeout
  s.perform env challengeResponse
    (issue (config s.settings) (later env) (member? fields "wallet_type") (member? fields "address") due)

def verify (s : Site) (env : Conditions) (fields : List (String × Json)) : Response × Site :=
  let due := deadline (env.mono 0) s.settings.timeout
  let request : Request := ⟨member? fields "wallet_type", member? fields "address", member? fields "nonce",
    member? fields "signature", member? fields "public_key"⟩
  s.perform env loginResponse (login (config s.settings) (later env) request due)

def me (s : Site) (env : Conditions) (authorization : Option String) : Response × Site :=
  match caller s.settings authorization s.world.clock with
  | .error f => (.callerFault f, s)
  | .ok claims => s.perform env profileResponse (Users.profile (member? claims "sub"))

def withBody (s : Site) (m : Model) (body : String)
    (f : List (String × Json) → Response × Site) : Response × Site :=
  match members m body with
  | .error r => (r, s)
  | .ok fields => f fields

def respond (s : Site) (env : Conditions) (r : WebRequest) : Response × Site :=
  match Route.ofTarget? r.target with
  | none => (.words 404 "Not Found", s)
  | some route =>
    if route.method ≠ r.method then (.words 405 "Method Not Allowed", s)
    else
      match route with
      | .health => (.made .converting .healthCheck [("status", .text "oke")], s)
      | .nonce => s.withBody .nonceRequest r.body (s.challenge env)
      | .verify => s.withBody .verifyRequest r.body (s.verify env)
      | .me => s.me env r.authorization

end Site

/-- A request, with what changes before it and what it meets. -/
structure Visit where
  /-- Milliseconds by which the clock moves. -/
  advance : Int
  settings : Settings → Settings
  mono : List Int
  faults : Faults
  request : WebRequest

def Site.visit (s : Site) (v : Visit) : Response × Site :=
  let s : Site := ⟨v.settings s.settings, s.world.advance v.advance⟩
  s.respond (s.world.conditions (reading v.mono) v.faults) v.request

def Site.visits (s : Site) : List Visit → List Response × Site
  | [] => ([], s)
  | v :: r =>
    let (response, s) := s.visit v
    let (responses, s) := s.visits r
    (response :: responses, s)

/-- A site opens with the tables it was given, and makes them if it is set to. -/
def Site.opened (settings : Settings) (w : World) : Site :=
  ⟨settings, { w with hasTables := w.hasTables || settings.createsTables }⟩

end WalletLogin.Web
