/-
  WalletLogin.Proofs.Web.Access — what the token of a login opens.

  A token says whom it was issued to, from when on and until when; the user's row and its
  one wallet stay, whatever calls and visits come after the login. So the profile route
  answers a token by the clock alone: with the user and the wallet of the login while the
  token is in force, and with a refusal when it is not. A token that expires before it is
  issued is never in force.

  Proved:
  - `caller_of_carries`: the caller that a header with an issued token names, at every time.
  - `caller_let_in_iff`: somebody can be let in if and only if some claims can be signed.
  - `profile_of_owner`: the profile of a user that has logged in.
  - `tokens_open_the_profile`: the answers of the profile route to the token of a login,
    after any calls and visits.
  A clock that was set back behind the issue is told of before the expiry
  (`a_clock_set_back_hides_the_expiry`).
-/

import WalletLogin.Proofs.Login.Admission
import WalletLogin.Proofs.Token.Bearer
import WalletLogin.Proofs.Token.Secret
import WalletLogin.Proofs.Web.Responses
import WalletLogin.Proofs.Web.Visits

namespace WalletLogin.Web

open Login Ledger Token History

/-! ## The caller -/

/-- Of a header that carries an issued token only the clock is left to judge. -/
theorem caller_of_carries {s : Settings} {token header : String} {c : Token.Claims}
    (h : Token.Issue.issue s.secret s.algorithm c = .ok token) (hc : Bearer.Carries token header) (clock : Int) :
    caller s (some header) clock =
      if clock < c.issuedAt * 1000 then .error (.token (.rejected .invalid))
      else if c.expiresAt * 1000 ≤ clock then .error (.token (.rejected .expired))
      else .ok c.fields := by
  have hcheck := Check.check_issued h clock
  obtain ⟨hs, -, a, -, rfl⟩ := Token.Issue.issue_eq_ok_iff.mp h
  rw [caller, if_neg hs, Bearer.extract_of_carries hc]
  dsimp only
  rw [hcheck]
  split_ifs <;> rfl

theorem caller_eq_ok_iff {s : Settings} {header : Option String} {clock : Int} {claims : List (String × Json)} :
    caller s header clock = .ok claims ↔ s.secret ≠ "" ∧ ∃ token, Bearer.extract header = .ok token ∧
      Check.check token s.secret s.algorithm clock = .ok claims := by
  unfold caller
  split_ifs with hs
  · simp [hs]
  · cases Bearer.extract header with
    | error f => simp
    | ok token => cases h : Check.check token s.secret s.algorithm clock <;> simp [hs, h]

/-- Somebody can be let in if and only if some claims can be signed. -/
theorem caller_let_in_iff (s : Settings) : (∃ header clock claims, caller s header clock = .ok claims) ↔
    ∃ c token, Issue.issue s.secret s.algorithm c = .ok token := by
  constructor
  · rintro ⟨header, clock, claims, h⟩
    obtain ⟨-, token, -, hcheck⟩ := caller_eq_ok_iff.mp h
    obtain ⟨a, ha⟩ := Check.exists_prepare_of_ok hcheck
    exact ⟨_, _, Issue.issue_ofFirstSecond ha⟩
  · rintro ⟨c, token, h⟩
    obtain ⟨-, -, a, ha, -⟩ := Issue.issue_eq_ok_iff.mp h
    have hblanks : Bearer.Blanks [] := fun _ hc => by cases hc
    have hcarries : Bearer.Carries (Issue.token a s.secret .ofFirstSecond) _ := .plain hblanks hblanks
    refine ⟨_, 0, Claims.ofFirstSecond.fields, (caller_of_carries (Issue.issue_ofFirstSecond ha) hcarries 0).trans ?_⟩
    rw [if_neg (by decide), if_neg (by decide)]

theorem member?_sub (c : Token.Claims) : member? c.fields "sub" = some c.user := by
  simp [member?, Token.Claims.fields, Json.find?, Json.text?]

/-! ## The profile -/

namespace Site

variable (s : Site)

/-- Where no fault is planned, a profile is the user's row with the user's wallets. -/
theorem perform_profile {env : Conditions} (hq : env.faults.Quiet) (userId : Option String) :
    (s.perform env profileResponse (Users.profile userId)).1 =
      profileResponse ((userId.bind s.world.tables.findUser?).map fun u => ⟨u, s.world.tables.walletsOf u.id⟩) := by
  have hends := profile_ends (Session.at_opened s.world.tables env.faults) userId
  show answered profileResponse (Login.perform (Users.profile userId) env.faults s.world.tables).answer = _
  obtain ⟨_, -, ⟨p, hp, rfl, -⟩ | ⟨f, -, -, hno, -⟩⟩ := Procedure.perform_ends hends
  · rw [hp, answered]
  · exact absurd hq hno

/-- A request for the profile is answered by its header alone, whatever its body. -/
theorem respond_me (env : Conditions) {r : WebRequest} (hr : Route.ofTarget? r.target = some .me) (hm : r.method = "GET") :
    s.respond env r = s.me env r.authorization := by
  rw [respond, hr]
  simp [hm, Route.method]

/-- What the profile route says to an issued token, at every time. -/
theorem me_of_carries {env : Conditions} (hq : env.faults.Quiet) {token header : String} {c : Token.Claims}
    (h : Token.Issue.issue s.settings.secret s.settings.algorithm c = .ok token) (hc : Bearer.Carries token header) :
    (s.me env (some header)).1 =
      if s.world.clock < c.issuedAt * 1000 then .words 401 "Invalid token"
      else if c.expiresAt * 1000 ≤ s.world.clock then .words 401 "Token expired"
      else profileResponse ((s.world.tables.findUser? c.user).map fun u => ⟨u, s.world.tables.walletsOf u.id⟩) := by
  rw [me, caller_of_carries h hc]
  split_ifs
  · rfl
  · rfl
  · exact (s.perform_profile hq _).trans (by rw [member?_sub]; rfl)

/-- A database that works, works through a visit. -/
theorem quiet_conditions {w : World} (hw : w.hasTables = true) {f : Faults} (hf : f.Quiet) (mono : Nat → Int) :
    (w.conditions mono f).faults.Quiet :=
  ⟨hf.plan, hf.finds, by simp [World.conditions, hw]⟩

/-- What a visit to the profile route with an issued token is told. -/
theorem visit_me (hmade : s.world.hasTables = true) {v : Visit} (hquiet : v.faults.Quiet)
    (hroute : Route.ofTarget? v.request.target = some .me) (hmethod : v.request.method = "GET") {token header : String}
    (hheader : v.request.authorization = some header) (hcarries : Bearer.Carries token header) {c : Token.Claims}
    (h : Token.Issue.issue (v.settings s.settings).secret (v.settings s.settings).algorithm c = .ok token) :
    (s.visit v).1 =
      if s.world.clock + v.advance < c.issuedAt * 1000 then .words 401 "Invalid token"
      else if c.expiresAt * 1000 ≤ s.world.clock + v.advance then .words 401 "Token expired"
      else profileResponse ((s.world.tables.findUser? c.user).map fun u => ⟨u, s.world.tables.walletsOf u.id⟩) := by
  rw [visit, respond_me _ _ hroute hmethod, hheader]
  have hworks : ((s.world.advance v.advance).conditions (reading v.mono) v.faults).faults.Quiet :=
    quiet_conditions hmade hquiet (reading v.mono)
  exact me_of_carries ⟨v.settings s.settings, s.world.advance v.advance⟩ hworks h hcarries

end Site

/-! ## After a login -/

/-- The user and the one wallet of a login stay, whatever calls come after it. -/
theorem profile_of_owner (es : List Event) {e : Event} {r : Request} {deadline : Option Int} {res : Result}
    (hcall : e.call = .login r deadline) (hres : (e.outcome (run es Tables.empty).2).answer = .ok (.result res))
    (fs : List Event) :
    let t := (run (es ++ e :: fs) Tables.empty).2
    Token.Issue.issue e.config.secret e.config.algorithm (claims e.config res.user res.wallet (e.conditions.wall 2)) =
        .ok res.token ∧
      ∃ k a u w, identify r.walletType r.address = .ok (k, some a) ∧ res.user.Lasts u ∧
        t.findUser? res.user.id = some u ∧ t.walletsOf u.id = [w] ∧ w.owner = ⟨k.name, a⟩ := by
  intro t
  rw [run_tables] at hres
  obtain ⟨⟨name, a⟩, hl⟩ := (sound_after es).logsIn hcall hres
  rw [← after_snoc] at hl
  obtain ⟨k, hp, rfl⟩ := hl.presented
  have hacc := (sound_after (es ++ [e])).accounts
  obtain ⟨hwallet, hown⟩ := Tables.mem_of_findWallet? hl.holds.wallet
  obtain ⟨huser, hid⟩ := hacc.findUser?_iff.mp hl.holds.user
  have ht : t = after Event.outcome (es ++ [e] ++ fs) := by
    show (run (es ++ e :: fs) Tables.empty).2 = _
    rw [run_tables, List.append_assoc, List.singleton_append]
  have hkeeps : Tables.Retains (after Event.outcome (es ++ [e])) t := ht ▸ after_append Tables.Retains.refl
    Tables.Retains.trans (fun es e => (outcome_spec (sound_after es) e).leaves.retains) (es ++ [e]) fs
  have hacc' : t.Accounts := ht ▸ (sound_after _).accounts
  obtain ⟨u, hu, hlast⟩ := hkeeps.users _ huser
  obtain ⟨w, hw, hwlast⟩ := hkeeps.wallets _ hwallet
  refine ⟨sign_eq_ok_iff.mp hl.token, k, a, u, w, hp.named, hlast, ?_, ?_, hwlast.owner.trans hown⟩
  · exact hacc'.findUser?_iff.mpr ⟨hu, hlast.id⟩
  · rw [hlast.id, hid, ← hwlast.userId]
    exact hacc'.walletsOf hw

/-- A token from a login, after any further calls and any visits to a site with these
tables, under the secret and the algorithm that signed it, and with a database that works:
the profile route takes it from every header that carries it. While it is in force, the
answer is the user of the login with its role and its one wallet, that of the login. Once
it has expired the answer says so, and before its issue it is invalid, expired or not. -/
theorem tokens_open_the_profile (es fs : List Event) {e : Event} {r : Request} {deadline : Option Int} {res : Result}
    (hcall : e.call = .login r deadline) (hres : (e.outcome (run es Tables.empty).2).answer = .ok (.result res))
    {s : Site} (hstored : s.world.tables = (run (es ++ e :: fs) Tables.empty).2) (hmade : s.world.hasTables = true)
    (vs : List Visit) {v : Visit} (hquiet : v.faults.Quiet)
    (hsecret : (v.settings (s.visits vs).2.settings).secret = e.config.secret)
    (halgorithm : (v.settings (s.visits vs).2.settings).algorithm = e.config.algorithm)
    (hroute : Route.ofTarget? v.request.target = some .me) (hmethod : v.request.method = "GET")
    {header : String} (hheader : v.request.authorization = some header) (hcarries : Bearer.Carries res.token header) :
    let answer := ((s.visits vs).2.visit v).1
    let clock := (s.visits vs).2.world.clock + v.advance
    let issued := e.conditions.wall 2 * 1000
    let expires := (e.conditions.wall 2 + e.config.tokenTtl) * 1000
    (∃ k a u, identify r.walletType r.address = .ok (k, some a) ∧
      (s.visits vs).2.world.tables.findUser? res.user.id = some u ∧ res.user.Lasts u ∧
      (issued ≤ clock → clock < expires → answer = ⟨200, .object [("id", .text res.user.id), ("role", .text u.role),
        ("wallets", .list [.object [("wallet_type", .text k.name), ("address", .text a)]])]⟩)) ∧
    (issued ≤ clock → expires ≤ clock → answer = .words 401 "Token expired") ∧
    (clock < issued → answer = .words 401 "Invalid token") := by
  intro answer clock issued expires
  obtain ⟨gs, hgs⟩ := visits_tables s vs
  rw [hstored, (run_eq gs _).1, run_tables, after, ← List.foldl_append, ← after, ← run_tables, List.append_assoc,
    List.cons_append] at hgs
  obtain ⟨htoken, k, a, u, w, hnamed, hlast, huser, hwallets, howner⟩ := profile_of_owner es hcall hres (fs ++ gs)
  rw [← hgs] at huser hwallets
  have hanswer : answer = if clock < issued then .words 401 "Invalid token"
      else if expires ≤ clock then .words 401 "Token expired"
      else profileResponse (some ⟨u, [w]⟩) := by
    have hvisit := (s.visits vs).2.visit_me ((visits_hasTables s vs).trans hmade) hquiet hroute hmethod hheader hcarries
      (by rw [hsecret, halgorithm]; exact htoken)
    rwa [show (claims e.config res.user res.wallet (e.conditions.wall 2)).user = res.user.id from rfl, huser,
      Option.map_some, hwallets] at hvisit
  refine ⟨⟨k, a, u, hnamed, huser, hlast, fun hfrom hto => ?_⟩, fun hfrom hto => ?_, fun hbefore => ?_⟩
  · rw [hanswer, if_neg (by omega), if_neg (by omega), profileResponse_some, ← hlast.id]
    simp [walletJson, howner]
  · rw [hanswer, if_neg (by omega), if_pos hto]
  · rw [hanswer, if_pos hbefore]

/-! ## A first visit -/

namespace FirstVisit

open FirstLogin (asks answers conditions request)

/-- The header of a client that writes the word in capitals. -/
def header (token : String) : String := "BEARER " ++ token

theorem carries (token : String) : Bearer.Carries token (header token) := by
  have hparts : header token =
      String.ofList ([] ++ ("BEARER".toList ++ ' ' :: ([] ++ token.toList)) ++ []) := by
    apply String.toList_injective
    simp [header, String.toList_append]
  rw [hparts]
  exact .bearer (fun c hc => by cases hc) (by decide) (fun c hc => by cases hc) (fun c hc => by cases hc)

/-- The site after the calls, at the second 0, with the secret of the calls. -/
def site (es : List Event) : Site := ⟨{ secret := "secret" }, ⟨(run es Tables.empty).2, true, 0, ⟨[], 0, 0⟩⟩⟩

theorem site_tables (es : List Event) : (site es).world.tables = (run es Tables.empty).2 := rfl

/-- A look at the profile, after some milliseconds. -/
def visit (ms : Int) (token : String) : Visit := ⟨ms, id, [], {}, ⟨"GET", "/auth/me", some (header token), ""⟩⟩

theorem route : Route.ofTarget? "/auth/me" = some .me := by decide +kernel

end FirstVisit

/-- The token of the first login, issued at the second 1, opens the profile at the second 5
and has expired by the second 901. -/
theorem a_first_login_opens_its_profile : ∃ res,
    ((FirstLogin.answers 1).outcome (run [FirstLogin.asks] Tables.empty).2).answer = .ok (.result res) ∧
      (((FirstVisit.site FirstLogin.calls).visit (FirstVisit.visit 5000 res.token)).1).status = 200 ∧
      ((FirstVisit.site FirstLogin.calls).visit (FirstVisit.visit 901000 res.token)).1 = .words 401 "Token expired" := by
  obtain ⟨res, o, ha, -⟩ := FirstLogin.logs_in
  have hres : ((FirstLogin.answers 1).outcome (run [FirstLogin.asks] Tables.empty).2).answer = .ok (.result res) := by
    rw [run_tables]
    exact ha.2
  have hstored : (FirstVisit.site FirstLogin.calls).world.tables =
      (run ([FirstLogin.asks] ++ FirstLogin.answers 1 :: []) Tables.empty).2 := by
    rw [FirstVisit.site_tables, FirstLogin.calls_eq]
  have hvisit (ms : Int) := tokens_open_the_profile [FirstLogin.asks] [] rfl hres hstored rfl []
    (v := FirstVisit.visit ms res.token) Faults.quiet_default rfl rfl FirstVisit.route rfl rfl (FirstVisit.carries _)
  simp only [Site.visits_nil] at hvisit
  obtain ⟨⟨k, a, u, -, -, -, hopen⟩, -, -⟩ := hvisit 5000
  obtain ⟨-, hexpired, -⟩ := hvisit 901000
  have hfrom : (1 : Int) * 1000 ≤ 0 + 5000 ∧ (1 : Int) * 1000 ≤ 0 + 901000 := by decide
  have hto : (0 : Int) + 5000 < (1 + 900) * 1000 ∧ ((1 : Int) + 900) * 1000 ≤ 0 + 901000 := by decide
  refine ⟨res, hres, ?_, hexpired hfrom.2 hto.2⟩
  rw [hopen hfrom.1 hto.1]

namespace EarlyExpiry

open FirstLogin (asks conditions request)

/-- A login at the second 0, under a configuration whose tokens expire before they are
issued. -/
def call : Event := ⟨{ FirstLogin.config with tokenTtl := -10 }, conditions 0, .login request none⟩

theorem call_succeeds : ∃ res, (call.outcome (run [asks] Tables.empty).2).answer = .ok (.result res) := by
  have hu : Unhindered (conditions 0).faults.Quiet call.config (conditions 0) none (after Event.outcome [asks]) := by
    refine ⟨Faults.quiet_default, by decide, ⟨expired_none _, expired_none _⟩, FirstLogin.newUser_asks 0, fun u w => ?_⟩
    have hi : Token.Issue.fits 0 = true := by decide
    have hx : Token.Issue.fits (0 + -10) = true := by decide
    exact ⟨_, sign_eq_ok_iff.mpr (FirstLogin.signs hi hx)⟩
  obtain ⟨res, ha, -⟩ := (sound_after [asks]).login_succeeds hu FirstLogin.presents (FirstLogin.redeemable (by decide))
  rw [run_tables]
  exact ⟨res, ha⟩

end EarlyExpiry

/-- A clock that was set back before the issue of a token is told of first: the token has
expired, and the answer is that it is invalid. -/
theorem a_clock_set_back_hides_the_expiry : ∃ res,
    (EarlyExpiry.call.outcome (run [FirstLogin.asks] Tables.empty).2).answer = .ok (.result res) ∧
      (EarlyExpiry.call.conditions.wall 2 + EarlyExpiry.call.config.tokenTtl) * 1000 ≤ -5000 ∧
      ((FirstVisit.site [FirstLogin.asks, EarlyExpiry.call]).visit (FirstVisit.visit (-5000) res.token)).1 =
        .words 401 "Invalid token" := by
  obtain ⟨res, hres⟩ := EarlyExpiry.call_succeeds
  obtain ⟨htoken, -⟩ := profile_of_owner [FirstLogin.asks] rfl hres []
  have hexpires : (0 + -10) * 1000 ≤ (-5000 : Int) := by decide
  have hbefore : 0 + -5000 < (0 : Int) * 1000 := by decide
  have hvisit := (FirstVisit.site [FirstLogin.asks, EarlyExpiry.call]).visit_me rfl (v := FirstVisit.visit (-5000) res.token)
    Faults.quiet_default FirstVisit.route rfl rfl (FirstVisit.carries _) htoken
  exact ⟨res, hres, hexpires, hvisit.trans (if_pos hbefore)⟩

end WalletLogin.Web
