/-
  WalletLogin.Proofs.Web.Visits — the site's visits as calls of the service.

  A visit makes one call or none, whatever its route, its body and its settings; so what
  visits leave of the tables is what some run of calls leaves (`visits_tables`), and what
  holds after every run holds after every visit. Visits neither make tables nor lose them
  (`visits_hasTables`).
-/

import WalletLogin.Proofs.Login.Continuity
import WalletLogin.Web.Site

namespace WalletLogin.Web

open Login Ledger

namespace Site

variable (s : Site)

theorem perform_tables {α : Type} (env : Conditions) (f : α → Response) (work : Procedure α) :
    (s.perform env f work).2.world.tables = (Login.perform work env.faults s.world.tables).tables := rfl

/-- The site is left with the tables as they were, or as one call leaves them. -/
def Steps (s s' : Site) : Prop :=
  s'.world.hasTables = s.world.hasTables ∧
    (s'.world.tables = s.world.tables ∨ ∃ e : Event, s'.world.tables = (e.outcome s.world.tables).tables)

/-- The calls of a site, with the answers they take, are calls of the service. -/
theorem steps_of_call {α : Type} (env : Conditions) (f : α → Response) {work : Procedure α} {e : Event} {g : α → Answer}
    (h : serve e.config e.conditions e.call = g <$> work) (hf : e.conditions.faults = env.faults) :
    Steps s (s.perform env f work).2 := by
  refine ⟨rfl, Or.inr ⟨e, ?_⟩⟩
  rw [perform_tables, Event.outcome, h, Procedure.perform_map, hf]

theorem challenge_steps (env : Conditions) (fields : List (String × Json)) : Steps s (s.challenge env fields).2 :=
  s.steps_of_call env _ (e := ⟨config s.settings, later env, .issue (member? fields "wallet_type")
    (member? fields "address") (deadline (env.mono 0) s.settings.timeout)⟩) (serve.eq_1 _ _ _ _ _) rfl

theorem verify_steps (env : Conditions) (fields : List (String × Json)) : Steps s (s.verify env fields).2 :=
  s.steps_of_call env _ (e := ⟨config s.settings, later env, .login ⟨member? fields "wallet_type", member? fields "address",
    member? fields "nonce", member? fields "signature", member? fields "public_key"⟩
    (deadline (env.mono 0) s.settings.timeout)⟩) (serve.eq_2 _ _ _ _) rfl

theorem me_steps (env : Conditions) (authorization : Option String) : Steps s (s.me env authorization).2 := by
  unfold me
  split
  case h_1 => exact ⟨rfl, Or.inl rfl⟩
  case h_2 claims _ =>
    exact s.steps_of_call env _ (e := ⟨config s.settings, env, .profile (member? claims "sub")⟩) (serve.eq_3 _ _ _) rfl

theorem withBody_steps (m : Model) (body : String) {f : List (String × Json) → Response × Site}
    (hf : ∀ fields, Steps s (f fields).2) : Steps s (s.withBody m body f).2 := by
  unfold withBody
  split
  case h_1 => exact ⟨rfl, Or.inl rfl⟩
  case h_2 => exact hf _

theorem respond_steps (env : Conditions) (r : WebRequest) : Steps s (s.respond env r).2 := by
  have hnothing : Steps s s := ⟨rfl, Or.inl rfl⟩
  unfold respond
  split
  case h_1 => exact hnothing
  case h_2 route _ =>
    split
    case isTrue => exact hnothing
    case isFalse =>
      cases route with
      | health => exact hnothing
      | nonce => exact s.withBody_steps _ _ (s.challenge_steps env)
      | verify => exact s.withBody_steps _ _ (s.verify_steps env)
      | me => exact s.me_steps env _

/-- Neither the settings nor the clock are part of the tables. -/
theorem Steps.moved {s s' : Site} {settings : Settings} {ms : Int} (h : Steps ⟨settings, s.world.advance ms⟩ s') :
    Steps s s' := ⟨h.1, h.2⟩

theorem visit_steps (v : Visit) : Steps s (s.visit v).2 := by
  rw [visit]
  exact (respond_steps _ _ _).moved

theorem visits_nil : (s.visits []).2 = s := rfl

theorem visits_cons (v : Visit) (vs : List Visit) : (s.visits (v :: vs)).2 = ((s.visit v).2.visits vs).2 := by
  rw [visits]

end Site

theorem visits_hasTables (s : Site) (vs : List Visit) : (s.visits vs).2.world.hasTables = s.world.hasTables := by
  induction vs generalizing s with
  | nil => rfl
  | cons v vs ih => rw [s.visits_cons, ih, (s.visit_steps v).1]

/-- What visits leave, a run of calls leaves. -/
theorem visits_tables (s : Site) (vs : List Visit) :
    ∃ es : List Event, (s.visits vs).2.world.tables = (run es s.world.tables).2 := by
  induction vs generalizing s with
  | nil => exact ⟨[], rfl⟩
  | cons v vs ih =>
    obtain ⟨es, hes⟩ := ih (s.visit v).2
    rw [s.visits_cons, hes]
    rcases (s.visit_steps v).2 with ht | ⟨e, ht⟩
    · exact ⟨es, by rw [ht]⟩
    · refine ⟨e :: es, ?_⟩
      rw [ht, (run_eq _ _).1, (run_eq _ _).1, List.foldl_cons]

end WalletLogin.Web
