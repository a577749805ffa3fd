/-
  WalletLogin.Proofs.Login.Spellings — a wallet in other words is the same wallet.

  A client's words for its wallet, a kind and an address, are read once, at the start of a
  call (`identify`). Words that are read alike (`Names`) therefore make the same call, and
  two runs whose calls differ only in such words (`Event.Respells`) are one run. For an
  address of twenty bytes the words that are read alike are those that denote the same
  bytes.

  Proved:
  - `Respells.serve_eq`, `Event.Respells.outcome_eq`, `run_respelled`: what one call does,
    and what a run does.
  - `redeemed_respelled`: a challenge is redeemed in any words for its wallet.
  - `words_do_not_matter`: all of this, from the empty tables.
-/

import WalletLogin.Proofs.Login.Custody
import WalletLogin.Proofs.Wallet.Evm

namespace WalletLogin.Login

open Ledger Procedure Wallet History

/-! ## Words -/

/-- The words are read as the kind `k` and the canonical address `a`. -/
structure Names (words : Subject) (k : Kind) (a : Option String) : Prop where
  kind : Kind.read? (words.walletType.getD "") = some k
  address : k.normalize words.address = .ok a

/-- The request, with these words for its wallet. -/
def Request.naming (r : Request) (words : Subject) : Request :=
  { r with walletType := words.walletType, address := words.address }

namespace Call

def issueTo (words : Subject) (deadline : Option Int) : Call := .issue words.walletType words.address deadline

def loginBy (words : Subject) (r : Request) (deadline : Option Int) : Call := .login (r.naming words) deadline

/-- The same call, perhaps with other words for the same wallet. -/
inductive Respells : Call → Call → Prop
  | same (c : Call) : Respells c c
  | issue {words words' : Subject} {k : Kind} {a : Option String} (deadline : Option Int) :
      Names words k a → Names words' k a → Respells (issueTo words deadline) (issueTo words' deadline)
  | login {words words' : Subject} {k : Kind} {a : Option String} (r : Request) (deadline : Option Int) :
      Names words k a → Names words' k a → Respells (loginBy words r deadline) (loginBy words' r deadline)

end Call

/-- The same call under the same conditions, perhaps with other words for the same wallet. -/
structure Event.Respells (e e' : Event) : Prop where
  config : e.config = e'.config
  conditions : e.conditions = e'.conditions
  call : e.call.Respells e'.call

theorem Names.identify {words : Subject} {k : Kind} {a : Option String} (h : Names words k a) :
    identify words.walletType words.address = .ok (k, a) :=
  identify_eq_ok_iff.mpr ⟨h.kind, h.address⟩

open Text in
/-- Letter case and blanks around it do not matter to the word for the kind, and blanks
around it do not matter to the address. -/
theorem Names.respelled {words words' : Subject} {k : Kind} {a : Option String} (h : Names words k a)
    (hk : Case.lower (Blank.trim (words'.walletType.getD "").toList) =
      Case.lower (Blank.trim (words.walletType.getD "").toList))
    (ha : Blank.trim (words'.address.getD "").toList = Blank.trim (words.address.getD "").toList) : Names words' k a where
  kind := by
    rw [Kind.read?, hk]
    exact h.kind
  address := by
    rw [Kind.normalize, ha]
    exact h.address

/-! ## Calls in other words -/

section Congr

variable {cfg : Config} {env : Conditions}

/-- A challenge depends on its words by what they are read as. -/
theorem issue_congr {walletType address walletType' address' : Option String}
    (h : identify walletType address = identify walletType' address') (deadline : Option Int) :
    issue cfg env walletType address deadline = issue cfg env walletType' address' deadline := by
  unfold issue
  rw [h]

/-- So does a login, in its checks and in its work. -/
theorem login_congr {words words' : Subject}
    (h : identify words.walletType words.address = identify words'.walletType words'.address) (r : Request)
    (deadline : Option Int) : login cfg env (r.naming words) deadline = login cfg env (r.naming words') deadline := by
  have hvet : vet cfg (r.naming words) = vet cfg (r.naming words') := by
    unfold vet Request.naming
    rw [h]
  rw [login_eq, login_eq, hvet]
  rfl

theorem Call.Respells.serve_eq {c c' : Call} (h : c.Respells c') : serve cfg env c = serve cfg env c' := by
  cases h with
  | same => rfl
  | issue deadline hw hw' =>
    simp only [issueTo, serve]
    rw [issue_congr (hw.identify.trans hw'.identify.symm)]
  | login r deadline hw hw' =>
    simp only [loginBy, serve]
    rw [login_congr (hw.identify.trans hw'.identify.symm)]

end Congr

theorem Call.Respells.outcome_eq {c c' : Call} (h : c.Respells c') (cfg : Config) (env : Conditions) (t : Tables) :
    (Event.mk cfg env c).outcome t = (Event.mk cfg env c').outcome t := by
  unfold Event.outcome
  rw [h.serve_eq]

theorem Event.Respells.outcome_eq {e e' : Event} (h : e.Respells e') (t : Tables) : e.outcome t = e'.outcome t := by
  obtain ⟨cfg, env, c⟩ := e
  obtain ⟨cfg', env', c'⟩ := e'
  obtain ⟨rfl, rfl, hc⟩ := h
  exact Call.Respells.outcome_eq hc cfg env t

/-- Two runs whose calls differ in words for the same wallets answer alike and leave the
same tables. -/
theorem run_respelled {es es' : List Event} (h : List.Forall₂ Event.Respells es es') (t : Tables) :
    run es t = run es' t := by
  induction h generalizing t with
  | nil => rfl
  | cons he _ ih =>
    simp only [run]
    rw [he.outcome_eq, ih]

/-! ## Challenges in other words -/

/-- A challenge that was answered is stored, under the nonce and for the time that it tells. -/
theorem challenges_of_answer {t : Tables} (hd : t.NoncesDiffer) {cfg : Config} {env : Conditions}
    {walletType address : Option String} {deadline : Option Int} {c : Challenge}
    (ha : ((Event.mk cfg env (.issue walletType address deadline)).outcome t).answer = .ok (.challenge c)) :
    c = ⟨env.nonce, Message.current env.nonce, env.wall 0 + cfg.nonceTtl⟩ ∧
      ∃ o, Challenges cfg env walletType address o t
        ((Event.mk cfg env (.issue walletType address deadline)).outcome t).tables := by
  have hends : Ends (serve cfg env (.issue walletType address deadline)) (Session.opened t env.faults)
      (fun a s' => ∃ c o t', a = .challenge c ∧ c = ⟨env.nonce, Message.current env.nonce, env.wall 0 + cfg.nonceTtl⟩ ∧
        Challenges cfg env walletType address o t t' ∧ s'.At env.faults.Quiet t' t') (fun _ _ => True) := by
    simp only [serve, ends_map]
    refine (issue_ends (Session.at_opened t env.faults) hd cfg env walletType address deadline).mono
      (fun c s' h' => ?_) fun _ _ _ => trivial
    obtain ⟨hc, o, t', hch, h'⟩ := h'
    exact ⟨c, o, t', rfl, hc, hch, h'⟩
  unfold Event.outcome at ha ⊢
  obtain ⟨s, ht, ⟨a, ha', c', o, t', rfl, hc, hch, hs⟩ | ⟨f, hf, -⟩⟩ := perform_ends hends
  · cases ha.symm.trans ha'
    rw [ht, hs.stored]
    exact ⟨hc, o, hch⟩
  · cases ha.symm.trans hf

/-- The wallet made the request's signature over one of the challenge's two messages. -/
def Signs (k : Kind) (a : String) (c : Challenge) (r : Request) : Prop :=
  k.verify a c.message (trimmed r.signature) r.publicKey = true ∨
    k.verify a (Message.legacy c.nonce) (trimmed r.signature) r.publicKey = true

/-- On these tables the challenge is redeemed in these words: a login that carries its nonce
and the signature of the wallet `k`, `a` logs that wallet in, while the challenge is in time
and nothing else is in the way. -/
def IsRedeemedIn (t : Tables) (words : Subject) (k : Kind) (a : String) (c : Challenge) : Prop :=
  ∀ cfg env r deadline, trimmed r.nonce = c.nonce → c.nonce ≠ "" → Signs k a c r →
    Unhindered env.faults.Quiet cfg env deadline t → env.wall 0 < c.expiresAt →
    ∃ res, ((Event.mk cfg env (.loginBy words r deadline)).outcome t).answer = .ok (.result res) ∧
      res.wallet.owner = ⟨k.name, a⟩

/-- A challenge that was answered in some words was for a wallet with an address, and its
row waits for a login of that wallet, in any words for it. -/
theorem redeemed_respelled (es : List Event) {words words' : Subject} {k : Kind} {a : Option String}
    (hw : Names words k a) (hw' : Names words' k a) {cfg : Config} {env : Conditions} {deadline : Option Int} {c : Challenge}
    (ha : ((Event.mk cfg env (.issueTo words deadline)).outcome (after Event.outcome es)).answer = .ok (.challenge c)) :
    ∃ x, a = some x ∧ ∀ fs, NoneSigned fs (challengeRow cfg env ⟨k.name, x⟩) →
      IsRedeemedIn (after Event.outcome (es ++ [⟨cfg, env, .issueTo words deadline⟩] ++ fs)) words' k x c := by
  obtain ⟨rfl, ⟨w, x⟩, ⟨k', hk', rfl : w = k'.name⟩, -, hstored⟩ := challenges_of_answer (sound_after es).differ ha
  -- the words were read once for the row, and are read here to the same wallet
  obtain ⟨rfl, rfl⟩ : k = k' ∧ a = some x := by simpa using hw.identify.symm.trans hk'
  have hrow : challengeRow cfg env ⟨k.name, x⟩ ∈ (after Event.outcome (es ++ [⟨cfg, env, .issueTo words deadline⟩])).nonces := by
    have ht : ((Event.mk cfg env (.issueTo words deadline)).outcome (after Event.outcome es)).tables = _ := hstored
    rw [after_snoc, ht]
    exact List.mem_append_right _ (List.mem_singleton_self _)
  refine ⟨x, rfl, fun fs hf => ?_⟩
  intro cfg' env' r deadline' hn hne hsigns hu htime
  -- the login that redeems the row is signed for its wallet, whatever it calls it
  have hsigned : SignedFor (r.naming words') k (challengeRow cfg env ⟨k.name, x⟩) := ⟨rfl, hw'.identify, hn, hsigns⟩
  exact (sound_after _).owner_logs_in (after_keeps_row hrow fs hf) rfl hne hsigned hu htime

/-- Words that are read alike make the same call: it has the same answer and the same effect
on all tables, and runs in which such words are exchanged for each other are the same run.
A challenge that was answered in some words, in a state that the service reaches, is
redeemed in the others, whatever calls without the wallet's signature come between. Two
texts of an evm address are read alike exactly when they denote the same twenty bytes, and
what they are read as is 0x and forty digits in lower case. -/
theorem words_do_not_matter :
    (∀ words words' k a, Names words k a → Names words' k a →
      (∀ cfg env deadline t, (Event.mk cfg env (.issueTo words deadline)).outcome t =
        (Event.mk cfg env (.issueTo words' deadline)).outcome t) ∧
      (∀ cfg env r deadline t, (Event.mk cfg env (.loginBy words r deadline)).outcome t =
        (Event.mk cfg env (.loginBy words' r deadline)).outcome t) ∧
      ∀ es cfg env deadline c,
        ((Event.mk cfg env (.issueTo words deadline)).outcome (run es Tables.empty).2).answer = .ok (.challenge c) →
        ∃ x, a = some x ∧ ∀ fs, NoneSigned fs (challengeRow cfg env ⟨k.name, x⟩) →
          IsRedeemedIn (run (es ++ [⟨cfg, env, .issueTo words deadline⟩] ++ fs) Tables.empty).2 words' k x c) ∧
    (∀ es es', List.Forall₂ Event.Respells es es' → ∀ t, run es t = run es' t) ∧
    (∀ raw b b', Evm.Denotes raw b → Evm.Denotes raw b' → b = b') ∧
    (∀ raw raw', (∃ r, Kind.normalize .evm raw = .ok r ∧ Kind.normalize .evm raw' = .ok r) ↔
      ∃ b, Evm.Denotes raw b ∧ Evm.Denotes raw' b) ∧
    ∀ raw r, Kind.normalize .evm raw = .ok r → ∃ y, r = some y ∧ Evm.IsText y := by
  refine ⟨fun words words' k a hw hw' => ⟨?_, ?_, ?_⟩, fun es es' h t => run_respelled h t,
    fun raw b b' => Evm.Denotes.unique, fun raw raw' => Evm.normalize_alike_iff, fun raw r => Evm.isText_of_normalize⟩
  · intro cfg env deadline t
    exact (Call.Respells.issue deadline hw hw').outcome_eq cfg env t
  · intro cfg env r deadline t
    exact (Call.Respells.login r deadline hw hw').outcome_eq cfg env t
  · intro es cfg env deadline c ha
    rw [run_tables] at ha
    simp only [run_tables]
    exact redeemed_respelled es hw hw' ha

/-! ## A challenge asked for in capitals -/

namespace Respelled

open FirstLogin (config conditions request address unhindered)

def plain : Subject := ⟨some "solana", some address⟩

def capitals : Subject := ⟨some " SOLANA\n", some "\tEjija96QuS9y1KfC22m8bXDg5ZWE5EMSqg43xos2XLe3 "⟩

theorem names_plain : Names plain .solana (some address) :=
  have h := identify_eq_ok_iff.mp FirstLogin.presents.named
  ⟨h.1, h.2⟩

theorem names_capitals : Names capitals .solana (some address) := names_plain.respelled (by decide) (by decide)

def asks : Event := ⟨config, conditions 0, .issueTo capitals none⟩

def answers : Event := ⟨config, conditions 5, .loginBy plain request none⟩

def challenge : Challenge := ⟨"abc123", Message.current "abc123", 600⟩

theorem asks_ends : asks.outcome Tables.empty = FirstLogin.asks.outcome Tables.empty :=
  (Call.Respells.issue none names_capitals names_plain).outcome_eq config (conditions 0) Tables.empty

theorem asks_answer : (asks.outcome Tables.empty).answer = .ok (.challenge challenge) := by
  have hy : Yields (issue config (conditions 0) plain.walletType plain.address none) Tables.empty (.ok challenge) _ :=
    yields_issue (expired_none _) (by decide) (by decide) sound_empty.differ names_plain.identify rfl
  rw [asks_ends]
  exact (outcome_of_yields (hy.map Answer.challenge) Faults.quiet_default).1

theorem after_asks : after Event.outcome [asks] = after Event.outcome [FirstLogin.asks] :=
  congrArg Outcome.tables asks_ends

/-- The number 10 as an address. -/
def ten : Bytes := List.replicate 19 0 ++ [10]

def hexCapitals : String := " 0X000000000000000000000000000000000000000A"

def hexPlain : String := "000000000000000000000000000000000000000a\n"

theorem denotes_ten : Evm.Denotes (some hexCapitals) ten ∧ Evm.Denotes (some hexPlain) ten :=
  ⟨⟨rfl, Encoding.Hex.decodeMarked?_eq_some_iff.mp (by decide)⟩,
    ⟨rfl, Encoding.Hex.decodeMarked?_eq_some_iff.mp (by decide)⟩⟩

/-- The login, in the words of the challenge. -/
def answersInCapitals : Event := ⟨config, conditions 5, .loginBy capitals request none⟩

theorem calls_respelled : List.Forall₂ Event.Respells [asks, answers] [FirstLogin.asks, answersInCapitals] :=
  .cons ⟨rfl, rfl, .issue none names_capitals names_plain⟩
    (.cons ⟨rfl, rfl, .login request none names_plain names_capitals⟩ .nil)

theorem unhindered_answers : Unhindered (conditions 5).faults.Quiet config (conditions 5) none (after Event.outcome [asks]) := by
  rw [after_asks]
  exact unhindered Faults.quiet_default (fun _ => rfl) (FirstLogin.newUser_asks 5) (by decide) (by decide) (by decide)

end Respelled

open Respelled in
/-- A challenge that was asked for in capitals is redeemed in plain words, and the run is that
of the words exchanged. Two texts of an evm address are read alike. -/
theorem capitals_get_a_challenge_for_plain_words :
    (asks.outcome Tables.empty).answer = .ok (.challenge challenge) ∧
      (∃ res, (answers.outcome (run [asks] Tables.empty).2).answer = .ok (.result res) ∧
        res.wallet.owner = ⟨"solana", FirstLogin.address⟩) ∧
      run [asks, answers] Tables.empty = run [FirstLogin.asks, answersInCapitals] Tables.empty ∧
      ∃ r, Kind.normalize .evm (some hexCapitals) = .ok r ∧ Kind.normalize .evm (some hexPlain) = .ok r := by
  obtain ⟨hwords, hruns, -, halike, -⟩ := words_do_not_matter
  obtain ⟨-, -, hredeemed⟩ := hwords capitals plain _ _ names_capitals names_plain
  obtain ⟨x, hx, hwaits⟩ := hredeemed [] FirstLogin.config (FirstLogin.conditions 0) none challenge asks_answer
  obtain rfl := Option.some.inj hx
  have hlogs := hwaits [] (fun e he => by cases he) FirstLogin.config (FirstLogin.conditions 5) FirstLogin.request none rfl
    (by decide) (isSigned_iff.mp FirstLogin.presents.signed) (by rw [run_tables]; exact unhindered_answers) (by decide)
  exact ⟨asks_answer, hlogs, hruns _ _ calls_respelled _, (halike _ _).mpr ⟨ten, denotes_ten⟩⟩

end WalletLogin.Login
