/-
  WalletLogin.Proofs.Login.Keys — what a stored key says of the wallet that it is stored
  with.

  A key is checked as the client wrote it, and stored without the blanks around it. What
  the check reads does not depend on these blanks: the reader of a cardano key trims, and
  a solana key that is not blank has to be the text of the address, which has no other.

  Proved:
  - `Presents.shows`: what the check of a login says of the key that it stores.
  - `Settles.wallet_cases`, `Leaves.keyed`: a call leaves every wallet with the key it had
    or with the key of the login it answers.
  - `stored_keys_show_ownership`: so in every state that is reached a cardano key hashes
    to the payment part of its address, and a solana key is its address or blank.
-/

import WalletLogin.Proofs.Login.Continuity
import WalletLogin.Proofs.Wallet.Ownership
import WalletLogin.Proofs.Wallet.Solana

namespace WalletLogin

open Ledger Wallet Encoding Text Login.History

/-! ## Keys that are checked -/

namespace Wallet.Solana

/-- A key beside the address is blank, or the address up to blanks. -/
theorem trim_of_admitsKey {a k : List Char} (h : admitsKey a (some k) = true) : Blank.trim k = [] ∨ Blank.trim k = a := by
  rw [admitsKey, Bool.or_eq_true] at h
  rcases h with h | h
  · exact .inl (Blank.trim_eq_nil_iff.mpr (List.all_eq_true.mp h))
  · right
    split at h
    case h_2 => cases h
    case h_1 y hy =>
      obtain ⟨htext, key, hl, rfl⟩ := normalize_eq_ok_iff.mp hy
      rw [decide_eq_true_eq] at h
      rw [← h]
      exact Blank.trim_of_trimRight htext (encode_key_ne_nil hl) fun c hc =>
        (Base58.isVisible_of_mem_encode (List.mem_of_mem_head? hc)).isBlank

theorem admitsKey_of_verify {a s : List Char} {m : Bytes} {key : Option (List Char)} (h : verify a m s key = true) :
    admitsKey a key = true := by
  unfold verify at h
  split at h
  · exact (Bool.and_eq_true_iff.mp h).1
  · cases h

end Wallet.Solana

namespace Wallet.Cardano.Ownership

/-- The text names a key whose hash is the payment part of the address. -/
def Names (k address : List Char) : Prop :=
  ∃ key x, publicKey? k = some key ∧ key.length = 32 ∧ Address.ofText? address = some x ∧ x.paymentHash? = some (keyHash key)

theorem publicKey?_trim (k : List Char) : publicKey? (Blank.trim k) = publicKey? k := by
  simp only [publicKey?, Lenient.decode?, Blank.trim_trim]

theorem names_of_verify {a s : List Char} {m : Bytes} {key : Option (List Char)} (h : verify a m s key = true) :
    ∃ k, key = some k ∧ Blank.trim k ≠ [] ∧ Names (Blank.trim k) a := by
  obtain ⟨bytes, sig, x, paid, e⟩ := verify_eq_true_iff.mp h
  obtain ⟨k, rfl, hne, hk⟩ := e.named
  refine ⟨k, rfl, hne, bytes, .shelley x, (publicKey?_trim k).trans hk, e.keyLength, e.decoded, ?_⟩
  rw [Address.paymentHash?, x.paymentHash?_eq, e.payment, Option.map_some, e.hash]

end Wallet.Cardano.Ownership

namespace Login

/-! ## Keys that are stored -/

/-- What the key of a wallet row says of the wallet's owner. -/
structure Shows (o : Owner) (key : Option String) : Prop where
  cardano : o.walletType = Kind.cardano.name → ∃ k, key = some k ∧ Cardano.Ownership.Names k.toList o.address.toList
  solana : o.walletType = Kind.solana.name → key = none ∨ key = some "" ∨ key = some o.address

theorem trimKey_eq (key : Option String) : Users.trimKey key = none ∨ Users.trimKey key = some (trimmed key) := by
  rw [← trimKey_getD]
  cases Users.trimKey key with
  | none => exact .inl rfl
  | some k => exact .inr rfl

theorem toList_trimmed (k : String) : (trimmed (some k)).toList = Blank.trim k.toList := String.toList_ofList

/-- The key of a signed request, as it is stored, shows who signed. -/
theorem Presents.shows {r : Request} {k : Kind} {a : String} (h : Presents r k a) :
    Shows ⟨k.name, a⟩ (Users.trimKey r.publicKey) := by
  obtain ⟨m, hm⟩ : ∃ m, k.verify a m (trimmed r.signature) r.publicKey = true :=
    (isSigned_iff.mp h.signed).elim (fun hm => ⟨_, hm⟩) (fun hm => ⟨_, hm⟩)
  cases k with
  | evm =>
    exact ⟨fun hk : Kind.evm.name = Kind.cardano.name => absurd hk (by decide),
      fun hk : Kind.evm.name = Kind.solana.name => absurd hk (by decide)⟩
  | solana =>
    refine ⟨fun hk : Kind.solana.name = Kind.cardano.name => absurd hk (by decide), fun _ => ?_⟩
    have hadmits := Solana.admitsKey_of_verify hm
    cases hkey : r.publicKey with
    | none => exact .inl rfl
    | some k =>
      rw [hkey] at hadmits
      rcases trimKey_eq (some k) with hnone | hsome
      · exact .inl hnone
      · right
        rw [hsome, Option.some.injEq, Option.some.injEq, ← String.toList_inj, ← String.toList_inj, toList_trimmed]
        exact Solana.trim_of_admitsKey hadmits
  | cardano =>
    refine ⟨fun _ => ?_, fun hk : Kind.cardano.name = Kind.solana.name => absurd hk (by decide)⟩
    obtain ⟨l, hl, hne, hnames⟩ := Cardano.Ownership.names_of_verify hm
    obtain ⟨k, hkey, rfl⟩ := Option.map_eq_some_iff.mp hl
    have htrimmed : trimmed r.publicKey ≠ "" := by
      rw [hkey, ← String.toList_inj.ne, toList_trimmed]
      exact hne
    refine ⟨_, trimKey_of_trimmed_ne htrimmed, ?_⟩
    rw [hkey, toList_trimmed]
    exact hnames

end Login

/-- A wallet row that settling leaves has the key that it had, or it is the owner's and has
the key of the login. -/
theorem Ledger.Tables.Settles.wallet_cases {o : Owner} {key : Option String} {role userId : String} {now : Int}
    {t t' : Tables} (h : Tables.Settles o key role userId now t t') (ha : t.Accounts) {v' : WalletRow}
    (hv' : v' ∈ t'.wallets) :
    (∃ v ∈ t.wallets, v.owner = v'.owner ∧ v.publicKey = v'.publicKey) ∨ v'.owner = o ∧ v'.publicKey = key := by
  cases h with
  | known w hw =>
    obtain ⟨hm, hown⟩ := Tables.mem_of_findWallet? hw
    obtain ⟨v, hv, rfl⟩ := Tables.mem_touch_wallets.mp hv'
    by_cases hid : v.id = w.id
    · obtain rfl : v = w := List.inj_on_of_nodup_map ha.walletIds hv hm hid
      rw [WalletRow.seen_owner, WalletRow.seen, if_pos rfl, Tables.touchWallet]
      by_cases hkey : key.getD "" = ""
      · exact .inl ⟨v, hv, rfl, (if_pos hkey).symm⟩
      · exact .inr ⟨hown, if_neg hkey⟩
    · rw [WalletRow.seen_of_ne hid]
      exact .inl ⟨v, hv, rfl, rfl⟩
  | first _ _ =>
    rcases Tables.mem_withAccount_wallets.mp hv' with hv' | rfl
    · exact .inl ⟨v', hv', rfl, rfl⟩
    · exact .inr ⟨rfl, rfl⟩

namespace Login

/-- Every stored key shows who owns its wallet. -/
def Keyed (t : Tables) : Prop := ∀ w ∈ t.wallets, Shows w.owner w.publicKey

theorem Leaves.keyed {e : Event} {t t' : Tables} (h : Leaves e t t') (ha : t.Accounts) (hk : Keyed t) : Keyed t' := by
  cases h with
  | nothing => exact hk
  | challenge _ hc => exact hc.stored ▸ hk
  | @redeemed r _ o _ _ hr =>
    obtain ⟨k, hp, hname⟩ := hr.presented
    have ho : (⟨k.name, o.address⟩ : Owner) = o := by rw [← hname]
    rcases hr.left with rfl | ⟨_, ho', hs⟩
    · exact hk
    · cases ho'
      intro v' hv'
      rcases hs.wallet_cases (ha.spend _ _ _) hv' with ⟨v, hv, hown, hkey⟩ | ⟨hown, hkey⟩
      · rw [← hown, ← hkey]
        exact hk v hv
      · rw [hown, hkey, ← ho]
        exact hp.shows

theorem keyed_after (es : List Event) : Keyed (after Event.outcome es) := by
  induction es using List.reverseRecOn with
  | nil => exact fun w hw => absurd hw List.not_mem_nil
  | append_singleton es e ih =>
    rw [after_snoc]
    exact (outcome_spec (sound_after es) e).leaves.keyed (sound_after es).accounts ih

/-- After every run: the stored key of a cardano wallet is read as 32 bytes, and these hash
to the payment part of the wallet's address; a solana wallet has no stored key, or a blank
one, or its address. -/
theorem stored_keys_show_ownership (es : List Event) :
    ∀ w ∈ (run es Tables.empty).2.wallets,
      (w.owner.walletType = Kind.cardano.name → ∃ k key x, w.publicKey = some k ∧
        Cardano.Ownership.publicKey? k.toList = some key ∧ key.length = 32 ∧
        Cardano.Address.ofText? w.owner.address.toList = some x ∧
        x.paymentHash? = some (Cardano.Ownership.keyHash key)) ∧
      (w.owner.walletType = Kind.solana.name →
        w.publicKey = none ∨ w.publicKey = some "" ∨ w.publicKey = some w.owner.address) := by
  intro w hw
  rw [run_tables] at hw
  obtain ⟨hcardano, hsolana⟩ := keyed_after es w hw
  refine ⟨fun h => ?_, hsolana⟩
  obtain ⟨k, hk, key, x, hnames⟩ := hcardano h
  exact ⟨k, key, x, hk, hnames⟩

/-! ## A key with blanks around it -/

namespace KeyedLogin

open LaterLogins (ask answer)

def address : String := "addr1vx9jrppy446d7fwntsh23cy55nzutt4jew6yysvnx9tfxychfqm3y"

/-- The key in its wrapping. -/
def key : String := "5820ea4a6c63e29c520abef5507b132ec5f9954776aebebe7b92421eea691446d22c"

def request : Request :=
  ⟨some "cardano", some address, some "c0ffee",
    some "ovw2BsRqntQ5AxXmv6oIAu7InDTsI+IMe9Cc0lHXPWMNlqof61b3sWgDl28LQeFiDEx5DErUCil3gWpm9NhnCA==",
    some " 5820ea4a6c63e29c520abef5507b132ec5f9954776aebebe7b92421eea691446d22c\t"⟩

def calls : List Event := [ask 0 request, answer 1 "user" request]

def wallet : WalletRow := ⟨1, "user", ⟨"cardano", address⟩, some key, 1, 1⟩

theorem wallets : (run calls Tables.empty).2.wallets = [wallet] := by
  decide +kernel

/-- A wallet that has logged in without a key beside its address. -/
def keyless : WalletRow := ⟨1, "user", ⟨"solana", FirstLogin.address⟩, none, 1, 1⟩

theorem keyless_mem : keyless ∈ (run (LaterLogins.calls.take 2) Tables.empty).2.wallets := by
  rw [← tablesAt, LaterLogins.first_logs_in.2]
  exact List.mem_singleton_self _

end KeyedLogin

open KeyedLogin in
/-- The key of a cardano wallet, and that of a solana wallet that came with none. -/
theorem trimmed_key_shows_ownership :
    (∃ bytes x, Cardano.Ownership.publicKey? key.toList = some bytes ∧ bytes.length = 32 ∧
      Cardano.Address.ofText? address.toList = some x ∧ x.paymentHash? = some (Cardano.Ownership.keyHash bytes)) ∧
    (keyless.publicKey = none ∨ keyless.publicKey = some "" ∨ keyless.publicKey = some keyless.owner.address) := by
  have hwallet : wallet ∈ (run calls Tables.empty).2.wallets := by
    rw [wallets]
    exact List.mem_singleton_self _
  constructor
  · obtain ⟨k, bytes, x, hk, hnames⟩ := (stored_keys_show_ownership calls _ hwallet).1 rfl
    obtain rfl : key = k := Option.some.inj hk
    exact ⟨bytes, x, hnames⟩
  · have hkeyless := stored_keys_show_ownership (LaterLogins.calls.take 2) keyless keyless_mem
    exact hkeyless.2 rfl

end Login

end WalletLogin
