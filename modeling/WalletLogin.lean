import WalletLogin.Ledger.Connection
import WalletLogin.Web.Site
import WalletLogin.Proofs.Ledger.Accounts
import WalletLogin.Proofs.Login.Spending
import WalletLogin.Proofs.Login.Unsettled
import WalletLogin.Proofs.Login.Calls
import WalletLogin.Proofs.Login.Identities
import WalletLogin.Proofs.Login.Agreement
import WalletLogin.Proofs.Login.Admission
import WalletLogin.Proofs.Login.Continuity
import WalletLogin.Proofs.Login.Custody
import WalletLogin.Proofs.Login.Rejection
import WalletLogin.Proofs.Login.Issuance
import WalletLogin.Proofs.Login.Outages
import WalletLogin.Proofs.Login.Surfacing
import WalletLogin.Proofs.Login.Race
import WalletLogin.Proofs.Login.Isolation
import WalletLogin.Proofs.Login.Discretion
import WalletLogin.Proofs.Token.Interval
import WalletLogin.Proofs.Web.Access
import WalletLogin.Proofs.Web.Headers
import WalletLogin.Proofs.Web.Records
import WalletLogin.Proofs.Wallet.Spelling
import WalletLogin.Proofs.Wallet.Solana
import WalletLogin.Proofs.Wallet.ByronText
import WalletLogin.Proofs.Wallet.Rendering
import WalletLogin.Proofs.Wallet.Message
import WalletLogin.Proofs.Wallet.Ownership
import WalletLogin.Proofs.Login.Keys
import WalletLogin.Proofs.Login.BlankKeys
import WalletLogin.Proofs.Login.Spellings
