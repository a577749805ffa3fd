/-
  WalletLogin.Wallet.Message — the text a wallet signs to prove that it holds an
  address, for a given nonce.

  Older tools pasted the text in its escaped form, so a second text is accepted in
  which a backslash and the letter n stand where the line ends.
-/

namespace WalletLogin.Wallet.Message

def greeting : String := "Sign in to Grainlify"

def current (nonce : String) : String := greeting ++ "\nNonce: " ++ nonce

def legacy (nonce : String) : String := greeting ++ "\\nNonce: " ++ nonce

/-- The accepted texts in the order in which they are tried. -/
def candidates (nonce : String) : List String := [current nonce, legacy nonce]

end WalletLogin.Wallet.Message
