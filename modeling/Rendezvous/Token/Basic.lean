import Rendezvous.Crypto.Aes
import Rendezvous.Crypto.Gcm
import Rendezvous.Crypto.Sha3
import Rendezvous.Text.Base64Url
import Rendezvous.Text.Blank

namespace Rendezvous.Token

def nonceLength : Nat := 12

abbrev Nonce := Vector UInt8 12

inductive Malformation where
  | encoding (fault : Text.Base64Url.Fault)
  | short (length : Nat)
  | payload
deriving DecidableEq, Repr

def Malformation.message : Malformation → String
  | .encoding fault => "invalid base64: " ++ fault.message
  | .short length =>
    "expected at least 12 bytes for nonce, got " ++ Numeral.Decimal.text length
  | .payload => "token payload is not an identifier"

inductive Fault where
  | malformed (reason : Malformation)
  | invalid
  | noEntropy
deriving DecidableEq, Repr

def Fault.message : Fault → String
  | .malformed reason => "Malformed token: " ++ reason.message
  | .invalid => "Token failed authentication"
  | .noEntropy => "Cryptographic error: Nonce generation failed"

def encode (raw : List UInt8) : String := Text.Base64Url.encode raw

/-- The raw octets of a token text; padding at its end is ignored. -/
def decode (text : String) : Except Fault (List UInt8) :=
  (Text.Base64Url.decode (Text.Utf8.encode (Text.Blank.trimEnd '=' text))).mapError
    fun fault => .malformed (.encoding fault)

def deriveKey (secret : List UInt8) : Crypto.Aes.Key :=
  let hash := Crypto.Sha3.hash256 secret
  Vector.ofFn fun i => hash.getD i.val 0

/-- Authenticated encryption of identifiers under one key, kept as its round keys. -/
structure Cipher where
  schedule : List Crypto.Aes.State

def Cipher.ofSecret (secret : List UInt8) : Cipher := ⟨(deriveKey secret).schedule⟩

def Cipher.shown (_ : Cipher) : String :=
  "TokenCipher \x7b algorithm: \"AES-256-GCM\", key: \"[REDACTED]\" \x7d"

def Cipher.blockFunction (c : Cipher) : Crypto.Gcm.BlockFunction := fun b =>
  .ofOctets (Crypto.Aes.encryptWith c.schedule b.toOctets).toList

def Cipher.encrypt (c : Cipher) (nonce : Nonce) (plaintext : List UInt8) : List UInt8 :=
  nonce.toList ++ Crypto.Gcm.encrypt c.blockFunction nonce.toList plaintext

def Cipher.decrypt (c : Cipher) (raw : List UInt8) : Except Fault (List UInt8) :=
  if raw.length < nonceLength then .error (.malformed (.short raw.length))
  else
    match Crypto.Gcm.decrypt? c.blockFunction (raw.take nonceLength) (raw.drop nonceLength) with
    | some plaintext => .ok plaintext
    | none => .error .invalid

def Cipher.issue (c : Cipher) (nonce : Nonce) (id : String) : String :=
  encode (c.encrypt nonce (Text.Utf8.encode id))

def Cipher.redeem (c : Cipher) (text : String) : Except Fault String := do
  let plaintext ← c.decrypt (← decode text)
  match Text.Utf8.decode? plaintext with
  | some id => .ok id
  | none => .error (.malformed .payload)

end Rendezvous.Token
