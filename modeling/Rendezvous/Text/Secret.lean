namespace Rendezvous.Text

/-- A text that must not reach a log or a diagnostic. -/
structure Secret where
  reveal : String
deriving DecidableEq

def Secret.shown (_ : Secret) : String := "SecretBox<str>([REDACTED])"

end Rendezvous.Text
