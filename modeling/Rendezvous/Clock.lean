namespace Rendezvous

structure Clock where
  now : Int64
deriving DecidableEq, Repr

namespace Clock

def advance (c : Clock) (seconds : Int64) : Clock := ⟨c.now + seconds⟩

def set (_ : Clock) (now : Int64) : Clock := ⟨now⟩

end Clock

end Rendezvous
