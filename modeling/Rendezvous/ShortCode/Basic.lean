import Rendezvous.ShortCode.Base62
import Rendezvous.ShortCode.Permutation

namespace Rendezvous.ShortCode

def encode (id : Int64) : String := Base62.encode (Permutation.permute id.toUInt64)

def decode (code : String) : Except Base62.Fault Int64 :=
  (Base62.decode code).map fun w => (Permutation.unpermute w).toInt64

end Rendezvous.ShortCode
