import Rendezvous.Numeral.Positional

namespace Rendezvous.Crypto

abbrev Block := BitVec 128

namespace Block

def ofOctets (bs : List UInt8) : Block :=
  .ofNat 128 (Numeral.Positional.value 256
    ((bs ++ List.replicate (16 - bs.length) 0).map UInt8.toNat))

def toOctets (b : Block) : Vector UInt8 16 :=
  Vector.ofFn fun i => .ofNat (b.toNat / Numeral.Positional.weight 256 (15 - i.val))

/-- Octets cut into blocks, the last one filled up with zeros. -/
def split (bs : List UInt8) : List Block :=
  match bs with
  | [] => []
  | b :: bs' => ofOctets ((b :: bs').take 16) :: split (bs'.drop 15)
termination_by bs.length
decreasing_by simp only [List.length_drop, List.length_cons]; omega

end Rendezvous.Crypto.Block
