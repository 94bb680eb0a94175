namespace Rendezvous.Crypto.Sha3

/-- A lane per place; the lane in column `x` and row `y` is at `x + 5 * y`. -/
abbrev State := Vector UInt64 25

def State.lane (s : State) (x y : Nat) : UInt64 := s[x % 5 + 5 * (y % 5)]

def State.ofFn (f : Nat → Nat → UInt64) : State :=
  Vector.ofFn fun i => f (i.val % 5) (i.val / 5)

def rotateLeft (w : UInt64) (n : UInt64) : UInt64 :=
  if n = 0 then w else (w <<< n) ||| (w >>> (64 - n))

def rotations : Vector UInt64 25 := #v[
  0, 1, 62, 28, 27,
  36, 44, 6, 55, 20,
  3, 10, 43, 25, 39,
  41, 45, 15, 21, 8,
  18, 2, 61, 56, 14]

def roundConstants : List UInt64 := [
  0x0000000000000001, 0x0000000000008082, 0x800000000000808a, 0x8000000080008000,
  0x000000000000808b, 0x0000000080000001, 0x8000000080008081, 0x8000000000008009,
  0x000000000000008a, 0x0000000000000088, 0x0000000080008009, 0x000000008000000a,
  0x000000008000808b, 0x800000000000008b, 0x8000000000008089, 0x8000000000008003,
  0x8000000000008002, 0x8000000000000080, 0x000000000000800a, 0x800000008000000a,
  0x8000000080008081, 0x8000000000008080, 0x0000000080000001, 0x8000000080008008]

/-- Adds to each lane the parities of two neighbouring columns. -/
def theta (s : State) : State :=
  let parity : Vector UInt64 5 := Vector.ofFn fun x =>
    s.lane x 0 ^^^ s.lane x 1 ^^^ s.lane x 2 ^^^ s.lane x 3 ^^^ s.lane x 4
  let column (x : Nat) : UInt64 := parity[x % 5]
  .ofFn fun x y => s.lane x y ^^^ column (x + 4) ^^^ rotateLeft (column (x + 1)) 1

def rho (s : State) : State := Vector.zipWith rotateLeft s rotations

def pi (s : State) : State := .ofFn fun x y => s.lane (x + 3 * y) x

def chi (s : State) : State :=
  .ofFn fun x y => s.lane x y ^^^ (~~~ s.lane (x + 1) y &&& s.lane (x + 2) y)

def iota (rc : UInt64) (s : State) : State := s.set 0 (s[0] ^^^ rc)

def permute (s : State) : State :=
  roundConstants.foldl (fun s rc => iota rc (chi (pi (rho (theta s))))) s

def rate : Nat := 136

/-- The message with the domain bits and the padding, a multiple of `rate` octets. -/
def pad (message : List UInt8) : List UInt8 :=
  let gap := rate - message.length % rate
  if gap = 1 then message ++ [0x86]
  else message ++ [0x06] ++ List.replicate (gap - 2) 0 ++ [0x80]

def laneOfOctets (bs : List UInt8) : UInt64 := bs.foldr (fun b acc => acc * 256 + b.toUInt64) 0

def octetsOfLane (w : UInt64) : List UInt8 :=
  (List.range 8).map fun i => (w >>> (8 * i).toUInt64).toUInt8

def addBlock (s : State) (block : List UInt8) : State :=
  Vector.ofFn fun i => s[i] ^^^ laneOfOctets ((block.drop (8 * i.val)).take 8)

def absorb (s : State) : Nat → List UInt8 → State
  | 0, _ => s
  | n + 1, bs => absorb (permute (addBlock s (bs.take rate))) n (bs.drop rate)

def hash256 (message : List UInt8) : List UInt8 :=
  let padded := pad message
  let s := absorb (Vector.replicate 25 0) (padded.length / rate) padded
  (s.toList.flatMap octetsOfLane).take 32

end Rendezvous.Crypto.Sha3
