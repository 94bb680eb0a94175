import Rendezvous.Crypto.Block

namespace Rendezvous.Crypto.Gcm

/-- A block times x; its first bit is the coefficient of 1. -/
def timesX (v : Block) : Block :=
  (v >>> 1) ^^^ (if v.getLsbD 0 then 0xe1000000000000000000000000000000#128 else 0#128)

/-- The sum of the multiples of `v` by the powers of x whose bits are set among the last `n` bits
of `a`. -/
def mulFrom (a : Block) : Nat → Block → Block
  | 0, _ => 0
  | n + 1, v => (if a.getLsbD n then v else 0) ^^^ mulFrom a n (timesX v)

def mul (a b : Block) : Block := mulFrom a 128 b

/-- The polynomial in `h` with the given coefficients, that of the highest power first, without a
constant term. -/
def ghash (h : Block) (xs : List Block) : Block := xs.foldl (fun y x => mul (y ^^^ x) h) 0

abbrev BlockFunction := Block → Block

def counter (nonce : List UInt8) (count : Nat) : Block :=
  Block.ofOctets (nonce ++ ((Block.toOctets (.ofNat 128 (count % 0x100000000))).toList.drop 12))

def keyStream (E : BlockFunction) (nonce : List UInt8) (count n : Nat) : List UInt8 :=
  (List.range n).flatMap fun i => (Block.toOctets (E (counter nonce (count + i)))).toList

def mask (E : BlockFunction) (nonce bs : List UInt8) : List UInt8 :=
  List.zipWith (· ^^^ ·) bs (keyStream E nonce 2 ((bs.length + 15) / 16))

/-- The block that closes the authenticated data: the length of the ciphertext in bits. -/
def lengthBlock (ciphertext : List UInt8) : Block := .ofNat 128 (8 * ciphertext.length)

def tag (E : BlockFunction) (nonce ciphertext : List UInt8) : List UInt8 :=
  (Block.toOctets (ghash (E 0) (Block.split ciphertext ++ [lengthBlock ciphertext]) ^^^
    E (counter nonce 1))).toList

def tagLength : Nat := 16

def encrypt (E : BlockFunction) (nonce plaintext : List UInt8) : List UInt8 :=
  let ciphertext := mask E nonce plaintext
  ciphertext ++ tag E nonce ciphertext

/-- The plaintext, if the last sixteen octets are the tag of those before them. -/
def decrypt? (E : BlockFunction) (nonce sealed : List UInt8) : Option (List UInt8) :=
  if sealed.length < tagLength then none
  else
    let ciphertext := sealed.take (sealed.length - tagLength)
    if tag E nonce ciphertext = sealed.drop (sealed.length - tagLength) then
      some (mask E nonce ciphertext)
    else none

end Rendezvous.Crypto.Gcm
