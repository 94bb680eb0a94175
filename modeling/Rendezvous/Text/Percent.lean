import Rendezvous.Numeral.Hexadecimal
import Rendezvous.Text.Utf8

namespace Rendezvous.Text.Percent

def escape (b : UInt8) : List Char :=
  ['%', (Numeral.Hexadecimal.digitChar (b.toNat / 16)).toUpper,
    (Numeral.Hexadecimal.digitChar (b.toNat % 16)).toUpper]

/-- Characters of which those that satisfy `escaped` are written octet by octet. -/
def encode (escaped : Char → Bool) (cs : List Char) : List Char :=
  cs.flatMap fun c => if escaped c then (Utf8.encodeChar c).flatMap escape else [c]

/-- The octets that octets stand for. A percent sign with no two digits after it stands for
itself. -/
def decode : List UInt8 → List UInt8
  | [] => []
  | 0x25 :: a :: b :: bs =>
    match Numeral.Hexadecimal.digit? a, Numeral.Hexadecimal.digit? b with
    | some x, some y => .ofNat (16 * x + y) :: decode bs
    | _, _ => 0x25 :: decode (a :: b :: bs)
  | a :: bs => a :: decode bs

def decodeText? (s : String) : Option String := Utf8.decode? (decode (Utf8.encode s))

end Rendezvous.Text.Percent
