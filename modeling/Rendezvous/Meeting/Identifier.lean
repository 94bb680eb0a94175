namespace Rendezvous.Meeting.Identifier

def size : Nat := 21

/-- The symbol with an index below 64: capital letters, small letters, digits, `_` and `-`. -/
def symbol (i : Nat) : Char :=
  if i < 26 then Char.ofNat (65 + i)
  else if i < 52 then Char.ofNat (71 + i)
  else if i < 62 then Char.ofNat (i - 4)
  else if i = 62 then '_' else '-'

def isSymbol (c : Char) : Bool :=
  let n := c.toNat
  (65 ≤ n && n ≤ 90) || (97 ≤ n && n ≤ 122) || (48 ≤ n && n ≤ 57) || n == 95 || n == 45

/-- The identifier that random octets stand for: each gives its low six bits, so that every symbol
stands for as many octets as any other. -/
def ofOctets (bs : Vector UInt8 size) : String :=
  String.ofList (bs.toList.map fun b => symbol (b.toNat % 64))

def isIdentifier (s : String) : Bool := s.toList.length == size && s.toList.all isSymbol

end Rendezvous.Meeting.Identifier
