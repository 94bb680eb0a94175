namespace Rendezvous.Text.Utf8

def encodeChar (c : Char) : List UInt8 :=
  let n := c.toNat
  if n < 0x80 then [.ofNat n]
  else if n < 0x800 then [.ofNat (0xc0 + n / 64), .ofNat (0x80 + n % 64)]
  else if n < 0x10000 then
    [.ofNat (0xe0 + n / 4096), .ofNat (0x80 + n / 64 % 64), .ofNat (0x80 + n % 64)]
  else
    [.ofNat (0xf0 + n / 262144), .ofNat (0x80 + n / 4096 % 64), .ofNat (0x80 + n / 64 % 64),
      .ofNat (0x80 + n % 64)]

def encodeChars (cs : List Char) : List UInt8 := cs.flatMap encodeChar

def encode (s : String) : List UInt8 := encodeChars s.toList

def continuation? (b : UInt8) : Option Nat :=
  if 0x80 ≤ b.toNat ∧ b.toNat < 0xc0 then some (b.toNat - 0x80) else none

def scalarAbove? (least n : Nat) : Option Char :=
  if least ≤ n ∧ n.isValidChar then some (Char.ofNat n) else none

def front? : List UInt8 → Option (Char × List UInt8)
  | [] => none
  | a :: bs =>
    if a.toNat < 0x80 then some (Char.ofNat a.toNat, bs)
    else if a.toNat < 0xc0 then none
    else if a.toNat < 0xe0 then
      match bs with
      | b :: bs => do
        let c ← scalarAbove? 0x80 ((a.toNat - 0xc0) * 64 + (← continuation? b))
        return (c, bs)
      | [] => none
    else if a.toNat < 0xf0 then
      match bs with
      | b :: c :: bs => do
        let high := (a.toNat - 0xe0) * 4096 + (← continuation? b) * 64
        let c ← scalarAbove? 0x800 (high + (← continuation? c))
        return (c, bs)
      | _ => none
    else
      match bs with
      | b :: c :: d :: bs => do
        let high := (a.toNat - 0xf0) * 262144 + (← continuation? b) * 4096
        let c ← scalarAbove? 0x10000 (high + (← continuation? c) * 64 + (← continuation? d))
        return (c, bs)
      | _ => none

theorem length_lt_of_front? {bs rest : List UInt8} {c : Char} (h : front? bs = some (c, rest)) :
    rest.length < bs.length := by
  unfold front? at h
  repeat' split at h
  all_goals
    simp only [bind, Option.bind_eq_some_iff, pure, Option.some.injEq, Prod.mk.injEq,
      reduceCtorEq] at h
  all_goals grind

def decodeChars? (bs : List UInt8) : Option (List Char) :=
  match bs with
  | [] => some []
  | b :: bs' =>
    match _h : front? (b :: bs') with
    | none => none
    | some (c, rest) => (decodeChars? rest).map (c :: ·)
termination_by bs.length
decreasing_by exact length_lt_of_front? _h

def decode? (bs : List UInt8) : Option String := (decodeChars? bs).map String.ofList

theorem encodeChars_append (xs ys : List Char) :
    encodeChars (xs ++ ys) = encodeChars xs ++ encodeChars ys := by
  simp [encodeChars]

end Rendezvous.Text.Utf8
