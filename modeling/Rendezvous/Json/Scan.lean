import Rendezvous.Json.Literal
import Rendezvous.Text.Utf8

namespace Rendezvous.Json.Scan

def isSpace (b : UInt8) : Bool := b == 0x20 || b == 0x0a || b == 0x09 || b == 0x0d

def dropSpaces (bs : List UInt8) : List UInt8 := bs.dropWhile isSpace

def word? : List UInt8 → List UInt8 → Option (List UInt8)
  | [], bs => some bs
  | _ :: _, [] => none
  | w :: ws, b :: bs => if w = b then word? ws bs else none

def null? : List UInt8 → Option (List UInt8) := word? [0x6e, 0x75, 0x6c, 0x6c]

def true? : List UInt8 → Option (List UInt8) := word? [0x74, 0x72, 0x75, 0x65]

def false? : List UInt8 → Option (List UInt8) := word? [0x66, 0x61, 0x6c, 0x73, 0x65]

def hex4? : List UInt8 → Option (Nat × List UInt8)
  | a :: b :: c :: d :: bs => do
    let a ← Numeral.Hexadecimal.digit? a
    let b ← Numeral.Hexadecimal.digit? b
    let c ← Numeral.Hexadecimal.digit? c
    let d ← Numeral.Hexadecimal.digit? d
    return (((a * 16 + b) * 16 + c) * 16 + d, bs)
  | _ => none

/-- The character with the code of an escape: a code above the basic plane is split between two
escapes, of which neither stands alone. -/
def codePoint? (bs : List UInt8) : Option (Char × List UInt8) :=
  match hex4? bs with
  | none => none
  | some (n, bs) =>
    if 0xdc00 ≤ n ∧ n ≤ 0xdfff then none
    else if n < 0xd800 ∨ 0xdbff < n then some (Char.ofNat n, bs)
    else
      match bs with
      | 0x5c :: 0x75 :: bs =>
        match hex4? bs with
        | none => none
        | some (m, bs) =>
          if 0xdc00 ≤ m ∧ m ≤ 0xdfff then
            some (Char.ofNat (0x10000 + (n - 0xd800) * 0x400 + (m - 0xdc00)), bs)
          else none
      | _ => none

def escaped? (b : UInt8) : Option Char :=
  if b = 0x22 then some '"'
  else if b = 0x5c then some '\\'
  else if b = 0x2f then some '/'
  else if b = 0x62 then some '\x08'
  else if b = 0x66 then some '\x0c'
  else if b = 0x6e then some '\n'
  else if b = 0x72 then some '\r'
  else if b = 0x74 then some '\t'
  else none

def character? : List UInt8 → Option (Char × List UInt8)
  | [] => none
  | b :: bs =>
    if b = 0x5c then
      match bs with
      | [] => none
      | e :: bs => if e = 0x75 then codePoint? bs else (escaped? e).map (·, bs)
    else if b < 0x20 then none
    else Text.Utf8.front? (b :: bs)

theorem length_lt_of_hex4? {bs rest : List UInt8} {n : Nat} (h : hex4? bs = some (n, rest)) :
    rest.length < bs.length := by
  unfold hex4? at h
  split at h
  · simp only [bind, Option.bind_eq_some_iff, pure, Option.some.injEq, Prod.mk.injEq] at h
    obtain ⟨-, -, -, -, -, -, -, -, -, rfl⟩ := h
    simp only [List.length_cons]
    omega
  · simp at h

theorem length_lt_of_codePoint? {bs rest : List UInt8} {c : Char}
    (h : codePoint? bs = some (c, rest)) : rest.length < bs.length := by
  unfold codePoint? at h
  split at h
  · simp at h
  · next hn =>
    have := length_lt_of_hex4? hn
    repeat' split at h
    all_goals simp only [Option.some.injEq, Prod.mk.injEq, reduceCtorEq] at h
    · grind
    · next hm _ =>
      have := length_lt_of_hex4? hm
      obtain ⟨-, rfl⟩ := h
      simp only [List.length_cons] at *
      omega

theorem length_lt_of_character? {bs rest : List UInt8} {c : Char}
    (h : character? bs = some (c, rest)) : rest.length < bs.length := by
  unfold character? at h
  split at h
  · simp at h
  · split at h
    · split at h
      · simp at h
      · split at h
        · have := length_lt_of_codePoint? h
          simp only [List.length_cons]
          omega
        · simp only [Option.map_eq_some_iff, Prod.mk.injEq] at h
          obtain ⟨-, -, -, rfl⟩ := h
          simp only [List.length_cons]
          omega
    · split at h
      · simp at h
      · exact Text.Utf8.length_lt_of_front? h

def characters? (bs : List UInt8) : Option (List Char × List UInt8) :=
  match bs with
  | [] => none
  | b :: bs' =>
    if b = 0x22 then some ([], bs')
    else
      match _h : character? (b :: bs') with
      | none => none
      | some (c, rest) => (characters? rest).map fun (cs, rest) => (c :: cs, rest)
termination_by bs.length
decreasing_by exact length_lt_of_character? _h

def string? (bs : List UInt8) : Option (String × List UInt8) :=
  (characters? bs).map fun (cs, rest) => (String.ofList cs, rest)

def skipString? : List UInt8 → Option (List UInt8)
  | [] => none
  | b :: bs =>
    if b = 0x22 then some bs
    else if b = 0x5c then
      match bs with
      | [] => none
      | e :: bs =>
        if e = 0x75 then
          match bs with
          | h1 :: h2 :: h3 :: h4 :: bs =>
            if (hex4? [h1, h2, h3, h4]).isSome then skipString? bs else none
          | _ => none
        else if (escaped? e).isSome then skipString? bs
        else none
    else if b < 0x20 then none
    else skipString? bs

/-- Where the next item of an array starts. The octets either lack an item, start with it or are not
an array. -/
inductive Next (α : Type) where
  | last
  | item (a : α) (rest : List UInt8)
  | malformed

/-- The next item of an array: commas stand between items, and none before the closing bracket. -/
def nextItem (first : Bool) (bs : List UInt8) : Next Unit :=
  match dropSpaces bs with
  | [] => .malformed
  | b :: rest =>
    if b = 0x5d then .last
    else if first then .item () (b :: rest)
    else if b = 0x2c then
      match dropSpaces rest with
      | [] => .malformed
      | c :: rest => if c = 0x5d then .malformed else .item () (c :: rest)
    else .malformed

def nextQuote (first : Bool) (bs : List UInt8) : Next Unit :=
  match dropSpaces bs with
  | [] => .malformed
  | b :: rest =>
    if b = 0x7d then .last
    else if first then if b = 0x22 then .item () rest else .malformed
    else if b = 0x2c then
      match dropSpaces rest with
      | 0x22 :: rest => .item () rest
      | _ => .malformed
    else .malformed

def nextKey (first : Bool) (bs : List UInt8) : Next String :=
  match nextQuote first bs with
  | .last => .last
  | .malformed => .malformed
  | .item _ rest =>
    match string? rest with
    | some (key, rest) => .item key rest
    | none => .malformed

def token? (b : UInt8) (bs : List UInt8) : Option (List UInt8) :=
  match dropSpaces bs with
  | c :: rest => if c = b then some rest else none
  | [] => none

def colon? : List UInt8 → Option (List UInt8) := token? 0x3a

def skipItems (skip : List UInt8 → Option (List UInt8)) :
    Nat → Bool → List UInt8 → Option (List UInt8)
  | 0, _, _ => none
  | n + 1, first, bs =>
    match nextItem first bs with
    | .malformed => none
    | .last => token? 0x5d bs
    | .item _ rest => (skip rest).bind (skipItems skip n false)

def skipMembers (skip : List UInt8 → Option (List UInt8)) :
    Nat → Bool → List UInt8 → Option (List UInt8)
  | 0, _, _ => none
  | n + 1, first, bs =>
    match nextQuote first bs with
    | .malformed => none
    | .last => token? 0x7d bs
    | .item _ rest =>
      (((skipString? rest).bind colon?).bind skip).bind (skipMembers skip n false)

/-- What follows a value, of which only the grammar is checked. The number bounds both the depth and
the width of the value; the length of the octets is enough for any. -/
def skipWithin : Nat → List UInt8 → Option (List UInt8)
  | 0, _ => none
  | n + 1, bs =>
    match dropSpaces bs with
    | [] => none
    | b :: rest =>
      if b = 0x6e then null? (b :: rest)
      else if b = 0x74 then true? (b :: rest)
      else if b = 0x66 then false? (b :: rest)
      else if b = 0x22 then skipString? rest
      else if b = 0x5b then skipItems (skipWithin n) (n + 1) true rest
      else if b = 0x7b then skipMembers (skipWithin n) (n + 1) true rest
      else (Literal.scan? (b :: rest)).map (·.2)

def skip? (bs : List UInt8) : Option (List UInt8) := skipWithin (bs.length + 1) bs

end Rendezvous.Json.Scan
