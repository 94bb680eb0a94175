import Rendezvous.Dictionary
import Rendezvous.Json.Fault
import Rendezvous.Json.Scan

namespace Rendezvous.Json

abbrev Outcome (α : Type) := Except Failure (α × List UInt8)

/-- A reader, given how many levels of nesting it may still open. -/
abbrev Reader (α : Type) := Nat → List UInt8 → Outcome α

def maxLevels : Nat := 127

namespace Reader

def malformed {α : Type} : Except Failure α := .error (.here .grammar)

def ofGrammar {α : Type} : Option α → Except Failure α
  | some a => .ok a
  | none => malformed

def found? (bs : List UInt8) : Option Found :=
  match bs with
  | [] => none
  | b :: rest =>
    if b = 0x6e then (Scan.null? bs).map fun _ => .null
    else if b = 0x74 then (Scan.true? bs).map fun _ => .boolean true
    else if b = 0x66 then (Scan.false? bs).map fun _ => .boolean false
    else if b = 0x22 then (Scan.string? rest).map fun (s, _) => .string s
    else if b = 0x5b then some .sequence
    else if b = 0x7b then some .map
    else (Literal.scan? bs).bind fun (l, _) => l.number?.map .number

def mismatch {α : Type} (expected : String) (bs : List UInt8) : Except Failure α :=
  .error (.here (match found? bs with
    | some found => .invalidType found expected
    | none => .grammar))

def startsNumber (b : UInt8) : Bool := b == 0x2d || (Literal.digit? b).isSome

def textAs (expected : String) : Reader String := fun _ bs =>
  match Scan.dropSpaces bs with
  | 0x22 :: rest => ofGrammar (Scan.string? rest)
  | bs => mismatch expected bs

def text : Reader String := textAs "a string"

def optionalText : Reader (Option String) := fun levels bs =>
  match Scan.dropSpaces bs with
  | 0x6e :: rest => ofGrammar ((Scan.null? (0x6e :: rest)).map (none, ·))
  | bs => (text levels bs).map fun (s, rest) => (some s, rest)

def integer : Reader Int64 := fun _ bs =>
  match Scan.dropSpaces bs with
  | [] => malformed
  | b :: rest =>
    if startsNumber b then
      match (Literal.scan? (b :: rest)).bind fun (l, rest) => l.number?.map (·, rest) with
      | none => malformed
      | some (.natural n, rest) =>
        if n.toNat < 0x8000000000000000 then .ok (n.toInt64, rest)
        else .error (.here (.invalidValue (.number (.natural n)) "i64"))
      | some (.negative i, rest) => .ok (i, rest)
      | some (.real x, _) => .error (.here (.invalidType (.number (.real x)) "i64"))
    else mismatch "i64" (b :: rest)

def boolean : Reader Bool := fun _ bs =>
  match Scan.dropSpaces bs with
  | 0x74 :: rest => ofGrammar ((Scan.true? (0x74 :: rest)).map (true, ·))
  | 0x66 :: rest => ofGrammar ((Scan.false? (0x66 :: rest)).map (false, ·))
  | bs => mismatch "a boolean" bs

/-- A value of which only the grammar is checked. -/
def skipped (bs : List UInt8) : Outcome Unit := ofGrammar ((Scan.skip? bs).map ((), ·))

/-- The value of a member, whose key has been read. A fault in the value lies under the key, a lack
of the colon before it does not. -/
def member {α : Type} (key : String) (value : List UInt8 → Outcome α) (bs : List UInt8) :
    Outcome α :=
  (ofGrammar (Scan.colon? bs)).bind fun rest => (value rest).mapError (.under (.key key))

def membersFrom {α : Type} (value : List UInt8 → Outcome α) :
    Nat → Bool → List UInt8 → Outcome (List (String × α))
  | 0, _, _ => malformed
  | n + 1, first, bs =>
    match Scan.nextKey first bs with
    | .malformed => .error ⟨[.unknown], .grammar⟩
    | .last => ofGrammar ((Scan.token? 0x7d bs).map ([], ·))
    | .item key rest =>
      (member key value rest).bind fun (v, rest) =>
        (membersFrom value n false rest).map fun (ms, rest) => ((key, v) :: ms, rest)

def members {α : Type} (value : List UInt8 → Outcome α) (bs : List UInt8) :
    Outcome (List (String × α)) :=
  membersFrom value (bs.length + 1) true bs

def texts : Reader (Dictionary String) := fun levels bs =>
  match Scan.dropSpaces bs with
  | 0x7b :: rest =>
    match levels with
    | 0 => malformed
    | levels + 1 => (members (text levels) rest).map fun (ms, rest) => (.ofList ms, rest)
  | bs => mismatch "a map" bs

def itemsFrom {α : Type} (item : List UInt8 → Outcome α) :
    Nat → Nat → List UInt8 → Outcome (List α)
  | 0, _, _ => malformed
  | n + 1, i, bs =>
    match Scan.nextItem (i == 0) bs with
    | .malformed => malformed
    | .last => ofGrammar ((Scan.token? 0x5d bs).map ([], ·))
    | .item _ rest =>
      ((item rest).mapError (.under (.index i))).bind fun (a, rest) =>
        (itemsFrom item n (i + 1) rest).map fun (as, rest) => (a :: as, rest)

def items {α : Type} (item : List UInt8 → Outcome α) (bs : List UInt8) : Outcome (List α) :=
  itemsFrom item (bs.length + 1) 0 bs

def whole {α : Type} (r : Reader α) (bs : List UInt8) : Except Failure α := do
  let (a, rest) ← r maxLevels bs
  if Scan.dropSpaces rest = [] then .ok a else malformed

/-- The key by which an object stands for the value written in the text of its only member. -/
def rawKey : String := "$serde_json::private::RawValue"

def afterRawKey? (bs : List UInt8) : Option (List UInt8) :=
  match Scan.nextKey true bs with
  | .item key rest => if key = rawKey then some rest else none
  | _ => none

/-- The value written in a text, which `embedded` reads, from after its key to the end of the object
around it. -/
def raw (embedded : List UInt8 → Except Failure Json) : Reader Json := fun levels bs =>
  (member rawKey (textAs "raw value" levels) bs).bind fun (s, rest) =>
    ((embedded (Text.Utf8.encode s)).mapError fun f => .here (.embedded f.fault)).bind fun v =>
      ofGrammar ((Scan.token? 0x7d rest).map (v, ·))

/-- Any value, where `embedded` reads the texts that stand for values. The members of an object are
put in the order of their keys, and of those with one key the last one counts. -/
def valueWith (embedded : List UInt8 → Except Failure Json) : Reader Json
  | levels, bs =>
    match Scan.dropSpaces bs with
    | [] => malformed
    | b :: rest =>
      if b = 0x6e then ofGrammar ((Scan.null? (b :: rest)).map (.null, ·))
      else if b = 0x74 then ofGrammar ((Scan.true? (b :: rest)).map (.boolean true, ·))
      else if b = 0x66 then ofGrammar ((Scan.false? (b :: rest)).map (.boolean false, ·))
      else if b = 0x22 then ofGrammar ((Scan.string? rest).map fun (s, rest) => (.string s, rest))
      else if b = 0x5b then
        match levels with
        | 0 => malformed
        | levels + 1 =>
          (items (valueWith embedded levels) rest).map fun (vs, rest) => (.array vs, rest)
      else if b = 0x7b then
        match levels with
        | 0 => malformed
        | levels + 1 =>
          match afterRawKey? rest with
          | some rest => raw embedded levels rest
          | none =>
            (members (valueWith embedded levels) rest).map fun (ms, rest) =>
              (.object (Dictionary.ofList ms).entries, rest)
      else
        ofGrammar ((Literal.scan? (b :: rest)).bind fun (l, rest) =>
          l.number?.map fun n => (.number n, rest))

/-- Reads a text that holds any one value, with texts at most `n` deep inside one another. -/
def valueText : Nat → List UInt8 → Except Failure Json
  | 0, _ => malformed
  | n + 1, bs => whole (valueWith (valueText n)) bs

/-- Any value. A text inside another one is shorter than that, so the number of octets bounds how
deep they stand. -/
def value : Reader Json := fun levels bs => valueWith (valueText bs.length) levels bs

/-- Reads the value at the front of a text, whatever follows it. -/
def front {α : Type} (r : Reader α) (bs : List UInt8) : Except Failure α :=
  (r maxLevels bs).map (·.1)

end Reader

end Rendezvous.Json
