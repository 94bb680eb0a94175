import Rendezvous.Json.Reader

namespace Rendezvous.Json

structure Field where
  Value : Type
  name : String
  read : Reader Value
  write : Value → Option Json
  /-- what stands for the field where an object lacks it -/
  absent : Option Value
  /-- what stands for the field where an array ends before it -/
  beyond : Option Value

namespace Field

def text (name : String) : Field :=
  ⟨String, name, Reader.text, fun s => some (.string s), none, none⟩

def textOr (name default : String) : Field :=
  ⟨String, name, Reader.text, fun s => some (.string s), some default, some default⟩

def integer (name : String) : Field :=
  ⟨Int64, name, Reader.integer, fun i => some (.number (.ofInt64 i)), none, none⟩

def integerOr (name : String) (default : Int64) : Field :=
  ⟨Int64, name, Reader.integer, fun i => some (.number (.ofInt64 i)), some default, some default⟩

def boolean (name : String) : Field :=
  ⟨Bool, name, Reader.boolean, fun b => some (.boolean b), none, none⟩

def orNull : Option String → Json
  | some s => .string s
  | none => .null

/-- An optional text that is written as null for none. -/
def optionalText (name : String) : Field :=
  ⟨Option String, name, Reader.optionalText, fun s => some (orNull s), some none, none⟩

/-- An optional text that is left out for none. -/
def presentText (name : String) : Field :=
  ⟨Option String, name, Reader.optionalText, (·.map .string), some none, none⟩

/-- An optional text that an array may lack as well. -/
def trailingText (name : String) : Field :=
  ⟨Option String, name, Reader.optionalText, fun s => some (orNull s), some none, some none⟩

def ofTexts (d : Dictionary String) : Json := .object (d.entries.map fun e => (e.1, .string e.2))

def texts (name : String) : Field :=
  ⟨Dictionary String, name, Reader.texts, fun d => some (ofTexts d), none, none⟩

def textsOr (name : String) (default : Dictionary String) : Field :=
  ⟨Dictionary String, name, Reader.texts, fun d => some (ofTexts d), some default, some default⟩

end Field

@[reducible] def Values : List Field → Type
  | [] => Unit
  | f :: fs => f.Value × Values fs

/-- The values of fields read so far. -/
@[reducible] def Slots : List Field → Type
  | [] => Unit
  | f :: fs => Option f.Value × Slots fs

def Slots.empty : (fs : List Field) → Slots fs
  | [] => ()
  | _ :: fs => (none, Slots.empty fs)

def Slots.read? (levels : Nat) (key : String) (bs : List UInt8) :
    (fs : List Field) → Slots fs → Option (Outcome (Slots fs))
  | [], _ => none
  | f :: fs, (slot, slots) =>
    if f.name = key then
      some (match slot with
        | some _ => .error (.here (.duplicateField key))
        | none =>
          (Reader.member key (f.read levels) bs).map fun (v, rest) => ((some v, slots), rest))
    else
      (Slots.read? levels key bs fs slots).map fun outcome =>
        outcome.map fun (slots, rest) => ((slot, slots), rest)

def Slots.complete : (fs : List Field) → Slots fs → Except Fault (Values fs)
  | [], _ => .ok ()
  | f :: fs, (slot, slots) =>
    match slot <|> f.absent with
    | some v => (Slots.complete fs slots).map (v, ·)
    | none => .error (.missingField f.name)

def Values.members : (fs : List Field) → Values fs → List (String × Json)
  | [], _ => []
  | f :: fs, (v, vs) =>
    ((f.write v).map (f.name, ·)).toList ++ Values.members fs vs

structure Record (α : Type) where
  name : String
  fields : List Field
  ofValues : Values fields → α
  toValues : α → Values fields

namespace Record

variable {α : Type}

def title (r : Record α) : String := "struct " ++ r.name

/-- What a record is called when the number of items of an array is at fault. -/
def sizedTitle (r : Record α) : String :=
  r.title ++ " with " ++ Numeral.Decimal.text r.fields.length ++
    if r.fields.length = 1 then " element" else " elements"

def membersFrom (fs : List Field) (levels : Nat) :
    Nat → Bool → Slots fs → List UInt8 → Outcome (Slots fs)
  | 0, _, _, _ => Reader.malformed
  | n + 1, first, slots, bs =>
    match Scan.nextKey first bs with
    | .malformed => .error ⟨[.unknown], .grammar⟩
    | .last => .ok (slots, bs)
    | .item key rest =>
      match Slots.read? levels key rest fs slots with
      | some outcome => outcome.bind fun (slots, rest) => membersFrom fs levels n false slots rest
      | none =>
        (Reader.member key Reader.skipped rest).bind fun (_, rest) =>
          membersFrom fs levels n false slots rest

def itemsFrom (title : String) (levels : Nat) :
    (i : Nat) → (fs : List Field) → List UInt8 → Outcome (Values fs)
  | _, [], bs => .ok ((), bs)
  | i, f :: fs, bs =>
    match Scan.nextItem (i == 0) bs with
    | .malformed => Reader.malformed
    | .last =>
      match f.beyond with
      | some v => (itemsFrom title levels (i + 1) fs bs).map fun (vs, rest) => ((v, vs), rest)
      | none => .error (.here (.invalidLength i title))
    | .item _ rest =>
      ((f.read levels rest).mapError (.under (.index i))).bind fun (v, rest) =>
        (itemsFrom title levels (i + 1) fs rest).map fun (vs, rest) => ((v, vs), rest)

def object (r : Record α) (levels : Nat) (bs : List UInt8) : Outcome α :=
  (membersFrom r.fields levels (bs.length + 1) true (.empty r.fields) bs).bind fun (slots, rest) =>
    ((Slots.complete r.fields slots).mapError .here).bind fun vs =>
      Reader.ofGrammar ((Scan.token? 0x7d rest).map (r.ofValues vs, ·))

def array (r : Record α) (levels : Nat) (bs : List UInt8) : Outcome α :=
  (itemsFrom r.sizedTitle levels 0 r.fields bs).bind fun (vs, rest) =>
    Reader.ofGrammar ((Scan.token? 0x5d rest).map (r.ofValues vs, ·))

def read (r : Record α) : Reader α := fun levels bs =>
  match Scan.dropSpaces bs with
  | 0x7b :: rest =>
    match levels with
    | 0 => Reader.malformed
    | levels + 1 => r.object levels rest
  | 0x5b :: rest =>
    match levels with
    | 0 => Reader.malformed
    | levels + 1 => r.array levels rest
  | bs => Reader.mismatch r.title bs

def json (r : Record α) (a : α) : Json := .object (Values.members r.fields (r.toValues a))

def decode (r : Record α) (bs : List UInt8) : Except Failure α := Reader.whole r.read bs

def encode (r : Record α) (a : α) : List UInt8 := Text.Utf8.encodeChars (r.json a).chars

end Record

end Rendezvous.Json
