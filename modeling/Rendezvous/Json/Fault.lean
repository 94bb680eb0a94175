import Rendezvous.Json.Value
import Rendezvous.Text.Quoted

namespace Rendezvous.Json

inductive Found where
  | null
  | boolean (b : Bool)
  | number (n : Number)
  | string (s : String)
  | sequence
  | map
deriving Repr

def Found.message : Found → String
  | .null => "null"
  | .boolean b => "boolean `" ++ (if b then "true" else "false") ++ "`"
  | .number (.real x) => "floating point `" ++ String.ofList (Numeral.Shortest.chars x) ++ "`"
  | .number n => "integer `" ++ String.ofList n.chars ++ "`"
  | .string s => "string " ++ Text.Quoted.text s
  | .sequence => "sequence"
  | .map => "map"

/-- A fault: a breach of the grammar, or a well-formed text of the wrong shape. -/
inductive Fault where
  | grammar
  | invalidType (found : Found) (expected : String)
  | invalidValue (found : Found) (expected : String)
  | invalidLength (length : Nat) (expected : String)
  | missingField (name : String)
  | duplicateField (name : String)
  /-- inside a text or a value of its own, told with what that was -/
  | inside (what : String) (fault : Fault)
  /-- inside a text that stands for a value; the text around it may well keep to the grammar -/
  | embedded (fault : Fault)
deriving Repr

/-- The wording of a fault; that of a breach of the grammar is left open. -/
def Fault.message : Fault → String
  | .grammar => "<syntax>"
  | .invalidType found expected =>
    "invalid type: " ++ found.message ++ ", expected " ++ expected
  | .invalidValue found expected =>
    "invalid value: " ++ found.message ++ ", expected " ++ expected
  | .invalidLength length expected =>
    "invalid length " ++ Numeral.Decimal.text length ++ ", expected " ++ expected
  | .missingField name => "missing field `" ++ name ++ "`"
  | .duplicateField name => "duplicate field `" ++ name ++ "`"
  | .inside what fault => what ++ ": " ++ fault.message
  | .embedded fault => fault.message

def Fault.isShape : Fault → Bool
  | .grammar => false
  | _ => true

inductive Step where
  | key (name : String)
  | index (i : Nat)
  | unknown
deriving DecidableEq, Repr

def Step.text : Step → String
  | .key name => name
  | .index i => "[" ++ Numeral.Decimal.text i ++ "]"
  | .unknown => "?"

/-- The steps to a place: a dot stands before each that is not an index, but for the first. -/
def pathText : List Step → String
  | [] => ""
  | s :: ss => ss.foldl (fun acc s =>
      acc ++ (match s with | .index _ => "" | _ => ".") ++ s.text) s.text

structure Failure where
  path : List Step
  fault : Fault
deriving Repr

def Failure.here (fault : Fault) : Failure := ⟨[], fault⟩

def Failure.under (step : Step) (f : Failure) : Failure := ⟨step :: f.path, f.fault⟩

def Failure.message (f : Failure) : String :=
  if f.path.all (· == .unknown) then f.fault.message
  else pathText f.path ++ ": " ++ f.fault.message

end Rendezvous.Json
