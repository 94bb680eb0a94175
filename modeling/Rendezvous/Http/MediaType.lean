namespace Rendezvous.Http

structure MediaType where
  type : List Char
  subtype : List Char
  suffix? : Option (List Char)
deriving DecidableEq, Repr

namespace MediaType

def isNameChar (c : Char) : Bool :=
  c.isAlphanum || "!#$%&'*+-.^_\x60|~".toList.contains c

def isQuotable (c : Char) : Bool := ' ' ≤ c && c < '\x7f'

/-- The subtype and the suffix of a name: the suffix stands after the last plus sign, unless that is
the first character. -/
def splitSuffix (name : List Char) : List Char × Option (List Char) :=
  let suffix := (name.reverse.takeWhile (· != '+')).reverse
  if suffix.length + 1 < name.length then (name.take (name.length - suffix.length - 1), some suffix)
  else (name, none)

mutual

def areParameters : List Char → Bool
  | [] => true
  | ' ' :: cs => areParameters cs
  | c :: cs => isNameChar c && isParameter cs

def isParameter : List Char → Bool
  | [] => false
  | '=' :: cs => isValue cs
  | c :: cs => isNameChar c && isParameter cs

/-- Whether characters are a value and other parameters. A quoted value is not empty. -/
def isValue : List Char → Bool
  | [] => true
  | '"' :: c :: cs => isQuotable c && isQuoted cs
  | c :: cs => isNameChar c && isBare cs

def isBare : List Char → Bool
  | [] => true
  | ';' :: cs => areParameters cs
  | c :: cs => isNameChar c && isBare cs

def isQuoted : List Char → Bool
  | [] => false
  | '"' :: cs => isAfterQuoted cs
  | c :: cs => isQuotable c && isQuoted cs

def isAfterQuoted : List Char → Bool
  | [] => true
  | ';' :: cs => areParameters cs
  | c :: cs => c == ' ' && isAfterQuoted cs

end

def parse? (s : String) : Option MediaType :=
  let (type, rest) := s.toList.span isNameChar
  match type, rest with
  | _ :: _, '/' :: rest =>
    let (name, parameters) := rest.span isNameChar
    let ok :=
      match name, parameters with
      | [], _ :: _ => false
      | _, [] => true
      | _, c :: cs => c == ';' && areParameters cs
    if ok then
      let (subtype, suffix?) := splitSuffix (name.map Char.toLower)
      some ⟨type.map Char.toLower, subtype, suffix?⟩
    else none
  | _, _ => none

def isJson (m : MediaType) : Bool :=
  m.type == "application".toList &&
    (m.subtype == "json".toList || m.suffix? == some "json".toList)

end MediaType

end Rendezvous.Http
