import Rendezvous.Numeral.Decimal

namespace Rendezvous.Metrics

structure Series where
  name : String
  labels : List (String × String)
deriving DecidableEq, Repr

/-- The characters of a label's value. Quotation marks, line feeds and backslashes are escaped; two
backslashes count as one that is escaped already, as does one before a quotation mark. `held` tells
whether a backslash has been read and not yet written. -/
def escapeFrom (held : Bool) : List Char → List Char
  | [] => if held then ['\\', '\\'] else []
  | c :: cs =>
    if c = '\n' then '\\' :: 'n' :: escapeFrom held cs
    else if c = '"' then '\\' :: '"' :: escapeFrom false cs
    else if c = '\\' then
      if held then '\\' :: '\\' :: escapeFrom false cs else escapeFrom true cs
    else if held then '\\' :: '\\' :: c :: escapeFrom false cs
    else c :: escapeFrom false cs

def escape (s : String) : String := String.ofList (escapeFrom false s.toList)

def labelText (label : String × String) : String := label.1 ++ "=\"" ++ escape label.2 ++ "\""

def Series.text (s : Series) : String :=
  match s.labels with
  | [] => s.name
  | labels => s.name ++ "\x7b" ++ ",".intercalate (labels.map labelText) ++ "\x7d"

/-- A bound of a bucket, in units of a tenth of a millisecond. -/
abbrev Bound := Nat

def boundText (b : Bound) : String :=
  let decimals := Numeral.Decimal.chars (b % 10000 + 10000)
  let shown := (decimals.drop 1).reverse.dropWhile (· == '0')
  String.ofList (Numeral.Decimal.chars (b / 10000) ++
    if shown = [] then [] else '.' :: shown.reverse)

structure Histogram where
  name : String
  bounds : List Bound

namespace Histogram

def count (h : Histogram) (labels : List (String × String)) : Series := ⟨h.name ++ "_count", labels⟩

def bucket (h : Histogram) (labels : List (String × String)) (le : String) : Series :=
  ⟨h.name ++ "_bucket", labels ++ [("le", le)]⟩

/-- The buckets that a duration in nanoseconds falls into: those with a bound it does not exceed,
and the one without a bound. -/
def buckets (h : Histogram) (labels : List (String × String)) (nanos : Nat) : List Series :=
  (h.bounds.filter fun b => nanos ≤ b * 100000).map (fun b => h.bucket labels (boundText b)) ++
    [h.bucket labels "+Inf"]

def request : Histogram :=
  ⟨"meeting_http_request_duration_seconds",
    [50, 100, 250, 500, 1000, 1500, 2000, 3000, 5000, 10000, 20000]⟩

def storeOperation : Histogram :=
  ⟨"meeting_store_operation_duration_seconds",
    [1, 5, 10, 20, 50, 100, 200, 500, 1000, 2500, 10000]⟩

end Histogram

end Rendezvous.Metrics
