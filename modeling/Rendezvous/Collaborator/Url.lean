import Rendezvous.Text.Percent
/-!
What a web address asks its host for. The address is cut at the first `#`; the first `?` before that
starts the query; slashes of either kind separate the segments of the path, of which `.` stands for
none and `..` takes the one before it away.
-/
namespace Rendezvous.Collaborator.Url

structure Target where
  segments : List (List Char)
  query? : Option (List Char)
deriving DecidableEq, Repr

def isControl (c : Char) : Bool := c < ' ' || '\x7f' ≤ c

def isEscapedInPath (c : Char) : Bool :=
  isControl c || [' ', '"', '#', '<', '>', '?', '\x60', '\x7b', '\x7d'].contains c

def isEscapedInQuery (c : Char) : Bool :=
  isControl c || [' ', '"', '#', '<', '>', '\''].contains c

def isSlash (c : Char) : Bool := c == '/' || c == '\\'

/-- The text without controls and spaces around it, and without tabs and line ends anywhere. -/
def clean (s : String) : List Char :=
  let isSpace := fun c => decide (c ≤ ' ')
  (((s.toList.dropWhile isSpace).reverse.dropWhile isSpace).reverse).filter fun c =>
    c != '\t' && c != '\n' && c != '\r'

def afterScheme? (cs : List Char) : Option (List Char) :=
  match cs.span (· != ':') with
  | (scheme, ':' :: rest) =>
    if scheme.map Char.toLower = "http".toList ∨ scheme.map Char.toLower = "https".toList then
      some (rest.dropWhile isSlash)
    else none
  | _ => none

/-- A segment with the escapes of dots undone, to tell whether it is made of dots. -/
def undot : List Char → List Char
  | '%' :: '2' :: c :: cs =>
    if c = 'e' ∨ c = 'E' then '.' :: undot cs else '%' :: '2' :: c :: undot cs
  | c :: cs => c :: undot cs
  | [] => []

/-- Takes segments one by one onto those before them. A last segment of dots leaves an empty one. -/
def resolve (before : List (List Char)) : List (List Char) → List (List Char)
  | [] => before
  | segment :: segments =>
    let ending := if segments = [] then [[]] else []
    if undot segment = ['.'] then resolve (before ++ ending) segments
    else if undot segment = ['.', '.'] then resolve (before.dropLast ++ ending) segments
    else resolve (before ++ [Text.Percent.encode isEscapedInPath segment]) segments

def pathSegments (cs : List Char) : List (List Char) :=
  resolve [] (((cs.drop 1).map fun c => if c = '\\' then '/' else c).splitOn '/')

def target? (address : String) : Option Target := do
  let rest ← afterScheme? (clean address)
  let (host, rest) := rest.span fun c => !isSlash c && c != '?' && c != '#'
  if host = [] then none
  else
    let (path, rest) := rest.span fun c => c != '?' && c != '#'
    let query? :=
      match rest with
      | '?' :: rest => some (Text.Percent.encode isEscapedInQuery (rest.takeWhile (· != '#')))
      | _ => none
    some ⟨pathSegments path, query?⟩

def Target.text (t : Target) : String :=
  String.ofList (t.segments.flatMap ('/' :: ·) ++
    match t.query? with
    | some query => '?' :: query
    | none => [])

end Rendezvous.Collaborator.Url
