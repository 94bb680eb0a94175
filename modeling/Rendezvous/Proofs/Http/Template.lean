import Mathlib.Data.List.Forall2
import Mathlib.Data.List.TakeWhile
import Rendezvous.Proofs.Http.Path

namespace Rendezvous.Http

inductive Part where
  | fixed (s : String)
  | token
deriving DecidableEq

namespace Part

def text : Part → String
  | fixed s => s
  | token => "\x7btoken\x7d"

def Matches : Part → String → Prop
  | fixed s, segment => segment = s
  | token, segment => segment ≠ ""

end Part

abbrev Template := List Part

namespace Template

def text (t : Template) : String := String.join (t.map fun part => "/" ++ part.text)

def Matches (t : Template) (path : String) : Prop :=
  ∃ segments, (Route.segments path).map String.ofList = "" :: segments ∧
    List.Forall₂ Part.Matches t segments

def table : List Template :=
  [[.fixed "v1", .fixed "health"],
    [.fixed "v1", .fixed "meetings"],
    [.fixed "v1", .fixed "meetings", .token],
    [.fixed "v1", .fixed "meetings", .token, .fixed "satisfaction"],
    [.fixed "metrics"]]

end Template

namespace Route

def parts : Route → List String
  | health => ["v1", "health"]
  | metrics => ["metrics"]
  | meetings => ["v1", "meetings"]
  | meeting token => ["v1", "meetings", token]
  | satisfaction token => ["v1", "meetings", token, "satisfaction"]

def token? : Route → Option String
  | health | metrics | meetings => none
  | meeting token | satisfaction token => some token

def template : Route → Template
  | health => [.fixed "v1", .fixed "health"]
  | metrics => [.fixed "metrics"]
  | meetings => [.fixed "v1", .fixed "meetings"]
  | meeting _ => [.fixed "v1", .fixed "meetings", .token]
  | satisfaction _ => [.fixed "v1", .fixed "meetings", .token, .fixed "satisfaction"]

def endpoint : Route → Endpoint
  | health => .health
  | metrics => .metrics
  | meetings => .meetings
  | meeting _ => .meeting
  | satisfaction _ => .satisfaction

/-- The path of the survey for an empty token, which no template matches. -/
def tokenlessPath : String := "/v1/meetings//satisfaction"

variable {route : Route} {path : String}

theorem intercalate_nil_cons (parts : List (List Char)) :
    ['/'].intercalate ([] :: parts) = parts.flatMap ('/' :: ·) := by
  induction parts with
  | nil => rfl
  | cons part parts ih =>
    rw [List.intercalate_cons_cons, List.flatMap_cons, ← ih]
    cases parts with
    | nil => simp [List.intercalate]
    | cons part' parts => simp [List.intercalate_cons_cons]

theorem toList_join (parts : List String) :
    (String.join (parts.map ("/" ++ ·))).toList =
      ['/'].intercalate (("" :: parts).map String.toList) := by
  rw [List.map_cons, show "".toList = [] from rfl, intercalate_nil_cons, String.toList_join,
    List.flatMap_map, List.flatMap_map]
  simp

/-- A path is cut into its parts, and put together from them. -/
theorem segments_eq_iff {parts : List String} :
    (segments path).map String.ofList = "" :: parts ↔
      path = String.join (parts.map ("/" ++ ·)) ∧ ∀ part ∈ parts, '/' ∉ part.toList := by
  constructor
  · intro h
    obtain ⟨hpath, hslash⟩ := eq_intercalate h
    refine ⟨?_, fun part hpart => hslash part (List.mem_cons_of_mem _ hpart)⟩
    rw [← String.toList_inj, toList_join, hpath]
  · rintro ⟨rfl, hslash⟩
    rw [segments, toList_join, List.splitOn_intercalate '/' ?_ (by simp)]
    · simp
    · simpa using hslash

theorem forall_parts_iff :
    (∀ part ∈ route.parts, '/' ∉ part.toList) ↔ ∀ token ∈ route.token?, '/' ∉ token.toList := by
  cases route <;> simp [parts, token?]

theorem ofPath?_eq_some_iff :
    ofPath? path = some route ↔
      (segments path).map String.ofList = "" :: route.parts ∧ route ≠ .meeting "" := by
  unfold ofPath?
  split
  case h_4 token h =>
    by_cases hempty : token = ""
    · cases route <;> simp_all [parts]
    · rw [if_neg hempty, h]
      cases route <;> simp [parts]
      rintro rfl
      exact hempty
  all_goals cases route <;> simp_all [parts]

/-- That a path is the path of a route, with a token that is not empty if there is one. -/
structure Names (route : Route) (path : String) : Prop where
  parts : (segments path).map String.ofList = "" :: route.parts
  filled : route.token? ≠ some ""

theorem names_iff :
    route.Names path ↔ path = String.join (route.parts.map ("/" ++ ·)) ∧
      (∀ token ∈ route.token?, '/' ∉ token.toList) ∧ route.token? ≠ some "" := by
  rw [← forall_parts_iff, ← and_assoc, ← segments_eq_iff]
  exact ⟨fun h => ⟨h.parts, h.filled⟩, fun h => ⟨h.1, h.2⟩⟩

theorem names_meeting_iff {token : String} :
    (meeting token).Names path ↔
      path = "/v1/meetings/" ++ token ∧ '/' ∉ token.toList ∧ token ≠ "" := by
  rw [names_iff, ← String.toList_inj, ← String.toList_inj]
  simp [parts, token?]

theorem names_satisfaction_iff {token : String} :
    (satisfaction token).Names path ↔
      path = "/v1/meetings/" ++ token ++ "/satisfaction" ∧ '/' ∉ token.toList ∧ token ≠ "" := by
  rw [names_iff, ← String.toList_inj, ← String.toList_inj]
  simp [parts, token?]

theorem tokenlessPath_eq_iff :
    path = tokenlessPath ↔
      (segments path).map String.ofList = "" :: (satisfaction "").parts := by
  rw [segments_eq_iff]
  simp [parts, tokenlessPath, String.join]

theorem ofPath?_eq_some_iff_names :
    ofPath? path = some route ↔
      route.Names path ∨ path = tokenlessPath ∧ route = .satisfaction "" := by
  rw [ofPath?_eq_some_iff, tokenlessPath_eq_iff]
  constructor
  · rintro ⟨hparts, hne⟩
    by_cases htoken : route.token? = some ""
    · cases route <;> simp_all [token?]
    · exact .inl ⟨hparts, htoken⟩
  · rintro (⟨hparts, hfilled⟩ | ⟨hparts, rfl⟩)
    · exact ⟨hparts, by rintro rfl; exact hfilled rfl⟩
    · exact ⟨hparts, by simp⟩

theorem matches_iff {t : Template} (ht : t ∈ Template.table) :
    t.Matches path ↔ ∃ route : Route, route.template = t ∧ route.Names path := by
  constructor
  · rintro ⟨segments, hpath, hall⟩
    simp only [Template.table, List.mem_cons, List.not_mem_nil, or_false] at ht
    rcases ht with rfl | rfl | rfl | rfl | rfl <;>
      simp only [List.forall₂_cons_left_iff, List.forall₂_nil_left_iff, Part.Matches] at hall
    · obtain ⟨_, _, rfl, ⟨_, _, rfl, rfl, rfl⟩, rfl⟩ := hall
      exact ⟨.health, rfl, hpath, by simp [token?]⟩
    · obtain ⟨_, _, rfl, ⟨_, _, rfl, rfl, rfl⟩, rfl⟩ := hall
      exact ⟨.meetings, rfl, hpath, by simp [token?]⟩
    · obtain ⟨_, _, rfl, ⟨_, _, rfl, ⟨token, _, hne, rfl, rfl⟩, rfl⟩, rfl⟩ := hall
      exact ⟨.meeting token, rfl, hpath, by simpa [token?] using hne⟩
    · obtain ⟨_, _, rfl, ⟨_, _, rfl, ⟨token, _, hne, ⟨_, _, rfl, rfl, rfl⟩, rfl⟩, rfl⟩, rfl⟩ := hall
      exact ⟨.satisfaction token, rfl, hpath, by simpa [token?] using hne⟩
    · obtain ⟨_, _, rfl, rfl, rfl⟩ := hall
      exact ⟨.metrics, rfl, hpath, by simp [token?]⟩
  · rintro ⟨route, rfl, hparts, hfilled⟩
    refine ⟨route.parts, hparts, ?_⟩
    cases route <;> simp_all [Part.Matches, template, parts, token?]

end Route

namespace Endpoint

theorem ofToken_append {token : List Char} (rest : List Char) (hne : token ≠ [])
    (hslash : '/' ∉ token) :
    ofToken (token ++ rest) =
      match rest.dropWhile (· != '/') with
      | [] => meeting
      | _ :: cs => if cs = "satisfaction".toList then satisfaction else other := by
  have hall : ∀ c ∈ token, (c != '/') = true := by
    intro c hc
    have : c ≠ '/' := fun he => hslash (he ▸ hc)
    simpa using this
  rw [ofToken, List.span_eq_takeWhile_dropWhile, List.takeWhile_append_of_pos hall,
    List.dropWhile_append_of_pos hall]
  obtain ⟨c, cs, rfl⟩ := List.exists_cons_of_ne_nil hne
  cases hrest : rest.dropWhile (· != '/') with
  | nil => rfl
  | cons c' cs' =>
    have hc' : c' = '/' := by
      simpa [hrest] using List.head?_dropWhile_not (· != '/') rest
    subst hc'
    rfl

theorem exists_token {cs : List Char} (h : ofToken cs ≠ other) :
    ∃ token : List Char, token ≠ [] ∧ '/' ∉ token ∧
      (cs = token ∨ cs = token ++ "/satisfaction".toList) := by
  have hslash : '/' ∉ cs.takeWhile (· != '/') := by
    intro hmem
    simpa using List.mem_takeWhile_imp hmem
  have happend : cs.takeWhile (· != '/') ++ cs.dropWhile (· != '/') = cs :=
    List.takeWhile_append_dropWhile
  rw [ofToken, List.span_eq_takeWhile_dropWhile] at h
  revert h hslash happend
  generalize cs.takeWhile (· != '/') = token, cs.dropWhile (· != '/') = rest
  rintro h hslash rfl
  split at h
  case h_1 c cs heq =>
    obtain ⟨rfl, rfl⟩ := Prod.mk.inj heq
    exact ⟨c :: cs, by simp, hslash, .inl (by simp)⟩
  case h_2 c cs rest' heq =>
    obtain ⟨rfl, rfl⟩ := Prod.mk.inj heq
    split at h
    case isTrue hrest => exact ⟨c :: cs, by simp, hslash, .inr (by simp [hrest])⟩
    case isFalse => exact absurd rfl h
  case h_3 => exact absurd rfl h

theorem eq_append_of_after? {front : String} {cs rest : List Char}
    (h : after? front cs = some rest) : cs = front.toList ++ rest := by
  rw [after?] at h
  split at h
  case isTrue hprefix =>
    obtain ⟨rest', rfl⟩ := List.isPrefixOf_iff_prefix.mp hprefix
    rw [List.drop_left] at h
    rw [Option.some.inj h]
  case isFalse => cases h

theorem exists_names_of_ofToken {path : String} {rest : List Char}
    (hpath : path.toList = "/v1/meetings/".toList ++ rest) (h : ofToken rest ≠ other) :
    ∃ route : Route, route.Names path := by
  obtain ⟨token, hne, hslash, hrest | hrest⟩ := exists_token h
  · refine ⟨.meeting (String.ofList token), Route.names_meeting_iff.mpr ⟨?_, ?_, ?_⟩⟩
    · rw [← String.toList_inj, hpath, hrest]
      simp
    · simpa using hslash
    · simpa using hne
  · refine ⟨.satisfaction (String.ofList token), Route.names_satisfaction_iff.mpr ⟨?_, ?_, ?_⟩⟩
    · rw [← String.toList_inj, hpath, hrest]
      simp
    · simpa using hslash
    · simpa using hne

theorem exists_names {path : String} (h : ofPath path ≠ other) :
    ∃ route : Route, route.Names path := by
  have names (route : Route) (hpath : path = String.join (route.parts.map ("/" ++ ·)))
      (htoken : route.token? = none) : ∃ route : Route, route.Names path :=
    ⟨route, Route.names_iff.mpr ⟨hpath, by simp [htoken], by simp [htoken]⟩⟩
  rw [ofPath] at h
  split at h
  case isTrue hpath => exact names .meetings hpath rfl
  split at h
  case isTrue hpath => exact names .health hpath rfl
  split at h
  case isTrue hpath => exact names .metrics hpath rfl
  split at h
  case h_1 rest hrest => exact exists_names_of_ofToken (eq_append_of_after? hrest) h
  case h_2 => exact absurd rfl h

theorem ofPath_of_names {path : String} {route : Route} (h : route.Names path) :
    ofPath path = route.endpoint := by
  have hroute : Route.ofPath? path = some route := Route.ofPath?_eq_some_iff_names.mpr (.inl h)
  obtain ⟨hparts, hfilled⟩ := h
  obtain ⟨hpath, -⟩ := Route.segments_eq_iff.mp hparts
  cases route with
  | health => subst hpath; decide
  | metrics => subst hpath; decide
  | meetings => subst hpath; decide
  | meeting token => exact ofPath_of_meeting hroute
  | satisfaction token =>
    rw [ofPath_of_satisfaction hroute, if_neg (by simpa [Route.token?] using hfilled)]
    rfl

theorem ofPath_tokenlessPath : ofPath Route.tokenlessPath = other := by
  decide +kernel

theorem ofPath_eq_other_iff {path : String} :
    ofPath path = other ↔ ∀ route : Route, ¬route.Names path := by
  constructor
  · intro h route hnames
    rw [ofPath_of_names hnames] at h
    cases route <;> cases h
  · intro h
    by_contra hne
    obtain ⟨route, hnames⟩ := exists_names hne
    exact h route hnames

theorem label_injective : Function.Injective label := by
  intro a b h
  cases a <;> cases b <;> first | rfl | exact absurd h (by decide)

theorem label_endpoint (route : Route) : route.endpoint.label = route.template.text := by
  cases route <;> rfl

end Endpoint

namespace Template

open Endpoint

variable {path : String} {t : Template}

theorem template_mem_table (route : Route) : route.template ∈ table := by
  cases route <;> simp [Route.template, table]

theorem text_inj_of_mem_table :
    ∀ t ∈ table, ∀ t' ∈ table, t.text = t'.text → t = t' := by
  decide +kernel

theorem text_ne_other : ∀ t ∈ table, t.text ≠ other.label := by
  decide +kernel

theorem label_eq_text_iff (ht : t ∈ table) :
    (Endpoint.ofPath path).label = t.text ↔ t.Matches path := by
  rw [Route.matches_iff ht]
  constructor
  · intro h
    have hne : Endpoint.ofPath path ≠ other :=
      fun hother => text_ne_other t ht (by rw [← h, hother])
    obtain ⟨route, hnames⟩ := exists_names hne
    rw [ofPath_of_names hnames, label_endpoint] at h
    exact ⟨route, text_inj_of_mem_table _ (template_mem_table route) t ht h, hnames⟩
  · rintro ⟨route, rfl, hnames⟩
    rw [ofPath_of_names hnames, label_endpoint]

theorem label_eq_other_iff :
    (Endpoint.ofPath path).label = other.label ↔ ∀ t ∈ table, ¬t.Matches path := by
  rw [label_injective.eq_iff, ofPath_eq_other_iff]
  constructor
  · intro h t ht hmatches
    obtain ⟨route, -, hnames⟩ := (Route.matches_iff ht).mp hmatches
    exact h route hnames
  · intro h route hnames
    have hmem := template_mem_table route
    exact h _ hmem ((Route.matches_iff hmem).mpr ⟨route, rfl, hnames⟩)

theorem not_names_tokenlessPath (route : Route) : ¬route.Names Route.tokenlessPath :=
  ofPath_eq_other_iff.mp ofPath_tokenlessPath route

theorem label_of_ofPath? {route : Route} (h : Route.ofPath? path = some route)
    (hne : path ≠ Route.tokenlessPath) : (Endpoint.ofPath path).label = route.template.text := by
  rcases Route.ofPath?_eq_some_iff_names.mp h with hnames | ⟨hpath, -⟩
  · rw [ofPath_of_names hnames, label_endpoint]
  · exact absurd hpath hne

theorem label_eq_other_iff_ofPath? :
    (Endpoint.ofPath path).label = other.label ↔
      Route.ofPath? path = none ∨ path = Route.tokenlessPath := by
  rw [label_injective.eq_iff, ofPath_eq_other_iff]
  constructor
  · intro h
    cases hroute : Route.ofPath? path with
    | none => exact .inl rfl
    | some route =>
      rcases Route.ofPath?_eq_some_iff_names.mp hroute with hnames | ⟨hpath, -⟩
      · exact absurd hnames (h route)
      · exact .inr hpath
  · rintro (hnone | rfl) route hnames
    · rw [Route.ofPath?_eq_some_iff_names.mpr (.inl hnames)] at hnone
      cases hnone
    · exact not_names_tokenlessPath route hnames

/-- The routes are those of the templates, and there is one path more. -/
theorem matches_iff_ofPath? (ht : t ∈ table) :
    t.Matches path ↔
      path ≠ Route.tokenlessPath ∧
        ∃ route, Route.ofPath? path = some route ∧ route.template = t := by
  rw [Route.matches_iff ht]
  constructor
  · rintro ⟨route, htemplate, hnames⟩
    refine ⟨?_, route, Route.ofPath?_eq_some_iff_names.mpr (.inl hnames), htemplate⟩
    rintro rfl
    exact not_names_tokenlessPath route hnames
  · rintro ⟨hne, route, hroute, htemplate⟩
    rcases Route.ofPath?_eq_some_iff_names.mp hroute with hnames | ⟨hpath, -⟩
    · exact ⟨route, htemplate, hnames⟩
    · exact absurd hpath hne

theorem label_eq_meeting_iff :
    (Endpoint.ofPath path).label = meeting.label ↔
      ∃ token : String, path = "/v1/meetings/" ++ token ∧ '/' ∉ token.toList ∧ token ≠ "" := by
  have ht : [.fixed "v1", .fixed "meetings", .token] ∈ table := by simp [table]
  rw [show meeting.label = text [.fixed "v1", .fixed "meetings", .token] from rfl,
    label_eq_text_iff ht, Route.matches_iff ht]
  constructor
  · rintro ⟨route, htemplate, hnames⟩
    cases route <;> simp [Route.template] at htemplate
    exact ⟨_, Route.names_meeting_iff.mp hnames⟩
  · rintro ⟨token, h⟩
    exact ⟨.meeting token, rfl, Route.names_meeting_iff.mpr h⟩

theorem label_eq_satisfaction_iff :
    (Endpoint.ofPath path).label = satisfaction.label ↔
      ∃ token : String, path = "/v1/meetings/" ++ token ++ "/satisfaction" ∧
        '/' ∉ token.toList ∧ token ≠ "" := by
  have ht : [.fixed "v1", .fixed "meetings", .token, .fixed "satisfaction"] ∈ table := by
    simp [table]
  rw [show satisfaction.label =
      text [.fixed "v1", .fixed "meetings", .token, .fixed "satisfaction"] from rfl,
    label_eq_text_iff ht, Route.matches_iff ht]
  constructor
  · rintro ⟨route, htemplate, hnames⟩
    cases route <;> simp [Route.template] at htemplate
    exact ⟨_, Route.names_satisfaction_iff.mp hnames⟩
  · rintro ⟨token, h⟩
    exact ⟨.satisfaction token, rfl, Route.names_satisfaction_iff.mpr h⟩

theorem ofPath_replace_token {token token' rest : String} (hslash : '/' ∉ token.toList)
    (hne : token ≠ "") (hslash' : '/' ∉ token'.toList) (hne' : token' ≠ "") :
    Endpoint.ofPath ("/v1/meetings/" ++ token' ++ rest) =
      Endpoint.ofPath ("/v1/meetings/" ++ token ++ rest) := by
  have ofPath_eq (token : String) : Endpoint.ofPath ("/v1/meetings/" ++ token ++ rest) =
      ofToken (token.toList ++ rest.toList) := ofPath_append (by simp)
  rw [ofPath_eq, ofPath_eq, ofToken_append _ (by simpa using hne) hslash,
    ofToken_append _ (by simpa using hne') hslash']

end Template

open Endpoint in
/-- Requests are counted under the template of the route that their path has, and under `/other` if
it has none. One path has a route and is counted under `/other`: that of the survey for an empty
token, which no template matches. -/
theorem label_agrees_with_route (path : String) :
    (∀ route, Route.ofPath? path = some route → path ≠ Route.tokenlessPath →
      (ofPath path).label = route.template.text) ∧
    ((ofPath path).label = "/other" ↔
      Route.ofPath? path = none ∨ path = Route.tokenlessPath) ∧
    Route.ofPath? Route.tokenlessPath = some (.satisfaction "") ∧
    (∀ t ∈ Template.table, t.Matches path ↔
      path ≠ Route.tokenlessPath ∧ ∃ route, Route.ofPath? path = some route ∧ route.template = t) ∧
    (∀ t ∈ Template.table, (ofPath path).label = t.text ↔ t.Matches path) ∧
    ((ofPath path).label = "/other" ↔ ∀ t ∈ Template.table, ¬t.Matches path) ∧
    ((ofPath path).label = "/v1/meetings/\x7btoken\x7d" ↔
      ∃ token : String, path = "/v1/meetings/" ++ token ∧ '/' ∉ token.toList ∧ token ≠ "") ∧
    ((ofPath path).label = "/v1/meetings/\x7btoken\x7d/satisfaction" ↔
      ∃ token : String, path = "/v1/meetings/" ++ token ++ "/satisfaction" ∧
        '/' ∉ token.toList ∧ token ≠ "") ∧
    (∀ token token' rest : String, '/' ∉ token.toList → token ≠ "" →
      '/' ∉ token'.toList → token' ≠ "" → path = "/v1/meetings/" ++ token ++ rest →
      ofPath ("/v1/meetings/" ++ token' ++ rest) = ofPath path) := by
  refine ⟨fun _ => Template.label_of_ofPath?, Template.label_eq_other_iff_ofPath?,
    by decide +kernel, fun _ => Template.matches_iff_ofPath?, fun _ => Template.label_eq_text_iff,
    Template.label_eq_other_iff, Template.label_eq_meeting_iff,
    Template.label_eq_satisfaction_iff, ?_⟩
  rintro token token' rest hslash hne hslash' hne' rfl
  exact Template.ofPath_replace_token hslash hne hslash' hne'

/-- The path of the survey for an empty token has a route, but is not counted under its template. -/
theorem not_label_agrees_at_tokenless :
    ¬∀ (path : String) (route : Route), Route.ofPath? path = some route →
      (Endpoint.ofPath path).label = route.template.text := by
  intro h
  exact absurd (h Route.tokenlessPath (.satisfaction "") (by decide +kernel)) (by decide +kernel)

end Rendezvous.Http
