import Rendezvous.Collaborator.Url
import Rendezvous.Proofs.Text.Blank
import Rendezvous.Proofs.Text.Percent
import Rendezvous.Proofs.Text.Split

namespace Rendezvous.Collaborator.Url

open Text Split

def isSpace (c : Char) : Bool := c ≤ ' '

def isKept (c : Char) : Bool := c != '\t' && c != '\n' && c != '\r'

def isHostChar (c : Char) : Bool := !isSlash c && c != '?' && c != '#'

def isPathChar (c : Char) : Bool := c != '?' && c != '#'

def straighten (c : Char) : Char := if c = '\\' then '/' else c

theorem afterScheme?_eq_some_iff {cs rest : List Char} : afterScheme? cs = some rest ↔
    ∃ scheme slashes, cs = scheme ++ ':' :: (slashes ++ rest) ∧
      (scheme.map Char.toLower = "http".toList ∨ scheme.map Char.toLower = "https".toList) ∧
      (∀ c ∈ slashes, isSlash c = true) ∧ ∀ c ∈ rest.head?, isSlash c = false := by
  constructor
  · intro h
    unfold afterScheme? at h
    rw [List.span_eq_takeWhile_dropWhile] at h
    cases hdrop : cs.dropWhile (· != ':') with
    | nil => rw [hdrop] at h; cases h
    | cons c r =>
      have hc : c = ':' := by
        have := List.head?_dropWhile_not (· != ':') cs
        rw [hdrop] at this
        simpa using this
      subst hc
      rw [hdrop] at h
      simp only at h
      split at h
      · next hweb =>
        cases h
        refine ⟨cs.takeWhile (· != ':'), r.takeWhile isSlash, ?_, hweb, ?_, ?_⟩
        · rw [List.takeWhile_append_dropWhile, ← hdrop, List.takeWhile_append_dropWhile]
        · exact fun c hc => List.mem_takeWhile_imp hc
        · intro c hc
          have := List.head?_dropWhile_not isSlash r
          rw [Option.mem_def.mp hc] at this
          simpa using this
      · cases h
  · rintro ⟨scheme, slashes, rfl, hweb, hslashes, hrest⟩
    have hscheme : ∀ c ∈ scheme, (c != ':') = true := by
      intro c hc
      have hlower : c.toLower ∈ scheme.map Char.toLower := List.mem_map_of_mem hc
      simp only [bne_iff_ne]
      rintro rfl
      rcases hweb with h | h <;> rw [h] at hlower <;> revert hlower <;> decide
    have hspan : (scheme ++ ':' :: (slashes ++ rest)).span (· != ':') =
        (scheme, ':' :: (slashes ++ rest)) := by
      rw [List.span_eq_takeWhile_dropWhile, takeWhile_append_cons rfl, dropWhile_append_cons rfl,
        List.takeWhile_eq_self_iff.mpr hscheme, List.dropWhile_eq_nil_iff.mpr hscheme,
        List.nil_append]
    have hdrop : (slashes ++ rest).dropWhile isSlash = rest := by
      rw [List.dropWhile_append_of_pos hslashes]
      cases rest with
      | nil => rfl
      | cons c rest => rw [List.dropWhile_cons_of_neg (by simp [hrest c rfl])]
    rw [afterScheme?, hspan]
    simp only [if_pos hweb, hdrop]

theorem afterScheme?_append {cs rest : List Char} (h : afterScheme? cs = some rest)
    (hne : rest ≠ []) (ys : List Char) : afterScheme? (cs ++ ys) = some (rest ++ ys) := by
  obtain ⟨scheme, slashes, rfl, hweb, hslashes, hrest⟩ := afterScheme?_eq_some_iff.mp h
  refine afterScheme?_eq_some_iff.mpr ⟨scheme, slashes, by simp, hweb, hslashes, ?_⟩
  cases rest with
  | nil => exact absurd rfl hne
  | cons c rest => exact hrest

theorem afterScheme?_of_append {cs ys rest : List Char} (h : afterScheme? (cs ++ ys) = some rest)
    (hne : rest ≠ []) (hys : ∀ c ∈ ys, isSlash c = true) :
    ∃ rest', rest' ≠ [] ∧ afterScheme? cs = some rest' := by
  obtain ⟨scheme, slashes, heq, hweb, hslashes, hrest⟩ := afterScheme?_eq_some_iff.mp h
  obtain ⟨c, rest, rfl⟩ := List.exists_cons_of_ne_nil hne
  have hc : isSlash c = false := hrest c rfl
  have hmem : c ∉ ys := fun hcy => by simp [hys c hcy] at hc
  have hsplit : cs ++ ys = (scheme ++ ':' :: slashes ++ [c]) ++ rest := by simp [heq]
  have hfound (t : List Char) (ht : cs = (scheme ++ ':' :: slashes ++ [c]) ++ t) :
      afterScheme? cs = some (c :: t) :=
    afterScheme?_eq_some_iff.mpr ⟨scheme, slashes, by simp [ht], hweb, hslashes, by simpa using hc⟩
  rcases List.append_eq_append_iff.mp hsplit with ⟨t, ht, hyt⟩ | ⟨t, ht, -⟩
  · rcases t.eq_nil_or_concat' with rfl | ⟨t, d, rfl⟩
    · exact ⟨[c], by simp, hfound [] (by simpa using ht.symm)⟩
    · have hd : c = d := by
        have hlast := congrArg List.getLast? ht
        simp only [← List.append_assoc, List.getLast?_concat] at hlast
        exact Option.some.inj hlast
      exact absurd (by simp [hyt, hd]) hmem
  · exact ⟨c :: t, by simp, hfound t ht⟩

def step (before : List (List Char)) (segment : List Char) : List (List Char) :=
  if undot segment = ['.'] then before
  else if undot segment = ['.', '.'] then before.dropLast
  else before ++ [Percent.encode isEscapedInPath segment]

theorem resolve_cons (before : List (List Char)) (segment : List Char)
    {segments : List (List Char)} (h : segments ≠ []) :
    resolve before (segment :: segments) = resolve (step before segment) segments := by
  simp only [resolve, step, if_neg h, List.append_nil]
  split_ifs <;> rfl

theorem resolve_singleton (before : List (List Char)) (segment : List Char) :
    resolve before [segment] =
      if undot segment = ['.'] then before ++ [[]]
      else if undot segment = ['.', '.'] then before.dropLast ++ [[]]
      else before ++ [Percent.encode isEscapedInPath segment] := by
  simp only [resolve, ↓reduceIte]

theorem resolve_append (before xs : List (List Char)) {ys : List (List Char)} (h : ys ≠ []) :
    resolve before (xs ++ ys) = resolve (xs.foldl step before) ys := by
  induction xs generalizing before with
  | nil => rfl
  | cons x xs ih =>
    rw [List.cons_append, resolve_cons before x (by simp [h]), ih, List.foldl_cons]

theorem step_of_not_dots {before : List (List Char)} {segment : List Char}
    (h : undot segment ≠ ['.']) (h' : undot segment ≠ ['.', '.']) :
    step before segment = before ++ [Percent.encode isEscapedInPath segment] := by
  rw [step, if_neg h, if_neg h']

/-- Of what was there before, a front is left. What comes after it, but for its end, are parts of
the path that are not the last one. -/
theorem exists_resolve_eq (before segments : List (List Char)) :
    ∃ kept left, kept <+: before ∧ resolve before segments = kept ++ left ∧
      ∀ x ∈ left.dropLast, ∃ segment ∈ segments.dropLast,
        undot segment ≠ ['.'] ∧ undot segment ≠ ['.', '.'] ∧
          x = Percent.encode isEscapedInPath segment := by
  induction segments generalizing before with
  | nil => exact ⟨before, [], List.prefix_rfl, by simp [resolve], by simp⟩
  | cons s segments ih =>
    by_cases hlast : segments = []
    · subst hlast
      rw [resolve_singleton]
      split_ifs
      · exact ⟨before, [[]], List.prefix_rfl, rfl, by simp⟩
      · exact ⟨before.dropLast, [[]], List.dropLast_prefix before, rfl, by simp⟩
      · exact ⟨before, [_], List.prefix_rfl, rfl, by simp⟩
    obtain ⟨kept, left, hkept, heq, hleft⟩ := ih (step before s)
    have hsegments : (s :: segments).dropLast = s :: segments.dropLast :=
      List.dropLast_cons_of_ne_nil hlast
    have hleft' : ∀ x ∈ left.dropLast, ∃ segment ∈ (s :: segments).dropLast,
        undot segment ≠ ['.'] ∧ undot segment ≠ ['.', '.'] ∧
          x = Percent.encode isEscapedInPath segment := fun x hx => by
      obtain ⟨segment, hmem, h⟩ := hleft x hx
      exact ⟨segment, hsegments ▸ List.mem_cons_of_mem s hmem, h⟩
    rw [resolve_cons before s hlast, heq]
    rw [step] at hkept
    split_ifs at hkept with hdot hdots
    · exact ⟨kept, left, hkept, rfl, hleft'⟩
    · exact ⟨kept, left, hkept.trans (List.dropLast_prefix before), rfl, hleft'⟩
    · rcases List.prefix_concat_iff.mp hkept with rfl | hkept
      · refine ⟨before, Percent.encode isEscapedInPath s :: left, List.prefix_rfl, by simp,
          fun x hx => ?_⟩
        cases left with
        | nil => simp at hx
        | cons y left =>
          rw [List.dropLast_cons_of_ne_nil (by simp)] at hx
          rcases List.mem_cons.mp hx with rfl | hx
          · exact ⟨s, hsegments ▸ List.mem_cons_self, hdot, hdots, rfl⟩
          · exact hleft' x hx
      · exact ⟨kept, left, hkept, rfl, hleft'⟩

def query? : List Char → Option (List Char)
  | '?' :: rest => some (Percent.encode isEscapedInQuery (rest.takeWhile (· != '#')))
  | _ => none

def parts (path : List Char) : List (List Char) := (path.map straighten).splitOn '/'

def below (front : List (List Char)) (y : List Char) : Target :=
  ⟨resolve front (parts ((y.filter isKept).takeWhile isPathChar)),
    query? ((y.filter isKept).dropWhile isPathChar)⟩

theorem clean_append {x y : List Char} (hy : ∀ c ∈ ('/' :: y).getLast?, isSpace c = false) :
    clean (String.ofList (x ++ '/' :: y)) =
      (x.dropWhile isSpace).filter isKept ++ '/' :: y.filter isKept := by
  have hend (l : List Char) :
      ((l ++ '/' :: y).reverse.dropWhile isSpace).reverse = l ++ '/' :: y := by
    rw [← List.rdropWhile, List.rdropWhile_eq_self_iff]
    intro hne
    rw [List.getLast_append_of_right_ne_nil _ _ (List.cons_ne_nil _ _)]
    simpa using hy _ (List.getLast?_eq_some_getLast _)
  change (((String.ofList (x ++ '/' :: y)).toList.dropWhile isSpace).reverse.dropWhile
    isSpace).reverse.filter isKept = _
  rw [String.toList_ofList, dropWhile_append_cons rfl, hend, List.filter_append]
  rfl

theorem target?_of_afterScheme? {address : String} {rest : List Char}
    (h : afterScheme? (clean address) = some rest) (hne : rest.takeWhile isHostChar ≠ []) :
    target? address = some ⟨pathSegments ((rest.dropWhile isHostChar).takeWhile isPathChar),
      query? ((rest.dropWhile isHostChar).dropWhile isPathChar)⟩ := by
  unfold target?
  simp only [h, bind, Option.bind_some, List.span_eq_takeWhile_dropWhile]
  exact (if_neg hne).trans rfl

theorem exists_afterScheme?_of_isSome {address : String} (h : (target? address).isSome) :
    ∃ rest, rest ≠ [] ∧ afterScheme? (clean address) = some rest := by
  cases hrest : afterScheme? (clean address) with
  | none => simp [target?, hrest] at h
  | some rest =>
    refine ⟨rest, ?_, rfl⟩
    rintro rfl
    simp [target?, hrest, List.span_eq_takeWhile_dropWhile] at h

theorem parts_ne_nil (path : List Char) : parts path ≠ [] := List.splitOn_ne_nil '/' _

theorem parts_append (path y : List Char) :
    parts (path ++ '/' :: y) = parts path ++ parts y := by
  rw [parts, List.map_append, List.map_cons]
  exact List.splitOn_append_cons_self _ _

/-- The segments of a path go on from those of a path that it starts with. -/
theorem exists_pathSegments_append (path : List Char) :
    ∃ front, ∀ y, pathSegments (path ++ '/' :: y) = resolve front (parts y) := by
  cases path with
  | nil => exact ⟨[], fun y => rfl⟩
  | cons c path =>
    refine ⟨(parts path).foldl step [], fun y => ?_⟩
    rw [← resolve_append [] (parts path) (parts_ne_nil y), ← parts_append]
    rfl

/-- Whether a text can be the start of addresses: with a slash behind it, it is one, and it has
neither a query nor a fragment. -/
structure IsBase (base : String) : Prop where
  address : (target? (base ++ "/")).isSome
  noQuery : '?' ∉ base.toList
  noFragment : '#' ∉ base.toList

/-- The path under which the addresses are that start with a base. -/
def directory (base : String) : List (List Char) :=
  ((target? (Blank.trimEnd '/' base ++ "/")).map (·.segments.dropLast)).getD []

variable {base : String}

theorem IsBase.exists_front (h : IsBase base) : ∃ front, ∀ y : List Char,
    (∀ c ∈ ('/' :: y).getLast?, isSpace c = false) →
      target? (String.ofList ((Blank.trimEnd '/' base).toList ++ '/' :: y)) =
        some (below front y) := by
  obtain ⟨k, hk⟩ := Blank.exists_eq_trimEnd_append '/' base
  generalize hx : (Blank.trimEnd '/' base).toList = x
  generalize hstart : (x.dropWhile isSpace).filter isKept = start
  have hclean (y : List Char) (hy : ∀ c ∈ ('/' :: y).getLast?, isSpace c = false) :
      clean (String.ofList (x ++ '/' :: y)) = start ++ '/' :: y.filter isKept :=
    hstart ▸ clean_append hy
  have hbase : base.toList = x ++ List.replicate k '/' := by
    have htext := congrArg String.toList hk
    rwa [String.toList_append, hx, String.toList_ofList] at htext
  have hpath : ∀ c ∈ start, isPathChar c = true := fun c hc => by
    rw [← hstart] at hc
    have hx : c ∈ x := (List.dropWhile_suffix _).subset (List.mem_of_mem_filter hc)
    have hmem : c ∈ base.toList := hbase ▸ List.mem_append_left _ hx
    have hquery : c ≠ '?' := fun e => h.noQuery (e ▸ hmem)
    have hfragment : c ≠ '#' := fun e => h.noFragment (e ▸ hmem)
    simp [isPathChar, hquery, hfragment]
  -- the slashes that are trimmed belong neither to the scheme nor to the host
  obtain ⟨rest, hne, hrest⟩ : ∃ rest, rest ≠ [] ∧ afterScheme? start = some rest := by
    have hslash : base ++ "/" = String.ofList (x ++ '/' :: List.replicate k '/') := by
      rw [← List.replicate_succ, List.replicate_succ', ← List.append_assoc, ← hbase,
        String.ofList_append, String.ofList_toList]
    have hlast : ∀ c ∈ ('/' :: List.replicate k '/').getLast?, isSpace c = false := fun c hc => by
      rw [← List.replicate_succ] at hc
      rw [List.eq_of_mem_replicate (List.mem_of_getLast? hc)]
      rfl
    obtain ⟨rest, hne, hrest⟩ := exists_afterScheme?_of_isSome h.address
    rw [hslash, hclean _ hlast] at hrest
    exact afterScheme?_of_append hrest hne (by simp [isSlash])
  obtain ⟨scheme, slashes, hparts, -, -, hhead⟩ := afterScheme?_eq_some_iff.mp hrest
  have hrestPath : ∀ c ∈ rest, isPathChar c = true := fun c hc => hpath c (by simp [hparts, hc])
  have hhost : rest.takeWhile isHostChar ≠ [] := by
    cases rest with
    | nil => exact absurd rfl hne
    | cons c rest =>
      have hslash := hhead c rfl
      have hc := hrestPath c List.mem_cons_self
      simp only [isPathChar, Bool.and_eq_true] at hc
      simp [isHostChar, hslash, hc]
  obtain ⟨front, hfront⟩ := exists_pathSegments_append (rest.dropWhile isHostChar)
  have hbefore : ∀ c ∈ rest.dropWhile isHostChar, isPathChar c = true := fun c hc =>
    hrestPath c ((List.dropWhile_suffix _).subset hc)
  refine ⟨front, fun y hy => ?_⟩
  have hscheme := afterScheme?_append hrest hne ('/' :: y.filter isKept)
  rw [← hclean y hy] at hscheme
  rw [target?_of_afterScheme? hscheme (by rwa [takeWhile_append_cons rfl]),
    dropWhile_append_cons rfl, List.takeWhile_append_of_pos hbefore,
    List.dropWhile_append_of_pos hbefore, List.takeWhile_cons_of_pos rfl,
    List.dropWhile_cons_of_pos rfl, hfront]
  rfl

theorem below_nil (front : List (List Char)) : below front [] = ⟨front ++ [[]], none⟩ := by
  simp only [below, parts, List.filter_nil, List.takeWhile_nil, List.map_nil, List.splitOn_nil,
    resolve_singleton]
  rfl

theorem IsBase.target?_eq (h : IsBase base) {y : List Char}
    (hy : ∀ c ∈ ('/' :: y).getLast?, isSpace c = false) :
    target? (String.ofList ((Blank.trimEnd '/' base).toList ++ '/' :: y)) =
      some (below (directory base) y) := by
  obtain ⟨front, hfront⟩ := h.exists_front
  have hempty : target? (Blank.trimEnd '/' base ++ "/") = some (below front []) := by
    rw [← hfront [] (by simp [isSpace]), String.ofList_append, String.ofList_toList]
  have hdirectory : directory base = front := by
    rw [directory, hempty, below_nil]
    exact List.dropLast_concat
  rw [hfront y hy, hdirectory]

example : directory "http://peer/x/y//" = ["x".toList, "y".toList] := by decide +kernel

/-- Whether a character stands in one part of a path, whatever is around it. -/
def isPartChar (c : Char) : Bool := isKept c && isPathChar c && !isSlash c

theorem isPartChar_iff {c : Char} :
    isPartChar c = true ↔ isKept c = true ∧ isPathChar c = true ∧ isSlash c = false := by
  simp [isPartChar, and_assoc]

variable {cs : List Char} {front : List (List Char)}

theorem filter_isKept (h : ∀ c ∈ cs, isPartChar c = true) : cs.filter isKept = cs :=
  List.filter_eq_self.mpr fun c hc => (isPartChar_iff.mp (h c hc)).1

theorem forall_isPathChar (h : ∀ c ∈ cs, isPartChar c = true) : ∀ c ∈ cs, isPathChar c = true :=
  fun c hc => (isPartChar_iff.mp (h c hc)).2.1

theorem straighten_of_not_isSlash {c : Char} (h : isSlash c = false) : straighten c = c := by
  rw [straighten, if_neg]
  rintro rfl
  cases h

theorem straighten_of_isSlash {c : Char} (h : isSlash c = true) : straighten c = '/' := by
  simp only [isSlash, Bool.or_eq_true, beq_iff_eq] at h
  rcases h with rfl | rfl <;> rfl

theorem filter_straighten (path : List Char) :
    (path.map straighten).filter (· != '/') = path.filter (!isSlash ·) := by
  induction path with
  | nil => rfl
  | cons c path ih =>
    rw [List.map_cons, List.filter_cons, List.filter_cons, ih]
    cases hc : isSlash c with
    | true => rw [straighten_of_isSlash hc]; rfl
    | false =>
      have hne : c ≠ '/' := by
        rintro rfl
        cases hc
      rw [straighten_of_not_isSlash hc]
      simp [hne]

/-- No part has a slash of either kind, or a character that is not in the path. -/
theorem sublist_of_mem_parts {path part : List Char} (h : part ∈ parts path) :
    part.Sublist (path.filter (!isSlash ·)) :=
  filter_straighten path ▸ sublist_of_mem_splitOn h

theorem parts_of_isPartChar (h : ∀ c ∈ cs, isPartChar c = true) : parts cs = [cs] := by
  have hslash : ∀ c ∈ cs, isSlash c = false := fun c hc => (isPartChar_iff.mp (h c hc)).2.2
  have hmap : cs.map straighten = cs :=
    (List.map_congr_left fun c hc => straighten_of_not_isSlash (hslash c hc)).trans cs.map_id
  rw [parts, hmap]
  exact List.splitOn_eq_singleton fun hc => nomatch hslash _ hc

/-- A part of a path up to a slash is one segment. -/
theorem below_append_cons (h : ∀ c ∈ cs, isPartChar c = true) (y : List Char) :
    below front (cs ++ '/' :: y) = below (step front cs) y := by
  have hpath := forall_isPathChar h
  rw [below, List.filter_append, filter_isKept h, List.filter_cons_of_pos rfl,
    List.takeWhile_append_of_pos hpath, List.takeWhile_cons_of_pos rfl,
    List.dropWhile_append_of_pos hpath, List.dropWhile_cons_of_pos rfl, parts_append,
    parts_of_isPartChar h, List.singleton_append, resolve_cons _ _ (parts_ne_nil _)]
  rfl

theorem below_of_isPartChar (h : ∀ c ∈ cs, isPartChar c = true) (hdot : undot cs ≠ ['.'])
    (hdots : undot cs ≠ ['.', '.']) :
    below front cs = ⟨front ++ [Percent.encode isEscapedInPath cs], none⟩ := by
  have hpath := forall_isPathChar h
  rw [below, filter_isKept h, List.takeWhile_eq_self_iff.mpr hpath,
    List.dropWhile_eq_nil_iff.mpr hpath, parts_of_isPartChar h, resolve_singleton, if_neg hdot,
    if_neg hdots]
  rfl

theorem below_fragment (front : List (List Char)) (y rest : List Char) :
    below front (y ++ '#' :: rest) = below front y := by
  have hfilter : (y ++ '#' :: rest).filter isKept =
      y.filter isKept ++ '#' :: rest.filter isKept := by
    rw [List.filter_append]
    rfl
  have hquery (q r : List Char) : query? (q ++ '#' :: r) = query? q := by
    cases q with
    | nil => rfl
    | cons c q =>
      by_cases hc : c = '?'
      · subst hc
        simp only [List.cons_append, query?]
        rw [takeWhile_append_cons rfl]
      · simp [query?, hc]
  rw [below, hfilter, takeWhile_append_cons rfl, dropWhile_append_cons rfl, hquery]
  rfl

/-- Where characters and an ending are put between slashes, one segment from each, the segment is
written for some of the characters. -/
theorem exists_part_of_below {ending segment last : List Char}
    (hending : ∀ c ∈ ending, isPartChar c = true)
    (h : (below front (cs ++ '/' :: ending)).segments = front ++ [segment, last]) :
    ∃ part : List Char, part.Sublist cs ∧ (∀ c ∈ part, isPartChar c = true) ∧
      undot part ≠ ['.'] ∧ undot part ≠ ['.', '.'] ∧
        segment = Percent.encode isEscapedInPath part := by
  generalize hpath : ((cs ++ '/' :: ending).filter isKept).takeWhile isPathChar = path
  obtain ⟨kept, left, ⟨front', rfl⟩, hresolve, hleft⟩ := exists_resolve_eq front (parts path)
  have hsegments : left = front' ++ [segment, last] := by
    simp only [below, hpath] at h
    rw [h, List.append_assoc] at hresolve
    exact (List.append_cancel_left hresolve).symm
  obtain ⟨part, hpart, hdot, hdots, hsegment⟩ := hleft segment (by simp [hsegments])
  have hmem : part ∈ parts ((cs.filter isKept).takeWhile isPathChar) := by
    rw [List.filter_append, List.filter_cons_of_pos rfl, filter_isKept hending] at hpath
    -- the last part is the ending, unless the address is cut before it
    by_cases hcut : (cs.filter isKept).takeWhile isPathChar = cs.filter isKept
    · have hwhole : path = cs.filter isKept ++ '/' :: ending := by
        rw [← hpath, List.takeWhile_append_of_pos (List.takeWhile_eq_self_iff.mp hcut),
          List.takeWhile_cons_of_pos rfl,
          List.takeWhile_eq_self_iff.mpr (forall_isPathChar hending)]
      rw [hwhole, parts_append, parts_of_isPartChar hending, List.dropLast_concat] at hpart
      rwa [hcut]
    · have hlength : ¬((cs.filter isKept).takeWhile isPathChar).length =
          (cs.filter isKept).length := fun e => hcut ((List.takeWhile_prefix _).eq_of_length e)
      rw [List.takeWhile_append, if_neg hlength] at hpath
      exact List.dropLast_subset _ (hpath ▸ hpart)
  have hsub := sublist_of_mem_parts hmem
  refine ⟨part, ?_, fun c hc => ?_, hdot, hdots, hsegment⟩
  · exact hsub.trans ((List.filter_sublist.trans (List.takeWhile_prefix _).sublist).trans
      List.filter_sublist)
  · obtain ⟨hpath, hslash⟩ := List.mem_filter.mp (hsub.subset hc)
    have hkept := (List.mem_filter.mp ((List.takeWhile_prefix _).subset hpath)).2
    rw [isPartChar, hkept, List.mem_takeWhile_imp hpath, hslash]
    rfl

theorem decode_encode (cs : List Char) :
    Percent.decode (Utf8.encodeChars (Percent.encode isEscapedInPath cs)) =
      Percent.decode (Utf8.encodeChars cs) := by
  have foreign (c : Char) (hc : 0x80 ≤ c.toNat) : isEscapedInPath c = true := by
    have hcontrol : isControl c = true := by
      simp only [isControl, Bool.or_eq_true, decide_eq_true_eq]
      right
      change (0x7f : UInt32) ≤ c.val
      rw [UInt32.le_iff_toNat_le]
      exact Nat.le_trans (by decide) hc
    rw [isEscapedInPath, hcontrol, Bool.true_or]
  have table : ∀ n < 256, (Numeral.Hexadecimal.digit? (UInt8.ofNat n)).isSome →
      isEscapedInPath (Char.ofNat n) = false := by
    decide +kernel
  have digits (b : UInt8) (hb : (Numeral.Hexadecimal.digit? b).isSome) :
      isEscapedInPath (Char.ofNat b.toNat) = false :=
    table b.toNat b.toNat_lt (by rwa [UInt8.ofNat_toNat])
  rw [Percent.encodeChars_encode foreign, Percent.decode_escapeOctets digits (by decide)]

def IsLiteral (cs : List Char) : Prop :=
  Percent.decode (Utf8.encodeChars cs) = Utf8.encodeChars cs

theorem not_isLiteral_dot {e : Char} (he : e = 'e' ∨ e = 'E') (cs : List Char) :
    ¬IsLiteral ('%' :: '2' :: e :: cs) := by
  intro h
  have hdecode : (Percent.decode (Utf8.encodeChars ('%' :: '2' :: e :: cs))).length ≤
      (Utf8.encodeChars cs).length + 1 := by
    rcases he with rfl | rfl <;> exact Nat.succ_le_succ (Percent.length_decode_le _)
  have hencode : (Utf8.encodeChars ('%' :: '2' :: e :: cs)).length =
      (Utf8.encodeChars cs).length + 3 := by
    rcases he with rfl | rfl <;> rfl
  rw [h] at hdecode
  omega

theorem isLiteral_of_cons (h : IsLiteral ('.' :: cs)) : IsLiteral cs := by
  rw [IsLiteral, Utf8.encodeChars_cons] at h
  exact List.cons_injective ((Percent.decode_cons (by decide) _).symm.trans h)

theorem undot_eq_cons {rest : List Char} (h : undot cs = '.' :: rest) :
    ∃ cs', undot cs' = rest ∧
      (cs = '.' :: cs' ∨ ∃ e, (e = 'e' ∨ e = 'E') ∧ cs = '%' :: '2' :: e :: cs') := by
  unfold undot at h
  split at h
  · next c cs =>
    split at h
    · next hc => exact ⟨cs, (List.cons.inj h).2, .inr ⟨c, hc, rfl⟩⟩
    · cases h
  · next c cs _ =>
    obtain ⟨rfl, hrest⟩ := List.cons.inj h
    exact ⟨cs, hrest, .inl rfl⟩
  · cases h

theorem IsLiteral.eq_cons_of_undot {rest : List Char} (literal : IsLiteral cs)
    (h : undot cs = '.' :: rest) : ∃ cs', cs = '.' :: cs' ∧ IsLiteral cs' ∧ undot cs' = rest := by
  obtain ⟨cs', hrest, rfl | ⟨e, he, rfl⟩⟩ := undot_eq_cons h
  · exact ⟨cs', rfl, isLiteral_of_cons literal, hrest⟩
  · exact absurd literal (not_isLiteral_dot he cs')

theorem undot_eq_nil (h : undot cs = []) : cs = [] := by
  unfold undot at h
  split at h
  · split at h <;> cases h
  · cases h
  · rfl

end Rendezvous.Collaborator.Url
