import Rendezvous.Collaborator.Client
import Rendezvous.Proofs.Collaborator.Url
import Rendezvous.Proofs.Text.UrlSafe

namespace Rendezvous.Collaborator

open Text

/-- Whether an identifier stands for itself where it is put between two slashes of an address. -/
structure Addressable (id : String) : Prop where
  nonempty : id ≠ ""
  /-- The characters that cut an address, and those that are left out of one. -/
  undivided : ∀ c ∈ ['/', '\\', '?', '#', '\t', '\n', '\r'], c ∉ id.toList
  undotted : id ≠ "." ∧ id ≠ ".."
  literal : Percent.decodeText? id = some id

theorem isLiteral_iff {id : String} :
    Url.IsLiteral id.toList ↔ Percent.decodeText? id = some id := by
  rw [Percent.decodeText?, Utf8.decode?_eq_some_iff]
  rfl

theorem forall_isPartChar_iff {cs : List Char} : (∀ c ∈ cs, Url.isPartChar c = true) ↔
    ∀ c ∈ ['/', '\\', '?', '#', '\t', '\n', '\r'], c ∉ cs := by
  have hchar (c : Char) : Url.isPartChar c = true ↔
      c ∉ ['/', '\\', '?', '#', '\t', '\n', '\r'] := by
    simp [Url.isPartChar, Url.isKept, Url.isPathChar, Url.isSlash]
    tauto
  exact ⟨fun h c hc hmem => (hchar c).mp (h c hmem) hc,
    fun h c hmem => (hchar c).mpr fun hc => h c hc hmem⟩

theorem isPartChar_of_isUrlSafe {c : Char} (h : isUrlSafe c = true) : Url.isPartChar c = true ∧
    Url.isEscapedInPath c = false ∧ Url.isSpace c = false ∧ c ≠ '.' ∧ c ≠ '%' := by
  have table : ∀ n < 0x80, isUrlSafe (Char.ofNat n) = true →
      Url.isPartChar (Char.ofNat n) = true ∧ Url.isEscapedInPath (Char.ofNat n) = false ∧
        Url.isSpace (Char.ofNat n) = false ∧ Char.ofNat n ≠ '.' ∧ Char.ofNat n ≠ '%' := by
    decide +kernel
  have hc := table c.toNat (toNat_lt_of_isUrlSafe h)
  rw [Char.ofNat_toNat] at hc
  exact hc h

theorem forall_isPartChar_of_isUrlSafe {cs : List Char} (h : ∀ c ∈ cs, isUrlSafe c = true) :
    ∀ c ∈ cs, Url.isPartChar c = true :=
  fun c hc => (isPartChar_of_isUrlSafe (h c hc)).1

theorem undot_ne_of_isUrlSafe {cs rest : List Char} (h : ∀ c ∈ cs, isUrlSafe c = true) :
    Url.undot cs ≠ '.' :: rest := by
  intro hdot
  obtain ⟨cs', -, rfl | ⟨e, -, rfl⟩⟩ := Url.undot_eq_cons hdot
  · exact (isPartChar_of_isUrlSafe (h '.' List.mem_cons_self)).2.2.2.1 rfl
  · exact (isPartChar_of_isUrlSafe (h '%' List.mem_cons_self)).2.2.2.2 rfl

theorem encode_of_isUrlSafe {cs : List Char} (h : ∀ c ∈ cs, isUrlSafe c = true) :
    Percent.encode Url.isEscapedInPath cs = cs :=
  Percent.encode_eq_self fun c hc => (isPartChar_of_isUrlSafe (h c hc)).2.1

namespace Addressable
variable {id : String}

theorem forall_isPartChar (h : Addressable id) : ∀ c ∈ id.toList, Url.isPartChar c = true :=
  forall_isPartChar_iff.mpr h.undivided

theorem undot_ne (h : Addressable id) :
    Url.undot id.toList ≠ ['.'] ∧ Url.undot id.toList ≠ ['.', '.'] := by
  have literal := isLiteral_iff.mpr h.literal
  constructor
  · intro hdot
    obtain ⟨cs, hid, -, hcs⟩ := literal.eq_cons_of_undot hdot
    rw [Url.undot_eq_nil hcs] at hid
    exact h.undotted.1 (String.toList_inj.mp hid)
  · intro hdots
    obtain ⟨cs, hid, literal', hcs⟩ := literal.eq_cons_of_undot hdots
    obtain ⟨cs', rfl, -, hcs'⟩ := literal'.eq_cons_of_undot hcs
    rw [Url.undot_eq_nil hcs'] at hid
    exact h.undotted.2 (String.toList_inj.mp hid)

end Addressable

/-- Where the resources of a peer are: below directories, with an ending after the identifier. -/
structure Place where
  directories : List (List Char)
  ending : List Char
  plain : (ending :: directories).all (·.all isUrlSafe) = true

namespace Place

def path (place : Place) (cs : List Char) : List Char :=
  place.directories.foldr (fun d rest => d ++ '/' :: rest) (cs ++ '/' :: place.ending)

def callVariables : Place where
  directories := ["api".toList, "v1".toList, "calls".toList]
  ending := "variables".toList
  plain := by decide +kernel

def chatClosing : Place where
  directories := ["api".toList, "v1".toList, "conversations".toList]
  ending := "close".toList
  plain := by decide +kernel

def climb (place : Place) : List Char :=
  (List.replicate place.directories.length "../".toList).flatten

variable {place : Place} {front : List (List Char)}

theorem forall_isUrlSafe (place : Place) {part : List Char}
    (h : part ∈ place.ending :: place.directories) : ∀ c ∈ part, isUrlSafe c = true :=
  List.all_eq_true.mp (List.all_eq_true.mp place.plain part h)

theorem below_directories {directories : List (List Char)}
    (plain : ∀ part ∈ directories, ∀ c ∈ part, isUrlSafe c = true) (front : List (List Char))
    (rest : List Char) :
    Url.below front (directories.foldr (fun d rest => d ++ '/' :: rest) rest) =
      Url.below (front ++ directories) rest := by
  induction directories generalizing front with
  | nil => simp
  | cons d directories ih =>
    have hd := plain d List.mem_cons_self
    rw [List.foldr_cons, Url.below_append_cons (forall_isPartChar_of_isUrlSafe hd),
      Url.step_of_not_dots (undot_ne_of_isUrlSafe hd) (undot_ne_of_isUrlSafe hd),
      encode_of_isUrlSafe hd, ih fun part hpart => plain part (List.mem_cons_of_mem d hpart)]
    simp

theorem below_path (place : Place) (front : List (List Char)) (cs : List Char) :
    Url.below front (place.path cs) =
      Url.below (front ++ place.directories) (cs ++ '/' :: place.ending) :=
  below_directories (fun _ hpart => place.forall_isUrlSafe (List.mem_cons_of_mem _ hpart)) front _

theorem plain_ending (place : Place) : ∀ c ∈ place.ending, isUrlSafe c = true :=
  place.forall_isUrlSafe List.mem_cons_self

theorem below_ending (place : Place) (front : List (List Char)) :
    Url.below front place.ending = ⟨front ++ [place.ending], none⟩ := by
  have plain := place.plain_ending
  rw [Url.below_of_isPartChar (forall_isPartChar_of_isUrlSafe plain) (undot_ne_of_isUrlSafe plain)
    (undot_ne_of_isUrlSafe plain), encode_of_isUrlSafe plain]

theorem isSpace_of_mem_getLast? (place : Place) (cs : List Char) :
    ∀ c ∈ ('/' :: place.path cs).getLast?, Url.isSpace c = false := by
  have hpath (directories : List (List Char)) : ∃ before, '/' :: directories.foldr
      (fun d rest => d ++ '/' :: rest) (cs ++ '/' :: place.ending) =
        before ++ '/' :: place.ending := by
    induction directories with
    | nil => exact ⟨'/' :: cs, rfl⟩
    | cons d directories ih =>
      obtain ⟨before, hbefore⟩ := ih
      refine ⟨'/' :: d ++ before, ?_⟩
      rw [List.foldr_cons, hbefore]
      simp
  obtain ⟨before, hbefore⟩ := hpath place.directories
  intro c hc
  rw [path, hbefore, List.getLast?_append_of_ne_nil _ (List.cons_ne_nil _ _)] at hc
  rcases List.mem_cons.mp (List.mem_of_getLast? hc) with rfl | hc
  · rfl
  · exact (isPartChar_of_isUrlSafe (place.plain_ending c hc)).2.2.1

theorem below_climb (place : Place) (front : List (List Char)) (rest : List Char) :
    Url.below (front ++ place.directories) (place.climb ++ rest) = Url.below front rest := by
  have hpart : ∀ c ∈ ['.', '.'], Url.isPartChar c = true := List.all_eq_true.mp (by decide)
  have hdots (front : List (List Char)) (rest : List Char) :
      Url.below front ("../".toList ++ rest) = Url.below front.dropLast rest :=
    Url.below_append_cons hpart rest
  rw [climb]
  generalize place.directories = directories
  induction directories using List.reverseRecOn with
  | nil => simp
  | append_singleton directories d ih =>
    rw [List.length_append, List.length_singleton, List.replicate_succ, List.flatten_cons,
      List.append_assoc, hdots, ← List.append_assoc, List.dropLast_concat, ih]

end Place

theorem path_setVariables (domainId : Int64) (id : String) (vars : Dictionary String) :
    (Call.setVariables domainId id vars).path.toList =
      '/' :: Place.callVariables.path id.toList := by
  simp [Call.setVariables, Place.path, Place.callVariables]

theorem path_closeChat (link : ChatLink) : (Call.closeChat link).path.toList =
      '/' :: Place.chatClosing.path link.conversationId.toList := by
  simp [Call.closeChat, Place.path, Place.chatClosing]

def Peer.target? (p : Peer) (c : Call) : Option Url.Target := (p.request? c).map Request.target

/-- What a peer with resources at a place is asked for by calls that put an identifier into their
address as it is. -/
structure Peer.Names {α : Type} (p : Peer) (front : List (List Char)) (place : Place)
    (call : α → String → Call) : Prop where
  sent (a : α) (id : String) : (p.target? (call a id)).isSome
  /-- The address has a segment for the identifier, in its place and with no query, exactly if the
  identifier is addressable. -/
  named_iff (a : α) {id : String} (hne : id ≠ "") :
    (∃ segment, p.target? (call a id) =
        some ⟨front ++ place.directories ++ [segment, place.ending], none⟩ ∧
      Percent.decodeText? (String.ofList segment) = some id) ↔ Addressable id
  distinct (a b : α) {id id' : String} (h : Addressable id) (h' : Addressable id')
    (hne : id ≠ id') : p.target? (call a id) ≠ p.target? (call b id')
  /-- An identifier that goes on with the ending and a `#` is taken for the one it begins with. -/
  confused (a b : α) (id rest : String) :
    p.target? (call a (id ++ "/" ++ String.ofList place.ending ++ "#" ++ rest)) =
      p.target? (call b id)
  /-- Every path below the base is that of some identifier. -/
  diverted (a : α) (path : String) (hpath : ∀ c ∈ path.toList.getLast?, Url.isSpace c = false) :
    p.target? (call a (String.ofList place.climb ++ path ++ "#")) =
      Url.target? (p.baseUrl ++ "/" ++ path)

section
variable {p : Peer} {base : String} {place : Place} {id : String}

theorem Peer.target?_eq {c : Call} {cs : List Char} (hbase : Url.IsBase base)
    (hp : p.baseUrl = Blank.trimEnd '/' base)
    (hsendable : (p.serviceToken.map Secret.reveal).all (·.toList.all isHeaderChar) = true)
    (hc : c.path.toList = '/' :: place.path cs) :
    p.target? c = some (Url.below (Url.directory base ++ place.directories)
      (cs ++ '/' :: place.ending)) := by
  have haddress : p.baseUrl ++ c.path =
      String.ofList ((Blank.trimEnd '/' base).toList ++ '/' :: place.path cs) := by
    rw [← hc, String.ofList_append, String.ofList_toList, String.ofList_toList, hp]
  rw [Peer.target?, request?, haddress, hbase.target?_eq (place.isSpace_of_mem_getLast? cs),
    place.below_path]
  simp only [bind, Option.bind_some, if_pos hsendable]
  rfl

theorem below_of_addressable (h : Addressable id) (front : List (List Char)) :
    Url.below front (id.toList ++ '/' :: place.ending) =
      ⟨front ++ [Percent.encode Url.isEscapedInPath id.toList, place.ending], none⟩ := by
  rw [Url.below_append_cons h.forall_isPartChar, Url.step_of_not_dots h.undot_ne.1 h.undot_ne.2,
    place.below_ending]
  simp

theorem decodeText?_encode (cs : List Char) :
    Percent.decodeText? (String.ofList (Percent.encode Url.isEscapedInPath cs)) =
      Percent.decodeText? (String.ofList cs) := by
  simp only [Percent.decodeText?, Utf8.encode, String.toList_ofList, Url.decode_encode]

/-- A segment that stands for the identifier is written for all of it, since what it is written for
cannot be shorter than what it stands for. -/
theorem addressable_of_below {front : List (List Char)} {segment : List Char} (hne : id ≠ "")
    (h : (Url.below front (id.toList ++ '/' :: place.ending)).segments =
      front ++ [segment, place.ending])
    (hid : Percent.decodeText? (String.ofList segment) = some id) : Addressable id := by
  obtain ⟨part, hsub, hpart, hdot, hdots, rfl⟩ :=
    Url.exists_part_of_below (forall_isPartChar_of_isUrlSafe place.plain_ending) h
  rw [decodeText?_encode] at hid
  have hdecode := Utf8.decode?_eq_some_iff.mp hid
  rw [Utf8.encode, String.toList_ofList] at hdecode
  have hwhole : part = id.toList := by
    refine Utf8.eq_of_sublist_of_length_le hsub ?_
    have hlength := Percent.length_decode_le (Utf8.encodeChars part)
    rwa [hdecode] at hlength
  subst hwhole
  rw [String.ofList_toList] at hid
  refine ⟨hne, forall_isPartChar_iff.mp hpart, ⟨?_, ?_⟩, hid⟩
  · rintro rfl
    exact hdot (by simp [Url.undot])
  · rintro rfl
    exact hdots (by simp [Url.undot])

theorem Peer.names {α : Type} {call : α → String → Call} (hbase : Url.IsBase base)
    (hp : p.baseUrl = Blank.trimEnd '/' base)
    (hsendable : (p.serviceToken.map Secret.reveal).all (·.toList.all isHeaderChar) = true)
    (hcall : ∀ a id, (call a id).path.toList = '/' :: place.path id.toList) :
    p.Names (Url.directory base) place call := by
  have htarget (a : α) (id : String) :
      p.target? (call a id) = some (Url.below (Url.directory base ++ place.directories)
        (id.toList ++ '/' :: place.ending)) :=
    Peer.target?_eq hbase hp hsendable (hcall a id)
  have named {a : α} {id : String} (h : Addressable id) : p.target? (call a id) =
      some ⟨Url.directory base ++ place.directories ++
        [Percent.encode Url.isEscapedInPath id.toList, place.ending], none⟩ := by
    rw [htarget, below_of_addressable h]
  have decoded {id : String} (h : Addressable id) : Percent.decodeText?
      (String.ofList (Percent.encode Url.isEscapedInPath id.toList)) = some id := by
    rw [decodeText?_encode, String.ofList_toList, h.literal]
  constructor
  case sent =>
    intro a id
    rw [htarget]
    rfl
  case named_iff =>
    intro a id hne
    constructor
    · rintro ⟨segment, hsegment, hid⟩
      rw [htarget] at hsegment
      exact addressable_of_below hne (congrArg Url.Target.segments (Option.some.inj hsegment)) hid
    · exact fun h => ⟨_, named h, decoded h⟩
  case distinct =>
    intro a b id id' h h' hne heq
    rw [named h, named h'] at heq
    have hsegment : Percent.encode Url.isEscapedInPath id.toList =
        Percent.encode Url.isEscapedInPath id'.toList := by
      simpa using heq
    refine hne (Option.some.inj ?_)
    rw [← decoded h, hsegment, decoded h']
  case confused =>
    intro a b id rest
    rw [htarget, htarget]
    have hcut := Url.below_fragment (Url.directory base ++ place.directories)
      (id.toList ++ '/' :: place.ending) (rest.toList ++ '/' :: place.ending)
    rw [← hcut]
    simp
  case diverted =>
    intro a path hpath
    have hlast : ∀ c ∈ ('/' :: path.toList).getLast?, Url.isSpace c = false := fun c hc => by
      cases hpath' : path.toList.getLast? with
      | none =>
        rw [List.getLast?_eq_none_iff.mp hpath'] at hc
        cases hc
        rfl
      | some d =>
        rw [List.getLast?_cons, hpath'] at hc
        exact hpath c (hpath'.trans hc)
    have haddress : p.baseUrl ++ "/" ++ path =
        String.ofList ((Blank.trimEnd '/' base).toList ++ '/' :: path.toList) := by
      simp [hp, String.append_assoc]
    have hid : (String.ofList place.climb ++ path ++ "#").toList ++ '/' :: place.ending =
        place.climb ++ (path.toList ++ '#' :: '/' :: place.ending) := by
      simp
    rw [haddress, hbase.target?_eq hlast, htarget, hid, place.below_climb, Url.below_fragment]

end

/-- Both peers are asked for the resource of an addressable identifier, and for that of any other
one never. -/
theorem identifiers_name_resources {base : String} {token : Option Secret}
    (hbase : Url.IsBase base)
    (hsendable : (token.map Secret.reveal).all (·.toList.all isHeaderChar) = true) :
    (Peer.callEngine base token).Names (Url.directory base) Place.callVariables
      (fun (a : Int64 × Dictionary String) id => Call.setVariables a.1 id a.2) ∧
    (Peer.chatService base token).Names (Url.directory base) Place.chatClosing
      (fun (link : ChatLink) id => Call.closeChat { link with conversationId := id }) :=
  ⟨Peer.names hbase rfl hsendable fun _ _ => path_setVariables ..,
    Peer.names hbase rfl hsendable fun _ _ => path_closeChat _⟩

/-- The variables for a call go to another one whose identifier its own begins with. -/
theorem variables_of_another_call : Url.IsBase "http://engine/x/" ∧
    (Peer.callEngine "http://engine/x/" none).target?
        (.setVariables 7 "a/variables#b" (.ofList [("meeting_satisfaction", "5")])) =
      (Peer.callEngine "http://engine/x/" none).target?
        (.setVariables 7 "a" (.ofList [("meeting_satisfaction", "5")])) := by
  have hbase : Url.IsBase "http://engine/x/" :=
    ⟨by decide +kernel, by decide +kernel, by decide +kernel⟩
  obtain ⟨hcalls, -⟩ := @identifiers_name_resources _ none hbase rfl
  let a : Int64 × Dictionary String := (7, .ofList [("meeting_satisfaction", "5")])
  exact ⟨hbase, hcalls.confused a a "a" "b"⟩

end Rendezvous.Collaborator
