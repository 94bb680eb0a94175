import Rendezvous.Proofs.Dictionary
import Rendezvous.Proofs.Json.Reading

namespace Rendezvous.Json

open Text.Utf8

/-- That a slot holds what the member with the name of a field is read as, and nothing if there is
no such member. -/
def Field.Holds (f : Field) (levels : Nat) (ms : List (String × Json)) (slot : Option f.Value) :
    Prop :=
  match ms.lookup f.name with
  | none => slot = none
  | some v => ∃ a, slot = some a ∧ Reads (f.read levels) v.chars a

theorem Field.holds_none {f : Field} {ms : List (String × Json)} (h : ms.lookup f.name = none)
    (levels : Nat) : f.Holds levels ms none := by
  rw [Holds, h]

theorem Field.holds_some {f : Field} {ms : List (String × Json)} {v : Json}
    (h : ms.lookup f.name = some v) {levels : Nat} {a : f.Value}
    (reads : Reads (f.read levels) v.chars a) : f.Holds levels ms (some a) := by
  rw [Holds, h]
  exact ⟨a, rfl, reads⟩

namespace Slots

variable {levels : Nat} {ms : List (String × Json)} {names : List String}

def Hold (levels : Nat) (ms : List (String × Json)) : (fs : List Field) → Slots fs → Prop
  | [], _ => True
  | f :: fs, (slot, slots) => f.Holds levels ms slot ∧ Hold levels ms fs slots

def only (names : List String) : (fs : List Field) → Slots fs → Slots fs
  | [], _ => ()
  | f :: fs, (slot, slots) => (if f.name ∈ names then slot else none, only names fs slots)

theorem read?_same (levels : Nat) (bs : List UInt8) (f : Field) {fs : List Field}
    (slots : Slots fs) : Slots.read? levels f.name bs (f :: fs) (none, slots) =
      some ((Reader.member f.name (f.read levels) bs).map fun (v, rest) =>
        ((some v, slots), rest)) :=
  if_pos rfl

theorem read?_filled (levels : Nat) (bs : List UInt8) (f : Field) (a : f.Value) {fs : List Field}
    (slots : Slots fs) : Slots.read? levels f.name bs (f :: fs) (some a, slots) =
      some (.error (.here (.duplicateField f.name))) :=
  if_pos rfl

theorem read?_other (levels : Nat) (bs : List UInt8) {f : Field} {key : String} (h : f.name ≠ key)
    {fs : List Field} (slot : Option f.Value) (slots : Slots fs) :
    Slots.read? levels key bs (f :: fs) (slot, slots) =
      (Slots.read? levels key bs fs slots).map fun outcome =>
        outcome.map fun (slots, rest) => ((slot, slots), rest) :=
  if_neg h

theorem only_nil (fs : List Field) (slots : Slots fs) : only [] fs slots = empty fs := by
  induction fs with
  | nil => rfl
  | cons f fs ih => exact congrArg (Prod.mk none) (ih slots.2)

theorem only_cons_of_ne {key : String} {fs : List Field} (h : ∀ f ∈ fs, f.name ≠ key)
    (slots : Slots fs) : only (key :: names) fs slots = only names fs slots := by
  induction fs with
  | nil => rfl
  | cons f fs ih =>
    have hmem : f.name ∈ key :: names ↔ f.name ∈ names := by simp [h f List.mem_cons_self]
    simp only [only, hmem, ih fun g hg => h g (List.mem_cons_of_mem f hg)]

theorem Hold.only_eq {fs : List Field} {slots : Slots fs} (h : Hold levels ms fs slots)
    (hnames : ∀ f ∈ fs, (ms.lookup f.name).isSome → f.name ∈ names) :
    only names fs slots = slots := by
  induction fs with
  | nil => rfl
  | cons f fs ih =>
    obtain ⟨slot, slots⟩ := slots
    obtain ⟨hslot, hslots⟩ := h
    rw [only, ih hslots fun g hg => hnames g (List.mem_cons_of_mem f hg)]
    cases hlookup : ms.lookup f.name with
    | none =>
      rw [Field.Holds, hlookup] at hslot
      subst hslot
      rw [ite_self]
    | some v => rw [if_pos (hnames f List.mem_cons_self (by rw [hlookup]; rfl))]

/-- A member is read into the slot of its name. -/
theorem Hold.read? {fs : List Field} (distinct : (fs.map (·.name)).Nodup) {slots : Slots fs}
    (h : Hold levels ms fs slots) {key : String} {v : Json} (hkey : ms.lookup key = some v)
    (known : key ∈ fs.map (·.name)) (fresh : key ∉ names) {tail : List UInt8}
    (closed : Closed tail) :
    Slots.read? levels key (0x3a :: (encodeChars v.chars ++ tail)) fs (only names fs slots) =
      some (.ok (only (key :: names) fs slots, tail)) := by
  induction fs with
  | nil => cases known
  | cons f fs ih =>
    obtain ⟨slot, slots⟩ := slots
    obtain ⟨hslot, hslots⟩ := h
    rw [List.map_cons, List.nodup_cons] at distinct
    by_cases hname : f.name = key
    · subst hname
      rw [Field.Holds, hkey] at hslot
      obtain ⟨a, rfl, hread⟩ := hslot
      have hmember := Reader.member_of_ok (hread tail closed) f.name
      have hothers : ∀ g ∈ fs, g.name ≠ f.name := fun g hg e =>
        distinct.1 (List.mem_map.mpr ⟨g, hg, e⟩)
      simp only [only, if_neg fresh, read?_same, hmember, Except.map, List.mem_cons_self, if_true,
        only_cons_of_ne hothers]
    · have known' : key ∈ fs.map (·.name) :=
        (List.mem_cons.mp known).resolve_left (Ne.symm hname)
      have hslot' : f.name ∈ key :: names ↔ f.name ∈ names := by simp [hname]
      rw [only, read?_other levels _ hname, ih distinct.2 hslots known']
      simp only [Option.map_some, Except.map, only, hslot']

theorem exists_read? {fs : List Field} (distinct : (fs.map (·.name)).Nodup) {v : Json}
    {key : String} (decided : ∀ f ∈ fs, f.name = key →
      (∃ a, Reads (f.read levels) v.chars a) ∨ Refuses (f.read levels) v.chars)
    (slots : Slots fs) {tail : List UInt8} (closed : Closed tail)
    (hkey : key ∈ fs.map (·.name)) :
    ∃ outcome, Slots.read? levels key (0x3a :: (encodeChars v.chars ++ tail)) fs slots =
        some outcome ∧
      ((∃ failure, outcome = .error failure) ∨ (∃ slots', outcome = .ok (slots', tail)) ∧
        ∀ f ∈ fs, f.name = key → ¬Refuses (f.read levels) v.chars) := by
  induction fs with
  | nil => cases hkey
  | cons f fs ih =>
    obtain ⟨slot, slots⟩ := slots
    rw [List.map_cons, List.nodup_cons] at distinct
    by_cases hname : f.name = key
    · subst hname
      cases slot with
      | some a => exact ⟨_, read?_filled levels _ f a slots, .inl ⟨_, rfl⟩⟩
      | none =>
        refine ⟨_, read?_same levels _ f slots, ?_⟩
        rcases decided f List.mem_cons_self rfl with ⟨a, hread⟩ | hrefused
        · have hmember := Reader.member_of_ok (hread tail closed) f.name
          simp only [hmember, Except.map]
          refine .inr ⟨⟨_, rfl⟩, fun g hg hsame hrefuses => ?_⟩
          rcases List.mem_cons.mp hg with rfl | hg
          · obtain ⟨failure, hfailure⟩ := hrefuses tail closed
            cases (hread tail closed).symm.trans hfailure
          · exact distinct.1 (List.mem_map.mpr ⟨g, hg, hsame⟩)
        · obtain ⟨failure, hfailure⟩ := hrefused tail closed
          rw [Reader.member_of_error hfailure]
          exact .inl ⟨_, rfl⟩
    · have hmem : key ∈ fs.map (·.name) :=
        (List.mem_cons.mp hkey).resolve_left (Ne.symm hname)
      obtain ⟨outcome, hread, hcases⟩ :=
        ih distinct.2 (fun g hg => decided g (List.mem_cons_of_mem f hg)) slots hmem
      refine ⟨_, (read?_other levels _ hname slot slots).trans (congrArg _ hread), ?_⟩
      rcases hcases with ⟨failure, rfl⟩ | ⟨⟨slots', rfl⟩, hother⟩
      · exact .inl ⟨_, rfl⟩
      · refine .inr ⟨⟨_, rfl⟩, fun g hg hsame => ?_⟩
        rcases List.mem_cons.mp hg with rfl | hg
        · exact absurd hsame hname
        · exact hother g hg hsame

theorem read?_of_not_mem {fs : List Field} {key : String} (h : key ∉ fs.map (·.name))
    (bs : List UInt8) (slots : Slots fs) : Slots.read? levels key bs fs slots = none := by
  induction fs with
  | nil => rfl
  | cons f fs ih =>
    obtain ⟨hname, hmem⟩ := not_or.mp (mt List.mem_cons.mpr h)
    obtain ⟨slot, slots⟩ := slots
    rw [read?_other levels bs (Ne.symm hname), ih hmem]
    rfl

end Slots

namespace Record

variable {α : Type} {fs : List Field} {levels : Nat} {ms : List (String × Json)}

theorem membersFrom_nil (n : Nat) (first : Bool) (slots : Slots fs) (rest : List UInt8) :
    membersFrom fs levels (n + 1) first slots (encodeChars (membersText first []) ++ rest) =
      .ok (slots, 0x7d :: rest) := by
  rw [membersFrom, nextKey_nil]
  cases first <;> rfl

theorem membersFrom_unknown {m : String × Json} (skips : Reads Reader.skipped m.2.chars ())
    {slots : Slots fs} (h : m.1 ∉ fs.map (·.name)) (n : Nat) (first : Bool)
    (ms : List (String × Json)) (rest : List UInt8) :
    membersFrom fs levels (n + 1) first slots (encodeChars (membersText first (m :: ms)) ++ rest) =
      membersFrom fs levels n false slots (encodeChars (membersText false ms) ++ rest) := by
  have hmember := Reader.member_of_ok (skips _ (closed_membersText ms rest)) m.1
  rw [membersFrom, nextKey_cons]
  simp only [Slots.read?_of_not_mem h, hmember, Except.bind]

theorem membersFrom_known {m : String × Json} {rest : List UInt8} {slots : Slots fs}
    {outcome : Outcome (Slots fs)} {ms : List (String × Json)}
    (h : Slots.read? levels m.1
      (0x3a :: (encodeChars m.2.chars ++ (encodeChars (membersText false ms) ++ rest))) fs slots =
        some outcome) (n : Nat) (first : Bool) :
    membersFrom fs levels (n + 1) first slots (encodeChars (membersText first (m :: ms)) ++ rest) =
      outcome.bind fun (slots, rest) => membersFrom fs levels n false slots rest := by
  rw [membersFrom, nextKey_cons]
  simp only [h]

/-- The loop invariant: the slots that are filled are those of the members read so far. -/
theorem membersFrom_only (distinct : (fs.map (·.name)).Nodup) {slots : Slots fs}
    (h : Slots.Hold levels ms fs slots) {todo : List (String × Json)} {names : List String}
    (hlookup : ∀ m ∈ todo, ms.lookup m.1 = some m.2) (skips : ∀ m ∈ todo,
      Reads Reader.skipped m.2.chars ()) (nodup : (todo.map (·.1)).Nodup)
    (fresh : ∀ m ∈ todo, m.1 ∉ names) {n : Nat} (room : todo.length < n) (first : Bool)
    (rest : List UInt8) :
    membersFrom fs levels n first (Slots.only names fs slots)
        (encodeChars (membersText first todo) ++ rest) =
      .ok (Slots.only ((todo.map (·.1)).reverse ++ names) fs slots, 0x7d :: rest) := by
  induction todo generalizing n first names with
  | nil =>
    obtain ⟨n, rfl⟩ := Nat.exists_eq_add_one_of_ne_zero (Nat.ne_of_gt room)
    exact membersFrom_nil n first _ rest
  | cons m todo ih =>
    obtain ⟨n, rfl⟩ := Nat.exists_eq_add_one_of_ne_zero (Nat.ne_of_gt (Nat.zero_lt_of_lt room))
    rw [List.map_cons, List.nodup_cons] at nodup
    have hfresh : m.1 ∉ names := fresh m List.mem_cons_self
    have hlater : ∀ x ∈ todo, x.1 ∉ m.1 :: names := by
      intro x hx hmem
      rcases List.mem_cons.mp hmem with e | hmem
      · exact nodup.1 (List.mem_map.mpr ⟨x, hx, e⟩)
      · exact fresh x (List.mem_cons_of_mem m hx) hmem
    have htail := ih (fun x hx => hlookup x (List.mem_cons_of_mem m hx))
      (fun x hx => skips x (List.mem_cons_of_mem m hx)) nodup.2 hlater
      (Nat.lt_of_succ_lt_succ room) false
    rw [List.map_cons, List.reverse_cons, List.append_assoc, List.singleton_append, ← htail]
    by_cases hname : m.1 ∈ fs.map (·.name)
    · have hread := h.read? distinct (hlookup m List.mem_cons_self) hname hfresh
        (closed_membersText todo rest)
      exact membersFrom_known hread n first
    · have hsame : ∀ f ∈ fs, f.name ≠ m.1 := fun f hf e => hname (List.mem_map.mpr ⟨f, hf, e⟩)
      rw [membersFrom_unknown (skips m List.mem_cons_self) hname, Slots.only_cons_of_ne hsame]

theorem membersFrom_of_hold (distinct : (fs.map (·.name)).Nodup) {slots : Slots fs}
    (h : Slots.Hold levels ms fs slots) (skips : ∀ m ∈ ms, Reads Reader.skipped m.2.chars ())
    (nodup : (ms.map (·.1)).Nodup) {n : Nat} (room : ms.length < n) (rest : List UInt8) :
    membersFrom fs levels n true (.empty fs) (encodeChars (membersText true ms) ++ rest) =
      .ok (slots, 0x7d :: rest) := by
  have hread := membersFrom_only distinct h (fun m => Dictionary.lookup_of_mem nodup) skips nodup
    (fun _ _ => List.not_mem_nil) room true rest
  have hall : Slots.only ((ms.map (·.1)).reverse ++ []) fs slots = slots := by
    refine h.only_eq fun f _ hsome => ?_
    obtain ⟨v, hv⟩ := Option.isSome_iff_exists.mp hsome
    rw [List.append_nil, List.mem_reverse]
    exact List.mem_map.mpr ⟨_, Dictionary.mem_of_lookup hv, rfl⟩
  rwa [Slots.only_nil, hall] at hread

/-- A member that its field refuses is the end of the reading, whatever stands before it. -/
theorem membersFrom_of_refused (distinct : (fs.map (·.name)).Nodup)
    (skips : ∀ m ∈ ms, Reads Reader.skipped m.2.chars ())
    (decided : ∀ m ∈ ms, ∀ f ∈ fs, f.name = m.1 →
      (∃ a, Reads (f.read levels) m.2.chars a) ∨ Refuses (f.read levels) m.2.chars)
    (refused : ∃ m ∈ ms, ∃ f ∈ fs, f.name = m.1 ∧ Refuses (f.read levels) m.2.chars)
    {n : Nat} (room : ms.length < n) (first : Bool) (slots : Slots fs) (rest : List UInt8) :
    ∃ failure, membersFrom fs levels n first slots
      (encodeChars (membersText first ms) ++ rest) = .error failure := by
  induction ms generalizing n first slots with
  | nil =>
    obtain ⟨m, hm, -⟩ := refused
    cases hm
  | cons m ms ih =>
    obtain ⟨n, rfl⟩ := Nat.exists_eq_add_one_of_ne_zero (Nat.ne_of_gt (Nat.zero_lt_of_lt room))
    have hnext := ih (fun x hx => skips x (List.mem_cons_of_mem m hx))
      (fun x hx => decided x (List.mem_cons_of_mem m hx))
    obtain ⟨x, hx, f, hf, hname, hrefuses⟩ := refused
    by_cases hmem : m.1 ∈ fs.map (·.name)
    · obtain ⟨outcome, hread, hcases⟩ := Slots.exists_read? distinct
        (decided m List.mem_cons_self) slots (closed_membersText ms rest) hmem
      rw [membersFrom_known hread]
      rcases hcases with ⟨failure, rfl⟩ | ⟨⟨slots', rfl⟩, hnot⟩
      · exact ⟨failure, rfl⟩
      · rcases List.mem_cons.mp hx with rfl | hx
        · exact absurd hrefuses (hnot f hf hname)
        · exact hnext ⟨x, hx, f, hf, hname, hrefuses⟩ (Nat.lt_of_succ_lt_succ room) false slots'
    · rw [membersFrom_unknown (skips m List.mem_cons_self) hmem]
      rcases List.mem_cons.mp hx with rfl | hx
      · exact absurd (List.mem_map.mpr ⟨f, hf, hname⟩) hmem
      · exact hnext ⟨x, hx, f, hf, hname, hrefuses⟩ (Nat.lt_of_succ_lt_succ room) false slots

/-- How an object is read whose members go with the fields. -/
theorem reads_object (r : Record α) (distinct : (r.fields.map (·.name)).Nodup)
    (nodup : (ms.map (·.1)).Nodup) (skips : ∀ m ∈ ms, Reads Reader.skipped m.2.chars ())
    {slots : Slots r.fields} (h : Slots.Hold levels ms r.fields slots) {vs : Values r.fields}
    (complete : Slots.complete r.fields slots = .ok vs) :
    Reads (r.read (levels + 1)) (Json.object ms).chars (r.ofValues vs) := by
  intro rest _
  rw [chars_object]
  change r.object levels (encodeChars (membersText true ms) ++ rest) = _
  rw [object, membersFrom_of_hold distinct h skips nodup (length_lt_room ms rest)]
  simp only [Except.bind, complete, Except.mapError]
  rfl

theorem refuses_object (r : Record α) (distinct : (r.fields.map (·.name)).Nodup)
    (skips : ∀ m ∈ ms, Reads Reader.skipped m.2.chars ())
    (decided : ∀ m ∈ ms, ∀ f ∈ r.fields, f.name = m.1 →
      (∃ a, Reads (f.read levels) m.2.chars a) ∨ Refuses (f.read levels) m.2.chars)
    (refused : ∃ m ∈ ms, ∃ f ∈ r.fields, f.name = m.1 ∧ Refuses (f.read levels) m.2.chars) :
    Refuses (r.read (levels + 1)) (Json.object ms).chars := by
  intro rest _
  rw [chars_object]
  change ∃ failure, r.object levels (encodeChars (membersText true ms) ++ rest) = _
  obtain ⟨failure, hfailure⟩ := membersFrom_of_refused distinct skips decided refused
    (length_lt_room ms rest) true (.empty r.fields) rest
  rw [object, hfailure]
  exact ⟨failure, rfl⟩

end Record

namespace Reader

variable {α : Type} {read : Reader α} {text : List Char}

theorem whole_of_reads {a : α} (h : Reads (read maxLevels) text a) :
    whole read (encodeChars text) = .ok a := by
  have hread := h [] closed_nil
  rw [List.append_nil] at hread
  simp only [whole, hread, bind, Except.bind]
  rfl

theorem whole_of_refuses (h : Refuses (read maxLevels) text) :
    ∃ failure, whole read (encodeChars text) = .error failure := by
  obtain ⟨failure, hfailure⟩ := h [] closed_nil
  rw [List.append_nil] at hfailure
  simp only [whole, hfailure, bind, Except.bind]
  exact ⟨failure, rfl⟩

end Reader

end Rendezvous.Json
