import Mathlib.Data.List.Perm.Basic
import Rendezvous.Proofs.Json.Skipping

namespace Rendezvous.Json

open Text.Utf8

namespace Field

/-- The values that spell a value of a field: what the field writes, the same members in another
order, and null for what an object may lack. -/
inductive Spells (f : Field) (v : f.Value) : Json → Prop where
  | written {w : Json} (h : f.write v = some w) : Spells f v w
  | reordered {ms ns : List (String × Json)} (h : f.write v = some (object ms))
      (perm : ns.Perm ms) : Spells f v (object ns)
  | null (h : f.absent = some v) : Spells f v null

/-- That a member with the name of a field, or the lack of one, stands for a value of the field. -/
def Stands (f : Field) (v : f.Value) : Option Json → Prop
  | some w => f.Spells v w
  | none => f.absent = some v

/-- That a field reads each value back from its spellings, and writes all values but the one that
stands for its absence. -/
structure Lawful (f : Field) : Prop where
  reads {v : f.Value} {w : Json} (h : f.Spells v w) (levels : Nat) :
    Reads (f.read (levels + 1)) w.chars v
  legible {v : f.Value} {w : Json} (h : f.Spells v w) : Legible w
  lacks {v : f.Value} (h : f.write v = none) : f.absent = some v

/-- A value that is no object is spelled as it is written, unless it may be lacking. -/
theorem Spells.eq_or_null {f : Field} {v : f.Value} {w u : Json} (h : f.Spells v w)
    (hwrite : f.write v = some u) (plain : ∀ ms, u ≠ object ms) :
    w = u ∨ w = .null ∧ f.absent = some v := by
  cases h with
  | written h => exact .inl (Option.some.inj (h.symm.trans hwrite))
  | reordered h => exact absurd (Option.some.inj (hwrite.symm.trans h)) (plain _)
  | null h => exact .inr ⟨rfl, h⟩

theorem lawful_of_own {f : Field} {u : f.Value → Json} (own : ∀ {v w}, f.Spells v w → w = u v)
    (reads : ∀ v levels, Reads (f.read (levels + 1)) (u v).chars v) (legible : ∀ v, Legible (u v))
    (lacks : ∀ v, f.write v = none → f.absent = some v) : f.Lawful where
  reads h levels := own h ▸ reads _ levels
  legible h := own h ▸ legible _
  lacks h := lacks _ h

theorem lawful_of_needed {f : Field} {u : f.Value → Json} (hwrite : ∀ v, f.write v = some (u v))
    (plain : ∀ v ms, u v ≠ object ms) (needed : f.absent = none)
    (reads : ∀ v levels, Reads (f.read (levels + 1)) (u v).chars v) (legible : ∀ v, Legible (u v)) :
    f.Lawful := by
  refine lawful_of_own (fun {v w} h => ?_) reads legible fun v h => ?_
  · rcases h.eq_or_null (hwrite v) (plain v) with hw | ⟨-, habsent⟩
    · exact hw
    · rw [needed] at habsent
      cases habsent
  · rw [hwrite v] at h
    cases h

theorem lawful_text (name : String) : (text name).Lawful :=
  lawful_of_needed (f := text name) (u := .string) (fun _ => rfl) (fun _ _ => Json.noConfusion)
    rfl (fun v levels => Reader.reads_text (levels + 1) v) Legible.string

theorem lawful_integer (name : String) : (integer name).Lawful :=
  lawful_of_needed (f := integer name) (u := fun i => .number (.ofInt64 i)) (fun _ => rfl)
    (fun _ _ => Json.noConfusion) rfl (fun v levels => Reader.reads_integer (levels + 1) v)
    Legible.ofInt64

theorem reads_boolean (levels : Nat) (b : Bool) :
    Reads (Reader.boolean levels) (Json.boolean b).chars b := by
  intro rest _
  cases b <;> rfl

theorem lawful_boolean (name : String) : (boolean name).Lawful :=
  lawful_of_needed (f := boolean name) (u := .boolean) (fun _ => rfl) (fun _ _ => Json.noConfusion)
    rfl (fun v levels => reads_boolean (levels + 1) v) (fun _ => nofun)

theorem legible_orNull (s : Option String) : Legible (orNull s) := by
  cases s <;> exact nofun

theorem orNull_eq_null_iff {s : Option String} : orNull s = .null ↔ s = none := by
  cases s <;> simp [orNull]

theorem orNull_ne_object (s : Option String) (ms : List (String × Json)) :
    orNull s ≠ object ms := by
  cases s <;> exact nofun

theorem lawful_optionalText (name : String) : (optionalText name).Lawful := by
  refine lawful_of_own (f := optionalText name) (u := orNull) (fun {v w} h => ?_)
    (fun v levels => Reader.reads_optionalText (levels + 1) v) legible_orNull nofun
  rcases h.eq_or_null rfl (orNull_ne_object v) with hw | ⟨rfl, habsent⟩
  · exact hw
  · cases habsent
    rfl

theorem lawful_presentText (name : String) : (presentText name).Lawful := by
  refine lawful_of_own (f := presentText name) (u := orNull) (fun {v w} h => ?_)
    (fun v levels => Reader.reads_optionalText (levels + 1) v) legible_orNull fun v h => ?_
  · cases v with
    | none =>
      cases h with
      | written h => cases h
      | reordered h => cases h
      | null => rfl
    | some s =>
      rcases h.eq_or_null rfl (orNull_ne_object (some s)) with hw | ⟨-, habsent⟩
      · exact hw
      · cases habsent
  · cases v with
    | none => rfl
    | some s => cases h

theorem reads_texts (levels : Nat) {d : Dictionary String} {es : List (String × String)}
    (perm : es.Perm d.entries) :
    Reads (Reader.texts (levels + 1)) (object (es.map fun e => (e.1, .string e.2))).chars d := by
  intro rest _
  let ms := es.map fun e => (e.1, Json.string e.2)
  have hreads : List.Forall₂ (fun m a => m.1 = a.1 ∧ Reads (Reader.text levels) m.2.chars a.2)
      ms es := by
    rw [List.forall₂_map_left_iff]
    exact List.forall₂_same.mpr fun e _ => ⟨rfl, Reader.reads_text levels e.2⟩
  have hmembers : Reader.members (Reader.text levels) (encodeChars (membersText true ms) ++ rest) =
      .ok (es, rest) :=
    Reader.membersFrom_membersText hreads (length_lt_room ms rest) true rest
  rw [chars_object]
  change (Reader.members (Reader.text levels) (encodeChars (membersText true ms) ++ rest)).map _ = _
  rw [hmembers, ← Dictionary.ofList_perm perm]
  rfl

theorem Spells.exists_perm {name : String} {d : Dictionary String} {w : Json}
    (h : (texts name).Spells d w) : ∃ es : List (String × String), es.Perm d.entries ∧
      w = object (es.map fun e => (e.1, .string e.2)) := by
  cases h with
  | written h => exact ⟨d.entries, .refl _, (Option.some.inj h).symm⟩
  | @reordered ms ns h perm =>
    obtain rfl : d.entries.map (fun e => (e.1, Json.string e.2)) = ms :=
      Json.object.inj (Option.some.inj h)
    have hcomp : Relation.Comp (· = List.map (fun e => (e.1, Json.string e.2)) ·) List.Perm ns
        d.entries := by
      rw [List.eq_map_comp_perm]
      exact perm
    obtain ⟨es, rfl, hes⟩ := hcomp
    exact ⟨es, hes, rfl⟩
  | null h => cases h

theorem lawful_texts (name : String) : (texts name).Lawful where
  reads h levels := by
    obtain ⟨es, perm, rfl⟩ := h.exists_perm
    exact reads_texts levels perm
  legible h := by
    obtain ⟨es, -, rfl⟩ := h.exists_perm
    refine .of_texts fun m hm => ?_
    obtain ⟨e, -, rfl⟩ := List.mem_map.mp hm
    exact ⟨e.2, rfl⟩
  lacks := nofun

end Field

/-- That the members of an object spell the values of fields, each the value of the field with its
name. -/
def Values.Spelled (ms : List (String × Json)) : (fs : List Field) → Values fs → Prop
  | [], _ => True
  | f :: fs, (v, vs) => f.Stands v (ms.lookup f.name) ∧ Values.Spelled ms fs vs

namespace Record

variable {α : Type}

/-- That an object with some members spells a record: each key stands once and is the name of a
field, and the members spell the values of the fields. -/
structure Spells (r : Record α) (a : α) (ms : List (String × Json)) : Prop where
  nodup : (ms.map (·.1)).Nodup
  known : ∀ m ∈ ms, m.1 ∈ r.fields.map (·.name)
  values : Values.Spelled ms r.fields (r.toValues a)

/-- That a record is made of its fields, which have names of their own and are read back. -/
structure Lawful (r : Record α) : Prop where
  distinct : (r.fields.map (·.name)).Nodup
  fields : ∀ f ∈ r.fields, f.Lawful
  inverse : ∀ a, r.ofValues (r.toValues a) = a

end Record

namespace Values

variable {fs : List Field} {ms ns : List (String × Json)}

theorem Spelled.legible (lawful : ∀ f ∈ fs, f.Lawful) {vs : Values fs} (h : Spelled ms fs vs)
    {key : String} {w : Json} (hkey : key ∈ fs.map (·.name)) (hlookup : ms.lookup key = some w) :
    Legible w := by
  induction fs with
  | nil => cases hkey
  | cons f fs ih =>
    obtain ⟨v, vs⟩ := vs
    obtain ⟨hv, hvs⟩ := h
    rcases List.mem_cons.mp hkey with rfl | hkey
    · rw [hlookup] at hv
      exact (lawful f List.mem_cons_self).legible hv
    · exact ih (fun g hg => lawful g (List.mem_cons_of_mem f hg)) hvs hkey

/-- The slots that members fill are completed to the values that they spell. -/
theorem Spelled.exists_slots (lawful : ∀ f ∈ fs, f.Lawful) {vs : Values fs}
    (h : Spelled ms fs vs) (levels : Nat) :
    ∃ slots, Slots.Hold (levels + 1) ms fs slots ∧ Slots.complete fs slots = .ok vs := by
  induction fs with
  | nil => exact ⟨(), trivial, rfl⟩
  | cons f fs ih =>
    obtain ⟨v, vs⟩ := vs
    obtain ⟨hv, hvs⟩ := h
    obtain ⟨slots, hold, complete⟩ := ih (fun g hg => lawful g (List.mem_cons_of_mem f hg)) hvs
    cases hlookup : ms.lookup f.name with
    | none =>
      rw [hlookup] at hv
      refine ⟨(none, slots), ⟨Field.holds_none hlookup _, hold⟩, ?_⟩
      have hslot : (none <|> f.absent) = some v := hv
      simp only [Slots.complete, hslot, complete, Except.map]
    | some w =>
      rw [hlookup] at hv
      have hread := (lawful f List.mem_cons_self).reads hv levels
      refine ⟨(some v, slots), ⟨Field.holds_some hlookup hread, hold⟩, ?_⟩
      have hslot : (some v <|> f.absent) = some v := rfl
      simp only [Slots.complete, hslot, complete, Except.map]

theorem Spelled.congr {vs : Values fs} (h : Spelled ms fs vs)
    (same : ∀ f ∈ fs, ns.lookup f.name = ms.lookup f.name) : Spelled ns fs vs := by
  induction fs with
  | nil => trivial
  | cons f fs ih =>
    obtain ⟨v, vs⟩ := vs
    refine ⟨?_, ih h.2 fun g hg => same g (List.mem_cons_of_mem f hg)⟩
    rw [same f List.mem_cons_self]
    exact h.1

theorem sublist_members (vs : Values fs) :
    ((members fs vs).map (·.1)).Sublist (fs.map (·.name)) := by
  induction fs with
  | nil => exact .slnil
  | cons f fs ih =>
    obtain ⟨v, vs⟩ := vs
    rw [members, List.map_append, List.map_cons]
    cases f.write v with
    | none => exact (ih vs).cons f.name
    | some w => exact (ih vs).cons_cons f.name

theorem lookup_members_of_not_mem {key : String} (h : key ∉ fs.map (·.name)) (vs : Values fs) :
    (members fs vs).lookup key = none :=
  Dictionary.lookup_eq_none fun hmem => h ((sublist_members vs).subset hmem)

theorem spelled_members (distinct : (fs.map (·.name)).Nodup) (lawful : ∀ f ∈ fs, f.Lawful)
    (vs : Values fs) : Spelled (members fs vs) fs vs := by
  induction fs with
  | nil => trivial
  | cons f fs ih =>
    obtain ⟨v, vs⟩ := vs
    rw [List.map_cons, List.nodup_cons] at distinct
    have hrest := ih distinct.2 (fun g hg => lawful g (List.mem_cons_of_mem f hg)) vs
    cases hwrite : f.write v with
    | none =>
      have hmembers : members (f :: fs) (v, vs) = members fs vs := by rw [members, hwrite]; rfl
      rw [hmembers]
      refine ⟨?_, hrest⟩
      rw [lookup_members_of_not_mem distinct.1]
      exact (lawful f List.mem_cons_self).lacks hwrite
    | some w =>
      have hmembers : members (f :: fs) (v, vs) = (f.name, w) :: members fs vs := by
        rw [members, hwrite]
        rfl
      rw [hmembers]
      refine ⟨?_, hrest.congr fun g hg => Dictionary.lookup_cons_of_ne (fun e => ?_) w _⟩
      · rw [List.lookup_cons_self]
        exact .written hwrite
      · exact distinct.1 (List.mem_map.mpr ⟨g, hg, e⟩)

end Values

namespace Record

variable {α : Type} {r : Record α} {a : α} {ms : List (String × Json)}

theorem Lawful.decode_of_spells (lawful : r.Lawful) (h : r.Spells a ms) :
    r.decode (encodeChars (Json.object ms).chars) = .ok a := by
  obtain ⟨slots, hold, complete⟩ := h.values.exists_slots lawful.fields 125
  have skips : ∀ m ∈ ms, Reads Reader.skipped m.2.chars () := fun m hm =>
    reads_skipped (h.values.legible lawful.fields (h.known m hm)
      (Dictionary.lookup_of_mem h.nodup hm))
  have hread := r.reads_object lawful.distinct h.nodup skips hold complete
  rw [lawful.inverse] at hread
  exact Reader.whole_of_reads hread

/-- What a record is written as is one of its spellings. -/
theorem Lawful.spells (lawful : r.Lawful) (a : α) :
    r.Spells a (Values.members r.fields (r.toValues a)) where
  nodup := lawful.distinct.sublist (Values.sublist_members _)
  known _ hm := (Values.sublist_members _).subset (List.mem_map_of_mem hm)
  values := Values.spelled_members lawful.distinct lawful.fields _

theorem Lawful.decode_encode (lawful : r.Lawful) (a : α) : r.decode (r.encode a) = .ok a :=
  lawful.decode_of_spells (lawful.spells a)

end Record

end Rendezvous.Json
