import Rendezvous.Dictionary

namespace Rendezvous.Dictionary

variable {α : Type} {key : String} {es : List (String × α)}

theorem lookup_cons_of_ne {k : String} (h : key ≠ k) (v : α) (es : List (String × α)) :
    ((k, v) :: es).lookup key = es.lookup key := by
  rw [List.lookup_cons, beq_eq_false_iff_ne.mpr h]

theorem lookup_of_mem (nodup : (es.map (·.1)).Nodup) {e : String × α} (h : e ∈ es) :
    es.lookup e.1 = some e.2 := by
  induction es with
  | nil => cases h
  | cons x es ih =>
    obtain ⟨k, v⟩ := x
    rw [List.map_cons, List.nodup_cons] at nodup
    rcases List.mem_cons.mp h with rfl | h
    · exact List.lookup_cons_self
    · have hne : e.1 ≠ k := fun he => nodup.1 (List.mem_map.mpr ⟨e, h, he⟩)
      rw [lookup_cons_of_ne hne]
      exact ih nodup.2 h

theorem mem_of_lookup {v : α} (h : es.lookup key = some v) : (key, v) ∈ es := by
  induction es with
  | nil => cases h
  | cons x es ih =>
    obtain ⟨k, w⟩ := x
    by_cases hkey : key = k
    · subst hkey
      rw [List.lookup_cons_self] at h
      cases h
      exact List.mem_cons_self
    · rw [lookup_cons_of_ne hkey] at h
      exact List.mem_cons_of_mem _ (ih h)

theorem lookup_eq_none (h : key ∉ es.map (·.1)) : es.lookup key = none := by
  cases hlookup : es.lookup key with
  | none => rfl
  | some v => exact absurd (List.mem_map.mpr ⟨_, mem_of_lookup hlookup, rfl⟩) h

theorem get?_foldl_insert (nodup : (es.map (·.1)).Nodup) (d : Dictionary α) (key : String) :
    (es.foldl (fun d e => d.insert e.1 e.2) d).get? key = (es.lookup key).or (d.get? key) := by
  induction es generalizing d with
  | nil => rfl
  | cons e es ih =>
    obtain ⟨k, v⟩ := e
    rw [List.map_cons, List.nodup_cons] at nodup
    rw [List.foldl_cons, ih nodup.2, get?_insert]
    by_cases hkey : key = k
    · subst hkey
      rw [lookup_eq_none nodup.1, if_pos rfl, List.lookup_cons_self]
      rfl
    · rw [if_neg hkey, lookup_cons_of_ne hkey]

theorem get?_ofList (nodup : (es.map (·.1)).Nodup) (key : String) :
    (ofList es).get? key = es.lookup key := by
  rw [ofList, get?_foldl_insert nodup]
  exact Option.or_none

theorem mem_iff_lookup (nodup : (es.map (·.1)).Nodup) {v : α} :
    (key, v) ∈ es ↔ es.lookup key = some v :=
  ⟨lookup_of_mem nodup, mem_of_lookup⟩

theorem get?_eq_lookup (d : Dictionary α) (key : String) : d.get? key = d.entries.lookup key := by
  rw [get?]
  induction d.entries with
  | nil => rfl
  | cons e es ih =>
    obtain ⟨k, v⟩ := e
    by_cases hkey : key = k
    · subst hkey
      rw [List.find?_cons, beq_self_eq_true, List.lookup_cons_self]
      rfl
    · rw [List.find?_cons, beq_eq_false_iff_ne.mpr (Ne.symm hkey), lookup_cons_of_ne hkey]
      exact ih

theorem nodup_entries (d : Dictionary α) : (d.entries.map (·.1)).Nodup :=
  List.pairwise_map.mpr (d.increasing.imp fun {a b} hlt (he : a.1 = b.1) =>
    String.lt_irrefl b.1 (he ▸ hlt))

theorem ext_get? {c d : Dictionary α} (h : ∀ key, c.get? key = d.get? key) : c = d := by
  have perm : c.entries.Perm d.entries := by
    have once (d : Dictionary α) : d.entries.Nodup :=
      List.Pairwise.of_map (·.1) (fun _ _ => mt (congrArg Prod.fst)) d.nodup_entries
    refine (List.perm_ext_iff_of_nodup (once c) (once d)).mpr ?_
    rintro ⟨key, v⟩
    rw [mem_iff_lookup c.nodup_entries, mem_iff_lookup d.nodup_entries, ← get?_eq_lookup,
      ← get?_eq_lookup, h]
  refine ext (perm.eq_of_pairwise (fun a b _ _ hab hba => ?_) c.increasing d.increasing)
  exact absurd (String.lt_trans hab hba) (String.lt_irrefl a.1)

theorem ofList_perm {d : Dictionary α} (perm : es.Perm d.entries) : ofList es = d := by
  have nodup : (es.map (·.1)).Nodup := (perm.map (·.1)).nodup_iff.mpr d.nodup_entries
  refine ext_get? fun key => Option.ext fun v => ?_
  rw [get?_ofList nodup, ← mem_iff_lookup nodup, perm.mem_iff, mem_iff_lookup d.nodup_entries,
    get?_eq_lookup]

end Rendezvous.Dictionary
