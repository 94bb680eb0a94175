import Mathlib.Data.List.Perm.Subperm
import Rendezvous.Proofs.Dictionary
import Rendezvous.Proofs.Metrics.Tally

namespace Rendezvous

namespace Dictionary

variable {α : Type} {c d : Dictionary α} {key : String}

theorem get?_ne_none_iff : d.get? key ≠ none ↔ key ∈ d.entries.map (·.1) := by
  rw [get?_eq_lookup]
  constructor
  · intro h
    by_contra hmem
    exact h (lookup_eq_none hmem)
  · intro h
    obtain ⟨e, he, rfl⟩ := List.mem_map.mp h
    rw [lookup_of_mem d.nodup_entries he]
    simp

theorem length_entries_le {keys : List String} (h : ∀ key, d.get? key ≠ none → key ∈ keys) :
    d.entries.length ≤ keys.length := by
  have hsubset : d.entries.map (·.1) ⊆ keys := fun key hkey => h key (get?_ne_none_iff.mpr hkey)
  simpa using (List.subperm_of_subset d.nodup_entries hsubset).length_le

theorem length_entries_lt (kept : ∀ key, c.get? key ≠ none → d.get? key ≠ none)
    (missing : c.get? key = none) (found : d.get? key ≠ none) :
    c.entries.length < d.entries.length := by
  have hmissing : key ∉ c.entries.map (·.1) := fun h => get?_ne_none_iff.mpr h missing
  have hsubset : key :: c.entries.map (·.1) ⊆ d.entries.map (·.1) := by
    intro key' hkey'
    rcases List.mem_cons.mp hkey' with rfl | hkey'
    · exact get?_ne_none_iff.mp found
    · exact get?_ne_none_iff.mp (kept key' (get?_ne_none_iff.mpr hkey'))
  have hnodup : (key :: c.entries.map (·.1)).Nodup :=
    List.nodup_cons.mpr ⟨hmissing, c.nodup_entries⟩
  have hlength := (List.subperm_of_subset hnodup hsubset).length_le
  rw [List.length_cons, List.length_map, List.length_map] at hlength
  exact hlength

end Dictionary

namespace Metrics

variable {t : Tally} {key : String}

def Event.series (e : Event) (nanos : Nat) : List Series :=
  e.growth.map Prod.fst ++ e.buckets nanos

namespace Tally

def growAll (t : Tally) (gs : List (Series × Nat)) : Tally :=
  gs.foldl (fun t g => t.grow g.1 g.2) t

theorem get?_grow_ne_none {r : Series} {n : Nat} (h : (t.grow r n).get? key ≠ none) :
    key = r.text ∨ t.get? key ≠ none := by
  unfold grow at h
  split at h
  · exact .inr h
  · rw [Dictionary.get?_insert] at h
    split at h
    case isTrue hkey => exact .inl hkey
    case isFalse => exact .inr h

theorem grow_kept {r : Series} {n : Nat} (h : t.get? key ≠ none) :
    (t.grow r n).get? key ≠ none := by
  unfold grow
  split
  · exact h
  · rw [Dictionary.get?_insert]
    split
    · simp
    · exact h

theorem get?_grow_self {r : Series} {n : Nat} (hn : n ≠ 0) : (t.grow r n).get? r.text ≠ none := by
  rw [grow, if_neg hn, Dictionary.get?_insert, if_pos rfl]
  simp

theorem get?_growAll {gs : List (Series × Nat)} (h : (t.growAll gs).get? key ≠ none) :
    (∃ g ∈ gs, key = g.1.text) ∨ t.get? key ≠ none := by
  induction gs generalizing t with
  | nil => exact .inr h
  | cons g gs ih =>
    rcases ih h with ⟨g', hg', hkey⟩ | h
    · exact .inl ⟨g', List.mem_cons_of_mem _ hg', hkey⟩
    · rcases get?_grow_ne_none h with hkey | h
      · exact .inl ⟨g, List.mem_cons_self, hkey⟩
      · exact .inr h

theorem growAll_kept {gs : List (Series × Nat)} (h : t.get? key ≠ none) :
    (t.growAll gs).get? key ≠ none := by
  induction gs generalizing t with
  | nil => exact h
  | cons g gs ih => exact ih (grow_kept h)

theorem get?_growAll_of_mem {gs : List (Series × Nat)} {g : Series × Nat} (hg : g ∈ gs)
    (hn : g.2 ≠ 0) : (t.growAll gs).get? g.1.text ≠ none := by
  induction gs generalizing t with
  | nil => cases hg
  | cons g' gs ih =>
    change ((t.grow g'.1 g'.2).growAll gs).get? g.1.text ≠ none
    rcases List.mem_cons.mp hg with rfl | hg
    · exact growAll_kept (get?_grow_self hn)
    · exact ih hg

theorem measure_eq (t : Tally) (e : Event) (nanos : Nat) :
    t.measure e nanos = t.growAll (e.growth ++ (e.buckets nanos).map fun r => (r, 1)) := by
  rw [growAll, List.foldl_append, List.foldl_map]
  rfl

theorem get?_measure {e : Event} {nanos : Nat} (h : (t.measure e nanos).get? key ≠ none) :
    (∃ r ∈ e.series nanos, key = r.text) ∨ t.get? key ≠ none := by
  rw [measure_eq] at h
  rcases get?_growAll h with ⟨g, hg, hkey⟩ | h
  · refine .inl ⟨g.1, ?_, hkey⟩
    rcases List.mem_append.mp hg with hg | hg
    · exact List.mem_append_left _ (List.mem_map_of_mem hg)
    · obtain ⟨r, hr, rfl⟩ := List.mem_map.mp hg
      exact List.mem_append_right _ hr
  · exact .inr h

end Tally

theorem length_le_escapeFrom (held : Bool) (cs : List Char) :
    cs.length + held.toNat ≤ (escapeFrom held cs).length := by
  induction cs generalizing held with
  | nil => cases held <;> simp [escapeFrom]
  | cons c cs ih =>
    have := ih true
    have := ih false
    have := ih held
    rw [escapeFrom]
    repeat' split
    all_goals cases held <;> simp_all <;> omega

theorem length_le_intercalate {separator part : String} {parts : List String} (h : part ∈ parts) :
    part.length ≤ (separator.intercalate parts).length := by
  induction parts with
  | nil => cases h
  | cons part' parts ih =>
    cases parts with
    | nil => simp_all
    | cons part'' parts =>
      rw [String.intercalate_cons_cons, String.length_append, String.length_append]
      rcases List.mem_cons.mp h with rfl | h
      · omega
      · have := ih h
        omega

theorem length_le_labelText (label : String × String) :
    label.2.length ≤ (labelText label).length := by
  have h := length_le_escapeFrom false label.2.toList
  rw [labelText, escape]
  simp only [String.length_append, String.length_ofList]
  simp only [String.length_toList, Bool.toNat_false] at h
  omega

/-- The text of a series has room for the value of each of its labels. -/
theorem Series.length_le_text {r : Series} {label : String × String} (h : label ∈ r.labels) :
    label.2.length ≤ r.text.length := by
  have hlabels : (labelText label).length ≤ (",".intercalate (r.labels.map labelText)).length :=
    length_le_intercalate (List.mem_map_of_mem h)
  have hlabel := length_le_labelText label
  unfold Series.text
  split
  case h_1 hnil => rw [hnil] at h; cases h
  case h_2 =>
    simp only [String.length_append]
    omega

end Metrics

end Rendezvous
