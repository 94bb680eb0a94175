namespace Rendezvous

structure Dictionary (α : Type) where
  entries : List (String × α)
  increasing : entries.Pairwise fun a b => a.1 < b.1
deriving DecidableEq

namespace Dictionary

variable {α : Type}

def insertEntry (key : String) (value : α) : List (String × α) → List (String × α)
  | [] => [(key, value)]
  | e :: es =>
    if key < e.1 then (key, value) :: e :: es
    else if key = e.1 then (key, value) :: es
    else e :: insertEntry key value es

theorem mem_insertEntry {key : String} {value : α} {es : List (String × α)} {e : String × α}
    (h : e ∈ insertEntry key value es) : e.1 = key ∨ e ∈ es := by
  induction es with
  | nil => simp_all [insertEntry]
  | cons d ds ih => grind [insertEntry]

theorem increasing_insertEntry (key : String) (value : α) {es : List (String × α)}
    (h : es.Pairwise fun a b => a.1 < b.1) :
    (insertEntry key value es).Pairwise fun a b => a.1 < b.1 := by
  induction es with
  | nil => simp [insertEntry]
  | cons e es ih =>
    rw [List.pairwise_cons] at h
    rw [insertEntry]
    split
    · next lt =>
      refine List.pairwise_cons.2 ⟨fun d hd => ?_, List.pairwise_cons.2 h⟩
      rcases List.mem_cons.1 hd with rfl | hd
      · exact lt
      · exact String.lt_trans lt (h.1 d hd)
    · split
      · next eq => exact List.pairwise_cons.2 ⟨fun d hd => eq ▸ h.1 d hd, h.2⟩
      · refine List.pairwise_cons.2 ⟨fun d hd => ?_, ih h.2⟩
        rcases mem_insertEntry hd with eq | hd
        · grind
        · exact h.1 d hd

def empty : Dictionary α := ⟨[], .nil⟩

def single (key : String) (value : α) : Dictionary α := ⟨[(key, value)], by simp⟩

def insert (d : Dictionary α) (key : String) (value : α) : Dictionary α :=
  ⟨insertEntry key value d.entries, increasing_insertEntry key value d.increasing⟩

/-- The dictionary with the given entries; of entries with one key the last one counts. -/
def ofList (es : List (String × α)) : Dictionary α :=
  es.foldl (fun d e => d.insert e.1 e.2) empty

def get? (d : Dictionary α) (key : String) : Option α :=
  (d.entries.find? fun e => e.1 == key).map (·.2)

theorem find?_insertEntry (key k : String) (value : α) (es : List (String × α)) :
    (insertEntry key value es).find? (fun e => e.1 == k) =
      if k = key then some (key, value) else es.find? fun e => e.1 == k := by
  induction es with
  | nil => simp [insertEntry, List.find?_cons]; grind
  | cons e es ih => grind [insertEntry]

theorem get?_insert (d : Dictionary α) (key k : String) (value : α) :
    (d.insert key value).get? k = if k = key then some value else d.get? k := by
  simp only [get?, insert, find?_insertEntry]
  split <;> rfl

def erase (d : Dictionary α) (key : String) : Dictionary α :=
  ⟨d.entries.filter fun e => e.1 != key, d.increasing.filter _⟩

theorem get?_erase (d : Dictionary α) (key k : String) :
    (d.erase key).get? k = if k = key then none else d.get? k := by
  simp only [get?, erase]
  induction d.entries with
  | nil => simp
  | cons e es ih => grind

theorem ext {c d : Dictionary α} (h : c.entries = d.entries) : c = d := by
  cases c; cases d; simp_all

end Dictionary

end Rendezvous
