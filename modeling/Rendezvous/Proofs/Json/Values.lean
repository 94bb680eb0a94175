import Mathlib.Data.List.Forall2
import Rendezvous.Proofs.Json.Skipping

namespace Rendezvous.Json

open Text.Utf8

inductive Within : Nat → Json → Prop where
  | null {n : Nat} : Within n null
  | boolean {n : Nat} (b : Bool) : Within n (boolean b)
  | number {n : Nat} (k : Number) : Within n (number k)
  | string {n : Nat} (s : String) : Within n (string s)
  | array {n : Nat} {vs : List Json} (h : ∀ v ∈ vs, Within n v) : Within (n + 1) (array vs)
  | object {n : Nat} {ms : List (String × Json)} (h : ∀ m ∈ ms, Within n m.2) :
    Within (n + 1) (object ms)

/-- That no object in a value begins with the key by which an object stands for a text. -/
def Plain (v : Json) : Prop :=
  ∀ ms, Part (object ms) v → ∀ m ∈ ms.head?, m.1 ≠ Reader.rawKey

theorem Plain.item {vs : List Json} (h : Plain (array vs)) {v : Json} (hv : v ∈ vs) : Plain v :=
  fun ms part => h ms (.item hv part)

theorem Plain.member {ms : List (String × Json)} (h : Plain (object ms)) {m : String × Json}
    (hm : m ∈ ms) : Plain m.2 :=
  fun ms' part => h ms' (.member hm part)

/-- That two values are of one kind, and the same if they are texts. -/
inductive Alike : Json → Json → Prop where
  | null : Alike null null
  | boolean (b : Bool) : Alike (boolean b) (boolean b)
  | number (n m : Number) : Alike (number n) (number m)
  | string (s : String) : Alike (string s) (string s)
  | array (vs ws : List Json) : Alike (array vs) (array ws)
  | object (ms ns : List (String × Json)) : Alike (object ms) (object ns)

theorem exists_forall₂ {α β : Type} {R : α → β → Prop} {as : List α}
    (h : ∀ a ∈ as, ∃ b, R a b) : ∃ bs, List.Forall₂ R as bs := by
  induction as with
  | nil => exact ⟨[], .nil⟩
  | cons a as ih =>
    obtain ⟨b, hb⟩ := h a List.mem_cons_self
    obtain ⟨bs, hbs⟩ := ih fun c hc => h c (List.mem_cons_of_mem a hc)
    exact ⟨b :: bs, .cons hb hbs⟩

namespace Reader

variable {embedded : List UInt8 → Except Failure Json} {levels : Nat}

theorem afterRawKey?_membersText {ms : List (String × Json)}
    (plain : ∀ m ∈ ms.head?, m.1 ≠ rawKey) (rest : List UInt8) :
    afterRawKey? (encodeChars (membersText true ms) ++ rest) = none := by
  cases ms with
  | nil => rw [afterRawKey?, nextKey_nil]
  | cons m ms =>
    rw [afterRawKey?, nextKey_cons]
    exact if_neg (plain m rfl)

theorem reads_valueWith_null : Reads (valueWith embedded levels) null.chars .null := by
  intro rest _
  rw [valueWith]
  rfl

theorem reads_valueWith_boolean (b : Bool) :
    Reads (valueWith embedded levels) (Json.boolean b).chars (.boolean b) := by
  intro rest _
  rw [valueWith]
  cases b <;> rfl

theorem reads_valueWith_number {n m : Number} (h : n.ReadAs m) :
    Reads (valueWith embedded levels) n.chars (.number m) := by
  intro rest closed
  obtain ⟨b, bs, htext, hstart⟩ := h.exists_encodeChars
  obtain ⟨l, hscan, hnumber⟩ := h.exists_scan? closed
  rw [htext, List.cons_append] at hscan ⊢
  obtain ⟨hspace, hnull, htrue, hfalse, hquote, hbracket, hbrace, -⟩ := of_startsNumber hstart
  rw [valueWith, dropSpaces_of_not hspace]
  simp only [if_neg hnull, if_neg htrue, if_neg hfalse, if_neg hquote, if_neg hbracket,
    if_neg hbrace, hscan, hnumber, Option.bind_some, Option.map_some, ofGrammar]

theorem reads_valueWith_string (s : String) :
    Reads (valueWith embedded levels) (quote s) (.string s) := by
  intro rest _
  rw [encodeChars_quote_append, valueWith]
  change ofGrammar ((Scan.string? _).map _) = _
  rw [string?_quote]
  rfl

theorem reads_valueWith_array {vs ws : List Json} (opens : ∀ v ∈ vs, Opens v.chars)
    (reads : List.Forall₂ (fun v w => Reads (valueWith embedded levels) v.chars w) vs ws) :
    Reads (valueWith embedded (levels + 1)) (array vs).chars (.array ws) := by
  intro rest _
  have hcount := length_le_itemsText true vs
  rw [if_pos rfl] at hcount
  have hitems : items (valueWith embedded levels) (encodeChars (itemsText true vs) ++ rest) =
      .ok (ws, rest) :=
    itemsFrom_itemsText opens reads (by rw [List.length_append]; omega) 0 rest
  rw [chars_array]
  change (items (valueWith embedded levels) (encodeChars (itemsText true vs) ++ rest)).map _ = _
  rw [hitems]
  rfl

section

variable {rest rest' : List UInt8}

theorem valueWith_of_members (h : afterRawKey? rest = none) {ms : List (String × Json)}
    (hmembers : members (valueWith embedded levels) rest = .ok (ms, rest')) :
    valueWith embedded (levels + 1) (0x7b :: rest) =
      .ok (.object (Dictionary.ofList ms).entries, rest') := by
  have hbrace : Scan.dropSpaces (0x7b :: rest) = 0x7b :: rest := rfl
  rw [valueWith]
  simp [hbrace, h, hmembers, Except.map]

theorem valueWith_of_rawKey (h : afterRawKey? rest = some rest') :
    valueWith embedded (levels + 1) (0x7b :: rest) = raw embedded levels rest' := by
  have hbrace : Scan.dropSpaces (0x7b :: rest) = 0x7b :: rest := rfl
  rw [valueWith]
  simp [hbrace, h]

end

/-- The members of an object are put in the order of their keys. -/
theorem reads_valueWith_object {ms ns : List (String × Json)}
    (plain : ∀ m ∈ ms.head?, m.1 ≠ rawKey)
    (reads : List.Forall₂ (fun m n => m.1 = n.1 ∧ Reads (valueWith embedded levels) m.2.chars n.2)
      ms ns) :
    Reads (valueWith embedded (levels + 1)) (object ms).chars
      (.object (Dictionary.ofList ns).entries) := by
  intro rest _
  have hmembers : members (valueWith embedded levels) (encodeChars (membersText true ms) ++ rest) =
      .ok (ns, rest) :=
    membersFrom_membersText reads (length_lt_room ms rest) true rest
  rw [chars_object]
  exact valueWith_of_members (afterRawKey?_membersText plain rest) hmembers

theorem reads_valueWith_raw {s : String} {w : Json} (h : embedded (encode s) = .ok w) :
    Reads (valueWith embedded (levels + 1)) (object [(rawKey, .string s)]).chars w := by
  intro rest _
  have hmember := member_of_ok (reads_textAs "raw value" levels s _ (closed_membersText [] rest))
    rawKey
  have hkey : afterRawKey? (encodeChars (membersText true [(rawKey, .string s)]) ++ rest) =
      some (0x3a :: (encodeChars (quote s) ++ (encodeChars (membersText false []) ++ rest))) := by
    rw [afterRawKey?, nextKey_cons]
    exact if_pos rfl
  rw [chars_object]
  refine (valueWith_of_rawKey hkey).trans ?_
  rw [raw, hmember]
  simp only [Except.bind, h, Except.mapError]
  rfl

/-- What is read of a written value has its kind. -/
theorem exists_reads_value {n : Nat} {v : Json} (within : Within n v) (room : n ≤ levels)
    (plain : Plain v) (legible : Legible v) :
    ∃ w, Alike v w ∧ ∀ embedded, Reads (valueWith embedded levels) v.chars w := by
  induction within generalizing levels with
  | null => exact ⟨_, .null, fun _ => reads_valueWith_null⟩
  | boolean b => exact ⟨_, .boolean b, fun _ => reads_valueWith_boolean b⟩
  | number k =>
    obtain ⟨m, hread⟩ := legible k .whole
    exact ⟨_, .number k m, fun _ => reads_valueWith_number hread⟩
  | string s => exact ⟨_, .string s, fun _ => reads_valueWith_string s⟩
  | @array n vs _ ih =>
    obtain ⟨levels, rfl⟩ := Nat.exists_eq_add_one_of_ne_zero (Nat.ne_of_gt (Nat.zero_lt_of_lt room))
    obtain ⟨ws, hreads⟩ := exists_forall₂
      (R := fun (v w : Json) => ∀ embedded, Reads (valueWith embedded levels) v.chars w)
      fun v hv => by
        obtain ⟨w, -, hread⟩ := ih v hv (Nat.le_of_succ_le_succ room) (plain.item hv)
          (legible.item hv)
        exact ⟨w, hread⟩
    exact ⟨_, .array vs ws, fun embedded => reads_valueWith_array
      (fun v hv => (legible.item hv).opens) (hreads.imp fun _ _ h => h embedded)⟩
  | @object n ms _ ih =>
    obtain ⟨levels, rfl⟩ := Nat.exists_eq_add_one_of_ne_zero (Nat.ne_of_gt (Nat.zero_lt_of_lt room))
    obtain ⟨ns, hreads⟩ := exists_forall₂
      (R := fun (m n : String × Json) =>
        m.1 = n.1 ∧ ∀ embedded, Reads (valueWith embedded levels) m.2.chars n.2) fun m hm => by
        obtain ⟨w, -, hread⟩ := ih m hm (Nat.le_of_succ_le_succ room) (plain.member hm)
          (legible.member hm)
        exact ⟨(m.1, w), rfl, hread⟩
    exact ⟨_, .object ms _, fun embedded => reads_valueWith_object (plain ms .whole)
      (hreads.imp fun _ _ h => ⟨h.1, h.2 embedded⟩)⟩

end Reader

end Rendezvous.Json
