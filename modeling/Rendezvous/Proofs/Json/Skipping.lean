import Rendezvous.Proofs.Json.Records

namespace Rendezvous.Json

open Text.Utf8

/-- That a value is another one or stands inside it. -/
inductive Part (w : Json) : Json → Prop where
  | whole : Part w w
  | item {vs : List Json} {v : Json} (h : v ∈ vs) (part : Part w v) : Part w (array vs)
  | member {ms : List (String × Json)} {m : String × Json} (h : m ∈ ms) (part : Part w m.2) :
    Part w (object ms)

def Legible (v : Json) : Prop := ∀ n, Part (number n) v → ∃ m, n.ReadAs m

theorem Legible.item {vs : List Json} (h : Legible (array vs)) {v : Json} (hv : v ∈ vs) :
    Legible v :=
  fun n part => h n (.item hv part)

theorem Legible.member {ms : List (String × Json)} (h : Legible (object ms)) {m : String × Json}
    (hm : m ∈ ms) : Legible m.2 :=
  fun n part => h n (.member hm part)

theorem Part.of_texts {w : Json} {ms : List (String × Json)} (part : Part w (object ms))
    (h : ∀ m ∈ ms, ∃ s, m.2 = .string s) : w = object ms ∨ ∃ s, w = .string s := by
  cases part with
  | whole => exact .inl rfl
  | @member _ m hm part =>
    obtain ⟨s, hs⟩ := h m hm
    rw [hs] at part
    cases part
    exact .inr ⟨s, rfl⟩

theorem Legible.of_texts {ms : List (String × Json)} (h : ∀ m ∈ ms, ∃ s, m.2 = .string s) :
    Legible (object ms) := by
  intro n part
  rcases part.of_texts h with he | ⟨s, he⟩ <;> cases he

theorem Legible.string (s : String) : Legible (string s) := nofun

theorem Legible.ofInt64 (i : Int64) : Legible (number (.ofInt64 i)) := by
  rintro n ⟨⟩
  exact ⟨_, Number.readAs_ofInt64 i⟩

theorem Legible.opens {v : Json} (h : Legible v) : Opens v.chars := by
  cases v with
  | null => exact ⟨0x6e, _, rfl, rfl, by decide⟩
  | boolean b =>
    cases b with
    | false => exact ⟨0x66, _, rfl, rfl, by decide⟩
    | true => exact ⟨0x74, _, rfl, rfl, by decide⟩
  | number n =>
    obtain ⟨m, hread⟩ := h n .whole
    exact hread.opens
  | string s => exact opens_quote s
  | array vs =>
    rw [chars_array]
    exact ⟨0x5b, _, rfl, rfl, by decide⟩
  | object ms =>
    rw [chars_object]
    exact ⟨0x7b, _, rfl, rfl, by decide⟩

namespace Scan

def Skips (skip : List UInt8 → Option (List UInt8)) (text : List Char) : Prop :=
  ∀ rest, Closed rest → skip (encodeChars text ++ rest) = some rest

variable {skip : List UInt8 → Option (List UInt8)}

theorem skipItems_itemsText {vs : List Json} (opens : ∀ v ∈ vs, Opens v.chars)
    (skips : ∀ v ∈ vs, Skips skip v.chars) {n : Nat} (room : vs.length < n) (first : Bool)
    (rest : List UInt8) :
    skipItems skip n first (encodeChars (itemsText first vs) ++ rest) = some rest := by
  induction vs generalizing n first with
  | nil =>
    obtain ⟨n, rfl⟩ := Nat.exists_eq_add_one_of_ne_zero (Nat.ne_of_gt room)
    rw [skipItems, nextItem_nil]
    cases first <;> rfl
  | cons v vs ih =>
    obtain ⟨n, rfl⟩ := Nat.exists_eq_add_one_of_ne_zero (Nat.ne_of_gt (Nat.zero_lt_of_lt room))
    have htail := ih (fun w hw => opens w (List.mem_cons_of_mem v hw))
      (fun w hw => skips w (List.mem_cons_of_mem v hw)) (Nat.lt_of_succ_lt_succ room) false
    have hskip := skips v List.mem_cons_self _ (closed_itemsText vs rest)
    rw [skipItems, nextItem_cons first (opens v List.mem_cons_self)]
    simp only [hskip, Option.bind_some, htail]

theorem skipMembers_membersText {ms : List (String × Json)}
    (skips : ∀ m ∈ ms, Skips skip m.2.chars) {n : Nat} (room : ms.length < n) (first : Bool)
    (rest : List UInt8) :
    skipMembers skip n first (encodeChars (membersText first ms) ++ rest) = some rest := by
  induction ms generalizing n first with
  | nil =>
    obtain ⟨n, rfl⟩ := Nat.exists_eq_add_one_of_ne_zero (Nat.ne_of_gt room)
    rw [skipMembers, nextQuote_nil]
    cases first <;> rfl
  | cons m ms ih =>
    obtain ⟨n, rfl⟩ := Nat.exists_eq_add_one_of_ne_zero (Nat.ne_of_gt (Nat.zero_lt_of_lt room))
    have htail := ih (fun x hx => skips x (List.mem_cons_of_mem m hx))
      (Nat.lt_of_succ_lt_succ room) false
    have hskip := skips m List.mem_cons_self _ (closed_membersText ms rest)
    have hcolon (bs : List UInt8) : colon? (0x3a :: bs) = some bs := rfl
    rw [skipMembers, nextQuote_cons]
    simp only [skipString?_quote, hcolon, hskip, Option.bind_some, htail]

/-- The length of the text of a value is a sufficient bound: that of a value inside it is less. -/
theorem skips_within {n : Nat} {v : Json} (legible : Legible v)
    (room : (encodeChars v.chars).length ≤ n) : Skips (skipWithin n) v.chars := by
  induction n generalizing v with
  | zero =>
    obtain ⟨b, bs, htext, -⟩ := legible.opens
    rw [htext] at room
    cases room
  | succ n ih =>
    intro rest closed
    cases v with
    | null => rfl
    | boolean b => cases b <;> rfl
    | number k =>
      obtain ⟨m, hread⟩ := legible k .whole
      obtain ⟨b, bs, htext, hstart⟩ := hread.exists_encodeChars
      obtain ⟨l, hscan, -⟩ := hread.exists_scan? closed
      change skipWithin (n + 1) (encodeChars k.chars ++ rest) = _
      rw [htext, List.cons_append] at hscan ⊢
      obtain ⟨hspace, hnull, htrue, hfalse, hquote, hbracket, hbrace, -⟩ := of_startsNumber hstart
      rw [skipWithin, dropSpaces_of_not hspace]
      simp only [if_neg hnull, if_neg htrue, if_neg hfalse, if_neg hquote, if_neg hbracket,
        if_neg hbrace, hscan, Option.map_some]
    | string s =>
      change skipWithin (n + 1) (encodeChars (quote s) ++ rest) = _
      rw [encodeChars_quote_append]
      exact skipString?_quote s rest
    | array vs =>
      rw [chars_array] at room ⊢
      change (encodeChars (itemsText true vs)).length + 1 ≤ n + 1 at room
      change skipItems (skipWithin n) (n + 1) true (encodeChars (itemsText true vs) ++ rest) = _
      have hcount := length_le_itemsText true vs
      rw [if_pos rfl] at hcount
      refine skipItems_itemsText (fun v hv => (legible.item hv).opens) (fun v hv => ?_) (by omega)
        true rest
      have hlength := length_item_lt hv true
      exact ih (legible.item hv) (by omega)
    | object ms =>
      rw [chars_object] at room ⊢
      change (encodeChars (membersText true ms)).length + 1 ≤ n + 1 at room
      change skipMembers (skipWithin n) (n + 1) true (encodeChars (membersText true ms) ++ rest) = _
      have hcount := length_lt_membersText true ms
      refine skipMembers_membersText (fun m hm => ?_) (by omega) true rest
      have hlength := length_member_lt hm true
      exact ih (legible.member hm) (by omega)

end Scan

theorem reads_skipped {v : Json} (legible : Legible v) : Reads Reader.skipped v.chars () := by
  intro rest closed
  have hskip := Scan.skips_within legible
    (n := (encodeChars v.chars ++ rest).length + 1) (by rw [List.length_append]; omega) rest closed
  rw [Reader.skipped, Scan.skip?, hskip]
  rfl

end Rendezvous.Json
