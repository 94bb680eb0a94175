import Rendezvous.Json.Record
import Rendezvous.Proofs.Json.Literals

namespace Rendezvous.Json

open Numeral Text.Utf8

/-- That a reader takes a text for a value and stops at its end, whatever closes the text. -/
def Reads {α : Type} (read : List UInt8 → Outcome α) (text : List Char) (a : α) : Prop :=
  ∀ rest, Closed rest → read (encodeChars text ++ rest) = .ok (a, rest)

def Refuses {α : Type} (read : List UInt8 → Outcome α) (text : List Char) : Prop :=
  ∀ rest, Closed rest → ∃ failure, read (encodeChars text ++ rest) = .error failure

theorem dropSpaces_of_not {b : UInt8} (h : Scan.isSpace b = false) (bs : List UInt8) :
    Scan.dropSpaces (b :: bs) = b :: bs := by
  simp [Scan.dropSpaces, h]

theorem startsNumber_table : ∀ n < 256, Reader.startsNumber (.ofNat n) →
    Scan.isSpace (.ofNat n) = false ∧ UInt8.ofNat n ≠ 0x6e ∧ UInt8.ofNat n ≠ 0x74 ∧
      UInt8.ofNat n ≠ 0x66 ∧ UInt8.ofNat n ≠ 0x22 ∧ UInt8.ofNat n ≠ 0x5b ∧
      UInt8.ofNat n ≠ 0x7b ∧ UInt8.ofNat n ≠ 0x5d := by decide +kernel

theorem of_startsNumber {b : UInt8} (h : Reader.startsNumber b) :
    Scan.isSpace b = false ∧ b ≠ 0x6e ∧ b ≠ 0x74 ∧ b ≠ 0x66 ∧ b ≠ 0x22 ∧ b ≠ 0x5b ∧ b ≠ 0x7b ∧
      b ≠ 0x5d := by
  have table := startsNumber_table b.toNat b.toNat_lt
  rw [UInt8.ofNat_toNat] at table
  exact table h

/-- That a text starts with an octet that may start the item of an array. -/
def Opens (text : List Char) : Prop :=
  ∃ b bs, encodeChars text = b :: bs ∧ Scan.isSpace b = false ∧ b ≠ 0x5d

theorem Number.ReadAs.opens {n m : Number} (h : n.ReadAs m) : Opens n.chars := by
  obtain ⟨b, bs, htext, hstart⟩ := h.exists_encodeChars
  obtain ⟨hspace, -, -, -, -, -, -, hbracket⟩ := of_startsNumber hstart
  exact ⟨b, bs, htext, hspace, hbracket⟩

theorem opens_quote (s : String) : Opens (quote s) := by
  have h := encodeChars_quote_append s []
  rw [List.append_nil] at h
  exact ⟨_, _, h, rfl, by decide⟩

def itemsText (first : Bool) : List Json → List Char
  | [] => [']']
  | v :: vs => (if first then [] else [',']) ++ (v.chars ++ itemsText false vs)

def membersText (first : Bool) : List (String × Json) → List Char
  | [] => ['\x7d']
  | m :: ms =>
    (if first then [] else [',']) ++ (quote m.1 ++ ':' :: (m.2.chars ++ membersText false ms))

theorem itemsChars_eq (vs : List Json) : itemsChars vs = itemsText false vs := by
  induction vs with
  | nil => rfl
  | cons v vs ih =>
    rw [itemsChars, ih]
    rfl

theorem membersChars_eq (ms : List (String × Json)) : membersChars ms = membersText false ms := by
  induction ms with
  | nil => rfl
  | cons m ms ih =>
    rw [membersChars, ih, memberChars.eq_def, membersText]
    simp

theorem chars_array (vs : List Json) : (array vs).chars = '[' :: itemsText true vs := by
  cases vs with
  | nil => rfl
  | cons v vs =>
    rw [chars, itemsChars_eq]
    rfl

theorem chars_object (ms : List (String × Json)) :
    (object ms).chars = '\x7b' :: membersText true ms := by
  cases ms with
  | nil => rfl
  | cons m ms =>
    rw [chars, membersChars_eq, memberChars.eq_def, membersText]
    simp

theorem closed_itemsText (vs : List Json) (rest : List UInt8) :
    Closed (encodeChars (itemsText false vs) ++ rest) := by
  cases vs with
  | nil => exact closed_cons (by decide)
  | cons v vs => exact closed_cons (b := 0x2c) (by decide)

theorem closed_membersText (ms : List (String × Json)) (rest : List UInt8) :
    Closed (encodeChars (membersText false ms) ++ rest) := by
  cases ms with
  | nil => exact closed_cons (by decide)
  | cons m ms => exact closed_cons (b := 0x2c) (by decide)

theorem length_itemsText_cons (first : Bool) (v : Json) (vs : List Json) :
    (encodeChars (itemsText first (v :: vs))).length = (if first then 0 else 1) +
      (encodeChars v.chars).length + (encodeChars (itemsText false vs)).length := by
  rw [itemsText, encodeChars_append, encodeChars_append, List.length_append, List.length_append,
    ← Nat.add_assoc]
  cases first <;> rfl

theorem length_membersText_cons (first : Bool) (m : String × Json) (ms : List (String × Json)) :
    (encodeChars (membersText first (m :: ms))).length = (if first then 0 else 1) +
      (encodeChars (quote m.1)).length + 1 + (encodeChars m.2.chars).length +
        (encodeChars (membersText false ms)).length := by
  have hcolon (cs : List Char) : encodeChars (':' :: cs) = 0x3a :: encodeChars cs := rfl
  rw [membersText]
  simp only [encodeChars_append, hcolon, List.length_append, List.length_cons]
  cases first
  · simp only [Bool.false_eq_true, if_false, show encodeChars [','] = [0x2c] from rfl,
      List.length_singleton]
    omega
  · simp only [if_true, show encodeChars [] = [] from rfl, List.length_nil]
    omega

/-- There are no more items than octets: each has a comma or the end after it. -/
theorem length_le_itemsText (first : Bool) (vs : List Json) :
    (if first then 0 else 1) + vs.length ≤ (encodeChars (itemsText first vs)).length := by
  induction vs generalizing first with
  | nil => cases first <;> decide
  | cons v vs ih =>
    have hrest := ih false
    rw [length_itemsText_cons, List.length_cons]
    simp only [Bool.false_eq_true, if_false] at hrest
    omega

theorem length_lt_membersText (first : Bool) (ms : List (String × Json)) :
    ms.length < (encodeChars (membersText first ms)).length := by
  induction ms generalizing first with
  | nil => exact Nat.zero_lt_one
  | cons m ms ih =>
    have hrest := ih false
    rw [length_membersText_cons, List.length_cons]
    omega

theorem length_lt_room (ms : List (String × Json)) (rest : List UInt8) :
    ms.length < (encodeChars (membersText true ms) ++ rest).length + 1 := by
  have hcount := length_lt_membersText true ms
  rw [List.length_append]
  omega

theorem length_item_lt {vs : List Json} {v : Json} (h : v ∈ vs) (first : Bool) :
    (encodeChars v.chars).length < (encodeChars (itemsText first vs)).length := by
  induction vs generalizing first with
  | nil => cases h
  | cons w vs ih =>
    have hrest := length_le_itemsText false vs
    rw [length_itemsText_cons]
    simp only [Bool.false_eq_true, if_false] at hrest
    rcases List.mem_cons.mp h with rfl | h
    · omega
    · have hlt := ih h false
      omega

theorem length_member_lt {ms : List (String × Json)} {m : String × Json} (h : m ∈ ms)
    (first : Bool) :
    (encodeChars m.2.chars).length < (encodeChars (membersText first ms)).length := by
  induction ms generalizing first with
  | nil => cases h
  | cons x ms ih =>
    rw [length_membersText_cons]
    rcases List.mem_cons.mp h with rfl | h
    · omega
    · have hlt := ih h false
      omega

theorem nextItem_nil (first : Bool) (rest : List UInt8) :
    Scan.nextItem first (encodeChars (itemsText first []) ++ rest) = .last := rfl

theorem nextItem_cons (first : Bool) {v : Json} (opens : Opens v.chars) (vs : List Json)
    (rest : List UInt8) :
    Scan.nextItem first (encodeChars (itemsText first (v :: vs)) ++ rest) =
      .item () (encodeChars v.chars ++ (encodeChars (itemsText false vs) ++ rest)) := by
  obtain ⟨b, bs, htext, hspace, hbracket⟩ := opens
  rw [itemsText, encodeChars_append, encodeChars_append, htext]
  cases first with
  | true =>
    simp only [if_true, Scan.nextItem, List.append_assoc, List.cons_append,
      show encodeChars [] = [] from rfl, List.nil_append, dropSpaces_of_not hspace,
      if_neg hbracket]
  | false =>
    simp only [Bool.false_eq_true, if_false, Scan.nextItem, List.append_assoc, List.cons_append,
      show encodeChars [','] = [0x2c] from rfl, List.nil_append,
      dropSpaces_of_not (show Scan.isSpace 0x2c = false from rfl), dropSpaces_of_not hspace,
      if_neg hbracket, if_true, if_neg (show ¬(0x2c : UInt8) = 0x5d by decide)]

theorem nextQuote_nil (first : Bool) (rest : List UInt8) :
    Scan.nextQuote first (encodeChars (membersText first []) ++ rest) = .last := rfl

theorem nextQuote_cons (first : Bool) (m : String × Json) (ms : List (String × Json))
    (rest : List UInt8) :
    Scan.nextQuote first (encodeChars (membersText first (m :: ms)) ++ rest) =
      .item () (encodeChars (m.1.toList.flatMap escape) ++ 0x22 :: 0x3a ::
        (encodeChars m.2.chars ++ (encodeChars (membersText false ms) ++ rest))) := by
  have hcolon (cs : List Char) : encodeChars (':' :: cs) = 0x3a :: encodeChars cs := rfl
  rw [membersText]
  simp only [encodeChars_append, List.append_assoc, hcolon, List.cons_append]
  rw [encodeChars_quote_append]
  cases first <;> rfl

theorem nextKey_nil (first : Bool) (rest : List UInt8) :
    Scan.nextKey first (encodeChars (membersText first []) ++ rest) = .last := rfl

theorem nextKey_cons (first : Bool) (m : String × Json) (ms : List (String × Json))
    (rest : List UInt8) :
    Scan.nextKey first (encodeChars (membersText first (m :: ms)) ++ rest) =
      .item m.1 (0x3a ::
        (encodeChars m.2.chars ++ (encodeChars (membersText false ms) ++ rest))) := by
  rw [Scan.nextKey, nextQuote_cons]
  dsimp only
  rw [string?_quote]

namespace Reader

variable {α : Type}

theorem member_of_ok {value : List UInt8 → Outcome α} {bs rest : List UInt8} {a : α}
    (h : value bs = .ok (a, rest)) (key : String) :
    member key value (0x3a :: bs) = .ok (a, rest) := by
  have hcolon : Scan.colon? (0x3a :: bs) = some bs := rfl
  simp only [member, hcolon, ofGrammar, Except.bind, h, Except.mapError]

theorem member_of_error {value : List UInt8 → Outcome α} {bs : List UInt8} {f : Failure}
    (h : value bs = .error f) (key : String) :
    member key value (0x3a :: bs) = .error (f.under (.key key)) := by
  have hcolon : Scan.colon? (0x3a :: bs) = some bs := rfl
  simp only [member, hcolon, ofGrammar, Except.bind, h, Except.mapError]

theorem itemsFrom_itemsText {item : List UInt8 → Outcome α} {vs : List Json} {as : List α}
    (opens : ∀ v ∈ vs, Opens v.chars)
    (reads : List.Forall₂ (fun v a => Reads item v.chars a) vs as) {n : Nat} (room : vs.length < n)
    (i : Nat) (rest : List UInt8) :
    itemsFrom item n i (encodeChars (itemsText (i == 0) vs) ++ rest) = .ok (as, rest) := by
  induction reads generalizing n i with
  | nil =>
    obtain ⟨n, rfl⟩ := Nat.exists_eq_add_one_of_ne_zero (Nat.ne_of_gt room)
    rw [itemsFrom, nextItem_nil]
    cases i == 0 <;> rfl
  | @cons v a vs as hread hreads ih =>
    obtain ⟨n, rfl⟩ := Nat.exists_eq_add_one_of_ne_zero (Nat.ne_of_gt (Nat.zero_lt_of_lt room))
    have htail := ih (fun w hw => opens w (List.mem_cons_of_mem v hw))
      (Nat.lt_of_succ_lt_succ room) (i + 1)
    rw [show (i + 1 == 0) = false from rfl] at htail
    rw [itemsFrom, nextItem_cons _ (opens v List.mem_cons_self)]
    simp only [hread _ (closed_itemsText vs rest), Except.mapError, Except.bind, htail,
      Except.map]

theorem membersFrom_membersText {value : List UInt8 → Outcome α} {ms : List (String × Json)}
    {as : List (String × α)}
    (reads : List.Forall₂ (fun m a => m.1 = a.1 ∧ Reads value m.2.chars a.2) ms as) {n : Nat}
    (room : ms.length < n) (first : Bool) (rest : List UInt8) :
    membersFrom value n first (encodeChars (membersText first ms) ++ rest) = .ok (as, rest) := by
  induction reads generalizing n first with
  | nil =>
    obtain ⟨n, rfl⟩ := Nat.exists_eq_add_one_of_ne_zero (Nat.ne_of_gt room)
    rw [membersFrom, nextKey_nil]
    cases first <;> rfl
  | @cons m a ms as hread hreads ih =>
    obtain ⟨n, rfl⟩ := Nat.exists_eq_add_one_of_ne_zero (Nat.ne_of_gt (Nat.zero_lt_of_lt room))
    obtain ⟨key, v⟩ := a
    obtain ⟨rfl, hread⟩ := hread
    have htail := ih (Nat.lt_of_succ_lt_succ room) false
    have hmember := member_of_ok (hread _ (closed_membersText ms rest)) m.1
    rw [membersFrom, nextKey_cons]
    simp only [hmember, Except.bind, htail, Except.map]

theorem reads_textAs (expected : String) (levels : Nat) (s : String) :
    Reads (textAs expected levels) (quote s) s := by
  intro rest _
  rw [encodeChars_quote_append]
  change ofGrammar (Scan.string? _) = _
  rw [string?_quote]
  rfl

theorem reads_text (levels : Nat) (s : String) : Reads (text levels) (quote s) s :=
  reads_textAs "a string" levels s

theorem reads_optionalText (levels : Nat) (s : Option String) :
    Reads (optionalText levels) (Field.orNull s).chars s := by
  intro rest closed
  cases s with
  | none => rfl
  | some s =>
    have hread := reads_text levels s rest closed
    change optionalText levels (encodeChars (quote s) ++ rest) = _
    rw [encodeChars_quote_append] at hread ⊢
    change (text levels _).map _ = _
    rw [hread]
    rfl

theorem toNat_toUInt64_of_nonneg {i : Int64} (h : 0 ≤ i.toInt) :
    i.toUInt64.toNat = i.toInt.toNat := by
  have hcond := BitVec.toInt_eq_toNat_cond i.toBitVec
  have hlt := i.toUInt64.toNat_lt
  change i.toInt = if 2 * i.toUInt64.toNat < 2 ^ 64 then (i.toUInt64.toNat : Int)
    else (i.toUInt64.toNat : Int) - (2 ^ 64 : Nat) at hcond
  split at hcond
  · omega
  · omega

theorem reads_integer (levels : Nat) (i : Int64) :
    Reads (integer levels) (Number.ofInt64 i).chars i := by
  intro rest closed
  have hread := Number.readAs_ofInt64 i
  obtain ⟨b, bs, htext, hstart⟩ := hread.exists_encodeChars
  obtain ⟨l, hscan, hnumber⟩ := hread.exists_scan? closed
  rw [htext, List.cons_append] at hscan ⊢
  rw [integer, dropSpaces_of_not (of_startsNumber hstart).1]
  simp only [hstart, if_true, hscan, hnumber, Option.bind_some, Option.map_some]
  unfold Number.ofInt64
  by_cases h : i < 0
  · simp only [if_pos h]
  · have hnat : 0 ≤ i.toInt := Int.not_lt.mp fun hneg => h (Int64.lt_iff_toInt_lt.mpr hneg)
    have hmax := i.toInt_lt
    have hvalue := toNat_toUInt64_of_nonneg hnat
    have hlt : i.toUInt64.toNat < 0x8000000000000000 := by omega
    simp only [if_neg h, hlt, if_true]
    rfl

end Reader

end Rendezvous.Json
