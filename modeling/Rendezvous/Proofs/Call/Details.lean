import Rendezvous.Call.Hangup
import Rendezvous.Proofs.Json.Values

namespace Rendezvous

namespace Json

/-- That a reader takes a text for a value if there is one, and refuses it otherwise. -/
def Decides {α : Type} (read : List UInt8 → Outcome α) (text : List Char) : Option α → Prop
  | some a => Reads read text a
  | none => Refuses read text

theorem Decides.reads_or_refuses {α : Type} {read : List UInt8 → Outcome α} {text : List Char}
    {a? : Option α} (h : Decides read text a?) : (∃ a, Reads read text a) ∨ Refuses read text := by
  cases a? with
  | some a => exact .inl ⟨a, h⟩
  | none => exact .inr h

theorem toOption_whole {α : Type} (read : Reader α) {text : List Char} {a? : Option α}
    (h : Decides (read maxLevels) text a?) :
    (Reader.whole read (Text.Utf8.encodeChars text)).toOption = a? := by
  cases a? with
  | some a => rw [Reader.whole_of_reads h, Except.toOption]
  | none =>
    obtain ⟨failure, hfailure⟩ := Reader.whole_of_refuses h
    rw [hfailure, Except.toOption]

end Json

namespace Call

open Json Text.Utf8

def optionalText? : Option Json → Option (Option String)
  | none => some none
  | some .null => some none
  | some (.string s) => some (some s)
  | some _ => none

/-- The details in the members of an object: there are some only if both are texts or null where
present, whatever other members there are. -/
def details? (ms : List (String × Json)) : Option HangupData :=
  (optionalText? (ms.lookup "cause")).bind fun cause =>
    (optionalText? (ms.lookup "meeting_id")).map fun meetingId => { cause, meetingId }

/-- The optional text that a member is; one that is missing leaves what there was. -/
def optionalTextOr? (s : Option String) : Option Json → Option (Option String)
  | none => some s
  | some v => optionalText? (some v)

theorem toOption_optionalTextOf (v : Json) :
    (optionalTextOf v).toOption = optionalText? (some v) := by
  cases v <;> rfl

theorem toOption_bind {ε α β : Type} (x : Except ε α) (f : α → Except ε β) :
    (x.bind f).toOption = x.toOption.bind fun a => (f a).toOption := by
  cases x <;> rfl

/-- With each key once, the order of the members does not count. -/
theorem toOption_takeMembers {ms : List (String × Json)} (nodup : (ms.map (·.1)).Nodup)
    (d : HangupData) :
    (d.takeMembers ms).toOption = (optionalTextOr? d.cause (ms.lookup "cause")).bind fun cause =>
      (optionalTextOr? d.meetingId (ms.lookup "meeting_id")).map fun meetingId =>
        { cause, meetingId } := by
  induction ms generalizing d with
  | nil => rfl
  | cons m ms ih =>
    obtain ⟨key, v⟩ := m
    rw [List.map_cons, List.nodup_cons] at nodup
    have hlookup := Dictionary.lookup_eq_none nodup.1
    rw [HangupData.takeMembers]
    split
    · next hcause =>
      subst hcause
      rw [List.lookup_cons_self, Dictionary.lookup_cons_of_ne (by decide), toOption_bind,
        toOption_optionalTextOf]
      refine congrArg _ (funext fun cause => ?_)
      rw [ih nodup.2, hlookup]
      rfl
    · next hcause =>
      rw [Dictionary.lookup_cons_of_ne (Ne.symm hcause)]
      split
      · next hmeeting =>
        subst hmeeting
        rw [List.lookup_cons_self, toOption_bind, toOption_optionalTextOf]
        simp only [ih nodup.2, hlookup, optionalTextOr?]
        cases ms.lookup "cause" <;> cases optionalText? (some v) <;> simp
      · next hmeeting => rw [Dictionary.lookup_cons_of_ne (Ne.symm hmeeting), ih nodup.2]

theorem optionalText?_alike {v w : Json} (h : Alike v w) :
    optionalText? (some w) = optionalText? (some v) := by
  cases h <;> rfl

theorem details?_alike {ms ns : List (String × Json)}
    (h : List.Forall₂ (fun m n => m.1 = n.1 ∧ Alike m.2 n.2) ms ns) :
    details? ns = details? ms := by
  have hlookup (key : String) : optionalText? (ns.lookup key) = optionalText? (ms.lookup key) := by
    induction h with
    | nil => rfl
    | @cons m n ms ns hmn _ ih =>
      obtain ⟨k, v⟩ := m
      obtain ⟨k', w⟩ := n
      obtain ⟨rfl, halike⟩ := hmn
      rw [List.lookup_cons, List.lookup_cons]
      cases key == k with
      | true => exact optionalText?_alike halike
      | false => exact ih
  rw [details?, details?, hlookup, hlookup]

theorem map_fst_of_forall₂ {ms ns : List (String × Json)}
    (h : List.Forall₂ (fun m n => m.1 = n.1 ∧ Alike m.2 n.2) ms ns) :
    ns.map (·.1) = ms.map (·.1) := by
  induction h with
  | nil => rfl
  | cons hmn _ ih => rw [List.map_cons, List.map_cons, hmn.1, ih]

theorem toOption_ofData_object {ns : List (String × Json)} (nodup : (ns.map (·.1)).Nodup) :
    (HangupData.ofData (.object (Dictionary.ofList ns).entries)).toOption = details? ns := by
  have htaken := toOption_takeMembers (Dictionary.ofList ns).nodup_entries .none
  have hmap {ε ε' α : Type} (x : Except ε α) (f : ε → ε') :
      (x.mapError f).toOption = x.toOption := by cases x <;> rfl
  have hor (v? : Option Json) : optionalTextOr? none v? = optionalText? v? := by cases v? <;> rfl
  simp only [← Dictionary.get?_eq_lookup, Dictionary.get?_ofList nodup] at htaken
  rw [HangupData.ofData, hmap, HangupData.ofJson, htaken, details?]
  · simp only [HangupData.none, hor]
  · nofun
  · nofun

theorem optionalText_of_ne {b : UInt8} (hspace : Scan.isSpace b = false) (hnull : b ≠ 0x6e)
    (hquote : b ≠ 0x22) (levels : Nat) (bs : List UInt8) :
    ∃ failure, Reader.optionalText levels (b :: bs) = .error failure := by
  rw [Reader.optionalText, dropSpaces_of_not hspace]
  split
  · next he => exact absurd (List.cons.inj he).1 hnull
  · rw [Reader.text, Reader.textAs, dropSpaces_of_not hspace]
    split
    · next he => exact absurd (List.cons.inj he).1 hquote
    · exact ⟨_, rfl⟩

theorem decides_optionalText (levels : Nat) {v : Json} (legible : Legible v) :
    Decides (Reader.optionalText levels) v.chars (optionalText? (some v)) := by
  cases v with
  | null => exact Reader.reads_optionalText levels none
  | string s => exact Reader.reads_optionalText levels (some s)
  | boolean b => cases b <;> exact fun rest _ => ⟨_, rfl⟩
  | number n =>
    intro rest _
    obtain ⟨m, hread⟩ := legible n .whole
    obtain ⟨b, bs, htext, hstart⟩ := hread.exists_encodeChars
    obtain ⟨hspace, hnull, -, -, hquote, -⟩ := of_startsNumber hstart
    change ∃ failure, Reader.optionalText levels (encodeChars n.chars ++ rest) = _
    rw [htext]
    exact optionalText_of_ne hspace hnull hquote levels (bs ++ rest)
  | array vs =>
    rw [chars_array]
    exact fun rest _ => ⟨_, rfl⟩
  | object ms =>
    rw [chars_object]
    exact fun rest _ => ⟨_, rfl⟩

theorem exists_slot {ms : List (String × Json)} (legible : Legible (object ms)) {name : String}
    {s : Option String} (h : optionalText? (ms.lookup name) = some s) (levels : Nat) :
    ∃ slot : Option (Option String), (slot <|> some none) = some s ∧
      (Field.trailingText name).Holds levels ms slot := by
  cases hlookup : ms.lookup name with
  | none =>
    rw [hlookup] at h
    cases h
    exact ⟨none, rfl, Field.holds_none hlookup levels⟩
  | some v =>
    have hread := decides_optionalText levels
      (legible.member (Dictionary.mem_of_lookup hlookup))
    rw [hlookup] at h
    rw [h] at hread
    exact ⟨some s, rfl, Field.holds_some hlookup hread⟩

theorem exists_of_eq_none {ms : List (String × Json)} {name : String}
    (h : optionalText? (ms.lookup name) = none) :
    ∃ v, (name, v) ∈ ms ∧ optionalText? (some v) = none := by
  cases hlookup : ms.lookup name with
  | none => rw [hlookup] at h; cases h
  | some v => exact ⟨v, Dictionary.mem_of_lookup hlookup, hlookup ▸ h⟩

theorem decides_record {levels : Nat} {ms : List (String × Json)} (nodup : (ms.map (·.1)).Nodup)
    (legible : Legible (object ms)) :
    Decides (HangupData.record.read (levels + 1)) (object ms).chars (details? ms) := by
  have distinct : (HangupData.record.fields.map (·.name)).Nodup := by decide
  have skips : ∀ m ∈ ms, Reads Reader.skipped m.2.chars () := fun m hm =>
    reads_skipped (legible.member hm)
  have decided (m) (hm : m ∈ ms) := decides_optionalText levels (legible.member hm)
  cases hdetails : details? ms with
  | some d =>
    obtain ⟨cause, hcause, hrest⟩ := Option.bind_eq_some_iff.mp hdetails
    obtain ⟨meetingId, hmeeting, rfl⟩ := Option.map_eq_some_iff.mp hrest
    obtain ⟨slot, hslot, hcause⟩ := exists_slot legible hcause levels
    obtain ⟨slot', hslot', hmeeting⟩ := exists_slot legible hmeeting levels
    have hold : Slots.Hold levels ms HangupData.record.fields (slot, slot', ()) :=
      ⟨hcause, hmeeting, trivial⟩
    have hcomplete : Slots.complete HangupData.record.fields (slot, slot', ()) =
        .ok (cause, meetingId, ()) := by
      simp only [HangupData.record, Slots.complete, Field.trailingText, hslot, hslot', Except.map]
    exact Record.reads_object HangupData.record distinct nodup skips hold hcomplete
  | none =>
    refine Record.refuses_object HangupData.record distinct skips (fun m hm f hf _ => ?_) ?_
    · simp only [HangupData.record, List.mem_cons, List.not_mem_nil, or_false] at hf
      rcases hf with rfl | rfl <;> exact (decided m hm).reads_or_refuses
    · have refused {name : String} (hname : Field.trailingText name ∈ HangupData.record.fields)
          (h : optionalText? (ms.lookup name) = none) : ∃ m ∈ ms, ∃ f ∈ HangupData.record.fields,
            f.name = m.1 ∧ Refuses (f.read levels) m.2.chars := by
        obtain ⟨v, hmem, hnone⟩ := exists_of_eq_none h
        have hrefuses := decided (name, v) hmem
        rw [hnone] at hrefuses
        exact ⟨_, hmem, _, hname, rfl, hrefuses⟩
      cases hcause : optionalText? (ms.lookup "cause") with
      | none => exact refused List.mem_cons_self hcause
      | some cause =>
        rw [details?, hcause, Option.bind_some, Option.map_eq_none_iff] at hdetails
        exact refused (List.mem_cons_of_mem _ List.mem_cons_self) hdetails

theorem decides_of_value {levels : Nat} {text : List Char} {v : Json}
    (filled : 0 < (encodeChars text).length)
    (h : ∀ n, Reads (Reader.valueWith (Reader.valueText (n + 1)) levels) text v) :
    Decides (HangupData.read levels) text (HangupData.ofData v).toOption := by
  have hread (rest) (closed : Closed rest) :
      HangupData.read levels (encodeChars text ++ rest) =
        ((HangupData.ofData v).map (·, rest)).mapError .here := by
    obtain ⟨n, hn⟩ := Nat.exists_eq_add_one_of_ne_zero
      (Nat.ne_of_gt (Nat.lt_add_right rest.length filled))
    rw [HangupData.read, Reader.value, List.length_append, hn, h n rest closed]
    rfl
  cases hdata : HangupData.ofData v with
  | ok d =>
    intro rest closed
    rw [hread rest closed, hdata]
    rfl
  | error fault =>
    intro rest closed
    rw [hread rest closed, hdata]
    exact ⟨_, rfl⟩

theorem exists_reads_object {levels : Nat} {ms : List (String × Json)}
    (nodup : (ms.map (·.1)).Nodup) (legible : Legible (object ms))
    (within : Within levels (object ms)) (plain : Plain (object ms)) :
    ∃ w, (∀ embedded, Reads (Reader.valueWith embedded levels) (object ms).chars w) ∧
      (HangupData.ofData w).toOption = details? ms := by
  cases within with
  | @object levels _ within =>
    obtain ⟨ns, hns⟩ := exists_forall₂
      (R := fun (m n : String × Json) => m.1 = n.1 ∧ Alike m.2 n.2 ∧
        ∀ embedded, Reads (Reader.valueWith embedded levels) m.2.chars n.2) fun m hm => by
        obtain ⟨w, halike, hread⟩ := Reader.exists_reads_value (within m hm) (Nat.le_refl levels)
          (plain.member hm) (legible.member hm)
        exact ⟨(m.1, w), rfl, halike, hread⟩
    have halike := hns.imp fun _ _ h => And.intro h.1 h.2.1
    have hdata := toOption_ofData_object (map_fst_of_forall₂ halike ▸ nodup)
    rw [details?_alike halike] at hdata
    exact ⟨_, fun embedded => Reader.reads_valueWith_object (plain ms .whole)
      (hns.imp fun _ _ h => ⟨h.1, h.2.2 embedded⟩), hdata⟩

theorem length_object_pos (ms : List (String × Json)) :
    0 < (encodeChars (object ms).chars).length := by
  rw [chars_object]
  exact Nat.succ_pos _

/-- The details in an object that is the value of `data`. -/
theorem decides_object {levels : Nat} {ms : List (String × Json)} (nodup : (ms.map (·.1)).Nodup)
    (legible : Legible (object ms)) (within : Within levels (object ms))
    (plain : Plain (object ms)) :
    Decides (HangupData.read levels) (object ms).chars (details? ms) := by
  obtain ⟨w, hread, hdata⟩ := exists_reads_object nodup legible within plain
  rw [← hdata]
  exact decides_of_value (length_object_pos ms) fun _ => hread _

/-- The details in an object whose text stands behind the key for that. -/
theorem decides_raw (levels : Nat) {ms : List (String × Json)} (nodup : (ms.map (·.1)).Nodup)
    (legible : Legible (object ms)) (within : Within maxLevels (object ms))
    (plain : Plain (object ms)) :
    Decides (HangupData.read (levels + 1))
      (object [(Reader.rawKey, .string (object ms).text)]).chars (details? ms) := by
  obtain ⟨w, hread, hdata⟩ := exists_reads_object nodup legible within plain
  rw [← hdata]
  refine decides_of_value (length_object_pos _) fun n => Reader.reads_valueWith_raw ?_
  rw [Reader.valueText, text, encode, String.toList_ofList]
  exact Reader.whole_of_reads (hread _)

/-- The details in an object that is written in a text. -/
theorem decides_text (levels : Nat) {ms : List (String × Json)} (nodup : (ms.map (·.1)).Nodup)
    (legible : Legible (object ms)) :
    Decides (HangupData.read levels) (quote (object ms).text) (details? ms) := by
  have hdecode : (HangupData.record.decode (encode (object ms).text)).toOption = details? ms := by
    rw [text, encode, String.toList_ofList]
    exact toOption_whole _ (decides_record nodup legible)
  have hfilled : ¬(object ms).text.toList.all Text.Blank.isBlank := by
    rw [text, String.toList_ofList, chars_object, List.all_cons]
    exact Bool.false_ne_true
  have hdata : (HangupData.ofData (.string (object ms).text)).toOption = details? ms := by
    rw [HangupData.ofData, if_neg hfilled, ← hdecode]
    cases HangupData.record.decode (encode (object ms).text) <;> rfl
  have hfilled' : 0 < (encodeChars (quote (object ms).text)).length := Nat.succ_pos _
  rw [← hdata]
  exact decides_of_value hfilled' fun n => Reader.reads_valueWith_string _

end Call

end Rendezvous
