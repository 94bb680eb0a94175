import Rendezvous.Call.Payload
import Rendezvous.Proofs.Call.Details

namespace Rendezvous.Call

open Json Text.Utf8

def eventMembers (id appId : String) (bridgedAt : Int64) (data : Json) : List (String × Json) :=
  [("app_id", .string appId), ("bridged_at", .number (.ofInt64 bridgedAt)), ("data", data),
    ("id", .string id)]

section

variable {id appId : String} {bridgedAt : Int64} {data : Json} {ms : List (String × Json)}

theorem nodup_of_perm (perm : ms.Perm (eventMembers id appId bridgedAt data)) :
    (ms.map (·.1)).Nodup := by
  have keys : (ms.map (·.1)).Perm ["app_id", "bridged_at", "data", "id"] := perm.map (·.1)
  exact keys.nodup_iff.mpr (by decide)

theorem lookup_of_perm (perm : ms.Perm (eventMembers id appId bridgedAt data)) {key : String}
    {v : Json} (h : (key, v) ∈ eventMembers id appId bridgedAt data) : ms.lookup key = some v :=
  Dictionary.lookup_of_mem (nodup_of_perm perm) (perm.mem_iff.mpr h)

theorem skips_of_perm (perm : ms.Perm (eventMembers id appId bridgedAt data))
    (legible : Legible data) : ∀ m ∈ ms, Reads Reader.skipped m.2.chars () := by
  intro m hm
  have hmem := perm.mem_iff.mp hm
  simp only [eventMembers, List.mem_cons, List.not_mem_nil, or_false] at hmem
  rcases hmem with rfl | rfl | rfl | rfl
  · exact reads_skipped (.string appId)
  · exact reads_skipped (.ofInt64 bridgedAt)
  · exact reads_skipped legible
  · exact reads_skipped (.string id)

/-- An event is read if and only if its details are, wherever they stand in the payload. -/
theorem toOption_ofPayload (perm : ms.Perm (eventMembers id appId bridgedAt data))
    (legible : Legible data) {d? : Option HangupData}
    (decides : Decides (HangupData.read 126) data.chars d?) :
    (Hangup.ofPayload (encodeChars (object ms).chars)).toOption =
      d?.map fun d => { id, appId, bridgedAt, data := d } := by
  have distinct : (Hangup.record.fields.map (·.name)).Nodup := by decide
  have skips := skips_of_perm perm legible
  have hid : ms.lookup "id" = some (.string id) := lookup_of_perm perm (by simp [eventMembers])
  have happ : ms.lookup "app_id" = some (.string appId) :=
    lookup_of_perm perm (by simp [eventMembers])
  have hbridged : ms.lookup "bridged_at" = some (.number (.ofInt64 bridgedAt)) :=
    lookup_of_perm perm (by simp [eventMembers])
  have hdata : ms.lookup "data" = some data := lookup_of_perm perm (by simp [eventMembers])
  refine toOption_whole Hangup.record.read ?_
  cases d? with
  | some d =>
    have hold : Slots.Hold 126 ms Hangup.record.fields
        (some id, some appId, some bridgedAt, some d, ()) :=
      ⟨Field.holds_some (f := .text "id") hid (Reader.reads_text 126 id),
        Field.holds_some (f := .textOr "app_id" "") happ (Reader.reads_text 126 appId),
        Field.holds_some (f := .integerOr "bridged_at" 0) hbridged
          (Reader.reads_integer 126 bridgedAt),
        Field.holds_some (f := Hangup.dataField) hdata decides, trivial⟩
    exact Record.reads_object Hangup.record distinct (nodup_of_perm perm) skips hold rfl
  | none =>
    refine Record.refuses_object Hangup.record distinct skips (fun m hm f hf hname => ?_)
      ⟨("data", data), Dictionary.mem_of_lookup hdata, Hangup.dataField, by simp [Hangup.record],
        rfl, decides⟩
    have hvalue {v : Json} (h : ms.lookup f.name = some v) : m.2 = v := by
      have hm' := Dictionary.lookup_of_mem (nodup_of_perm perm) hm
      rw [← hname, h] at hm'
      exact (Option.some.inj hm').symm
    simp only [Hangup.record, List.mem_cons, List.not_mem_nil, or_false] at hf
    rcases hf with rfl | rfl | rfl | rfl
    · rw [hvalue hid]
      exact .inl ⟨id, Reader.reads_text 126 id⟩
    · rw [hvalue happ]
      exact .inl ⟨appId, Reader.reads_text 126 appId⟩
    · rw [hvalue hbridged]
      exact .inl ⟨bridgedAt, Reader.reads_integer 126 bridgedAt⟩
    · rw [hvalue hdata]
      exact .inr decides

end

/-- What the call engine writes about a call that ended as usual is read as it was meant. -/
theorem ofPayload_endedPayload (callId meeting : String) (bridgedAt : Int64) :
    Hangup.ofPayload (encode (endedPayload callId meeting bridgedAt).text) =
      .ok { id := callId, appId := "call-engine", bridgedAt,
            data := { cause := some "NORMAL_CLEARING", meetingId := some meeting } } := by
  have legible : Legible (endedData meeting) := .of_texts (by simp)
  have hdata := decides_text 126 (by simp) legible
  have members : List.Perm _ (eventMembers callId "call-engine" bridgedAt
    (.string (endedData meeting).text)) := .refl _
  have hevent := toOption_ofPayload members (.string _) hdata
  rw [text, encode, String.toList_ofList]
  change (Hangup.ofPayload (encodeChars (endedPayload callId meeting bridgedAt).chars)).toOption =
    some _ at hevent
  cases hread : Hangup.ofPayload (encodeChars (endedPayload callId meeting bridgedAt).chars) with
  | ok h =>
    rw [hread] at hevent
    exact congrArg Except.ok (Option.some.inj hevent)
  | error failure =>
    rw [hread] at hevent
    cases hevent

end Rendezvous.Call
