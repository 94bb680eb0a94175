import Rendezvous.Meeting.Draft
import Rendezvous.Meeting.Wire
import Rendezvous.Proofs.Json.Spelling
import Rendezvous.Service.Health

namespace Rendezvous

open Json Text.Utf8

def Json.Record.ReadsBack {α : Type} (r : Record α) : Prop :=
  ∀ a, r.decode (r.encode a) = .ok a ∧
    ∀ ms, r.Spells a ms → r.decode (encodeChars (Json.object ms).chars) = .ok a

theorem Json.Record.Lawful.readsBack {α : Type} {r : Record α} (lawful : r.Lawful) : r.ReadsBack :=
  fun a => ⟨lawful.decode_encode a, fun _ => lawful.decode_of_spells⟩

theorem Meeting.lawful_record : Meeting.record.Lawful where
  distinct := by decide
  fields := by
    simp [Meeting.record, Field.lawful_text, Field.lawful_integer, Field.lawful_texts,
      Field.lawful_optionalText, Field.lawful_boolean]
  inverse _ := rfl

theorem Meeting.View.lawful_record : Meeting.View.record.Lawful where
  distinct := by decide
  fields := by
    simp [Meeting.View.record, Field.lawful_text, Field.lawful_integer, Field.lawful_texts,
      Field.lawful_presentText, Field.lawful_boolean]
  inverse _ := rfl

theorem ChatLink.lawful_record : ChatLink.record.Lawful where
  distinct := by decide
  fields := by simp [ChatLink.record, Field.lawful_text, Field.lawful_integer]
  inverse _ := rfl

theorem Meeting.Ticket.lawful_record : Meeting.Ticket.record.Lawful where
  distinct := by decide
  fields := by simp [Meeting.Ticket.record, Field.lawful_text]
  inverse _ := rfl

theorem Health.lawful_record : Health.record.Lawful where
  distinct := by decide
  fields := by simp [Health.record, Field.lawful_text, Field.lawful_presentText]
  inverse _ := rfl

/-- Each value is read back from its JSON form, in whatever order the members of the form and the
entries of its dictionary stand, and whether what it lacks is left out or null. Of itself a view or
a state of health leaves out exactly what it lacks, and a meeting writes null for it. -/
theorem wire_forms_read_back :
    Meeting.record.ReadsBack ∧ Meeting.View.record.ReadsBack ∧ ChatLink.record.ReadsBack ∧
    Meeting.Ticket.record.ReadsBack ∧ Health.record.ReadsBack ∧
    (∀ v : Meeting.View, ∃ ms, Meeting.View.record.encode v = encodeChars (Json.object ms).chars ∧
      ms.map (·.1) = (Meeting.View.record.fields.map (·.name)).filter fun key =>
        ¬(key = "call_id" ∧ v.callId = none) ∧ ¬(key = "satisfaction" ∧ v.satisfaction = none)) ∧
    (∀ h : Health, ∃ ms, Health.record.encode h = encodeChars (Json.object ms).chars ∧
      ms.map (·.1) = (Health.record.fields.map (·.name)).filter fun key =>
        ¬(key = "store" ∧ h.store = none)) ∧
    ∀ m : Meeting, ∃ ms, Meeting.record.encode m = encodeChars (Json.object ms).chars ∧
      ms.map (·.1) = Meeting.record.fields.map (·.name) ∧
      (ms.lookup "call_id" = some .null ↔ m.callId = none) ∧
      (ms.lookup "satisfaction" = some .null ↔ m.satisfaction = none) := by
  refine ⟨Meeting.lawful_record.readsBack, Meeting.View.lawful_record.readsBack,
    ChatLink.lawful_record.readsBack, Meeting.Ticket.lawful_record.readsBack,
    Health.lawful_record.readsBack, fun v => ⟨_, rfl, ?_⟩, fun h => ⟨_, rfl, ?_⟩,
    fun m => ⟨_, rfl, rfl, ?_, ?_⟩⟩
  -- each presence of the optional fields by itself
  · cases hcall : v.callId <;> cases hanswer : v.satisfaction <;>
      simp [Meeting.View.record, Values.members, hcall, hanswer, Field.presentText, Field.text,
        Field.integer, Field.texts, Field.boolean]
  · cases hstore : h.store <;>
      simp [Health.record, Values.members, hstore, Field.presentText, Field.text]
  · change some (Field.orNull m.callId) = some .null ↔ _
    rw [Option.some.injEq, Field.orNull_eq_null_iff]
  · change some (Field.orNull m.satisfaction) = some .null ↔ _
    rw [Option.some.injEq, Field.orNull_eq_null_iff]

end Rendezvous
