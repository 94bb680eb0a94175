import Rendezvous.Proofs.Call.Event
import Rendezvous.Proofs.Json.Reals

namespace Rendezvous

namespace Json

open Text.Utf8

def Finite (v : Json) : Prop := ∀ x, Part (number (.real x)) v → x.magnitude.IsDouble

theorem Finite.legible {v : Json} (h : Finite v) : Legible v := by
  intro n part
  cases n with
  | natural n => exact ⟨_, Number.readAs_natural n⟩
  | negative i => exact Number.exists_readAs_negative i
  | real x => exact Number.exists_readAs_real (h x part)

end Json

namespace Call

open Json Text.Utf8

variable {id appId : String} {bridgedAt : Int64} {ms payload : List (String × Json)}

def event? (id appId : String) (bridgedAt : Int64) (ms : List (String × Json)) : Option Hangup :=
  (details? ms).map fun data => { id, appId, bridgedAt, data }

theorem toOption_of_object (nodup : (ms.map (·.1)).Nodup) (finite : Finite (object ms))
    (within : Within 126 (object ms)) (plain : Plain (object ms))
    (perm : payload.Perm (eventMembers id appId bridgedAt (object ms))) :
    (Hangup.ofPayload (encode (object payload).text)).toOption = event? id appId bridgedAt ms := by
  rw [text, encode, String.toList_ofList]
  exact toOption_ofPayload perm finite.legible (decides_object nodup finite.legible within plain)

theorem toOption_of_text (nodup : (ms.map (·.1)).Nodup) (finite : Finite (object ms))
    (perm : payload.Perm (eventMembers id appId bridgedAt (.string (object ms).text))) :
    (Hangup.ofPayload (encode (object payload).text)).toOption = event? id appId bridgedAt ms := by
  rw [text, encode, String.toList_ofList]
  exact toOption_ofPayload perm (.string _) (decides_text 126 nodup finite.legible)

theorem toOption_of_raw (nodup : (ms.map (·.1)).Nodup) (finite : Finite (object ms))
    (within : Within maxLevels (object ms)) (plain : Plain (object ms))
    (perm : payload.Perm (eventMembers id appId bridgedAt
      (object [(Reader.rawKey, .string (object ms).text)]))) :
    (Hangup.ofPayload (encode (object payload).text)).toOption = event? id appId bridgedAt ms := by
  have legible : Legible (object [(Reader.rawKey, .string (object ms).text)]) :=
    .of_texts (by simp)
  rw [text, encode, String.toList_ofList]
  exact toOption_ofPayload perm legible (decides_raw 125 nodup finite.legible within plain)

/-- Details in a text are those of the object in it. Details in an object are so as well, whatever
other members it has, unless it or an object in it begins with the key by which an object stands for
a text: with that key alone it has the details of the object in that text. -/
theorem encodings_compared (id appId : String) (bridgedAt : Int64) {ms : List (String × Json)}
    (nodup : (ms.map (·.1)).Nodup) (finite : Finite (object ms))
    {asObject asText : List (String × Json)}
    (hobject : asObject.Perm (eventMembers id appId bridgedAt (object ms)))
    (htext : asText.Perm (eventMembers id appId bridgedAt (.string (object ms).text))) :
    (Hangup.ofPayload (encode (object asText).text)).toOption = event? id appId bridgedAt ms ∧
    (Within 126 (object ms) → Plain (object ms) →
      (Hangup.ofPayload (encode (object asObject).text)).toOption =
        event? id appId bridgedAt ms) ∧
    (∀ ns, ms = [(Reader.rawKey, .string (object ns).text)] → (ns.map (·.1)).Nodup →
      Finite (object ns) → Within maxLevels (object ns) → Plain (object ns) →
      (Hangup.ofPayload (encode (object asObject).text)).toOption =
        event? id appId bridgedAt ns) := by
  refine ⟨toOption_of_text nodup finite htext, fun within plain => ?_, fun ns hms => ?_⟩
  · exact toOption_of_object nodup finite within plain hobject
  · subst hms
    exact fun nodup finite within plain => toOption_of_raw nodup finite within plain hobject

namespace Sample

def rated : List (String × Json) :=
  [("cause", .null), ("meeting_id", .string "m"),
    ("rate", .number (.real ⟨false, 0x18000000000000, -52⟩))]

def caused : List (String × Json) := [("cause", .string "c")]

theorem finite_rated : Finite (object rated) := by
  intro x part
  cases part with
  | member hm part =>
    simp only [rated, List.mem_cons, List.not_mem_nil, or_false] at hm
    rcases hm with rfl | rfl | rfl <;> cases part
    exact ⟨by decide, by decide, by decide, .inl (by decide)⟩

theorem within_rated : Within 126 (object rated) := by
  refine .object fun m hm => ?_
  simp only [rated, List.mem_cons, List.not_mem_nil, or_false] at hm
  rcases hm with rfl | rfl | rfl
  · exact .null
  · exact .string "m"
  · exact .number _

theorem plain_rated : Plain (object rated) := by
  intro ms part
  cases part with
  | whole =>
    rintro m ⟨⟩
    decide
  | member hm part =>
    simp only [rated, List.mem_cons, List.not_mem_nil, or_false] at hm
    rcases hm with rfl | rfl | rfl <;> cases part

theorem finite_single (key s : String) : Finite (object [(key, .string s)]) := by
  intro x part
  rcases part.of_texts (by simp) with he | ⟨_, he⟩ <;> cases he

theorem plain_caused : Plain (object caused) := by
  intro ms part
  rcases part.of_texts (by simp [caused]) with he | ⟨_, he⟩
  · cases he
    rintro m ⟨⟩
    decide
  · cases he

end Sample

open Sample in
/-- Two objects in both forms: the forms agree on the first one, but not on the second one. -/
theorem encodings_agree_and_differ :
    ((Hangup.ofPayload (encode (object (eventMembers "x" "call-engine" 1
        (.string (object rated).text))).text)).toOption =
          some ⟨"x", "call-engine", 1, ⟨none, some "m"⟩⟩ ∧
      (Hangup.ofPayload (encode (object (eventMembers "x" "call-engine" 1
        (object rated))).text)).toOption = some ⟨"x", "call-engine", 1, ⟨none, some "m"⟩⟩) ∧
    ((Hangup.ofPayload (encode (object (eventMembers "x" "call-engine" 0
        (.string (object [(Reader.rawKey, .string (object caused).text)]).text))).text)).toOption =
          some ⟨"x", "call-engine", 0, ⟨none, none⟩⟩ ∧
      (Hangup.ofPayload (encode (object (eventMembers "x" "call-engine" 0
        (object [(Reader.rawKey, .string (object caused).text)]))).text)).toOption =
          some ⟨"x", "call-engine", 0, ⟨some "c", none⟩⟩) := by
  obtain ⟨htext, hobject, -⟩ := encodings_compared "x" "call-engine" 1 (by decide) finite_rated
    (.refl _) (.refl _)
  obtain ⟨htext', -, hraw⟩ := encodings_compared "x" "call-engine" 0 (by decide)
    (finite_single Reader.rawKey (object caused).text) (.refl _) (.refl _)
  refine ⟨⟨htext, hobject within_rated plain_rated⟩, htext', hraw caused rfl (by decide)
    (finite_single _ _) ?_ plain_caused⟩
  refine .object fun m hm => ?_
  rw [List.mem_singleton.mp hm]
  exact .string "c"

end Call

end Rendezvous
