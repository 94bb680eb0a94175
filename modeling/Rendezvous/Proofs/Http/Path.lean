import Mathlib.Data.List.TakeDrop
import Rendezvous.Http.Endpoint
import Rendezvous.Http.Route
import Rendezvous.Proofs.Text.Split

namespace Rendezvous.Http

namespace Route

theorem eq_intercalate {path : String} {parts : List String}
    (h : (segments path).map String.ofList = parts) :
    path.toList = ['/'].intercalate (parts.map String.toList) ∧
      ∀ part ∈ parts, '/' ∉ part.toList := by
  subst h
  have hsegments : ((segments path).map String.ofList).map String.toList = segments path := by
    simp
  rw [hsegments]
  refine ⟨(List.intercalate_splitOn '/').symm, ?_⟩
  intro part hpart
  obtain ⟨cs, hcs, rfl⟩ := List.mem_map.mp hpart
  rw [String.toList_ofList]
  exact Text.Split.not_mem_of_mem_splitOn hcs

theorem toList_of_meeting {path segment : String} (h : ofPath? path = some (.meeting segment)) :
    path.toList = "/v1/meetings/".toList ++ segment.toList ∧ '/' ∉ segment.toList ∧
      segment ≠ "" := by
  unfold ofPath? at h
  split at h
  case h_4 token hparts =>
    obtain ⟨hpath, hslash⟩ := eq_intercalate hparts
    by_cases hempty : token = ""
    · rw [if_pos hempty] at h
      cases h
    · rw [if_neg hempty] at h
      cases h
      exact ⟨hpath.trans (by simp [List.intercalate]), hslash _ (by simp), hempty⟩
  all_goals cases h

theorem ofPath?_eq_meeting {path segment : String}
    (h : path.toList = "/v1/meetings/".toList ++ segment.toList) (hslash : '/' ∉ segment.toList)
    (hempty : segment ≠ "") : ofPath? path = some (.meeting segment) := by
  have hpath : path.toList =
      ['/'].intercalate ["".toList, "v1".toList, "meetings".toList, segment.toList] :=
    h.trans (by simp [List.intercalate])
  have hparts : segments path = ["".toList, "v1".toList, "meetings".toList, segment.toList] := by
    rw [segments, hpath]
    refine List.splitOn_intercalate '/' ?_ (by simp)
    simpa using hslash
  rw [ofPath?, hparts]
  simp [hempty]

theorem ofPath?_eq_satisfaction {path segment : String}
    (h : path.toList = "/v1/meetings/".toList ++ (segment.toList ++ "/satisfaction".toList))
    (hslash : '/' ∉ segment.toList) : ofPath? path = some (.satisfaction segment) := by
  let parts :=
    ["".toList, "v1".toList, "meetings".toList, segment.toList, "satisfaction".toList]
  have hpath : path.toList = ['/'].intercalate parts := h.trans (by simp [parts, List.intercalate])
  have hparts : segments path = parts := by
    rw [segments, hpath]
    refine List.splitOn_intercalate '/' ?_ (by simp [parts])
    simpa [parts] using hslash
  rw [ofPath?, hparts]
  simp [parts]

theorem toList_of_satisfaction {path segment : String}
    (h : ofPath? path = some (.satisfaction segment)) :
    path.toList = "/v1/meetings/".toList ++ (segment.toList ++ "/satisfaction".toList) ∧
      '/' ∉ segment.toList := by
  unfold ofPath? at h
  split at h
  case h_5 token hparts =>
    obtain ⟨hpath, hslash⟩ := eq_intercalate hparts
    cases h
    exact ⟨hpath.trans (by simp [List.intercalate]), hslash _ (by simp)⟩
  case h_4 token hparts => split at h <;> cases h
  all_goals cases h

end Route

namespace Endpoint

theorem ofPath_append {path : String} {rest : List Char}
    (h : path.toList = "/v1/meetings/".toList ++ rest) : ofPath path = ofToken rest := by
  have hne {label : String} (hlabel : "/v1/meetings/".toList.isPrefixOf label.toList = false) :
      path ≠ label := by
    rintro rfl
    rw [h] at hlabel
    simp at hlabel
  rw [ofPath, if_neg (hne (by decide)), if_neg (hne (by decide)), if_neg (hne (by decide)), h]
  simp [after?]

theorem span_append {segment rest : List Char} (h : '/' ∉ segment)
    (hrest : rest = [] ∨ rest.head? = some '/') :
    (segment ++ rest).span (· != '/') = (segment, rest) := by
  have hall : ∀ c ∈ segment, (c != '/') = true := by
    intro c hc
    have : c ≠ '/' := fun he => h (he ▸ hc)
    simpa using this
  rw [List.span_eq_takeWhile_dropWhile, List.takeWhile_append_of_pos hall,
    List.dropWhile_append_of_pos hall]
  rcases hrest with rfl | hrest
  · simp
  · obtain ⟨cs, rfl⟩ := List.head?_eq_some_iff.mp hrest
    simp

theorem ofPath_of_meeting {path segment : String}
    (h : Route.ofPath? path = some (.meeting segment)) :
    ofPath path = meeting := by
  obtain ⟨hpath, hslash, hempty⟩ := Route.toList_of_meeting h
  rw [ofPath_append hpath, ofToken]
  have hspan := span_append hslash (.inl rfl)
  rw [List.append_nil] at hspan
  rw [hspan]
  cases hs : segment.toList with
  | nil => exact absurd (String.toList_inj.mp hs) hempty
  | cons c cs => rfl

/-- A path for the survey of a token is counted as that, unless the token is empty. -/
theorem ofPath_of_satisfaction {path segment : String}
    (h : Route.ofPath? path = some (.satisfaction segment)) :
    ofPath path = if segment = "" then other else satisfaction := by
  obtain ⟨hpath, hslash⟩ := Route.toList_of_satisfaction h
  rw [ofPath_append hpath, ofToken, span_append hslash (.inr rfl)]
  by_cases hempty : segment = ""
  · rw [if_pos hempty, hempty]
    rfl
  · rw [if_neg hempty]
    cases hs : segment.toList with
    | nil => exact absurd (String.toList_inj.mp hs) hempty
    | cons c cs => rfl

end Endpoint

end Rendezvous.Http
