import Rendezvous.Proofs.Text.Base64Url
import Rendezvous.Proofs.Text.Percent

namespace Rendezvous.Text

/-- Whether a character stands for itself wherever it is in a URL. -/
def isUrlSafe (c : Char) : Bool := c.isAlphanum || c == '-' || c == '_'

def UrlSafe (s : String) : Prop := ∀ c ∈ s.toList, isUrlSafe c

theorem toNat_lt_of_isUrlSafe {c : Char} (h : isUrlSafe c) : c.toNat < 0x80 := by
  have hchar : isUrlSafe c = ((((decide (65 ≤ c.val ∧ c.val ≤ 90) ||
      decide (97 ≤ c.val) && decide (c.val ≤ 122)) || decide (48 ≤ c.val) && decide (c.val ≤ 57)) ||
      c == '-') || c == '_') := rfl
  simp only [hchar, Bool.or_eq_true, Bool.and_eq_true, decide_eq_true_eq, beq_iff_eq,
    UInt32.le_iff_toNat_le] at h
  rcases h with (((⟨_, h⟩ | ⟨_, h⟩) | ⟨_, h⟩) | rfl) | rfl
  · exact Nat.lt_of_le_of_lt h (by decide)
  · exact Nat.lt_of_le_of_lt h (by decide)
  · exact Nat.lt_of_le_of_lt h (by decide)
  · decide
  · decide

theorem UrlSafe.not_mem {s : String} (h : UrlSafe s) {c : Char} (foreign : isUrlSafe c = false) :
    c ∉ s.toList := by
  intro hc
  rw [h c hc] at foreign
  cases foreign

theorem Base64Url.urlSafe_encode (bs : List UInt8) : UrlSafe (encode bs) := by
  have table : ∀ s < 64, isUrlSafe (symbol s) := by decide +kernel
  intro c hc
  rw [encode, String.toList_ofList] at hc
  obtain ⟨s, hs, rfl⟩ := List.mem_map.mp hc
  exact table s (lt_of_mem_toSextets hs)

namespace Percent

/-- A percent sign is written in UTF-8 only for a percent sign. -/
theorem decode_encode_of_urlSafe {s : String} (h : UrlSafe s) :
    decode (Utf8.encode s) = Utf8.encode s := by
  refine decode_of_not_mem fun hmem => ?_
  obtain ⟨c, hc, hb⟩ := List.mem_flatMap.mp hmem
  have hlt := toNat_lt_of_isUrlSafe (h c hc)
  rw [Utf8.encodeChar, if_pos hlt, List.mem_singleton] at hb
  have hnat : c.toNat = '%'.toNat := by
    have := congrArg UInt8.toNat hb
    rw [Utf8.toNat_ofNat_of_lt (by omega)] at this
    exact this.symm
  obtain rfl : c = '%' := Char.toNat_inj.mp hnat
  exact h.not_mem (by decide) hc

end Percent

end Rendezvous.Text
