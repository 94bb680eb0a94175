import Mathlib.Data.List.Infix
import Rendezvous.ShortCode.Base62

namespace Rendezvous.ShortCode.Base62

open Numeral

def alphabet : List Char :=
  "0123456789abcdefghijklmnopqrstuvwxyzABCDEFGHIJKLMNOPQRSTUVWXYZ".toList

/-- The number that characters stand for in base 62, each for its place in the alphabet. -/
def value (cs : List Char) : Nat := Positional.value 62 (cs.map alphabet.idxOf)

/-- Whether what has been read ends in a foreign character, or no longer fits in a word. -/
def Stops (cs : List Char) : Prop :=
  (∃ c ∈ cs.getLast?, c ∉ alphabet) ∨ maxWord.toNat < value cs

def faultAt (c : Char) : Fault := if c ∈ alphabet then .overflow else .invalidCharacter c

theorem digit?_table : ∀ n < 128, digit? (Char.ofNat n) =
    if Char.ofNat n ∈ alphabet then some (.ofNat (alphabet.idxOf (Char.ofNat n))) else none := by
  decide +kernel

theorem toNat_lt_of_mem_alphabet {c : Char} (h : c ∈ alphabet) : c.toNat < 128 := by
  have small : alphabet.all (·.toNat < 128) = true := by decide +kernel
  exact of_decide_eq_true (List.all_eq_true.mp small c h)

theorem idxOf_lt {c : Char} (h : c ∈ alphabet) : alphabet.idxOf c < 62 :=
  List.idxOf_lt_length_of_mem h

theorem digit?_eq (c : Char) :
    digit? c = if c ∈ alphabet then some (.ofNat (alphabet.idxOf c)) else none := by
  by_cases h : c.toNat < 128
  · have table := digit?_table c.toNat h
    rwa [Char.ofNat_toNat] at table
  · have foreign : c ∉ alphabet := fun hc => h (toNat_lt_of_mem_alphabet hc)
    rw [if_neg foreign, digit?]
    repeat rw [if_neg (by omega)]

theorem toNat_digit {c : Char} (h : c ∈ alphabet) :
    (UInt64.ofNat (alphabet.idxOf c)).toNat = alphabet.idxOf c :=
  UInt64.toNat_ofNat_of_lt' ((idxOf_lt h).trans (by decide))

theorem toNat_digit_lt {c : Char} (h : c ∈ alphabet) :
    (UInt64.ofNat (alphabet.idxOf c)).toNat < 62 :=
  (toNat_digit h).trans_lt (idxOf_lt h)

/-- The bound that is tested before a step is exact: neither does a step that fits fail the test nor
does one that wraps pass it. -/
theorem lt_iff_exceeds {acc d : UInt64} (hd : d.toNat < 62) :
    (maxWord - d) / 62 < acc ↔ maxWord.toNat < acc.toNat * 62 + d.toNat := by
  have hmax : maxWord.toNat = 0xffffffffffffffff := rfl
  have hsub : (maxWord - d).toNat = maxWord.toNat - d.toNat :=
    UInt64.toNat_sub_of_le _ _ (UInt64.le_iff_toNat_le.mpr (by omega))
  rw [UInt64.lt_iff_toNat_lt, UInt64.toNat_div, hsub, show (62 : UInt64).toNat = 62 from rfl,
    Nat.div_lt_iff_lt_mul (by decide)]
  omega

theorem toNat_step {acc d : UInt64} (h : acc.toNat * 62 + d.toNat ≤ maxWord.toNat) :
    (acc * 62 + d).toNat = acc.toNat * 62 + d.toNat := by
  have hmax : maxWord.toNat = 0xffffffffffffffff := rfl
  rw [UInt64.toNat_add, UInt64.toNat_mul, show (62 : UInt64).toNat = 62 from rfl]
  omega

theorem value_concat (cs : List Char) (c : Char) :
    value (cs ++ [c]) = value cs * 62 + alphabet.idxOf c := by
  rw [value, List.map_append]
  exact Positional.value_append 62 _ _

theorem decodeFrom_of_foreign {c : Char} (h : c ∉ alphabet) (acc : UInt64) (cs : List Char) :
    decodeFrom acc (c :: cs) = .error (.invalidCharacter c) := by
  rw [decodeFrom, digit?_eq, if_neg h]

theorem decodeFrom_of_mem {c : Char} (h : c ∈ alphabet) (acc : UInt64) (cs : List Char) :
    decodeFrom acc (c :: cs) =
      if maxWord.toNat < acc.toNat * 62 + alphabet.idxOf c then .error .overflow
      else decodeFrom (acc * 62 + .ofNat (alphabet.idxOf c)) cs := by
  rw [decodeFrom, digit?_eq, if_pos h]
  simp only [lt_iff_exceeds (toNat_digit_lt h), toNat_digit h]

theorem decodeFrom_append {acc w : UInt64} {cs : List Char} (h : decodeFrom acc cs = .ok w)
    (ds : List Char) : decodeFrom acc (cs ++ ds) = decodeFrom w ds := by
  induction cs generalizing acc with
  | nil =>
    cases h
    rfl
  | cons c cs ih =>
    by_cases hc : c ∈ alphabet
    · rw [decodeFrom_of_mem hc] at h
      rw [List.cons_append, decodeFrom_of_mem hc]
      split at h
      · cases h
      · next fits =>
        rw [if_neg fits]
        exact ih h
    · rw [decodeFrom_of_foreign hc] at h
      cases h

inductive Ending (cs : List Char) : Except Fault UInt64 → Prop where
  | read {w : UInt64} (clear : ∀ p, p <+: cs → ¬Stops p) (h : w.toNat = value cs) :
      Ending cs (.ok w)
  | stopped {p : List Char} {c : Char} (start : p ++ [c] <+: cs)
      (clear : ∀ q, q <+: p → ¬Stops q) (stops : Stops (p ++ [c])) :
      Ending cs (.error (faultAt c))

theorem stops_concat_iff {cs : List Char} {c : Char} :
    Stops (cs ++ [c]) ↔ c ∉ alphabet ∨ maxWord.toNat < value cs * 62 + alphabet.idxOf c := by
  simp [Stops, value_concat]

theorem not_stops_nil : ¬Stops [] := by
  rintro (⟨c, hc, -⟩ | h)
  · cases hc
  · exact absurd h (by decide)

/-- The loop invariant: nothing read so far stops the reading, and the word is its value. -/
theorem ending_decodeFrom {acc : UInt64} {p : List Char} (clear : ∀ q, q <+: p → ¬Stops q)
    (h : acc.toNat = value p) (cs : List Char) : Ending (p ++ cs) (decodeFrom acc cs) := by
  induction cs generalizing acc p with
  | nil =>
    rw [List.append_nil]
    exact .read clear h
  | cons c cs ih =>
    have start : p ++ [c] <+: p ++ c :: cs := ⟨cs, by simp⟩
    by_cases hc : c ∈ alphabet
    · rw [decodeFrom_of_mem hc, h]
      split
      · next exceeds =>
        have hfault : faultAt c = .overflow := if_pos hc
        exact hfault ▸ .stopped start clear (stops_concat_iff.mpr (.inr exceeds))
      · next fits =>
        have next_clear : ∀ q, q <+: p ++ [c] → ¬Stops q := by
          intro q hq
          rcases List.prefix_concat_iff.mp hq with rfl | hq
          · rw [stops_concat_iff, not_or, not_not]
            exact ⟨hc, fits⟩
          · exact clear q hq
        have step : (acc * 62 + .ofNat (alphabet.idxOf c)).toNat = value (p ++ [c]) := by
          rw [toNat_step, toNat_digit hc, h, value_concat]
          rw [toNat_digit hc, h]
          exact Nat.not_lt.mp fits
        simpa using ih next_clear step
    · rw [decodeFrom_of_foreign hc]
      have hfault : faultAt c = .invalidCharacter c := if_neg hc
      exact hfault ▸ .stopped start clear (stops_concat_iff.mpr (.inl hc))

theorem ending_decode (s : String) : Ending s.toList (decode s) :=
  ending_decodeFrom (fun _ hq => List.prefix_nil.mp hq ▸ not_stops_nil) rfl s.toList

theorem value_mono {p cs : List Char} (h : p <+: cs) : value p ≤ value cs := by
  obtain ⟨ds, rfl⟩ := h
  induction ds using List.reverseRecOn with
  | nil => rw [List.append_nil]
  | append_singleton ds d ih =>
    rw [← List.append_assoc, value_concat]
    omega

theorem clear_iff {cs : List Char} : (∀ p, p <+: cs → ¬Stops p) ↔
    (∀ c ∈ cs, c ∈ alphabet) ∧ value cs ≤ maxWord.toNat := by
  constructor
  · intro clear
    refine ⟨fun c hc => ?_, ?_⟩
    · obtain ⟨p, ds, rfl⟩ := List.append_of_mem hc
      by_contra foreign
      exact clear (p ++ [c]) ⟨ds, by simp⟩ (stops_concat_iff.mpr (.inl foreign))
    · by_contra large
      exact clear cs List.prefix_rfl (.inr (Nat.not_le.mp large))
  · rintro ⟨digits, fits⟩ p hp (⟨c, hc, foreign⟩ | large)
    · exact foreign (digits c (hp.subset (List.mem_of_getLast? hc)))
    · exact Nat.not_lt.mpr ((value_mono hp).trans fits) large

theorem eq_of_shortest {cs p q : List Char} {c d : Char} (hp : p ++ [c] <+: cs)
    (hq : q ++ [d] <+: cs) (clear : ∀ r, r <+: p → ¬Stops r) (stops : Stops (p ++ [c]))
    (clear' : ∀ r, r <+: q → ¬Stops r) (stops' : Stops (q ++ [d])) : c = d := by
  have short : ¬p ++ [c] <+: q := fun h => clear' _ h stops
  have short' : ¬q ++ [d] <+: p := fun h => clear _ h stops'
  rcases List.prefix_or_prefix_of_prefix hp hq with h | h
  · rcases List.prefix_concat_iff.mp h with h | h
    · exact List.singleton_inj.mp (List.append_inj_right' h rfl)
    · exact absurd h short
  · rcases List.prefix_concat_iff.mp h with h | h
    · exact (List.singleton_inj.mp (List.append_inj_right' h rfl)).symm
    · exact absurd h short'

/-- A text is read as a word exactly if it has digits only and the word is their value, which fits.
Any other text fails at the end of its shortest prefix that ends in a foreign character, which is
then told, or whose value does not fit. In each step that is made the next digit is appended to the
value so far without loss. -/
theorem decode_exact (s : String) :
    (∀ w, decode s = .ok w ↔ (∀ c ∈ s.toList, c ∈ alphabet) ∧ value s.toList = w.toNat ∧
      value s.toList ≤ maxWord.toNat) ∧
    (∀ fault, decode s = .error fault ↔ ∃ p c, p ++ [c] <+: s.toList ∧ Stops (p ++ [c]) ∧
      (∀ q, q <+: p → ¬Stops q) ∧
      fault = if c ∈ alphabet then .overflow else .invalidCharacter c) ∧
    ∀ p c rest acc d, s.toList = p ++ c :: rest → decodeFrom 0 p = .ok acc → digit? c = some d →
      ¬(maxWord - d) / 62 < acc →
      decode s = decodeFrom (acc * 62 + d) rest ∧ acc.toNat * 62 + d.toNat < UInt64.size := by
  have ending := ending_decode s
  refine ⟨fun w => ⟨fun hw => ?_, ?_⟩, fun fault => ⟨fun hf => ?_, ?_⟩, ?_⟩
  · rw [hw] at ending
    cases ending with
    | read clear h =>
      obtain ⟨digits, fits⟩ := clear_iff.mp clear
      exact ⟨digits, h.symm, fits⟩
  · rintro ⟨digits, hvalue, fits⟩
    generalize decode s = r at ending
    cases ending with
    | read clear h => rw [UInt64.toNat_inj.mp (h.trans hvalue)]
    | stopped start clear stops => exact absurd stops (clear_iff.mpr ⟨digits, fits⟩ _ start)
  · rw [hf] at ending
    cases ending with
    | stopped start clear stops => exact ⟨_, _, start, stops, clear, rfl⟩
  · rintro ⟨p, c, start, stops, clear, rfl⟩
    generalize decode s = r at ending
    cases ending with
    | read clear h => exact absurd stops (clear _ start)
    | stopped start' clear' stops' =>
      rw [eq_of_shortest start' start clear' stops' clear stops]
      rfl
  · intro p c rest acc d hs hp hd hguard
    have hc : c ∈ alphabet := by
      by_contra foreign
      rw [digit?_eq, if_neg foreign] at hd
      cases hd
    obtain rfl : .ofNat (alphabet.idxOf c) = d := by
      rw [digit?_eq, if_pos hc] at hd
      exact Option.some.inj hd
    rw [lt_iff_exceeds (toNat_digit_lt hc)] at hguard
    refine ⟨?_, ?_⟩
    · rw [toNat_digit hc] at hguard
      rw [decode, hs, decodeFrom_append hp, decodeFrom_of_mem hc, if_neg hguard]
    · exact (Nat.not_lt.mp hguard).trans_lt (by decide)

/-- The largest value that fits, and the next one. -/
example : decode "lYGhA16ahyf" = .ok maxWord ∧ decode "lYGhA16ahyg" = .error .overflow := by
  decide +kernel

end Rendezvous.ShortCode.Base62
