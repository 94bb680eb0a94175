import Mathlib.Data.List.TakeWhile
import Rendezvous.Proofs.Numeral.Digits
import Rendezvous.Proofs.ShortCode.Decoding
import Rendezvous.ShortCode.Basic

namespace Rendezvous.ShortCode

open Numeral

namespace Permutation

theorem unpermute_permute (w : UInt64) : unpermute (permute w) = w := by
  rw [unpermute, permute, ofWord_toWord, foldr_unround_foldl_round, toWord_ofWord]

theorem permute_unpermute (w : UInt64) : permute (unpermute w) = w := by
  rw [permute, unpermute, ofWord_toWord, foldl_round_foldr_unround, toWord_ofWord]

end Permutation

namespace Base62

/-- A writing without the zeros in front of it; of nothing but zeros one stays. -/
def shortest (s : String) : String :=
  let rest := s.toList.dropWhile (· == '0')
  if rest = [] then "0" else String.ofList rest

theorem digitChar_table : ∀ d < 62, digitChar d ∈ alphabet ∧ alphabet.idxOf (digitChar d) = d := by
  decide +kernel

theorem digitChar_idxOf {c : Char} (h : c ∈ alphabet) : digitChar (alphabet.idxOf c) = c := by
  have table : alphabet.all fun c => digitChar (alphabet.idxOf c) == c := by decide +kernel
  exact beq_iff_eq.mp (List.all_eq_true.mp table c h)

theorem digit_lt_of_mem {w : UInt64} {d : Nat} (h : d ∈ Positional.digits 62 w.toNat) : d < 62 :=
  Positional.lt_of_mem_digits (by decide) h

theorem toList_encode (w : UInt64) :
    (encode w).toList = (Positional.digits 62 w.toNat).map digitChar :=
  String.toList_ofList

theorem mem_alphabet_of_mem_encode {w : UInt64} {c : Char} (h : c ∈ (encode w).toList) :
    c ∈ alphabet := by
  rw [toList_encode] at h
  obtain ⟨d, hd, rfl⟩ := List.mem_map.mp h
  exact (digitChar_table d (digit_lt_of_mem hd)).1

theorem value_encode (w : UInt64) : value (encode w).toList = w.toNat := by
  have hdigits : (encode w).toList.map alphabet.idxOf = Positional.digits 62 w.toNat := by
    rw [toList_encode, List.map_map]
    refine (List.map_congr_left fun d hd => ?_).trans (List.map_id _)
    exact (digitChar_table d (digit_lt_of_mem hd)).2
  rw [value, hdigits, Positional.value_digits]

theorem decode_eq_ok_iff {s : String} {w : UInt64} :
    decode s = .ok w ↔ (∀ c ∈ s.toList, c ∈ alphabet) ∧ value s.toList = w.toNat := by
  have ending := ending_decode s
  constructor
  · intro h
    rw [h] at ending
    cases ending with
    | read clear hvalue => exact ⟨(clear_iff.mp clear).1, hvalue.symm⟩
  · rintro ⟨digits, hvalue⟩
    have fits : value s.toList ≤ maxWord.toNat := hvalue ▸ Nat.le_of_lt_succ w.toNat_lt
    generalize decode s = r at ending
    cases ending with
    | read clear hread => rw [UInt64.toNat_inj.mp (hread.trans hvalue)]
    | stopped start clear stops => exact absurd stops (clear_iff.mpr ⟨digits, fits⟩ _ start)

theorem decode_encode (w : UInt64) : decode (encode w) = .ok w :=
  decode_eq_ok_iff.mpr ⟨fun _ => mem_alphabet_of_mem_encode, value_encode w⟩

theorem value_dropWhile_zero (cs : List Char) : value (cs.dropWhile (· == '0')) = value cs := by
  induction cs with
  | nil => rfl
  | cons c cs ih =>
    by_cases hc : c = '0'
    · subst hc
      have hzero : alphabet.idxOf '0' = 0 := rfl
      rw [List.dropWhile_cons_of_pos rfl, ih, value, value, List.map_cons, hzero,
        Positional.value_zero_cons]
    · rw [List.dropWhile_cons_of_neg (by simpa using hc)]

theorem encode_of_value {c : Char} {cs : List Char} {w : UInt64} (hc : c ≠ '0')
    (digits : ∀ d ∈ c :: cs, d ∈ alphabet) (hvalue : value (c :: cs) = w.toNat) :
    encode w = String.ofList (c :: cs) := by
  have hdigit : alphabet.idxOf c ≠ 0 := by
    intro h
    have hchar := digitChar_idxOf (digits c List.mem_cons_self)
    rw [h] at hchar
    exact hc hchar.symm
  have hbound : ∀ d ∈ (c :: cs).map alphabet.idxOf, d < 62 := by
    intro d hd
    obtain ⟨x, hx, rfl⟩ := List.mem_map.mp hd
    exact idxOf_lt (digits x hx)
  have hown : Positional.digits 62 w.toNat = (c :: cs).map alphabet.idxOf :=
    hvalue ▸ Positional.digits_value hdigit hbound
  rw [encode, hown, List.map_map]
  refine congrArg String.ofList ((List.map_congr_left fun d hd => ?_).trans (List.map_id _))
  exact digitChar_idxOf (digits d hd)

theorem encode_zero : encode 0 = "0" := by
  rw [encode, Positional.digits]
  rfl

theorem decode_eq_ok_iff_shortest {s : String} {w : UInt64} :
    decode s = .ok w ↔ shortest s = encode w := by
  have hsplit : s.toList = s.toList.takeWhile (· == '0') ++ s.toList.dropWhile (· == '0') :=
    List.takeWhile_append_dropWhile.symm
  have hzeros : ∀ c ∈ s.toList.takeWhile (· == '0'), c ∈ alphabet := by
    intro c hc
    have hzero := List.mem_takeWhile_imp hc
    rw [beq_iff_eq.mp hzero]
    decide
  have hall : (∀ c ∈ s.toList, c ∈ alphabet) ↔
      ∀ c ∈ s.toList.dropWhile (· == '0'), c ∈ alphabet := by
    constructor
    · exact fun h c hc => h c (List.dropWhile_subset _ hc)
    · intro h c hc
      rw [hsplit] at hc
      exact (List.mem_append.mp hc).elim (hzeros c) (h c)
  rw [decode_eq_ok_iff, hall, ← value_dropWhile_zero, shortest]
  cases hrest : s.toList.dropWhile (· == '0') with
  | nil =>
    simp only [if_true]
    rw [← encode_zero]
    constructor
    · rintro ⟨-, hvalue⟩
      have hw : w = 0 := UInt64.toNat_inj.mp hvalue.symm
      rw [hw]
    · intro h
      refine ⟨nofun, ?_⟩
      rw [← value_encode w, ← h, value_encode]
      rfl
  | cons c cs =>
    have hc : c ≠ '0' := by
      have hhead := List.head?_dropWhile_not (· == '0') s.toList
      rw [hrest] at hhead
      simpa using hhead
    simp only [reduceCtorEq, if_false]
    constructor
    · rintro ⟨digits, hvalue⟩
      exact (encode_of_value hc digits hvalue).symm
    · intro h
      have hchars : (encode w).toList = c :: cs := by rw [← h, String.toList_ofList]
      refine ⟨fun d hd => ?_, ?_⟩
      · exact mem_alphabet_of_mem_encode (w := w) (hchars ▸ hd)
      · rw [← hchars, value_encode]

theorem length_encode_le (w : UInt64) : (encode w).length ≤ 11 := by
  rw [← String.length_toList, toList_encode, List.length_map]
  rcases Nat.eq_zero_or_pos w.toNat with hw | pos
  · rw [hw, Positional.digits]
    decide
  · have hpow := Positional.pow_length_digits_le (b := 62) (by decide) pos
    have hbound : (62 : Nat) ^ ((Positional.digits 62 w.toNat).length - 1) < 62 ^ 11 :=
      (hpow.trans_lt w.toNat_lt).trans (by decide)
    have hlength := (Nat.pow_lt_pow_iff_right (by decide)).mp hbound
    omega

theorem encode_ne_empty (w : UInt64) : encode w ≠ "" := by
  intro h
  have hchars := congrArg String.toList h
  rw [toList_encode] at hchars
  exact Positional.digits_ne_nil 62 w.toNat (List.map_eq_nil_iff.mp hchars)

theorem shortest_encode (w : UInt64) : shortest (encode w) = encode w :=
  decode_eq_ok_iff_shortest.mp (decode_encode w)

theorem eq_zero_of_head? {w : UInt64} (h : (encode w).toList.head? = some '0') :
    encode w = "0" := by
  have hshort := shortest_encode w
  cases hchars : (encode w).toList with
  | nil => rw [hchars] at h; cases h
  | cons c cs =>
    rw [hchars] at h
    cases h
    rw [shortest, hchars, List.dropWhile_cons_of_pos rfl] at hshort
    by_cases hrest : cs.dropWhile (· == '0') = []
    · rw [← hshort]
      simp only [hrest, if_true]
    · -- a writing is not shorter than itself
      simp only [hrest, if_false] at hshort
      have hlength := congrArg (fun s => s.toList.length) hshort
      simp only [String.toList_ofList, hchars, List.length_cons] at hlength
      have hle := List.length_dropWhile_le (· == '0') cs
      omega

end Base62

theorem decode_eq_ok_iff {code : String} {id : Int64} :
    decode code = .ok id ↔ Base62.shortest code = encode id := by
  rw [encode, ← Base62.decode_eq_ok_iff_shortest, decode]
  cases Base62.decode code with
  | error fault => simp [Except.map]
  | ok w =>
    simp only [Except.map, Except.ok.injEq]
    constructor
    · rintro rfl
      rw [UInt64.toUInt64_toInt64, Permutation.permute_unpermute]
    · rintro rfl
      rw [Permutation.unpermute_permute, Int64.toInt64_toUInt64]

/-- Each number has one code, which is read as that number, and the texts that are read as it are
its code with any zeros in front, the empty text standing for a single zero. -/
theorem code_of_each :
    (∀ w, Permutation.unpermute (Permutation.permute w) = w ∧
      Permutation.permute (Permutation.unpermute w) = w) ∧
    (∀ id : Int64, encode id ≠ "" ∧ (encode id).length ≤ 11 ∧
      (∀ c ∈ (encode id).toList, c ∈ Base62.alphabet) ∧
      ((encode id).toList.head? = some '0' → encode id = "0") ∧ decode (encode id) = .ok id) ∧
    (∀ code id, decode code = .ok id ↔ Base62.shortest code = encode id) ∧
    Function.Injective encode := by
  have read (id : Int64) : decode (encode id) = .ok id :=
    decode_eq_ok_iff.mpr (Base62.shortest_encode _)
  refine ⟨fun w => ⟨Permutation.unpermute_permute w, Permutation.permute_unpermute w⟩,
    fun id => ?_, fun code id => decode_eq_ok_iff, fun id id' h => ?_⟩
  · exact ⟨Base62.encode_ne_empty _, Base62.length_encode_le _,
      fun _ => Base62.mem_alphabet_of_mem_encode, Base62.eq_zero_of_head?, read id⟩
  · have hread := read id
    rw [h, read id'] at hread
    exact (Except.ok.inj hread).symm

end Rendezvous.ShortCode
