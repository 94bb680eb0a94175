import Mathlib.Algebra.Group.Nat.Defs
import Mathlib.Data.List.Induction
import Mathlib.Tactic.Common
import Rendezvous.Crypto.Block

namespace Rendezvous

namespace Numeral.Positional

theorem value_lt {b : Nat} {ds : List Nat} (h : ∀ d ∈ ds, d < b) : value b ds < b ^ ds.length := by
  induction ds using List.reverseRecOn with
  | nil => exact Nat.one_pos
  | append_singleton ds d ih =>
    have hd : d < b := h d (by simp)
    have hds := ih fun e he => h e (by simp [he])
    rw [value_append, List.length_append, List.length_singleton, Nat.pow_succ]
    calc value b ds * b + d < value b ds * b + b := by omega
      _ = (value b ds + 1) * b := (Nat.succ_mul _ b).symm
      _ ≤ b ^ ds.length * b := Nat.mul_le_mul_right b hds

theorem value_inj {b : Nat} {ds es : List Nat} (hlength : ds.length = es.length)
    (hds : ∀ d ∈ ds, d < b) (hes : ∀ e ∈ es, e < b) (h : value b ds = value b es) : ds = es := by
  induction ds using List.reverseRecOn generalizing es with
  | nil => exact (List.eq_nil_of_length_eq_zero hlength.symm).symm
  | append_singleton ds d ih =>
    induction es using List.reverseRecOn with
    | nil => simp at hlength
    | append_singleton es e =>
      rw [value_append, value_append] at h
      have hd : d < b := hds d (by simp)
      have he : e < b := hes e (by simp)
      have hlast : d = e := by
        have hmod := congrArg (· % b) h
        simpa [Nat.mul_add_mod', Nat.mod_eq_of_lt hd, Nat.mod_eq_of_lt he] using hmod
      have hrest : value b ds = value b es := by
        rw [hlast] at h
        exact Nat.eq_of_mul_eq_mul_right (by omega) (Nat.add_right_cancel h)
      have hinit := ih (by simpa using hlength) (fun d' hd' => hds d' (by simp [hd']))
        (fun e' he' => hes e' (by simp [he'])) hrest
      rw [hinit, hlast]

/-- The last digits of a number, and no more of them than asked for. -/
theorem value_div_mod (b n k : Nat) :
    value b ((List.range k).map fun i => n / b ^ (k - 1 - i) % b) = n % b ^ k := by
  induction k generalizing n with
  | zero => simp [value, Nat.mod_one]
  | succ k ih =>
    have hinit : (List.range k).map (fun i => n / b ^ (k + 1 - 1 - i) % b) =
        (List.range k).map fun i => n / b / b ^ (k - 1 - i) % b := by
      apply List.map_congr_left
      intro i hi
      have hpow : k + 1 - 1 - i = k - 1 - i + 1 := by
        have := List.mem_range.mp hi
        omega
      rw [hpow, Nat.pow_succ', Nat.div_div_eq_div_mul]
    rw [List.range_succ, List.map_append, List.map_singleton, value_append, hinit, ih]
    have hlast : k + 1 - 1 - k = 0 := by omega
    rw [hlast, Nat.pow_zero, Nat.div_one, Nat.pow_succ', Nat.mod_mul, Nat.mul_comm, Nat.add_comm]

end Numeral.Positional

namespace Crypto.Block

open Numeral

theorem ofOctets_inj {bs cs : List UInt8} (hlength : bs.length = cs.length)
    (hshort : bs.length ≤ 16) (h : ofOctets bs = ofOctets cs) : bs = cs := by
  have hlt (ds : List UInt8) : ∀ d ∈ ds.map UInt8.toNat, d < 256 := by
    intro d hd
    obtain ⟨o, _, rfl⟩ := List.mem_map.mp hd
    exact o.toNat_lt
  have hpadded (ds : List UInt8) (hds : ds.length ≤ 16) :
      ((ds ++ List.replicate (16 - ds.length) 0).map UInt8.toNat).length = 16 := by
    rw [List.length_map, List.length_append, List.length_replicate]
    omega
  have hvalue (ds : List UInt8) (hds : ds.length ≤ 16) : (ofOctets ds).toNat =
      Positional.value 256 ((ds ++ List.replicate (16 - ds.length) 0).map UInt8.toNat) := by
    have hbound := Positional.value_lt (hlt (ds ++ List.replicate (16 - ds.length) 0))
    rw [hpadded ds hds] at hbound
    exact Nat.mod_eq_of_lt hbound
  have hcs : cs.length ≤ 16 := hlength ▸ hshort
  have hdigits := Positional.value_inj ((hpadded bs hshort).trans (hpadded cs hcs).symm) (hlt _)
    (hlt _) (by rw [← hvalue bs hshort, ← hvalue cs hcs, h])
  have hoctets := (List.map_inj_right fun _ _ => UInt8.toNat_inj.mp).mp hdigits
  exact (List.append_inj hoctets hlength).1

theorem ofOctets_toOctets (b : Block) : ofOctets b.toOctets.toList = b := by
  have hoctets : b.toOctets.toList.map UInt8.toNat =
      (List.range 16).map fun i => b.toNat / 256 ^ (16 - 1 - i) % 256 := by
    rw [toOctets, Vector.toList_ofFn, List.map_ofFn]
    rfl
  have hbound : b.toNat < 256 ^ 16 := b.isLt
  apply BitVec.eq_of_toNat_eq
  rw [ofOctets, Vector.length_toList, Nat.sub_self, List.replicate_zero, List.append_nil, hoctets,
    Positional.value_div_mod, BitVec.toNat_ofNat, Nat.mod_eq_of_lt hbound, Nat.mod_eq_of_lt b.isLt]

theorem toOctets_inj {a b : Block} (h : a.toOctets = b.toOctets) : a = b := by
  rw [← ofOctets_toOctets a, ← ofOctets_toOctets b, h]

theorem split_of_ne_nil {bs : List UInt8} (h : bs ≠ []) :
    split bs = ofOctets (bs.take 16) :: split (bs.drop 16) := by
  cases bs with
  | nil => exact absurd rfl h
  | cons b bs =>
    rw [split]
    rfl

/-- A changed octet changes the block that it lies in. -/
theorem split_set {bs : List UInt8} {i : Nat} (hi : i < bs.length) {v : UInt8} (hv : v ≠ bs[i]) :
    ∃ front b c rest, b ≠ c ∧ split bs = front ++ b :: rest ∧
      split (bs.set i v) = front ++ c :: rest := by
  induction bs using split.induct generalizing i with
  | case1 => exact absurd hi (Nat.not_lt_zero i)
  | case2 b bs' ih =>
    have hset : (b :: bs').set i v ≠ [] := by
      simp
    rw [split_of_ne_nil (List.cons_ne_nil b bs'), split_of_ne_nil hset]
    rcases Nat.lt_or_ge i 16 with hlt | hge
    · refine ⟨[], ofOctets ((b :: bs').take 16), ofOctets (((b :: bs').set i v).take 16), _, ?_,
        rfl, ?_⟩
      · intro heq
        rw [List.take_set] at heq
        have hsame := ofOctets_inj (by simp) (List.length_take_le 16 _) heq
        have htake : i < ((b :: bs').take 16).length := by
          rw [List.length_take]
          omega
        have hoctet := congrArg (·[i]?) hsame
        rw [List.getElem?_set_self htake, List.getElem?_take_of_lt hlt,
          List.getElem?_eq_getElem hi] at hoctet
        exact hv (Option.some.inj hoctet).symm
      · rw [List.drop_set_of_lt hlt]
        rfl
    · have hdrop : ((b :: bs').set i v).drop 16 = (bs'.drop 15).set (i - 16) v := by
        rw [List.drop_set, if_neg (by omega), List.drop_succ_cons]
      have hi' : i - 16 < (bs'.drop 15).length := by
        rw [List.length_drop]
        rw [List.length_cons] at hi
        omega
      have hoctet : (bs'.drop 15)[i - 16] = (b :: bs')[i] := by
        have hindex : 15 + (i - 16) = i - 1 := by omega
        have hpos : i ≠ 0 := by omega
        simp only [List.getElem_drop, List.getElem_cons, hindex, hpos, dite_false]
      obtain ⟨front, b', c, rest, hne, hold, hnew⟩ := ih hi' (by rwa [hoctet])
      refine ⟨ofOctets ((b :: bs').take 16) :: front, b', c, rest, hne, ?_, ?_⟩
      · rw [List.drop_succ_cons, hold]
        rfl
      · rw [hdrop, hnew, List.take_set_of_le hge]
        rfl

end Crypto.Block

end Rendezvous
