import Mathlib.Data.LawfulXor.Basic
import Mathlib.Data.List.Nodup
import Mathlib.Tactic.Common
import Rendezvous.Crypto.Aes

namespace Rendezvous.Crypto.Aes

theorem nodup_substitution : (substitution.toList.map UInt8.toNat).Nodup := by decide +kernel

theorem subOctet_inj {a b : UInt8} (h : subOctet a = subOctet b) : a = b := by
  have hlength (c : UInt8) : c.toNat < (substitution.toList.map UInt8.toNat).length := by
    simpa using c.toNat_lt
  have hlookup (c : UInt8) :
      (substitution.toList.map UInt8.toNat).get ⟨c.toNat, hlength c⟩ = (subOctet c).toNat := by
    simp only [List.get_eq_getElem, List.getElem_map, Vector.getElem_toList]
    rfl
  have hsame := hlookup a
  rw [h, ← hlookup b] at hsame
  exact UInt8.toNat_inj.mp (nodup_substitution.getElem_inj_iff.mp hsame)

theorem subOctets_inj {s t : State} (h : subOctets s = subOctets t) : s = t := by
  apply Vector.ext
  intro i hi
  have hoctet := congrArg (·[i]) h
  simp only [subOctets, Vector.getElem_map] at hoctet
  exact subOctet_inj hoctet

theorem addKey_inj {s t key : State} (h : addKey s key = addKey t key) : s = t := by
  apply Vector.ext
  intro i hi
  have hoctet := congrArg (·[i]) h
  simp only [addKey, Vector.getElem_zipWith] at hoctet
  exact UInt8.xor_left_inj key[i] |>.mp hoctet

theorem shiftRows_inj {s t : State} (h : shiftRows s = shiftRows t) : s = t := by
  have hindex : ∀ j : Fin 16, ∃ i : Fin 16,
      4 * ((i.val / 4 + i.val % 4) % 4) + i.val % 4 % 4 = j := by
    decide
  apply Vector.ext
  intro j hj
  obtain ⟨i, hi⟩ := hindex ⟨j, hj⟩
  have hoctet := congrArg (·[i.val]) h
  simp only [shiftRows, Vector.getElem_ofFn, State.at, hi] at hoctet
  exact hoctet

theorem xor_left_comm (a b c : UInt8) : a ^^^ (b ^^^ c) = b ^^^ (a ^^^ c) := by
  rw [← UInt8.xor_assoc, UInt8.xor_comm a b, UInt8.xor_assoc]

theorem double_xor (a b : UInt8) : double (a ^^^ b) = double a ^^^ double b := by
  have hcases : ∀ n : Fin 256, UInt8.ofFin n &&& 0x80 = 0 ∨ UInt8.ofFin n &&& 0x80 = 0x80 := by
    decide +kernel
  have hshift : (a ^^^ b) <<< 1 = (a <<< 1) ^^^ (b <<< 1) := UInt8.shiftLeft_xor
  have hmask : (a ^^^ b) &&& 0x80 = (a &&& 0x80) ^^^ (b &&& 0x80) := by
    apply UInt8.toBitVec_inj.mp
    ext i hi
    simp [Bool.and_xor_distrib_right]
  unfold double
  rw [hshift, hmask]
  rcases hcases a.toFin with ha | ha <;> rcases hcases b.toFin with hb | hb
  all_goals
    change a &&& 0x80 = _ at ha
    change b &&& 0x80 = _ at hb
    rw [ha, hb]
    simp [UInt8.xor_assoc, UInt8.xor_comm, xor_left_comm]

/-- What an octet becomes when columns are mixed, given the four of its column from it on. -/
def mixed (a b c d : UInt8) : UInt8 := double a ^^^ (double b ^^^ b) ^^^ c ^^^ d

/-- An octet, given what the four of its column have become. -/
def unmixed (a b c d : UInt8) : UInt8 :=
  double (double (double (a ^^^ b ^^^ c ^^^ d))) ^^^ double (double (a ^^^ c)) ^^^
    double (a ^^^ b) ^^^ (b ^^^ c ^^^ d)

theorem unmixed_mixed (a b c d : UInt8) :
    unmixed (mixed a b c d) (mixed b c d a) (mixed c d a b) (mixed d a b c) = a := by
  simp only [unmixed, mixed, double_xor]
  simp [UInt8.xor_assoc, UInt8.xor_comm, xor_left_comm]

theorem at_of_mod_eq (s : State) (column : Nat) {i j : Nat} (h : i % 4 = j % 4) :
    s.at column i = s.at column j := by
  simp only [State.at, h]

theorem at_mixColumns (s : State) (column row : Nat) : (mixColumns s).at column row =
    mixed (s.at column row) (s.at column (row + 1)) (s.at column (row + 2))
      (s.at column (row + 3)) := by
  have hcolumn : (4 * (column % 4) + row % 4) / 4 % 4 = column % 4 := by omega
  have hrow (k : Nat) : ((4 * (column % 4) + row % 4) % 4 + k) % 4 = (row + k) % 4 := by omega
  have hfirst : (4 * (column % 4) + row % 4) % 4 % 4 = row % 4 := by omega
  simp only [State.at, mixColumns, Vector.getElem_ofFn, hcolumn, hrow, hfirst, mixed, Nat.add_zero]

theorem at_eq_unmixed (s : State) (column row : Nat) : s.at column row =
    unmixed ((mixColumns s).at column row) ((mixColumns s).at column (row + 1))
      ((mixColumns s).at column (row + 2)) ((mixColumns s).at column (row + 3)) := by
  -- The rows of a column follow one another in a circle.
  have h₄ : s.at column (row + 4) = s.at column row := at_of_mod_eq s column (by omega)
  have h₅ : s.at column (row + 5) = s.at column (row + 1) := at_of_mod_eq s column (by omega)
  have h₆ : s.at column (row + 6) = s.at column (row + 2) := at_of_mod_eq s column (by omega)
  simp only [at_mixColumns, Nat.add_assoc, Nat.reduceAdd, h₄, h₅, h₆]
  exact (unmixed_mixed ..).symm

theorem mixColumns_inj {s t : State} (h : mixColumns s = mixColumns t) : s = t := by
  have hat (u : State) (i : Nat) (hi : i < 16) : u[i] = u.at (i / 4) (i % 4) := by
    have hindex : 4 * (i / 4 % 4) + i % 4 % 4 = i := by omega
    simp only [State.at, hindex]
  apply Vector.ext
  intro i hi
  rw [hat s i hi, hat t i hi, at_eq_unmixed s, at_eq_unmixed t, h]

theorem rounds_inj {keys : List State} {s t : State} (h : rounds s keys = rounds t keys) :
    s = t := by
  induction keys generalizing s t with
  | nil => exact h
  | cons key keys ih =>
    cases keys with
    | nil => exact subOctets_inj (shiftRows_inj (addKey_inj h))
    | cons key' keys => exact subOctets_inj (shiftRows_inj (mixColumns_inj (addKey_inj (ih h))))

/-- Under any round keys different blocks are encrypted differently. -/
theorem encryptWith_inj {schedule : List State} {s t : State}
    (h : encryptWith schedule s = encryptWith schedule t) : s = t := by
  cases schedule with
  | nil => exact h
  | cons key keys => exact addKey_inj (rounds_inj h)

end Rendezvous.Crypto.Aes
