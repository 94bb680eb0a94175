import Rendezvous.Proofs.Crypto.Block
import Rendezvous.Proofs.Crypto.Field
import Rendezvous.Proofs.Crypto.Gcm

namespace Rendezvous.Crypto.Gcm

section

variable {h : Block}

theorem step_ne (hh : h ≠ 0) {y z : Block} (hne : y ≠ z) (x : Block) :
    mul (y ^^^ x) h ≠ mul (z ^^^ x) h := by
  intro heq
  exact hne ((BitVec.xor_left_inj x).mp (mul_right_cancel hh heq))

theorem foldl_ne (hh : h ≠ 0) (xs : List Block) {y z : Block} (hne : y ≠ z) :
    xs.foldl (fun y x => mul (y ^^^ x) h) y ≠ xs.foldl (fun y x => mul (y ^^^ x) h) z := by
  induction xs generalizing y z with
  | nil => exact hne
  | cons x xs ih => exact ih (step_ne hh hne x)

/-- The hashes of blocks of which exactly one differs are different. -/
theorem ghash_ne (hh : h ≠ 0) (front rest : List Block) {b c : Block} (hne : b ≠ c) :
    ghash h (front ++ b :: rest) ≠ ghash h (front ++ c :: rest) := by
  have hstep (y : Block) : mul (y ^^^ b) h ≠ mul (y ^^^ c) h := by
    intro heq
    exact hne ((BitVec.xor_right_inj y).mp (mul_right_cancel hh heq))
  rw [ghash, ghash, List.foldl_append, List.foldl_append, List.foldl_cons, List.foldl_cons]
  exact foldl_ne hh rest (hstep _)

end

variable {E : BlockFunction}

theorem toList_toOctets_inj {a b : Block} (h : a.toOctets.toList = b.toOctets.toList) : a = b :=
  Block.toOctets_inj (Vector.toList_inj.mp h)

theorem tag_set_ne (hE : E 0 ≠ 0) (nonce : List UInt8) {bs : List UInt8} {i : Nat}
    (hi : i < bs.length) {v : UInt8} (hv : v ≠ bs[i]) :
    tag E nonce (bs.set i v) ≠ tag E nonce bs := by
  intro heq
  obtain ⟨front, b, c, rest, hne, hold, hnew⟩ := Block.split_set hi hv
  have hhash := (BitVec.xor_left_inj _).mp (toList_toOctets_inj heq)
  have hlength : lengthBlock (bs.set i v) = lengthBlock bs := by
    rw [lengthBlock, lengthBlock, List.length_set]
  rw [hold, hnew, hlength, List.append_assoc, List.append_assoc] at hhash
  exact ghash_ne hE front (rest ++ [lengthBlock bs]) hne hhash.symm

theorem counter_inj {nonce nonce' : List UInt8} (hlength : nonce.length = 12)
    (hlength' : nonce'.length = 12) {count : Nat}
    (h : counter nonce count = counter nonce' count) : nonce = nonce' := by
  have hoctets := Block.ofOctets_inj (by simp [hlength, hlength']) (by simp [hlength]) h
  exact List.append_cancel_right hoctets

theorem tag_nonce_ne (hE : Function.Injective E) {nonce nonce' : List UInt8}
    (hlength : nonce.length = 12) (hlength' : nonce'.length = 12) (hne : nonce ≠ nonce')
    (bs : List UInt8) : tag E nonce bs ≠ tag E nonce' bs := by
  intro heq
  have hmask := (BitVec.xor_right_inj _).mp (toList_toOctets_inj heq)
  exact hne (counter_inj hlength hlength' (hE hmask))

theorem decrypt?_append_eq_none (nonce ciphertext : List UInt8) {t : List UInt8}
    (hlength : t.length = tagLength) (hne : tag E nonce ciphertext ≠ t) :
    decrypt? E nonce (ciphertext ++ t) = none := by
  have hlong : ¬(ciphertext ++ t).length < tagLength := by
    rw [List.length_append]
    omega
  have hsplit : (ciphertext ++ t).length - tagLength = ciphertext.length := by
    rw [List.length_append, hlength, Nat.add_sub_cancel]
  rw [decrypt?, if_neg hlong, hsplit]
  simp only [List.take_left, List.drop_left]
  exact if_neg hne

end Rendezvous.Crypto.Gcm
