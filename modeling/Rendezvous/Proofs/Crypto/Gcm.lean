import Mathlib.Tactic.Common
import Rendezvous.Crypto.Gcm

namespace Rendezvous.Crypto.Gcm

variable (E : BlockFunction) (nonce : List UInt8)

theorem length_keyStream (count n : Nat) : (keyStream E nonce count n).length = 16 * n := by
  induction n with
  | zero => rfl
  | succ n ih =>
    rw [keyStream] at ih ⊢
    rw [List.range_succ, List.flatMap_append, List.length_append, ih, List.flatMap_singleton,
      Vector.length_toList]
    omega

theorem length_mask (bs : List UInt8) : (mask E nonce bs).length = bs.length := by
  rw [mask, List.length_zipWith, length_keyStream]
  omega

theorem zipWith_xor_zipWith_xor (xs ys : List UInt8) (h : xs.length ≤ ys.length) :
    List.zipWith (· ^^^ ·) (List.zipWith (· ^^^ ·) xs ys) ys = xs := by
  induction xs generalizing ys with
  | nil => rfl
  | cons x xs ih =>
    cases ys with
    | nil => simp at h
    | cons y ys =>
      have hx : x ^^^ y ^^^ y = x := by rw [UInt8.xor_assoc, UInt8.xor_self, UInt8.xor_zero]
      simp only [List.zipWith_cons_cons, hx, ih ys (by simpa using h)]

/-- The key stream depends on nothing but the number of octets, so masking undoes itself. -/
theorem mask_mask (bs : List UInt8) : mask E nonce (mask E nonce bs) = bs := by
  have h : mask E nonce (mask E nonce bs) =
      List.zipWith (· ^^^ ·) (mask E nonce bs) (keyStream E nonce 2 ((bs.length + 15) / 16)) := by
    rw [mask, length_mask]
  rw [h, mask]
  apply zipWith_xor_zipWith_xor
  rw [length_keyStream]
  omega

theorem length_tag (ciphertext : List UInt8) : (tag E nonce ciphertext).length = tagLength :=
  Vector.length_toList

theorem length_encrypt (plaintext : List UInt8) :
    (encrypt E nonce plaintext).length = plaintext.length + tagLength := by
  simp only [encrypt, List.length_append, length_mask, length_tag]

theorem decrypt?_encrypt (plaintext : List UInt8) :
    decrypt? E nonce (encrypt E nonce plaintext) = some plaintext := by
  have hn : ¬(encrypt E nonce plaintext).length < tagLength := by
    rw [length_encrypt]
    omega
  have hl : (encrypt E nonce plaintext).length - tagLength = (mask E nonce plaintext).length := by
    rw [length_encrypt, length_mask, Nat.add_sub_cancel]
  rw [decrypt?, if_neg hn, hl]
  simp only [encrypt, List.take_left, List.drop_left, if_true, mask_mask]

theorem eq_encrypt_of_decrypt? {sealed plaintext : List UInt8}
    (h : decrypt? E nonce sealed = some plaintext) : sealed = encrypt E nonce plaintext := by
  unfold decrypt? at h
  by_cases hl : sealed.length < tagLength
  · rw [if_pos hl] at h
    cases h
  · rw [if_neg hl] at h
    simp only at h
    split_ifs at h with ht
    have hp : mask E nonce (sealed.take (sealed.length - tagLength)) = plaintext :=
      Option.some.inj h
    simp only [encrypt, ← hp, mask_mask, ht, List.take_append_drop]

end Rendezvous.Crypto.Gcm
