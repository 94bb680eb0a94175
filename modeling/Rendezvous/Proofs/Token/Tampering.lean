import Rendezvous.Proofs.Crypto.Aes
import Rendezvous.Proofs.Crypto.Authentication
import Rendezvous.Proofs.Token.Redemption

namespace Rendezvous.Token

open Crypto

namespace Cipher

variable (c : Cipher)

theorem blockFunction_injective : Function.Injective c.blockFunction := by
  intro a b h
  have hoctets := Block.ofOctets_inj (by simp) (by simp) h
  exact Block.toOctets_inj (Aes.encryptWith_inj (Vector.toList_inj.mp hoctets))

/-- A nonce and a ciphertext with another tag than theirs are invalid. -/
theorem decrypt_forged {nonce ciphertext t : List UInt8} (hnonce : nonce.length = nonceLength)
    (ht : t.length = Gcm.tagLength) (hne : Gcm.tag c.blockFunction nonce ciphertext ≠ t) :
    c.decrypt (nonce ++ (ciphertext ++ t)) = .error .invalid := by
  have hlong : ¬(nonce ++ (ciphertext ++ t)).length < nonceLength := by
    rw [List.length_append]
    omega
  rw [decrypt, if_neg hlong, ← hnonce, List.take_left, List.drop_left,
    Gcm.decrypt?_append_eq_none nonce ciphertext ht hne]

variable {c}

theorem decrypt_set_nonce {nonce ciphertext : List UInt8} (hnonce : nonce.length = nonceLength)
    {i : Nat} (hi : i < nonce.length) {v : UInt8} (hv : v ≠ nonce[i]) :
    c.decrypt (nonce.set i v ++ (ciphertext ++ Gcm.tag c.blockFunction nonce ciphertext)) =
      .error .invalid := by
  have hset : (nonce.set i v).length = nonceLength := (List.length_set ..).trans hnonce
  have hne : nonce.set i v ≠ nonce := by
    intro heq
    have hoctet := congrArg (·[i]?) heq
    rw [List.getElem?_set_self hi, List.getElem?_eq_getElem hi] at hoctet
    exact hv (Option.some.inj hoctet)
  apply c.decrypt_forged hset (Gcm.length_tag _ _ _)
  exact Gcm.tag_nonce_ne c.blockFunction_injective hset hnonce hne ciphertext

theorem decrypt_set_ciphertext (hc : c.blockFunction 0 ≠ 0) {nonce ciphertext : List UInt8}
    (hnonce : nonce.length = nonceLength) {i : Nat} (hi : i < ciphertext.length) {v : UInt8}
    (hv : v ≠ ciphertext[i]) :
    c.decrypt (nonce ++ (ciphertext.set i v ++ Gcm.tag c.blockFunction nonce ciphertext)) =
      .error .invalid := by
  apply c.decrypt_forged hnonce (Gcm.length_tag _ _ _)
  exact Gcm.tag_set_ne hc nonce hi hv

theorem decrypt_set_tag {nonce ciphertext : List UInt8} (hnonce : nonce.length = nonceLength)
    {i : Nat} (hi : i < (Gcm.tag c.blockFunction nonce ciphertext).length) {v : UInt8}
    (hv : v ≠ (Gcm.tag c.blockFunction nonce ciphertext)[i]) :
    c.decrypt (nonce ++ (ciphertext ++ (Gcm.tag c.blockFunction nonce ciphertext).set i v)) =
      .error .invalid := by
  apply c.decrypt_forged hnonce ((List.length_set ..).trans (Gcm.length_tag _ _ _))
  intro heq
  have hoctet := congrArg (·[i]?) heq
  rw [List.getElem?_set_self hi, List.getElem?_eq_getElem hi] at hoctet
  exact hv (Option.some.inj hoctet).symm

/-- An octet lies in the nonce, in the ciphertext or in the tag. -/
theorem decrypt_set (hc : c.blockFunction 0 ≠ 0) {nonce ciphertext raw : List UInt8}
    (hnonce : nonce.length = nonceLength)
    (hraw : raw = nonce ++ (ciphertext ++ Gcm.tag c.blockFunction nonce ciphertext)) {i : Nat}
    (hi : i < raw.length) {v : UInt8} (hv : v ≠ raw[i]) :
    c.decrypt (raw.set i v) = .error .invalid := by
  subst hraw
  rw [List.getElem_append] at hv
  rw [List.set_append]
  split at hv
  · next hlt =>
    rw [if_pos hlt]
    exact decrypt_set_nonce hnonce hlt hv
  · next hge =>
    rw [if_neg hge, List.set_append]
    rw [List.getElem_append] at hv
    split at hv
    · next hlt =>
      rw [if_pos hlt]
      exact decrypt_set_ciphertext hc hnonce hlt hv
    · next hge' =>
      rw [if_neg hge']
      exact decrypt_set_tag hnonce _ hv

end Cipher

/-- A token can be decrypted, but not if one octet of it is changed, or the whole tag. -/
theorem tampering_detected (secret : List UInt8)
    (h : (Cipher.ofSecret secret).blockFunction 0 ≠ 0) (nonce : Nonce) (plaintext : List UInt8) :
    let c := Cipher.ofSecret secret
    let raw := c.encrypt nonce plaintext
    c.decrypt raw = .ok plaintext ∧
    (∀ (i : Nat) (hi : i < raw.length) (δ : UInt8), δ ≠ 0 →
      c.decrypt (raw.set i (raw[i] ^^^ δ)) = .error .invalid) ∧
    ∀ t : List UInt8, t.length = Gcm.tagLength → t ≠ raw.drop (raw.length - Gcm.tagLength) →
      c.decrypt (raw.take (raw.length - Gcm.tagLength) ++ t) = .error .invalid := by
  intro c raw
  have hnonce : nonce.toList.length = nonceLength := Vector.length_toList
  refine ⟨c.decrypt_encrypt nonce plaintext, ?_, ?_⟩
  · intro i hi δ hδ
    apply Cipher.decrypt_set h hnonce rfl hi
    intro heq
    exact hδ ((UInt8.xor_right_inj raw[i]).mp (heq.trans UInt8.xor_zero.symm))
  · intro t ht hne
    let ciphertext := Gcm.mask c.blockFunction nonce.toList plaintext
    have hlength := Gcm.length_tag c.blockFunction nonce.toList ciphertext
    have hraw : raw = (nonce.toList ++ ciphertext) ++
        Gcm.tag c.blockFunction nonce.toList ciphertext := (List.append_assoc ..).symm
    have hcut : raw.length - Gcm.tagLength = (nonce.toList ++ ciphertext).length := by
      rw [hraw, List.length_append, hlength, Nat.add_sub_cancel]
    rw [hcut, hraw, List.drop_left] at hne
    rw [hcut, hraw, List.take_left, List.append_assoc]
    exact c.decrypt_forged hnonce ht hne.symm

/-- Under the key of the empty secret a bit of the first octet is changed. -/
theorem first_octet_tampered : (Cipher.ofSecret []).blockFunction 0 ≠ 0 ∧
    (Cipher.ofSecret []).decrypt
      (((Cipher.ofSecret []).encrypt (Vector.replicate 12 0) [0x6d]).set 0 1) =
        .error .invalid := by
  have h : (Cipher.ofSecret []).blockFunction 0 ≠ 0 := by decide +kernel
  refine ⟨h, ?_⟩
  let nonce : Nonce := Vector.replicate 12 0
  have hlength : 0 < ((Cipher.ofSecret []).encrypt nonce [0x6d]).length := by
    rw [Cipher.length_encrypt, Gcm.tagLength]
    omega
  have hfirst : ((Cipher.ofSecret []).encrypt nonce [0x6d])[0] = 0 := by
    have hnonce : 0 < nonce.toList.length := by simp
    exact (List.getElem_append_left hnonce).trans (by simp [nonce])
  have hinvalid := (tampering_detected [] h nonce [0x6d]).2.1 0 hlength 1 (by decide)
  rwa [hfirst] at hinvalid

end Rendezvous.Token
