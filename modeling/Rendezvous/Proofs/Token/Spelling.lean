import Rendezvous.Proofs.Text.UrlSafe
import Rendezvous.Proofs.Token.Redemption

namespace Rendezvous.Token

theorem length_encode (raw : List UInt8) : (encode raw).length = (4 * raw.length + 2) / 3 := by
  rw [encode, Text.Base64Url.encode, String.length_ofList, List.length_map,
    Text.Base64Url.length_toSextets_eq]

theorem spells_encode (raw : List UInt8) : Spells (encode raw) raw :=
  ⟨0, by rw [padded, List.replicate_zero, String.ofList_nil, String.append_empty]⟩

theorem Spells.trimEnd {text : String} {raw : List UInt8} (h : Spells text raw) :
    Text.Blank.trimEnd '=' text = encode raw := by
  obtain ⟨k, rfl⟩ := h
  exact Text.Blank.trimEnd_append_replicate (pad_not_mem_encode raw) k

theorem Cipher.urlSafe_issue (c : Cipher) (nonce : Nonce) (id : String) :
    Text.UrlSafe (c.issue nonce id) :=
  Text.Base64Url.urlSafe_encode _

theorem Cipher.issue_ne_empty (c : Cipher) (nonce : Nonce) (id : String) :
    c.issue nonce id ≠ "" := by
  intro hempty
  have hspells : Spells "" [] := ⟨0, by decide⟩
  have hredeem := c.redeem_issue nonce id
  rw [hempty, c.redeem_short hspells (by decide)] at hredeem
  cases hredeem

/-- Octets are read back from their writing, which has four characters for three octets, rounded up,
all of them safe in a URL. A text is read as octets exactly if it is their writing with any padding
after it, and any other text is malformed; so texts that differ in more than padding stand for
different octets. -/
theorem one_spelling :
    (∀ raw, decode (encode raw) = .ok raw ∧ (encode raw).length = (4 * raw.length + 2) / 3 ∧
      Text.UrlSafe (encode raw)) ∧
    (∀ text raw, decode text = .ok raw ↔ ∃ k, text = padded (encode raw) k) ∧
    (∀ text, (∀ raw k, text ≠ padded (encode raw) k) →
      ∃ fault, decode text = .error (.malformed (.encoding fault))) ∧
    ∀ s t raw, decode s = .ok raw → decode t = .ok raw →
      Text.Blank.trimEnd '=' s = Text.Blank.trimEnd '=' t := by
  refine ⟨fun raw => ⟨decode_eq_ok_iff.mpr (spells_encode raw), length_encode raw,
    Text.Base64Url.urlSafe_encode raw⟩, fun text raw => decode_eq_ok_iff, fun text h => ?_,
    fun s t raw hs ht => ?_⟩
  · apply decode_eq_error
    rintro raw ⟨k, hk⟩
    exact h raw k hk
  · have hstrip := (decode_eq_ok_iff.mp hs).trimEnd
    have hstrip' := (decode_eq_ok_iff.mp ht).trimEnd
    rw [hstrip, hstrip']

end Rendezvous.Token
