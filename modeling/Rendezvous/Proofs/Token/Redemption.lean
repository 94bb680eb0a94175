import Rendezvous.Proofs.Crypto.Gcm
import Rendezvous.Proofs.Text.Base64Url
import Rendezvous.Proofs.Text.Blank
import Rendezvous.Token.Basic

namespace Rendezvous.Token

def padded (text : String) (k : Nat) : String := text ++ String.ofList (List.replicate k '=')

/-- The texts that stand for raw octets: their writing, with any amount of padding. -/
def Spells (text : String) (raw : List UInt8) : Prop := ∃ k, text = padded (encode raw) k

theorem pad_not_mem_encode (raw : List UInt8) : '=' ∉ (encode raw).toList := by
  rw [encode, Text.Base64Url.encode, String.toList_ofList]
  intro h
  obtain ⟨s, hs, he⟩ := List.mem_map.1 h
  have ht := (Text.Base64Url.symbol_table s (Text.Base64Url.lt_of_mem_toSextets hs)).2
  rw [he, show Text.Base64Url.sextet? (.ofNat '='.toNat) = none by decide] at ht
  cases ht

/-- A text of such a length stands for nothing, unless it is padded. -/
theorem not_spells {text : String} (hlength : text.toList.length % 4 = 1)
    (hpad : '=' ∉ text.toList) (raw : List UInt8) : ¬Spells text raw := by
  rintro ⟨k, rfl⟩
  cases k with
  | zero =>
    apply Text.Base64Url.length_toSextets raw
    simpa [padded, encode, Text.Base64Url.encode] using hlength
  | succ k => simp [padded] at hpad

/-- A text stands for raw octets exactly if it decodes to them. -/
theorem decode_eq_ok_iff {text : String} {raw : List UInt8} :
    decode text = .ok raw ↔ Spells text raw := by
  have hd : decode text = .ok raw ↔ Text.Blank.trimEnd '=' text = encode raw := by
    constructor
    · intro h
      unfold decode at h
      cases hb : Text.Base64Url.decode (Text.Utf8.encode (Text.Blank.trimEnd '=' text)) with
      | error f => rw [hb] at h; cases h
      | ok octets =>
        rw [hb] at h
        cases h
        exact Text.Utf8.encode_injective (Text.Base64Url.decode_eq_ok_iff.1 hb)
    · intro h
      have hb := Text.Base64Url.decode_eq_ok_iff.2 (congrArg Text.Utf8.encode h)
      rw [decode, hb]
      rfl
  rw [hd]
  constructor
  · intro h
    obtain ⟨k, hk⟩ := Text.Blank.exists_eq_trimEnd_append '=' text
    exact ⟨k, by rw [padded, ← h, ← hk]⟩
  · rintro ⟨k, rfl⟩
    exact Text.Blank.trimEnd_append_replicate (pad_not_mem_encode raw) k

theorem decode_eq_error {text : String} (h : ∀ raw, ¬Spells text raw) :
    ∃ fault, decode text = .error (.malformed (.encoding fault)) := by
  cases hb : Text.Base64Url.decode (Text.Utf8.encode (Text.Blank.trimEnd '=' text)) with
  | error fault => exact ⟨fault, by rw [decode, hb]; rfl⟩
  | ok raw =>
    have hd : decode text = .ok raw := by rw [decode, hb]; rfl
    exact absurd (decode_eq_ok_iff.1 hd) (h raw)

namespace Cipher

variable (c : Cipher)

theorem length_encrypt (nonce : Nonce) (plaintext : List UInt8) :
    (c.encrypt nonce plaintext).length = nonceLength + plaintext.length + Crypto.Gcm.tagLength := by
  rw [encrypt, List.length_append, Vector.length_toList, Crypto.Gcm.length_encrypt, ← Nat.add_assoc,
    nonceLength]

theorem decrypt_encrypt (nonce : Nonce) (plaintext : List UInt8) :
    c.decrypt (c.encrypt nonce plaintext) = .ok plaintext := by
  have hn : ¬(c.encrypt nonce plaintext).length < nonceLength := by
    rw [length_encrypt]
    omega
  have hl : nonceLength = nonce.toList.length := Vector.length_toList.symm
  rw [decrypt, if_neg hn, encrypt, hl, List.take_left, List.drop_left,
    Crypto.Gcm.decrypt?_encrypt]

theorem eq_encrypt_of_decrypt {raw plaintext : List UInt8} (h : c.decrypt raw = .ok plaintext) :
    ∃ nonce, raw = c.encrypt nonce plaintext := by
  unfold decrypt at h
  by_cases hl : raw.length < nonceLength
  · rw [if_pos hl] at h
    cases h
  · rw [if_neg hl] at h
    have hn : (raw.take nonceLength).length = 12 := by
      rw [List.length_take, nonceLength] at *
      omega
    let nonce : Nonce := ⟨(raw.take nonceLength).toArray, by simpa using hn⟩
    have ht : nonce.toList = raw.take nonceLength := rfl
    cases hd : Crypto.Gcm.decrypt? c.blockFunction (raw.take nonceLength)
        (raw.drop nonceLength) with
    | none => rw [hd] at h; cases h
    | some p =>
      rw [hd] at h
      cases h
      refine ⟨nonce, ?_⟩
      rw [encrypt, ht, ← Crypto.Gcm.eq_encrypt_of_decrypt? _ _ hd, List.take_append_drop]

theorem decrypt_eq_invalid {raw : List UInt8} (hl : nonceLength ≤ raw.length)
    (h : ∀ nonce plaintext, raw ≠ c.encrypt nonce plaintext) : c.decrypt raw = .error .invalid := by
  cases hd : c.decrypt raw with
  | ok plaintext =>
    obtain ⟨nonce, he⟩ := c.eq_encrypt_of_decrypt hd
    exact absurd he (h nonce plaintext)
  | error fault =>
    rw [decrypt, if_neg (Nat.not_lt.2 hl)] at hd
    split at hd
    · cases hd
    · exact hd.symm

theorem redeem_of_decode_error {text : String} {fault : Fault} (h : decode text = .error fault) :
    c.redeem text = .error fault := by
  rw [redeem, h]
  rfl

theorem redeem_of_decrypt_error {text : String} {raw : List UInt8} {fault : Fault}
    (hs : Spells text raw) (h : c.decrypt raw = .error fault) : c.redeem text = .error fault := by
  rw [redeem, decode_eq_ok_iff.2 hs]
  simp only [bind, Except.bind, h]

theorem redeem_of_encrypt {text : String} {nonce : Nonce} {plaintext : List UInt8}
    (h : Spells text (c.encrypt nonce plaintext)) :
    c.redeem text = ((Text.Utf8.decode? plaintext).elim (.error (.malformed .payload)) .ok) := by
  rw [redeem, decode_eq_ok_iff.2 h]
  simp only [bind, Except.bind, decrypt_encrypt]
  cases Text.Utf8.decode? plaintext <;> rfl

/-- Padded copies of an issued token are redeemed as the token is. -/
theorem redeem_padded_issue (nonce : Nonce) (id : String) (k : Nat) :
    c.redeem (padded (c.issue nonce id) k) = .ok id := by
  have h : Spells (padded (c.issue nonce id) k) (c.encrypt nonce (Text.Utf8.encode id)) := ⟨k, rfl⟩
  rw [redeem_of_encrypt c h, Text.Utf8.decode?_eq_some_iff.2 rfl]
  rfl

theorem redeem_issue (nonce : Nonce) (id : String) : c.redeem (c.issue nonce id) = .ok id := by
  have h := c.redeem_padded_issue nonce id 0
  simpa [padded] using h

theorem redeem_payload {text : String} {nonce : Nonce} {plaintext : List UInt8}
    (hs : Spells text (c.encrypt nonce plaintext)) (h : ∀ id, plaintext ≠ Text.Utf8.encode id) :
    c.redeem text = .error (.malformed .payload) := by
  rw [redeem_of_encrypt c hs]
  cases hd : Text.Utf8.decode? plaintext with
  | none => rfl
  | some id => exact absurd (Text.Utf8.decode?_eq_some_iff.1 hd) (h id)

theorem redeem_short {text : String} {raw : List UInt8} (hs : Spells text raw)
    (h : raw.length < nonceLength) : c.redeem text = .error (.malformed (.short raw.length)) := by
  apply redeem_of_decrypt_error c hs
  rw [decrypt, if_pos h]

theorem redeem_forged {text : String} {raw : List UInt8} (hs : Spells text raw)
    (hl : nonceLength ≤ raw.length) (h : ∀ nonce plaintext, raw ≠ c.encrypt nonce plaintext) :
    c.redeem text = .error .invalid :=
  redeem_of_decrypt_error c hs (c.decrypt_eq_invalid hl h)

/-- The kinds of texts. What a text is redeemed as depends on nothing but its kind. -/
inductive Kind (text : String) : Except Fault String → Prop where
  | noEncoding {fault : Text.Base64Url.Fault} (h : ∀ raw, ¬Spells text raw) :
      Kind text (.error (.malformed (.encoding fault)))
  | short {raw : List UInt8} (hs : Spells text raw) (h : raw.length < nonceLength) :
      Kind text (.error (.malformed (.short raw.length)))
  | forged {raw : List UInt8} (hs : Spells text raw) (hl : nonceLength ≤ raw.length)
      (h : ∀ nonce plaintext, raw ≠ c.encrypt nonce plaintext) : Kind text (.error .invalid)
  | noIdentifier {nonce : Nonce} {plaintext : List UInt8}
      (hs : Spells text (c.encrypt nonce plaintext)) (h : ∀ id, plaintext ≠ Text.Utf8.encode id) :
      Kind text (.error (.malformed .payload))
  | issued (nonce : Nonce) (id : String) (k : Nat) (h : text = padded (c.issue nonce id) k) :
      Kind text (.ok id)

/-- Each text is of one of the kinds, and is redeemed accordingly. -/
theorem kind_redeem (text : String) : c.Kind text (c.redeem text) := by
  by_cases hs : ∃ raw, Spells text raw
  · obtain ⟨raw, hs⟩ := hs
    by_cases hl : raw.length < nonceLength
    · rw [c.redeem_short hs hl]
      exact .short hs hl
    · by_cases he : ∃ nonce plaintext, raw = c.encrypt nonce plaintext
      · obtain ⟨nonce, plaintext, rfl⟩ := he
        by_cases hid : ∃ id, plaintext = Text.Utf8.encode id
        · obtain ⟨id, rfl⟩ := hid
          obtain ⟨k, rfl⟩ := hs
          have h := c.redeem_padded_issue nonce id k
          rw [issue] at h
          rw [h]
          exact .issued nonce id k rfl
        · have hne : ∀ id, plaintext ≠ Text.Utf8.encode id := fun id e => hid ⟨id, e⟩
          rw [c.redeem_payload hs hne]
          exact .noIdentifier hs hne
      · have hne : ∀ nonce plaintext, raw ≠ c.encrypt nonce plaintext :=
          fun nonce plaintext e => he ⟨nonce, plaintext, e⟩
        rw [c.redeem_forged hs (Nat.not_lt.1 hl) hne]
        exact .forged hs (Nat.not_lt.1 hl) hne
  · have hne : ∀ raw, ¬Spells text raw := fun raw h => hs ⟨raw, h⟩
    obtain ⟨fault, hd⟩ := decode_eq_error hne
    rw [c.redeem_of_decode_error hd]
    exact .noEncoding hne

end Cipher

/-- A text is redeemed exactly if it is an issued token with any padding after it. Any other text is
malformed if it is not base 64, too short for a nonce or authentically no identifier, and invalid
if nothing authenticates it; that is never for want of entropy. -/
theorem redeem_iff_issued (secret : List UInt8) (text : String) :
    let c := Cipher.ofSecret secret
    (∀ id, c.redeem text = .ok id ↔
      ∃ (nonce : Nonce) (k : Nat), text = padded (c.issue nonce id) k) ∧
    ((∃ fault, c.redeem text = .error (.malformed (.encoding fault))) ↔
      ∀ raw, ¬Spells text raw) ∧
    (∀ n, c.redeem text = .error (.malformed (.short n)) ↔
      ∃ raw, Spells text raw ∧ raw.length = n ∧ n < nonceLength) ∧
    (c.redeem text = .error (.malformed .payload) ↔
      ∃ nonce plaintext, Spells text (c.encrypt nonce plaintext) ∧
        ∀ id, plaintext ≠ Text.Utf8.encode id) ∧
    (c.redeem text = .error .invalid ↔
      ∃ raw, Spells text raw ∧ nonceLength ≤ raw.length ∧
        ∀ nonce plaintext, raw ≠ c.encrypt nonce plaintext) ∧
    c.redeem text ≠ .error .noEntropy := by
  intro c
  have kind := c.kind_redeem text
  refine ⟨fun id => ⟨fun h => ?_, ?_⟩, ⟨?_, fun h => ?_⟩, fun n => ⟨fun h => ?_, ?_⟩,
    ⟨fun h => ?_, ?_⟩, ⟨fun h => ?_, ?_⟩, fun h => ?_⟩
  · rw [h] at kind
    cases kind with
    | issued nonce id k he => exact ⟨nonce, k, he⟩
  · rintro ⟨nonce, k, rfl⟩
    exact c.redeem_padded_issue nonce id k
  · rintro ⟨fault, h⟩
    rw [h] at kind
    cases kind with
    | noEncoding hne => exact hne
  · obtain ⟨fault, hd⟩ := decode_eq_error h
    exact ⟨fault, c.redeem_of_decode_error hd⟩
  · rw [h] at kind
    cases kind with
    | short hs hl => exact ⟨_, hs, rfl, hl⟩
  · rintro ⟨raw, hs, rfl, hl⟩
    exact c.redeem_short hs hl
  · rw [h] at kind
    cases kind with
    | noIdentifier hs hne => exact ⟨_, _, hs, hne⟩
  · rintro ⟨nonce, plaintext, hs, hne⟩
    exact c.redeem_payload hs hne
  · rw [h] at kind
    cases kind with
    | forged hs hl hne => exact ⟨_, hs, hl, hne⟩
  · rintro ⟨raw, hs, hl, hne⟩
    exact c.redeem_forged hs hl hne
  · rw [h] at kind
    cases kind

end Rendezvous.Token
