import Rendezvous.Proofs.Text.Utf8
import Rendezvous.Text.Base64Url

namespace Rendezvous.Text.Base64Url

theorem symbol_table : ∀ s < 64, (symbol s).toNat < 0x80 ∧
    sextet? (.ofNat (symbol s).toNat) = some s := by decide +kernel

theorem sextet?_table : ∀ n < 256, ∀ s ∈ sextet? (.ofNat n),
    s < 64 ∧ UInt8.ofNat (symbol s).toNat = .ofNat n := by decide +kernel

theorem encodeChar_symbol {s : Nat} (h : s < 64) :
    Utf8.encodeChar (symbol s) = [.ofNat (symbol s).toNat] := by
  rw [Utf8.encodeChar]
  exact if_pos (symbol_table s h).1

theorem eq_of_sextet? {b : UInt8} {s : Nat} (h : sextet? b = some s) :
    s < 64 ∧ Utf8.encodeChar (symbol s) = [b] := by
  have t := sextet?_table b.toNat b.toNat_lt s (by rw [UInt8.ofNat_toNat]; exact h)
  rw [encodeChar_symbol t.1, t.2, UInt8.ofNat_toNat]
  exact ⟨t.1, rfl⟩

theorem sextets_encodeChars (offset : Nat) {ss : List Nat} (h : ∀ s ∈ ss, s < 64) :
    sextets offset (Utf8.encodeChars (ss.map symbol)) = .ok ss := by
  induction ss generalizing offset with
  | nil => rfl
  | cons s ss ih =>
    have hs : s < 64 := h s List.mem_cons_self
    have ht := ih (offset + 1) fun t ht => h t (List.mem_cons_of_mem s ht)
    have e : Utf8.encodeChars ((s :: ss).map symbol) =
        .ofNat (symbol s).toNat :: Utf8.encodeChars (ss.map symbol) := by
      rw [List.map_cons, Utf8.encodeChars, List.flatMap_cons, encodeChar_symbol hs]
      rfl
    rw [e, sextets, (symbol_table s hs).2]
    simp only [ht]
    rfl

theorem eq_of_sextets {offset : Nat} {bs : List UInt8} {ss : List Nat}
    (h : sextets offset bs = .ok ss) :
    (∀ s ∈ ss, s < 64) ∧ bs = Utf8.encodeChars (ss.map symbol) := by
  induction bs generalizing offset ss with
  | nil =>
    cases h
    exact ⟨by simp, rfl⟩
  | cons b bs ih =>
    rw [sextets] at h
    cases hb : sextet? b with
    | none => rw [hb] at h; cases h
    | some s =>
      rw [hb] at h
      cases ht : sextets (offset + 1) bs with
      | error f => simp only [ht] at h; cases h
      | ok ts =>
        simp only [ht] at h
        cases h
        obtain ⟨hs, he⟩ := eq_of_sextet? hb
        obtain ⟨hall, rfl⟩ := ih ht
        refine ⟨?_, ?_⟩
        · intro t hmem
          rcases List.mem_cons.1 hmem with rfl | hmem
          · exact hs
          · exact hall t hmem
        · change _ = Utf8.encodeChar (symbol s) ++ Utf8.encodeChars (ts.map symbol)
          rw [he]
          rfl

theorem lt_of_mem_toSextets {bs : List UInt8} {s : Nat} (h : s ∈ toSextets bs) : s < 64 := by
  induction bs using toSextets.induct with
  | case1 => cases h
  | case2 a =>
    have ha := a.toNat_lt
    simp only [toSextets, List.mem_cons, List.not_mem_nil, or_false] at h
    omega
  | case3 a b =>
    have ha := a.toNat_lt
    have hb := b.toNat_lt
    simp only [toSextets, List.mem_cons, List.not_mem_nil, or_false] at h
    omega
  | case4 a b c bs ih =>
    have ha := a.toNat_lt
    have hb := b.toNat_lt
    have hc := c.toNat_lt
    simp only [toSextets, List.mem_cons] at h
    rcases h with h | h | h | h | h
    · omega
    · omega
    · omega
    · omega
    · exact ih h

/-- A single group of bits is left over from no octets. -/
theorem length_toSextets (bs : List UInt8) : (toSextets bs).length % 4 ≠ 1 := by
  induction bs using toSextets.induct with
  | case1 => decide
  | case2 a => simp [toSextets]
  | case3 a b => simp [toSextets]
  | case4 a b c bs ih =>
    simp only [toSextets, List.length_cons]
    omega

/-- Four groups of bits for three octets; those left over are rounded up. -/
theorem length_toSextets_eq (bs : List UInt8) : (toSextets bs).length = (4 * bs.length + 2) / 3 := by
  induction bs using toSextets.induct with
  | case1 => rfl
  | case2 a => simp [toSextets]
  | case3 a b => simp [toSextets]
  | case4 a b c bs ih =>
    simp only [toSextets, List.length_cons, ih]
    omega

theorem ofSextets?_toSextets (bs : List UInt8) : ofSextets? (toSextets bs) = some bs := by
  induction bs using toSextets.induct with
  | case1 => rfl
  | case2 a =>
    have ha : a.toNat / 4 * 4 + a.toNat % 4 * 16 / 16 = a.toNat := by omega
    rw [toSextets, ofSextets?, if_pos (by omega), ha, UInt8.ofNat_toNat]
  | case3 a b =>
    have hb := b.toNat_lt
    have e1 : a.toNat / 4 * 4 + (a.toNat % 4 * 16 + b.toNat / 16) / 16 = a.toNat := by omega
    have e2 : (a.toNat % 4 * 16 + b.toNat / 16) % 16 * 16 + b.toNat % 16 * 4 / 4 = b.toNat := by
      omega
    rw [toSextets, ofSextets?, if_pos (by omega), e1, e2, UInt8.ofNat_toNat, UInt8.ofNat_toNat]
  | case4 a b c bs ih =>
    have hb := b.toNat_lt
    have hc := c.toNat_lt
    have e1 : a.toNat / 4 * 4 + (a.toNat % 4 * 16 + b.toNat / 16) / 16 = a.toNat := by omega
    have e2 : (a.toNat % 4 * 16 + b.toNat / 16) % 16 * 16 +
        (b.toNat % 16 * 4 + c.toNat / 64) / 4 = b.toNat := by omega
    have e3 : (b.toNat % 16 * 4 + c.toNat / 64) % 4 * 64 + c.toNat % 64 = c.toNat := by omega
    rw [toSextets, ofSextets?, ih, Option.map_some, e1, e2, e3]
    simp only [UInt8.ofNat_toNat]

theorem eq_of_ofSextets? {ss : List Nat} {bs : List UInt8} (hs : ∀ s ∈ ss, s < 64)
    (h : ofSextets? ss = some bs) : ss = toSextets bs := by
  induction ss using ofSextets?.induct generalizing bs with
  | case1 => cases h; rfl
  | case2 => cases h
  | case3 w x hx =>
    rw [ofSextets?, if_pos hx] at h
    cases h
    have hw := hs w (by simp)
    have hx' := hs x (by simp)
    have e : (UInt8.ofNat (w * 4 + x / 16)).toNat = w * 4 + x / 16 :=
      Utf8.toNat_ofNat_of_lt (by omega)
    rw [toSextets, e, show (w * 4 + x / 16) / 4 = w by omega,
      show (w * 4 + x / 16) % 4 * 16 = x by omega]
  | case4 w x hx =>
    rw [ofSextets?, if_neg hx] at h
    cases h
  | case5 w x y hy =>
    rw [ofSextets?, if_pos hy] at h
    cases h
    have hw := hs w (by simp)
    have hx := hs x (by simp)
    have hy' := hs y (by simp)
    have e1 : (UInt8.ofNat (w * 4 + x / 16)).toNat = w * 4 + x / 16 :=
      Utf8.toNat_ofNat_of_lt (by omega)
    have e2 : (UInt8.ofNat (x % 16 * 16 + y / 4)).toNat = x % 16 * 16 + y / 4 :=
      Utf8.toNat_ofNat_of_lt (by omega)
    rw [toSextets, e1, e2, show (w * 4 + x / 16) / 4 = w by omega,
      show (w * 4 + x / 16) % 4 * 16 + (x % 16 * 16 + y / 4) / 16 = x by omega,
      show (x % 16 * 16 + y / 4) % 16 * 4 = y by omega]
  | case6 w x y hy =>
    rw [ofSextets?, if_neg hy] at h
    cases h
  | case7 w x y z ss ih =>
    rw [ofSextets?] at h
    obtain ⟨cs, hc, rfl⟩ := Option.map_eq_some_iff.1 h
    have hw := hs w (by simp)
    have hx := hs x (by simp)
    have hy := hs y (by simp)
    have hz := hs z (by simp)
    have e1 : (UInt8.ofNat (w * 4 + x / 16)).toNat = w * 4 + x / 16 :=
      Utf8.toNat_ofNat_of_lt (by omega)
    have e2 : (UInt8.ofNat (x % 16 * 16 + y / 4)).toNat = x % 16 * 16 + y / 4 :=
      Utf8.toNat_ofNat_of_lt (by omega)
    have e3 : (UInt8.ofNat (y % 4 * 64 + z)).toNat = y % 4 * 64 + z :=
      Utf8.toNat_ofNat_of_lt (by omega)
    have tail : ss = toSextets cs := ih (fun s hm => hs s (by simp [hm])) hc
    rw [toSextets, e1, e2, e3, ← tail, show (w * 4 + x / 16) / 4 = w by omega,
      show (w * 4 + x / 16) % 4 * 16 + (x % 16 * 16 + y / 4) / 16 = x by omega,
      show (x % 16 * 16 + y / 4) % 16 * 4 + (y % 4 * 64 + z) / 64 = y by omega,
      show (y % 4 * 64 + z) % 64 = z by omega]

theorem utf8_encode (bs : List UInt8) :
    Utf8.encode (encode bs) = Utf8.encodeChars ((toSextets bs).map symbol) := by
  rw [Utf8.encode, encode, String.toList_ofList]

/-- Reading gives octets exactly for their writing. -/
theorem decode_eq_ok_iff {text octets : List UInt8} :
    decode text = .ok octets ↔ text = Utf8.encode (encode octets) := by
  rw [utf8_encode]
  constructor
  · intro h
    unfold decode at h
    cases hl : text.getLast? with
    | none =>
      rw [hl] at h
      cases h
      exact List.getLast?_eq_none_iff.1 hl
    | some last =>
      simp only [hl] at h
      by_cases hc : text.length % 4 = 1 ∧ sextet? last = none
      · rw [if_pos hc] at h
        cases h
      · rw [if_neg hc] at h
        cases hs : sextets 0 text with
        | error f => rw [hs] at h; cases h
        | ok ss =>
          rw [hs] at h
          cases ho : ofSextets? ss with
          | none => simp only [Except.bind, ho] at h; cases h
          | some bs =>
            simp only [Except.bind, ho] at h
            cases h
            obtain ⟨hall, htext⟩ := eq_of_sextets hs
            rw [htext, eq_of_ofSextets? hall ho]
  · intro h
    have hs : sextets 0 text = .ok (toSextets octets) := by
      rw [h]
      exact sextets_encodeChars 0 fun s => lt_of_mem_toSextets
    unfold decode
    cases hl : text.getLast? with
    | none =>
      rw [List.getLast?_eq_none_iff.1 hl, sextets] at hs
      have ho := ofSextets?_toSextets octets
      rw [← Except.ok.inj hs] at ho
      exact congrArg Except.ok (Option.some.inj ho)
    | some last =>
      -- the last symbol is a symbol, so that the check of the length alone does not refuse
      have hlast : sextet? last ≠ none := by
        intro hn
        have hm : last ∈ Utf8.encodeChars ((toSextets octets).map symbol) :=
          h ▸ List.mem_of_getLast? hl
        obtain ⟨c, hc, hb⟩ := List.mem_flatMap.1 hm
        obtain ⟨s, hs, rfl⟩ := List.mem_map.1 hc
        have hlt := lt_of_mem_toSextets hs
        rw [encodeChar_symbol hlt, List.mem_singleton] at hb
        rw [hb, (symbol_table s hlt).2] at hn
        cases hn
      simp only [hlast, and_false, if_false, hs, Except.bind, ofSextets?_toSextets]

end Rendezvous.Text.Base64Url
