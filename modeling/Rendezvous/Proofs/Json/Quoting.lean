import Rendezvous.Json.Scan
import Rendezvous.Json.Value
import Rendezvous.Proofs.Text.Utf8

namespace Rendezvous.Json

open Text.Utf8

inductive Escape (c : Char) : List Char → Prop where
  | plain (printable : 0x20 ≤ c.toNat) (unquoted : c ≠ '"') (unslashed : c ≠ '\\') : Escape c [c]
  | letter (e : Char) (ascii : e.toNat < 0x80)
      (stands : Scan.escaped? (.ofNat e.toNat) = some c) : Escape c ['\\', e]
  | code (control : c.toNat < 0x20) : Escape c
      ['\\', 'u', '0', '0', Numeral.Hexadecimal.digitChar (c.toNat / 16),
        Numeral.Hexadecimal.digitChar (c.toNat % 16)]

theorem escape_form (c : Char) : Escape c (escape c) := by
  unfold escape
  split_ifs with quoted slashed h1 h2 h3 h4 h5 control
  · exact .letter '"' (by decide) (by rw [quoted]; rfl)
  · exact .letter '\\' (by decide) (by rw [slashed]; rfl)
  · exact .letter 'b' (by decide) (by rw [h1]; rfl)
  · exact .letter 'f' (by decide) (by rw [h2]; rfl)
  · exact .letter 'n' (by decide) (by rw [h3]; rfl)
  · exact .letter 'r' (by decide) (by rw [h4]; rfl)
  · exact .letter 't' (by decide) (by rw [h5]; rfl)
  · exact .code control
  · exact .plain (Nat.not_lt.mp control) quoted slashed

/-- The octets of a character that stands for itself in a string. -/
def IsPlain (b : UInt8) : Prop := b ≠ 0x22 ∧ b ≠ 0x5c ∧ ¬b < 0x20

theorem isPlain_of_mem {c : Char} (printable : 0x20 ≤ c.toNat) (unquoted : c ≠ '"')
    (unslashed : c ≠ '\\') {b : UInt8} (h : b ∈ encodeChar c) : IsPlain b := by
  have ne_of {d : Char} (hne : c ≠ d) : c.toNat ≠ d.toNat := fun e => hne (Char.toNat_inj.mp e)
  have hquote := ne_of unquoted
  have hslash := ne_of unslashed
  have hb := mem_encodeChar h
  refine ⟨?_, ?_, ?_⟩
  · rintro rfl
    exact hb.elim (fun e => hquote e.symm) (by decide)
  · rintro rfl
    exact hb.elim (fun e => hslash e.symm) (by decide)
  · rw [UInt8.lt_iff_toNat_lt]
    change ¬b.toNat < 0x20
    omega

theorem encodeChars_letter {e : Char} (ascii : e.toNat < 0x80) :
    encodeChars ['\\', e] = [0x5c, .ofNat e.toNat] := by
  rw [encodeChars_cons, encodeChars_cons, encodeChar_of_lt ascii]
  rfl

theorem hexDigit_table : ∀ d < 16, (Numeral.Hexadecimal.digitChar d).toNat < 0x80 ∧
    Numeral.Hexadecimal.digit? (.ofNat (Numeral.Hexadecimal.digitChar d).toNat) = some d := by
  decide +kernel

theorem encodeChars_code {n : Nat} (h : n < 256) : ∃ high low,
    encodeChars ['\\', 'u', '0', '0', Numeral.Hexadecimal.digitChar (n / 16),
      Numeral.Hexadecimal.digitChar (n % 16)] = [0x5c, 0x75, 0x30, 0x30, high, low] ∧
    ∀ rest, Scan.hex4? (0x30 :: 0x30 :: high :: low :: rest) = some (n, rest) := by
  obtain ⟨ascii, hhigh⟩ := hexDigit_table (n / 16) (by omega)
  obtain ⟨ascii', hlow⟩ := hexDigit_table (n % 16) (by omega)
  refine ⟨.ofNat (Numeral.Hexadecimal.digitChar (n / 16)).toNat,
    .ofNat (Numeral.Hexadecimal.digitChar (n % 16)).toNat, ?_, fun rest => ?_⟩
  · simp only [encodeChars_cons, encodeChar_of_lt ascii, encodeChar_of_lt ascii']
    rfl
  · have hzero : Numeral.Hexadecimal.digit? 0x30 = some 0 := rfl
    have hsum : ((0 * 16 + 0) * 16 + n / 16) * 16 + n % 16 = n := by omega
    simp only [Scan.hex4?, hzero, hhigh, hlow, bind, Option.bind_some, hsum]
    rfl

/-- No character starts like the closing quotation mark. -/
theorem exists_encodeChars_escape (c : Char) :
    ∃ b bs, encodeChars (escape c) = b :: bs ∧ b ≠ 0x22 := by
  have form := escape_form c
  generalize escape c = cs at form
  cases form with
  | plain printable unquoted unslashed =>
    cases hc : encodeChar c with
    | nil => exact absurd hc (encodeChar_ne_nil c)
    | cons b bs =>
      refine ⟨b, bs, by rw [encodeChars_cons, hc]; exact List.append_nil _, ?_⟩
      exact (isPlain_of_mem printable unquoted unslashed (hc ▸ List.mem_cons_self)).1
  | letter e ascii => exact ⟨_, _, encodeChars_letter ascii, by decide⟩
  | code control =>
    obtain ⟨high, low, hcode, -⟩ := encodeChars_code (Nat.lt_trans control (by decide))
    exact ⟨_, _, hcode, by decide⟩

theorem character?_escape (c : Char) (rest : List UInt8) :
    Scan.character? (encodeChars (escape c) ++ rest) = some (c, rest) := by
  have form := escape_form c
  generalize escape c = cs at form
  cases form with
  | plain printable unquoted unslashed =>
    have plain := @isPlain_of_mem c printable unquoted unslashed
    have front := front?_encodeChar c rest
    rw [encodeChars_cons, show encodeChars [] = [] from rfl, List.append_nil]
    cases hc : encodeChar c with
    | nil => exact absurd hc (encodeChar_ne_nil c)
    | cons b bs =>
      obtain ⟨-, hslash, hcontrol⟩ := plain (hc ▸ List.mem_cons_self)
      rw [hc] at front
      rw [List.cons_append, Scan.character?.eq_def]
      exact (if_neg hslash).trans ((if_neg hcontrol).trans front)
  | letter e ascii stands =>
    have hu : UInt8.ofNat e.toNat ≠ 0x75 := by
      intro he
      rw [he] at stands
      cases stands
    rw [encodeChars_letter ascii]
    simp only [List.cons_append, List.nil_append, Scan.character?, if_neg hu, stands]
    rfl
  | code control =>
    obtain ⟨high, low, hcode, hhex⟩ := encodeChars_code (Nat.lt_trans control (by decide))
    rw [hcode]
    simp only [List.cons_append, List.nil_append, Scan.character?, Scan.codePoint?, hhex]
    -- a control is no surrogate
    have hsurrogate : ¬(0xdc00 ≤ c.toNat ∧ c.toNat ≤ 0xdfff) := by omega
    have hbasic : c.toNat < 0xd800 ∨ 0xdbff < c.toNat := by omega
    simp only [if_true, if_neg hsurrogate, if_pos hbasic, Char.ofNat_toNat]

theorem characters?_of_character? {b : UInt8} {bs rest : List UInt8} {c : Char} (hb : b ≠ 0x22)
    (h : Scan.character? (b :: bs) = some (c, rest)) :
    Scan.characters? (b :: bs) = (Scan.characters? rest).map fun (cs, rest) => (c :: cs, rest) := by
  rw [Scan.characters?, if_neg hb]
  split
  · next hn => cases h.symm.trans hn
  · next d r hs => cases h.symm.trans hs; rfl

theorem characters?_flatMap_escape (cs : List Char) (rest : List UInt8) :
    Scan.characters? (encodeChars (cs.flatMap escape) ++ 0x22 :: rest) = some (cs, rest) := by
  induction cs with
  | nil =>
    rw [List.flatMap_nil, show encodeChars [] = [] from rfl, List.nil_append, Scan.characters?]
    rfl
  | cons c cs ih =>
    rw [List.flatMap_cons, encodeChars_append, List.append_assoc]
    have h := character?_escape c (encodeChars (cs.flatMap escape) ++ 0x22 :: rest)
    obtain ⟨b, bs, hstart, hb⟩ := exists_encodeChars_escape c
    rw [hstart, List.cons_append] at h ⊢
    rw [characters?_of_character? hb h, ih]
    rfl

theorem encodeChars_quote_append (s : String) (rest : List UInt8) :
    encodeChars (quote s) ++ rest =
      0x22 :: (encodeChars (s.toList.flatMap escape) ++ 0x22 :: rest) := by
  rw [quote, List.cons_append, encodeChars_cons, encodeChars_append, List.append_assoc,
    List.append_assoc]
  rfl

theorem string?_quote (s : String) (rest : List UInt8) :
    Scan.string? (encodeChars (s.toList.flatMap escape) ++ 0x22 :: rest) = some (s, rest) := by
  rw [Scan.string?, characters?_flatMap_escape]
  exact congrArg (fun t => some (t, rest)) String.ofList_toList

theorem skipString?_of_isPlain {bs : List UInt8} (h : ∀ b ∈ bs, IsPlain b) (rest : List UInt8) :
    Scan.skipString? (bs ++ rest) = Scan.skipString? rest := by
  induction bs with
  | nil => rfl
  | cons b bs ih =>
    obtain ⟨hquote, hslash, hcontrol⟩ := h b List.mem_cons_self
    rw [List.cons_append, Scan.skipString?.eq_def]
    simp only [if_neg hquote, if_neg hslash, if_neg hcontrol]
    exact ih fun b hb => h b (List.mem_cons_of_mem _ hb)

theorem skipString?_escape (c : Char) (rest : List UInt8) :
    Scan.skipString? (encodeChars (escape c) ++ rest) = Scan.skipString? rest := by
  have form := escape_form c
  generalize escape c = cs at form
  cases form with
  | plain printable unquoted unslashed =>
    rw [encodeChars_cons, show encodeChars [] = [] from rfl, List.append_nil]
    exact skipString?_of_isPlain (fun b hb => isPlain_of_mem printable unquoted unslashed hb) rest
  | letter e ascii stands =>
    have hu : UInt8.ofNat e.toNat ≠ 0x75 := by
      intro he
      rw [he] at stands
      cases stands
    rw [encodeChars_letter ascii, List.cons_append, List.cons_append, List.nil_append,
      Scan.skipString?.eq_def]
    simp [hu, stands]
  | code control =>
    obtain ⟨high, low, hcode, hhex⟩ := encodeChars_code (Nat.lt_trans control (by decide))
    rw [hcode, List.cons_append, Scan.skipString?.eq_def]
    simp [hhex]

theorem skipString?_quote (s : String) (rest : List UInt8) :
    Scan.skipString? (encodeChars (s.toList.flatMap escape) ++ 0x22 :: rest) = some rest := by
  induction s.toList with
  | nil =>
    rw [List.flatMap_nil, show encodeChars [] = [] from rfl, List.nil_append,
      Scan.skipString?.eq_def]
    rfl
  | cons c cs ih =>
    rw [List.flatMap_cons, encodeChars_append, List.append_assoc, skipString?_escape, ih]

end Rendezvous.Json
