import Rendezvous.Proofs.Text.Utf8
import Rendezvous.Text.Percent

namespace Rendezvous.Text.Percent

open Numeral.Hexadecimal Utf8

def startsWithDigits : List UInt8 → Bool
  | a :: b :: _ => (digit? a).isSome && (digit? b).isSome
  | _ => false

theorem decode_percent_cons {bs : List UInt8} (h : startsWithDigits bs = false) :
    decode (0x25 :: bs) = 0x25 :: decode bs := by
  match bs, h with
  | [], _ | [_], _ => rfl
  | a :: b :: bs, h =>
    rw [decode]
    split
    · next hx hy => simp [startsWithDigits, hx, hy] at h
    · rfl

theorem decode_cons {b : UInt8} (h : b ≠ 0x25) (bs : List UInt8) :
    decode (b :: bs) = b :: decode bs := by
  rw [decode]
  exact fun _ _ _ e _ => h e

theorem decode_escape {a b : UInt8} {x y : Nat} (ha : digit? a = some x) (hb : digit? b = some y)
    (bs : List UInt8) : decode (0x25 :: a :: b :: bs) = .ofNat (16 * x + y) :: decode bs := by
  rw [decode, ha, hb]

theorem length_decode_le (bs : List UInt8) : (decode bs).length ≤ bs.length := by
  fun_induction decode bs with
  | case1 => exact Nat.le_refl _
  | case2 a b bs x y _ _ ih => simp only [List.length_cons]; omega
  | case3 a b bs _ ih => exact Nat.succ_le_succ ih
  | case4 a bs _ ih => exact Nat.succ_le_succ ih

theorem decode_of_not_mem {bs : List UInt8} (h : 0x25 ∉ bs) : decode bs = bs := by
  fun_induction decode bs with
  | case1 => rfl
  | case2 | case3 => exact absurd List.mem_cons_self h
  | case4 a bs _ ih => rw [ih fun hmem => h (List.mem_cons_of_mem _ hmem)]

theorem encode_eq_self {escaped : Char → Bool} {cs : List Char}
    (h : ∀ c ∈ cs, escaped c = false) : encode escaped cs = cs := by
  induction cs with
  | nil => rfl
  | cons c cs ih =>
    rw [encode, List.flatMap_cons, if_neg (by simp [h c List.mem_cons_self])]
    exact congrArg (c :: ·) (ih fun d hd => h d (List.mem_cons_of_mem c hd))

theorem encodeChars_escape (b : UInt8) : ∃ high low,
    encodeChars (escape b) = [0x25, high, low] ∧
      digit? high = some (b.toNat / 16) ∧ digit? low = some (b.toNat % 16) := by
  have table : ∀ d < 16, (digitChar d).toUpper.toNat < 0x80 ∧
      digit? (.ofNat (digitChar d).toUpper.toNat) = some d := by
    decide +kernel
  have hb := b.toNat_lt
  obtain ⟨ascii, hhigh⟩ := table (b.toNat / 16) (by omega)
  obtain ⟨ascii', hlow⟩ := table (b.toNat % 16) (by omega)
  refine ⟨_, _, ?_, hhigh, hlow⟩
  simp only [escape, encodeChars_cons, encodeChar_of_lt ascii, encodeChar_of_lt ascii']
  rfl

def escapeOctets (escaped : UInt8 → Bool) (bs : List UInt8) : List UInt8 :=
  bs.flatMap fun b => if escaped b then encodeChars (escape b) else [b]

section
variable {escaped : UInt8 → Bool} {b : UInt8} {bs : List UInt8}

theorem escapeOctets_cons_of_escaped (h : escaped b = true) :
    escapeOctets escaped (b :: bs) = encodeChars (escape b) ++ escapeOctets escaped bs := by
  rw [escapeOctets, List.flatMap_cons, if_pos h, escapeOctets]

theorem escapeOctets_cons_of_plain (h : escaped b = false) :
    escapeOctets escaped (b :: bs) = b :: escapeOctets escaped bs := by
  rw [escapeOctets, List.flatMap_cons, if_neg (by simp [h]), escapeOctets]
  rfl

theorem decode_escapeOctets_cons (h : escaped b = true) :
    decode (escapeOctets escaped (b :: bs)) = b :: decode (escapeOctets escaped bs) := by
  obtain ⟨high, low, hb, hhigh, hlow⟩ := encodeChars_escape b
  have hvalue : UInt8.ofNat (16 * (b.toNat / 16) + b.toNat % 16) = b := by
    rw [Nat.div_add_mod, UInt8.ofNat_toNat]
  rw [escapeOctets_cons_of_escaped h, hb]
  exact (decode_escape hhigh hlow _).trans (by rw [hvalue]; rfl)

variable (digits : ∀ b, (digit? b).isSome → escaped b = false)
include digits

theorem startsWithDigits_escapeOctets (bs : List UInt8) :
    startsWithDigits (escapeOctets escaped bs) = startsWithDigits bs := by
  have hnone {b : UInt8} (h : escaped b = true) : digit? b = none := by
    cases hb : digit? b with
    | none => rfl
    | some d => rw [digits b (by simp [hb])] at h; cases h
  have hpercent : digit? 0x25 = none := rfl
  match bs with
  | [] => rfl
  | a :: bs =>
    by_cases ha : escaped a = true
    · obtain ⟨high, low, hescape, -⟩ := encodeChars_escape a
      rw [escapeOctets_cons_of_escaped ha, hescape]
      cases bs <;> simp [startsWithDigits, hnone ha, hpercent]
    · rw [escapeOctets_cons_of_plain (by simpa using ha)]
      match bs with
      | [] => rfl
      | b :: bs =>
        by_cases hb : escaped b = true
        · obtain ⟨high, low, hescape, -⟩ := encodeChars_escape b
          rw [escapeOctets_cons_of_escaped hb, hescape]
          simp [startsWithDigits, hnone hb, hpercent]
        · rw [escapeOctets_cons_of_plain (by simpa using hb)]
          rfl

/-- Escapes are undone where those that were there before stay as they are. -/
theorem decode_escapeOctets (percent : escaped 0x25 = false) (bs : List UInt8) :
    decode (escapeOctets escaped bs) = decode bs := by
  have hplain {b : UInt8} {d : Nat} (h : digit? b = some d) : escaped b = false :=
    digits b (by simp [h])
  fun_induction decode bs with
  | case1 => rfl
  | case2 a b bs x y hb ha ih =>
    rw [escapeOctets_cons_of_plain percent, escapeOctets_cons_of_plain (hplain ha),
      escapeOctets_cons_of_plain (hplain hb), decode_escape ha hb, ih]
  | case3 a b bs hdigits ih =>
    have hstart : startsWithDigits (a :: b :: bs) = false := by
      cases hx : digit? a <;> cases hy : digit? b <;> simp [startsWithDigits, hx, hy]
      exact hdigits _ _ hx hy
    rw [escapeOctets_cons_of_plain percent, decode_percent_cons, ih]
    rw [startsWithDigits_escapeOctets digits, hstart]
  | case4 a bs hshort ih =>
    by_cases ha : escaped a = true
    · rw [decode_escapeOctets_cons ha, ih]
    rw [escapeOctets_cons_of_plain (by simpa using ha)]
    by_cases hpercent : a = 0x25
    · subst hpercent
      have hstart : startsWithDigits bs = false := by
        match bs, hshort with
        | [], _ | [_], _ => rfl
        | b :: c :: bs, hshort => exact (hshort b c bs rfl rfl).elim
      rw [decode_percent_cons, ih]
      rw [startsWithDigits_escapeOctets digits, hstart]
    · rw [decode_cons hpercent, ih]

end

theorem encodeChars_encode {escaped : Char → Bool}
    (foreign : ∀ c, 0x80 ≤ c.toNat → escaped c = true) (cs : List Char) :
    encodeChars (encode escaped cs) =
      escapeOctets (fun b => escaped (Char.ofNat b.toNat)) (encodeChars cs) := by
  have hchar (c : Char) : encodeChars (if escaped c then (encodeChar c).flatMap escape else [c]) =
      escapeOctets (fun b => escaped (Char.ofNat b.toNat)) (encodeChar c) := by
    by_cases hascii : c.toNat < 0x80
    · have hc : Char.ofNat (UInt8.ofNat c.toNat).toNat = c := by
        rw [toNat_ofNat_of_lt (by omega), Char.ofNat_toNat]
      rw [encodeChar_of_lt hascii, escapeOctets, List.flatMap_singleton, List.flatMap_singleton, hc]
      split
      · rfl
      · rw [encodeChars, List.flatMap_singleton, encodeChar_of_lt hascii]
    · have hoctets : ∀ b ∈ encodeChar c, escaped (Char.ofNat b.toNat) = true := fun b hb => by
        have hlt := b.toNat_lt
        refine foreign _ ?_
        rw [toNat_ofNat_of_isValidChar (Or.inl (by omega))]
        rcases mem_encodeChar hb with h | h <;> omega
      rw [if_pos (foreign c (by omega)), encodeChars, List.flatMap_assoc, escapeOctets]
      rw [List.flatMap_def, List.flatMap_def, List.map_congr_left fun b hb => ?_]
      rw [if_pos (hoctets b hb)]
      rfl
  induction cs with
  | nil => rfl
  | cons c cs ih =>
    rw [encode, List.flatMap_cons, encodeChars_append, hchar, encodeChars_cons, escapeOctets,
      escapeOctets, List.flatMap_append]
    exact congrArg _ ih

end Rendezvous.Text.Percent
