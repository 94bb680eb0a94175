import Mathlib.Data.List.Flatten
import Mathlib.Tactic.Common
import Rendezvous.Text.Utf8

namespace Rendezvous.Text.Utf8

theorem toNat_ofNat_of_lt {n : Nat} (h : n < 256) : (UInt8.ofNat n).toNat = n :=
  UInt8.toNat_ofNat_of_lt' h

theorem toNat_ofNat_of_isValidChar {n : Nat} (h : n.isValidChar) : (Char.ofNat n).toNat = n := by
  rw [Char.ofNat, dif_pos h]
  rfl

theorem continuation?_ofNat (n : Nat) : continuation? (.ofNat (0x80 + n % 64)) = some (n % 64) := by
  have h : 0x80 + n % 64 < 256 := by omega
  have e : (UInt8.ofNat (0x80 + n % 64)).toNat = 0x80 + n % 64 := toNat_ofNat_of_lt h
  rw [continuation?, e, if_pos (by omega), Nat.add_sub_cancel_left]

theorem eq_of_continuation? {b : UInt8} {n : Nat} (h : continuation? b = some n) :
    n < 64 ∧ b = .ofNat (0x80 + n) := by
  unfold continuation? at h
  split at h
  · next hb =>
    have hn : b.toNat - 0x80 = n := Option.some.inj h
    refine ⟨by omega, ?_⟩
    rw [← hn, Nat.add_sub_cancel' hb.1, UInt8.ofNat_toNat]
  · cases h

theorem scalarAbove?_toNat {least : Nat} (c : Char) (h : least ≤ c.toNat) :
    scalarAbove? least c.toNat = some c := by
  rw [scalarAbove?, if_pos ⟨h, c.valid⟩, Char.ofNat_toNat]

theorem eq_of_scalarAbove? {least n : Nat} {c : Char} (h : scalarAbove? least n = some c) :
    least ≤ n ∧ c.toNat = n := by
  unfold scalarAbove? at h
  split at h
  · next hn =>
    refine ⟨hn.1, ?_⟩
    rw [← Option.some.inj h, toNat_ofNat_of_isValidChar hn.2]
  · cases h

theorem toNat_lt (c : Char) : c.toNat < 0x110000 := by
  rcases c.valid with h | h
  · exact Nat.lt_trans h (by decide)
  · exact h.2

theorem encodeChars_cons (c : Char) (cs : List Char) :
    encodeChars (c :: cs) = encodeChar c ++ encodeChars cs :=
  List.flatMap_cons

theorem encodeChar_of_lt {c : Char} (h : c.toNat < 0x80) : encodeChar c = [.ofNat c.toNat] :=
  if_pos h

/-- A character is written in its own octet, or in octets that are no ASCII characters. -/
theorem mem_encodeChar {c : Char} {b : UInt8} (h : b ∈ encodeChar c) :
    b.toNat = c.toNat ∨ 0x80 ≤ b.toNat := by
  have hlt := toNat_lt c
  unfold encodeChar at h
  dsimp only at h
  split_ifs at h
  · have hb := List.mem_singleton.mp h
    exact .inl (hb ▸ toNat_ofNat_of_lt (by omega))
  all_goals
    simp only [List.mem_cons, List.not_mem_nil, or_false] at h
    right
  · rcases h with rfl | rfl <;> rw [toNat_ofNat_of_lt (by omega)] <;> omega
  · rcases h with rfl | rfl | rfl <;> rw [toNat_ofNat_of_lt (by omega)] <;> omega
  · rcases h with rfl | rfl | rfl | rfl <;> rw [toNat_ofNat_of_lt (by omega)] <;> omega

theorem encodeChar_ne_nil (c : Char) : encodeChar c ≠ [] := by
  unfold encodeChar
  dsimp only
  split_ifs <;> simp

theorem encodeChars_of_lt {cs : List Char} (h : ∀ c ∈ cs, c.toNat < 0x80) :
    encodeChars cs = cs.map fun c => .ofNat c.toNat := by
  induction cs with
  | nil => rfl
  | cons c cs ih =>
    have hc := encodeChar_of_lt (h c List.mem_cons_self)
    rw [encodeChars_cons, hc, ih fun d hd => h d (List.mem_cons_of_mem c hd)]
    rfl

theorem toNat_lt_of_encodeChar {c : Char} (h : ∀ b ∈ encodeChar c, b.toNat < 0x80) :
    c.toNat < 0x80 := by
  obtain ⟨b, hb⟩ := List.exists_mem_of_ne_nil _ (encodeChar_ne_nil c)
  have hlt := h b hb
  rcases mem_encodeChar hb with heq | hge
  · exact heq ▸ hlt
  · omega

theorem front?_two {a b : UInt8} {rest : List UInt8} (h : 0xc0 ≤ a.toNat) (h' : a.toNat < 0xe0) :
    front? (a :: b :: rest) =
      (continuation? b).bind fun x =>
        (scalarAbove? 0x80 ((a.toNat - 0xc0) * 64 + x)).bind fun c => some (c, rest) := by
  simp only [front?]
  rw [if_neg (by omega), if_neg (by omega), if_pos h']
  rfl

theorem front?_three {a b c : UInt8} {rest : List UInt8} (h : 0xe0 ≤ a.toNat)
    (h' : a.toNat < 0xf0) :
    front? (a :: b :: c :: rest) =
      (continuation? b).bind fun x => (continuation? c).bind fun y =>
        (scalarAbove? 0x800 ((a.toNat - 0xe0) * 4096 + x * 64 + y)).bind fun d =>
          some (d, rest) := by
  simp only [front?]
  rw [if_neg (by omega), if_neg (by omega), if_neg (by omega), if_pos h']
  rfl

theorem front?_four {a b c d : UInt8} {rest : List UInt8} (h : 0xf0 ≤ a.toNat) :
    front? (a :: b :: c :: d :: rest) =
      (continuation? b).bind fun x => (continuation? c).bind fun y =>
        (continuation? d).bind fun z =>
          (scalarAbove? 0x10000 ((a.toNat - 0xf0) * 262144 + x * 4096 + y * 64 + z)).bind fun e =>
            some (e, rest) := by
  simp only [front?]
  rw [if_neg (by omega), if_neg (by omega), if_neg (by omega), if_neg (by omega)]
  rfl

/-- A character is read back whatever follows it. -/
theorem front?_encodeChar (c : Char) (rest : List UInt8) :
    front? (encodeChar c ++ rest) = some (c, rest) := by
  have hlt := toNat_lt c
  unfold encodeChar
  simp only
  split_ifs with h1 h2 h3
  · have ha : (UInt8.ofNat c.toNat).toNat = c.toNat := toNat_ofNat_of_lt (by omega)
    simp only [List.cons_append, List.nil_append, front?, ha, if_pos h1, Char.ofNat_toNat]
  · have ha : (UInt8.ofNat (0xc0 + c.toNat / 64)).toNat = 0xc0 + c.toNat / 64 :=
      toNat_ofNat_of_lt (by omega)
    have hn : c.toNat / 64 * 64 + c.toNat % 64 = c.toNat := Nat.div_add_mod' ..
    change front? (_ :: _ :: rest) = _
    rw [front?_two (by omega) (by omega), ha, continuation?_ofNat, Nat.add_sub_cancel_left,
      Option.bind_some, hn, scalarAbove?_toNat c (Nat.le_of_not_lt h1), Option.bind_some]
  · have ha : (UInt8.ofNat (0xe0 + c.toNat / 4096)).toNat = 0xe0 + c.toNat / 4096 :=
      toNat_ofNat_of_lt (by omega)
    have hn : c.toNat / 4096 * 4096 + c.toNat / 64 % 64 * 64 + c.toNat % 64 = c.toNat := by omega
    change front? (_ :: _ :: _ :: rest) = _
    rw [front?_three (by omega) (by omega), ha, continuation?_ofNat, continuation?_ofNat,
      Nat.add_sub_cancel_left, Option.bind_some, Option.bind_some, hn,
      scalarAbove?_toNat c (Nat.le_of_not_lt h2), Option.bind_some]
  · have ha : (UInt8.ofNat (0xf0 + c.toNat / 262144)).toNat = 0xf0 + c.toNat / 262144 :=
      toNat_ofNat_of_lt (by omega)
    have hn : c.toNat / 262144 * 262144 + c.toNat / 4096 % 64 * 4096 + c.toNat / 64 % 64 * 64 +
        c.toNat % 64 = c.toNat := by omega
    change front? (_ :: _ :: _ :: _ :: rest) = _
    -- the rewriting is step by step: a simplifier would have products by 262144 computed
    rw [front?_four (by omega), ha, continuation?_ofNat, continuation?_ofNat, continuation?_ofNat,
      Nat.add_sub_cancel_left, Option.bind_some, Option.bind_some, Option.bind_some, hn,
      scalarAbove?_toNat c (Nat.le_of_not_lt h3), Option.bind_some]

theorem eq_of_front? {bs rest : List UInt8} {c : Char} (h : front? bs = some (c, rest)) :
    bs = encodeChar c ++ rest := by
  cases bs with
  | nil => cases h
  | cons a bs =>
    have ha := a.toNat_lt
    rw [front?.eq_def] at h
    simp only at h
    split_ifs at h with h1 h2 h3 h4
    · cases h
      have hn : (Char.ofNat a.toNat).toNat = a.toNat :=
        toNat_ofNat_of_isValidChar (Or.inl (by omega))
      simp [encodeChar, hn, h1]
    · cases bs with
      | nil => cases h
      | cons b bs =>
        simp only [bind, Option.bind_eq_some_iff] at h
        obtain ⟨x, hx, d, hd, h⟩ := h
        cases h
        obtain ⟨hx, rfl⟩ := eq_of_continuation? hx
        obtain ⟨hl, hd⟩ := eq_of_scalarAbove? hd
        have e1 : 0xc0 + c.toNat / 64 = a.toNat := by omega
        have e2 : c.toNat % 64 = x := by omega
        simp only [encodeChar, if_neg (show ¬c.toNat < 0x80 by omega),
          if_pos (show c.toNat < 0x800 by omega), e1, e2, UInt8.ofNat_toNat, List.cons_append,
          List.nil_append]
    · match bs with
      | [] | [_] => cases h
      | b :: b' :: bs =>
        simp only [bind, Option.bind_eq_some_iff] at h
        obtain ⟨x, hx, y, hy, d, hd, h⟩ := h
        cases h
        obtain ⟨hx, rfl⟩ := eq_of_continuation? hx
        obtain ⟨hy, rfl⟩ := eq_of_continuation? hy
        obtain ⟨hl, hd⟩ := eq_of_scalarAbove? hd
        have e1 : 0xe0 + c.toNat / 4096 = a.toNat := by omega
        have e2 : c.toNat / 64 % 64 = x := by omega
        have e3 : c.toNat % 64 = y := by omega
        simp only [encodeChar, if_neg (show ¬c.toNat < 0x80 by omega),
          if_neg (show ¬c.toNat < 0x800 by omega), if_pos (show c.toNat < 0x10000 by omega), e1, e2,
          e3, UInt8.ofNat_toNat, List.cons_append, List.nil_append]
    · match bs with
      | [] | [_] | [_, _] => cases h
      | b :: b' :: b'' :: bs =>
        simp only [bind, Option.bind_eq_some_iff] at h
        obtain ⟨x, hx, y, hy, z, hz, d, hd, h⟩ := h
        cases h
        obtain ⟨hx, rfl⟩ := eq_of_continuation? hx
        obtain ⟨hy, rfl⟩ := eq_of_continuation? hy
        obtain ⟨hz, rfl⟩ := eq_of_continuation? hz
        obtain ⟨hl, hd⟩ := eq_of_scalarAbove? hd
        have e1 : 0xf0 + c.toNat / 262144 = a.toNat := by omega
        have e2 : c.toNat / 4096 % 64 = x := by omega
        have e3 : c.toNat / 64 % 64 = y := by omega
        have e4 : c.toNat % 64 = z := by omega
        simp only [encodeChar, if_neg (show ¬c.toNat < 0x80 by omega),
          if_neg (show ¬c.toNat < 0x800 by omega), if_neg (show ¬c.toNat < 0x10000 by omega), e1,
          e2, e3, e4, UInt8.ofNat_toNat, List.cons_append, List.nil_append]

theorem decodeChars?_of_front? {bs rest : List UInt8} {c : Char} (h : front? bs = some (c, rest)) :
    decodeChars? bs = (decodeChars? rest).map (c :: ·) := by
  cases bs with
  | nil => cases h
  | cons b bs =>
    rw [decodeChars?]
    split
    · next hn => rw [h] at hn; cases hn
    · next d r hs => rw [h] at hs; cases hs; rfl

theorem decodeChars?_encodeChars (cs : List Char) : decodeChars? (encodeChars cs) = some cs := by
  induction cs with
  | nil => rw [encodeChars, List.flatMap_nil, decodeChars?]
  | cons c cs ih =>
    have h := front?_encodeChar c (encodeChars cs)
    rw [encodeChars_cons, decodeChars?_of_front? h, ih, Option.map_some]

theorem eq_of_decodeChars? {bs : List UInt8} {cs : List Char} (h : decodeChars? bs = some cs) :
    bs = encodeChars cs := by
  fun_induction decodeChars? bs generalizing cs with
  | case1 => cases h; rfl
  | case2 => cases h
  | case3 b bs c rest hf ih =>
    obtain ⟨ds, hd, rfl⟩ := Option.map_eq_some_iff.1 h
    rw [eq_of_front? hf, ih hd, encodeChars_cons]

/-- Octets are read as a text exactly if they are the writing of it. -/
theorem decode?_eq_some_iff {bs : List UInt8} {s : String} :
    decode? bs = some s ↔ bs = encode s := by
  constructor
  · intro h
    obtain ⟨cs, hc, rfl⟩ := Option.map_eq_some_iff.1 h
    rw [encode, String.toList_ofList]
    exact eq_of_decodeChars? hc
  · rintro rfl
    rw [decode?, encode, decodeChars?_encodeChars, Option.map_some, String.ofList_toList]

theorem encode_injective {s t : String} (h : encode s = encode t) : s = t := by
  have hs : decode? (encode s) = some s := decode?_eq_some_iff.2 rfl
  have ht : decode? (encode t) = some t := decode?_eq_some_iff.2 rfl
  rw [h, ht] at hs
  exact (Option.some.inj hs).symm

theorem eq_of_sublist_of_length_le {cs ds : List Char} (h : cs.Sublist ds)
    (hlength : (encodeChars ds).length ≤ (encodeChars cs).length) : cs = ds := by
  induction h with
  | slnil => rfl
  | @cons cs ds d h ih =>
    have hd := List.length_pos_iff.mpr (encodeChar_ne_nil d)
    have hle := (h.flatMap encodeChar).length_le
    rw [encodeChars_cons, List.length_append] at hlength
    simp only [encodeChars] at hlength hle
    omega
  | @cons_cons cs ds d h ih =>
    simp only [encodeChars_cons, List.length_append] at hlength
    rw [ih (by omega)]

end Rendezvous.Text.Utf8
