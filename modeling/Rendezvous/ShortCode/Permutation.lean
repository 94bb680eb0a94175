namespace Rendezvous.ShortCode.Permutation

structure Halves where
  left : UInt32
  right : UInt32
deriving DecidableEq, Repr

def Halves.ofWord (w : UInt64) : Halves :=
  ⟨.ofNat (w.toNat / 0x100000000), .ofNat (w.toNat % 0x100000000)⟩

def Halves.toWord (h : Halves) : UInt64 := .ofNat (h.left.toNat * 0x100000000 + h.right.toNat)

def mask (key r : UInt32) : UInt32 := ((r <<< 13) ||| (r >>> 19)) + (r ^^^ key)

/-- One round: the halves change places and the one that goes right is masked. -/
def round (h : Halves) (key : UInt32) : Halves := ⟨h.right, h.left ^^^ mask key h.right⟩

def unround (key : UInt32) (h : Halves) : Halves := ⟨h.right ^^^ mask key h.left, h.left⟩

def roundKeys : List UInt32 := [0x5a4f7831, 0xd8e9c4b7, 0x9a8b7c6d]

def permute (w : UInt64) : UInt64 := (roundKeys.foldl round (.ofWord w)).toWord

def unpermute (w : UInt64) : UInt64 := (roundKeys.foldr unround (.ofWord w)).toWord

theorem ofWord_toWord (h : Halves) : Halves.ofWord h.toWord = h := by
  have hl := h.left.toNat_lt
  have hr := h.right.toNat_lt
  have e : (UInt64.ofNat (h.left.toNat * 0x100000000 + h.right.toNat)).toNat =
      h.left.toNat * 0x100000000 + h.right.toNat := UInt64.toNat_ofNat_of_lt' (by
    simp only [UInt64.size]; omega)
  have dl : (h.left.toNat * 0x100000000 + h.right.toNat) / 0x100000000 = h.left.toNat := by omega
  have dr : (h.left.toNat * 0x100000000 + h.right.toNat) % 0x100000000 = h.right.toNat := by omega
  simp only [Halves.ofWord, Halves.toWord, e, dl, dr, UInt32.ofNat_toNat]

theorem toWord_ofWord (w : UInt64) : (Halves.ofWord w).toWord = w := by
  have h := w.toNat_lt
  have l : (UInt32.ofNat (w.toNat / 0x100000000)).toNat = w.toNat / 0x100000000 :=
    UInt32.toNat_ofNat_of_lt' (by simp only [UInt32.size]; omega)
  have r : (UInt32.ofNat (w.toNat % 0x100000000)).toNat = w.toNat % 0x100000000 :=
    UInt32.toNat_ofNat_of_lt' (by simp only [UInt32.size]; omega)
  simp only [Halves.ofWord, Halves.toWord, l, r]
  rw [Nat.div_add_mod', UInt64.ofNat_toNat]

theorem unround_round (key : UInt32) (h : Halves) : unround key (round h key) = h := by
  simp only [round, unround, UInt32.xor_assoc, UInt32.xor_self, UInt32.xor_zero]

theorem round_unround (key : UInt32) (h : Halves) : round (unround key h) key = h := by
  simp only [round, unround, UInt32.xor_assoc, UInt32.xor_self, UInt32.xor_zero]

theorem foldr_unround_foldl_round (keys : List UInt32) (h : Halves) :
    keys.foldr unround (keys.foldl round h) = h := by
  induction keys generalizing h with
  | nil => rfl
  | cons key keys ih => simp [ih, unround_round]

theorem foldl_round_foldr_unround (keys : List UInt32) (h : Halves) :
    keys.foldl round (keys.foldr unround h) = h := by
  induction keys with
  | nil => rfl
  | cons key keys ih => simp [ih, round_unround]

end Rendezvous.ShortCode.Permutation
