import Mathlib.Tactic.Common
import Rendezvous.Numeral.Bounded

namespace Rendezvous.Numeral.Bounded

def Spells (cs : List Char) (n : Nat) : Prop :=
  ∃ ds : List Nat, ds ≠ [] ∧ (∀ d ∈ ds, d < 10) ∧ cs = ds.map Decimal.digitChar ∧
    n = Positional.value 10 ds

inductive Denotes (below above : Nat) : List Char → Int → Prop where
  | plain {cs : List Char} {n : Nat} (h : Spells cs n) (bound : n ≤ above) :
      Denotes below above cs n
  | plus {cs : List Char} {n : Nat} (h : Spells cs n) (bound : n ≤ above) :
      Denotes below above ('+' :: cs) n
  | minus {cs : List Char} {n : Nat} (signed : below ≠ 0) (h : Spells cs n) (bound : n ≤ below) :
      Denotes below above ('-' :: cs) (-n)

theorem map_eq_ok_iff {ε α β : Type} {f : α → β} {result : Except ε α} {b : β} :
    result.map f = .ok b ↔ ∃ a, result = .ok a ∧ f a = b := by
  cases result <;> simp [Except.map]

theorem map_eq_error_iff {ε α β : Type} {f : α → β} {result : Except ε α} {fault : ε} :
    result.map f = .error fault ↔ result = .error fault := by
  cases result <;> simp [Except.map]

variable {below above limit : Nat} {excess : Flaw} {cs : List Char}

theorem digitChar_of_digit? {c : Char} {d : Nat} (h : Decimal.digit? c = some d) :
    d < 10 ∧ c = Decimal.digitChar d := by
  unfold Decimal.digit? at h
  split at h
  case isTrue hc =>
    obtain rfl := Option.some.inj h
    refine ⟨by omega, ?_⟩
    rw [Decimal.digitChar, Nat.add_sub_cancel' hc.1, Char.ofNat_toNat]
  case isFalse => cases h

theorem le_foldl_digits (ds : List Nat) (acc : Nat) :
    acc ≤ ds.foldl (fun acc d => acc * 10 + d) acc := by
  induction ds generalizing acc with
  | nil => exact Nat.le_refl _
  | cons d ds ih => exact Nat.le_trans (by omega) (ih (acc * 10 + d))

/-- Digits are read onto a number if what comes of it does not exceed the limit. -/
theorem magnitude_eq_ok_iff {acc n : Nat} (hacc : acc ≤ limit) :
    magnitude limit excess acc cs = .ok n ↔
      ∃ ds : List Nat, (∀ d ∈ ds, d < 10) ∧ cs = ds.map Decimal.digitChar ∧
        n = ds.foldl (fun acc d => acc * 10 + d) acc ∧ n ≤ limit := by
  induction cs generalizing acc with
  | nil =>
    constructor
    · rintro ⟨⟩
      exact ⟨[], by simp, rfl, rfl, hacc⟩
    · rintro ⟨ds, -, hcs, rfl, -⟩
      obtain rfl := List.map_eq_nil_iff.mp hcs.symm
      rfl
  | cons c cs ih =>
    constructor
    · intro h
      rw [magnitude] at h
      split at h
      case h_1 => cases h
      case h_2 d hd =>
        split at h
        case isTrue => cases h
        case isFalse hlimit =>
          obtain ⟨hlt, rfl⟩ := digitChar_of_digit? hd
          obtain ⟨ds, hds, rfl, rfl, hn⟩ := (ih (Nat.le_of_not_lt hlimit)).mp h
          refine ⟨d :: ds, List.forall_mem_cons.mpr ⟨hlt, hds⟩, rfl, ?_, hn⟩
          rw [List.foldl_cons, Nat.mul_comm]
    · rintro ⟨ds, hds, hcs, rfl, hn⟩
      obtain ⟨d, ds, rfl, rfl, rfl⟩ := List.map_eq_cons_iff.mp hcs.symm
      obtain ⟨hd, hds⟩ := List.forall_mem_cons.mp hds
      rw [List.foldl_cons] at hn ⊢
      have hlimit : 10 * acc + d ≤ limit := by
        have := le_foldl_digits ds (acc * 10 + d)
        omega
      rw [magnitude, Decimal.digit?_digitChar d hd]
      dsimp only
      rw [if_neg (Nat.not_lt.mpr hlimit)]
      exact (ih hlimit).mpr ⟨ds, hds, rfl, by rw [List.foldl_cons, Nat.mul_comm acc], hn⟩

theorem magnitude_zero_eq_ok_iff {n : Nat} (hcs : cs ≠ []) :
    magnitude limit excess 0 cs = .ok n ↔ Spells cs n ∧ n ≤ limit := by
  rw [magnitude_eq_ok_iff (Nat.zero_le limit)]
  constructor
  · rintro ⟨ds, hds, rfl, rfl, hn⟩
    exact ⟨⟨ds, by simpa using hcs, hds, rfl, rfl⟩, hn⟩
  · rintro ⟨⟨ds, -, hds, rfl, rfl⟩, hn⟩
    exact ⟨ds, hds, rfl, rfl, hn⟩

theorem Spells.exists_cons {n : Nat} (h : Spells cs n) :
    ∃ c cs', cs = c :: cs' ∧ Decimal.digit? c ≠ none := by
  obtain ⟨ds, hne, hds, rfl, -⟩ := h
  obtain ⟨d, ds, rfl⟩ := List.exists_cons_of_ne_nil hne
  refine ⟨_, _, rfl, ?_⟩
  rw [Decimal.digit?_digitChar d (hds d List.mem_cons_self)]
  simp

theorem read_of_digit {c : Char} (h : Decimal.digit? c ≠ none) :
    read below above (c :: cs) = (magnitude above .tooLarge 0 (c :: cs)).map Int.ofNat := by
  unfold read
  split
  case h_1 heq => cases heq
  case h_2 heq =>
    obtain ⟨rfl, rfl⟩ := List.cons.inj heq
    exact absurd (by decide) h
  case h_3 heq =>
    obtain ⟨rfl, rfl⟩ := List.cons.inj heq
    exact absurd (by decide) h
  case h_4 => rfl

theorem read_eq_ok_iff {i : Int} : read below above cs = .ok i ↔ Denotes below above cs i := by
  constructor
  · intro h
    unfold read at h
    split at h
    case h_1 => cases h
    case h_2 c cs =>
      obtain ⟨n, hn, rfl⟩ := map_eq_ok_iff.mp h
      obtain ⟨hspells, hbound⟩ := (magnitude_zero_eq_ok_iff (by simp)).mp hn
      exact .plus hspells hbound
    case h_3 c cs =>
      split at h
      case isTrue => cases h
      case isFalse hsigned =>
        obtain ⟨n, hn, rfl⟩ := map_eq_ok_iff.mp h
        obtain ⟨hspells, hbound⟩ := (magnitude_zero_eq_ok_iff (by simp)).mp hn
        exact .minus hsigned hspells hbound
    case h_4 hne _ _ =>
      obtain ⟨n, hn, rfl⟩ := map_eq_ok_iff.mp h
      obtain ⟨hspells, hbound⟩ := (magnitude_zero_eq_ok_iff hne).mp hn
      exact .plain hspells hbound
  · intro h
    cases h with
    | plain hspells hbound =>
      obtain ⟨c, cs, rfl, hc⟩ := hspells.exists_cons
      rw [read_of_digit hc]
      exact map_eq_ok_iff.mpr ⟨_, (magnitude_zero_eq_ok_iff (by simp)).mpr ⟨hspells, hbound⟩, rfl⟩
    | plus hspells hbound =>
      obtain ⟨c, cs, rfl, -⟩ := hspells.exists_cons
      exact map_eq_ok_iff.mpr ⟨_, (magnitude_zero_eq_ok_iff (by simp)).mpr ⟨hspells, hbound⟩, rfl⟩
    | minus hsigned hspells hbound =>
      obtain ⟨c, cs, rfl, -⟩ := hspells.exists_cons
      rw [read, if_neg hsigned]
      exact map_eq_ok_iff.mpr ⟨_, (magnitude_zero_eq_ok_iff (by simp)).mpr ⟨hspells, hbound⟩, rfl⟩

theorem denotes_pos_iff {i : Int} (hi : 0 < i) :
    Denotes below above cs i ↔ ∃ n : Nat, i = n ∧ n ≤ above ∧
      ∃ sign ∈ [[], ['+']], ∃ digits, cs = sign ++ digits ∧ Spells digits n := by
  constructor
  · intro h
    cases h with
    | plain h bound => exact ⟨_, rfl, bound, [], by simp, _, rfl, h⟩
    | plus h bound => exact ⟨_, rfl, bound, ['+'], by simp, _, rfl, h⟩
    | minus _ _ _ => omega
  · rintro ⟨n, rfl, bound, sign, hsign, digits, rfl, h⟩
    rcases List.mem_cons.mp hsign with rfl | hsign
    · exact .plain h bound
    · obtain rfl := List.mem_singleton.mp hsign
      exact .plus h bound

end Rendezvous.Numeral.Bounded
