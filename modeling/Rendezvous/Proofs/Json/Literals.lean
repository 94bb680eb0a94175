import Rendezvous.Json.Reader
import Rendezvous.Proofs.Json.Quoting
import Rendezvous.Proofs.Numeral.Digits

namespace Rendezvous.Json

open Numeral Text.Utf8

/-- That no octet at the front can go on with a number literal. -/
def Closed (bs : List UInt8) : Prop :=
  ∀ b ∈ bs.head?, Literal.digit? b = none ∧ b ≠ 0x2e ∧ b ≠ 0x65 ∧ b ≠ 0x45

theorem closed_nil : Closed [] := nofun

theorem closed_cons {b : UInt8} {bs : List UInt8}
    (h : Literal.digit? b = none ∧ b ≠ 0x2e ∧ b ≠ 0x65 ∧ b ≠ 0x45) : Closed (b :: bs) := by
  rintro _ ⟨⟩
  exact h

namespace Literal

theorem digit_table : ∀ d < 10, (Decimal.digitChar d).toNat < 0x80 ∧
    digit? (.ofNat (Decimal.digitChar d).toNat) = some d := by decide +kernel

theorem encodeChars_digit {d : Nat} (h : d < 10) (cs : List Char) :
    encodeChars (Decimal.digitChar d :: cs) =
      .ofNat (Decimal.digitChar d).toNat :: encodeChars cs := by
  rw [encodeChars_cons, encodeChar_of_lt (digit_table d h).1]
  rfl

theorem digits_of_not_digit {rest : List UInt8} (h : ∀ b ∈ rest.head?, digit? b = none) :
    digits rest = ([], rest) := by
  cases rest with
  | nil => rfl
  | cons b bs => simp only [digits, h b rfl]

theorem digits_written {ds : List Nat} (h : ∀ d ∈ ds, d < 10) {rest : List UInt8}
    (stop : ∀ b ∈ rest.head?, digit? b = none) :
    digits (encodeChars (ds.map Decimal.digitChar) ++ rest) = (ds, rest) := by
  induction ds with
  | nil => exact digits_of_not_digit stop
  | cons d ds ih =>
    have hd : d < 10 := h d List.mem_cons_self
    rw [List.map_cons, encodeChars_digit hd, List.cons_append, digits, (digit_table d hd).2,
      ih fun e he => h e (List.mem_cons_of_mem d he)]

theorem someDigits?_written {ds : List Nat} (h : ∀ d ∈ ds, d < 10) (filled : ds ≠ [])
    {rest : List UInt8} (stop : ∀ b ∈ rest.head?, digit? b = none) :
    someDigits? (encodeChars (ds.map Decimal.digitChar) ++ rest) = some (ds, rest) := by
  rw [someDigits?, digits_written h stop]
  cases ds with
  | nil => exact absurd rfl filled
  | cons d ds => rfl

theorem digit_of_mem_digits {n d : Nat} (h : d ∈ Positional.digits 10 n) : d < 10 :=
  Positional.lt_of_mem_digits (by decide) h

theorem tight_cons {d : Nat} (h : d ≠ 0) (ds : List Nat) : tight (d :: ds) = true := by
  cases d with
  | zero => exact absurd rfl h
  | succ d => rfl

theorem tight_digits (n : Nat) : tight (Positional.digits 10 n) = true := by
  rcases Nat.eq_zero_or_pos n with rfl | pos
  · rw [Positional.digits]
    rfl
  · obtain ⟨d, ds, hds, hd⟩ := Positional.exists_digits_cons (b := 10) pos
    rw [hds]
    exact tight_cons hd ds

def fractionChars : List Nat → List Char
  | [] => []
  | d :: ds => '.' :: (d :: ds).map Decimal.digitChar

def exponentChars : Option Int → List Char
  | none => []
  | some e => 'e' :: (if e < 0 then '-' else '+') :: Decimal.chars e.natAbs

def written (negative : Bool) (whole fraction : List Nat) (exponent : Option Int) : List Char :=
  (if negative then ['-'] else []) ++ whole.map Decimal.digitChar ++ fractionChars fraction ++
    exponentChars exponent

theorem exponent?_written (exponent : Option Int) {rest : List UInt8} (closed : Closed rest) :
    exponent? (encodeChars (exponentChars exponent) ++ rest) = some (exponent, rest) := by
  cases exponent with
  | none =>
    change exponent? rest = _
    cases rest with
    | nil => rfl
    | cons b bs =>
      obtain ⟨-, -, he, hE⟩ := closed b rfl
      rw [exponent?, if_neg (not_or.mpr ⟨he, hE⟩)]
  | some e =>
    have hdigits : someDigits? (encodeChars (Decimal.chars e.natAbs) ++ rest) =
        some (Positional.digits 10 e.natAbs, rest) :=
      someDigits?_written (fun d => digit_of_mem_digits) (Positional.digits_ne_nil 10 _)
        fun b hb => (closed b hb).1
    have hvalue := Positional.value_digits 10 e.natAbs
    by_cases he : e < 0
    · have hsign : exponent? (encodeChars (exponentChars (some e)) ++ rest) =
          (someDigits? (encodeChars (Decimal.chars e.natAbs) ++ rest)).map fun x =>
            (some (-(Positional.value 10 x.1 : Int)), x.2) := by
        rw [exponentChars, if_pos he]
        rfl
      rw [hsign, hdigits]
      simp only [Option.map_some, hvalue]
      exact congrArg (fun e => some (some e, rest)) (by omega)
    · have hsign : exponent? (encodeChars (exponentChars (some e)) ++ rest) =
          (someDigits? (encodeChars (Decimal.chars e.natAbs) ++ rest)).map fun x =>
            (some (Positional.value 10 x.1 : Int), x.2) := by
        rw [exponentChars, if_neg he]
        rfl
      rw [hsign, hdigits]
      simp only [Option.map_some, hvalue]
      exact congrArg (fun e => some (some e, rest)) (by omega)

/-- What follows the digits of a literal: it is no digit, and no point either if there is no
fraction. -/
theorem head?_exponentChars (exponent : Option Int) {rest : List UInt8} (closed : Closed rest) :
    ∀ b ∈ (encodeChars (exponentChars exponent) ++ rest).head?, digit? b = none ∧ b ≠ 0x2e := by
  cases exponent with
  | none => exact fun b hb => ⟨(closed b hb).1, (closed b hb).2.1⟩
  | some e =>
    rintro b ⟨⟩
    decide

theorem fraction?_written {fraction : List Nat} (h : ∀ d ∈ fraction, d < 10) {rest : List UInt8}
    (stop : ∀ b ∈ rest.head?, digit? b = none ∧ b ≠ 0x2e) :
    fraction? (encodeChars (fractionChars fraction) ++ rest) = some (fraction, rest) := by
  cases fraction with
  | nil =>
    change fraction? rest = _
    cases rest with
    | nil => rfl
    | cons b bs =>
      have hpoint : b ≠ 0x2e := (stop b rfl).2
      rw [fraction?.eq_def]
      split
      · next he => exact absurd (List.cons.inj he).1 hpoint
      · rfl
  | cons d ds =>
    exact someDigits?_written h (List.cons_ne_nil d ds) fun b hb => (stop b hb).1

theorem head?_fractionChars (fraction : List Nat) {rest : List UInt8}
    (stop : ∀ b ∈ rest.head?, digit? b = none) :
    ∀ b ∈ (encodeChars (fractionChars fraction) ++ rest).head?, digit? b = none := by
  cases fraction with
  | nil => exact stop
  | cons d ds =>
    rintro b ⟨⟩
    decide

theorem scan?_of_parts (negative : Bool) {bs bs' bs'' rest : List UInt8} {whole fraction : List Nat}
    {exponent : Option Int} (hsign : ∀ b ∈ bs.head?, b ≠ 0x2d)
    (hwhole : someDigits? bs = some (whole, bs')) (tight : tight whole = true)
    (hfraction : fraction? bs' = some (fraction, bs''))
    (hexponent : exponent? bs'' = some (exponent, rest)) :
    scan? ((if negative then [0x2d] else []) ++ bs) =
      some (⟨negative, whole, fraction, exponent.getD 0, fraction.isEmpty && exponent.isNone⟩,
        rest) := by
  cases negative with
  | true =>
    simp only [if_true, List.cons_append, List.nil_append, scan?, hwhole, tight, hfraction,
      hexponent, bind, Option.bind_some, guard, pure]
  | false =>
    simp only [Bool.false_eq_true, if_false, List.nil_append]
    unfold scan?
    split
    next h =>
      split at h
      · exact absurd rfl (hsign _ rfl)
      · cases h
        simp only [hwhole, tight, hfraction, hexponent, bind, Option.bind_some, guard, if_true,
          pure]

/-- A literal in any form is read back, whatever closes it. -/
theorem scan?_written (negative : Bool) {whole fraction : List Nat} (exponent : Option Int)
    (filled : whole ≠ []) (tight : tight whole = true) (hwhole : ∀ d ∈ whole, d < 10)
    (hfraction : ∀ d ∈ fraction, d < 10) {rest : List UInt8} (closed : Closed rest) :
    scan? (encodeChars (written negative whole fraction exponent) ++ rest) =
      some (⟨negative, whole, fraction, exponent.getD 0, fraction.isEmpty && exponent.isNone⟩,
        rest) := by
  have hexponent := exponent?_written exponent closed
  have stop := head?_exponentChars exponent closed
  generalize htail : encodeChars (exponentChars exponent) ++ rest = tail at hexponent stop
  have hpoint := fraction?_written hfraction stop
  have stop' := head?_fractionChars fraction fun b hb => (stop b hb).1
  generalize htail' : encodeChars (fractionChars fraction) ++ tail = tail' at hpoint stop'
  have hdigits := someDigits?_written hwhole filled stop'
  have htext : encodeChars (written negative whole fraction exponent) ++ rest =
      (if negative then [0x2d] else []) ++
        (encodeChars (whole.map Decimal.digitChar) ++ tail') := by
    rw [← htail', ← htail]
    cases negative <;> simp only [written, encodeChars_append, List.append_assoc] <;> rfl
  rw [htext]
  refine scan?_of_parts negative ?_ hdigits tight hpoint hexponent
  cases whole with
  | nil => exact absurd rfl filled
  | cons d ds =>
    have hd := hwhole d List.mem_cons_self
    rw [List.map_cons, encodeChars_digit hd]
    rintro b ⟨⟩ he
    -- a digit is no minus
    have table := (digit_table d hd).2
    rw [he] at table
    cases table

theorem le_foldl (acc : Nat) (ds : List Nat) : acc ≤ ds.foldl (fun acc d => acc * 10 + d) acc := by
  induction ds generalizing acc with
  | nil => exact Nat.le_refl acc
  | cons d ds ih => exact Nat.le_trans (by omega) (ih (acc * 10 + d))

theorem absorb_of_lt {acc : Nat} {ds : List Nat}
    (h : ds.foldl (fun acc d => acc * 10 + d) acc < 0x10000000000000000) :
    absorb acc ds = (ds.foldl (fun acc d => acc * 10 + d) acc, []) := by
  induction ds generalizing acc with
  | nil => rfl
  | cons d ds ih =>
    rw [absorb, if_pos (Nat.lt_of_le_of_lt (le_foldl (acc * 10 + d) ds) h)]
    exact ih h

theorem absorb_digits {n : Nat} (h : n < 0x10000000000000000) :
    absorb 0 (Positional.digits 10 n) = (n, []) := by
  have hvalue : (Positional.digits 10 n).foldl (fun acc d => acc * 10 + d) 0 = n :=
    Positional.value_digits 10 n
  rw [absorb_of_lt (hvalue.symm ▸ h), hvalue]

theorem number?_natural {n : Nat} (h : n < 0x10000000000000000) :
    number? ⟨false, Positional.digits 10 n, [], 0, true⟩ = some (.natural (.ofNat n)) := by
  simp only [number?, absorb_digits h, and_self, if_true]

theorem number?_negative {n : Nat} (pos : 0 < n) (h : n ≤ 0x8000000000000000) :
    number? ⟨true, Positional.digits 10 n, [], 0, true⟩ = some (.negative (.ofInt (-n))) := by
  have hlt : n < 0x10000000000000000 := by omega
  simp [number?, absorb_digits hlt, pos, h]

theorem number?_real (negative : Bool) {whole fraction : List Nat} (exponent : Int)
    (h : Positional.value 10 (whole ++ fraction) < 0x10000000000000000) :
    number? ⟨negative, whole, fraction, exponent, false⟩ =
      (Binary64.Magnitude.nearest? (Positional.value 10 (whole ++ fraction)) 1).bind fun x =>
        (x.scale? (exponent - fraction.length)).map fun y => .real ⟨negative, y⟩ := by
  have hsplit : Positional.value 10 (whole ++ fraction) =
      fraction.foldl (fun acc d => acc * 10 + d) (Positional.value 10 whole) := List.foldl_append
  rw [hsplit] at h ⊢
  have hwhole : absorb 0 whole = (Positional.value 10 whole, []) :=
    absorb_of_lt (Nat.lt_of_le_of_lt (le_foldl _ fraction) h)
  simp only [number?, hwhole, absorb_of_lt h, Bool.false_eq_true, false_and, if_false,
    List.length_nil, Int.natCast_zero, Int.add_zero, Int.sub_zero]
  cases Binary64.Magnitude.nearest? _ 1 with
  | none => rfl
  | some x =>
    simp only [bind, Option.bind_some]
    cases x.scale? (exponent - fraction.length) <;> rfl

theorem exists_encodeChars_written (negative : Bool) {whole fraction : List Nat}
    (exponent : Option Int) (filled : whole ≠ []) (hwhole : ∀ d ∈ whole, d < 10) :
    ∃ b bs, encodeChars (written negative whole fraction exponent) = b :: bs ∧
      Reader.startsNumber b := by
  cases negative with
  | true => exact ⟨0x2d, _, rfl, rfl⟩
  | false =>
    cases whole with
    | nil => exact absurd rfl filled
    | cons d ds =>
      have hd := hwhole d List.mem_cons_self
      refine ⟨_, _, encodeChars_digit hd _, ?_⟩
      rw [Reader.startsNumber, (digit_table d hd).2]
      exact Bool.or_true _

end Literal

/-- That a number is written as a literal that stands for the number `m`. -/
inductive Number.ReadAs (n m : Number) : Prop where
  | mk (negative : Bool) (whole fraction : List Nat) (exponent : Option Int)
      (text : n.chars = Literal.written negative whole fraction exponent) (filled : whole ≠ [])
      (tight : Literal.tight whole = true) (hwhole : ∀ d ∈ whole, d < 10)
      (hfraction : ∀ d ∈ fraction, d < 10)
      (stands : Literal.number? ⟨negative, whole, fraction, exponent.getD 0,
        fraction.isEmpty && exponent.isNone⟩ = some m)

namespace Number

theorem ReadAs.exists_encodeChars {n m : Number} (h : n.ReadAs m) :
    ∃ b bs, encodeChars n.chars = b :: bs ∧ Reader.startsNumber b := by
  obtain ⟨negative, whole, fraction, exponent, text, filled, -, hwhole, -, -⟩ := h
  rw [text]
  exact Literal.exists_encodeChars_written negative exponent filled hwhole

theorem ReadAs.exists_scan? {n m : Number} (h : n.ReadAs m) {rest : List UInt8}
    (closed : Closed rest) :
    ∃ l, Literal.scan? (encodeChars n.chars ++ rest) = some (l, rest) ∧ l.number? = some m := by
  obtain ⟨negative, whole, fraction, exponent, text, filled, tight, hwhole, hfraction, stands⟩ := h
  rw [text, Literal.scan?_written negative exponent filled tight hwhole hfraction closed]
  exact ⟨_, rfl, stands⟩

theorem readAs_of_chars {k : Number} {n : Nat} (h : n < 0x10000000000000000)
    (text : k.chars = Decimal.chars n) : k.ReadAs (natural (.ofNat n)) := by
  refine ⟨false, Positional.digits 10 n, [], none, ?_, Positional.digits_ne_nil 10 _,
    Literal.tight_digits _, fun _ => Literal.digit_of_mem_digits, nofun,
    Literal.number?_natural h⟩
  simp [text, Decimal.chars, Literal.written, Literal.fractionChars, Literal.exponentChars]

theorem readAs_natural (n : UInt64) : (natural n).ReadAs (natural n) := by
  have h : (natural n).ReadAs (natural (.ofNat n.toNat)) := readAs_of_chars n.toNat_lt rfl
  rwa [UInt64.ofNat_toNat] at h

theorem readAs_negative {i : Int64} (h : i < 0) : (negative i).ReadAs (negative i) := by
  have hneg : i.toInt < 0 := Int64.lt_iff_toInt_lt.mp h
  have hmin := i.le_toInt
  refine ⟨true, Positional.digits 10 i.toInt.natAbs, [], none, ?_, Positional.digits_ne_nil 10 _,
    Literal.tight_digits _, fun _ => Literal.digit_of_mem_digits, nofun, ?_⟩
  · obtain ⟨n, hn⟩ := Int.eq_negSucc_of_lt_zero hneg
    simp [chars, hn, Decimal.signedChars, Decimal.chars, Literal.written, Literal.fractionChars,
      Literal.exponentChars]
  · have hnumber := Literal.number?_negative (n := i.toInt.natAbs) (by omega) (by omega)
    rwa [show (-(i.toInt.natAbs : Int)) = i.toInt by omega, Int64.ofInt_toInt] at hnumber

theorem exists_readAs_negative (i : Int64) : ∃ m, (negative i).ReadAs m := by
  by_cases h : i < 0
  · exact ⟨_, readAs_negative h⟩
  · have hnat : 0 ≤ i.toInt := Int.not_lt.mp fun hneg => h (Int64.lt_iff_toInt_lt.mpr hneg)
    have hmax := i.toInt_lt
    obtain ⟨n, hn⟩ := Int.eq_ofNat_of_zero_le hnat
    refine ⟨_, readAs_of_chars (n := n) (by omega) ?_⟩
    rw [chars, hn]
    rfl

theorem readAs_ofInt64 (i : Int64) : (ofInt64 i).ReadAs (ofInt64 i) := by
  unfold ofInt64
  split
  · next h => exact readAs_negative h
  · exact readAs_natural _

end Number

end Rendezvous.Json
