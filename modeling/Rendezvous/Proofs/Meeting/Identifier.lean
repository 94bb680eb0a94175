import Mathlib.Data.UInt
import Mathlib.Logic.Equiv.Fin.Basic
import Mathlib.SetTheory.Cardinal.Finite
import Rendezvous.Proofs.Interleaving.Exchange
import Rendezvous.Proofs.Text.Utf8
import Rendezvous.Service.Basic

namespace Rendezvous.Meeting.Identifier

def alphabet : List Char :=
  "ABCDEFGHIJKLMNOPQRSTUVWXYZabcdefghijklmnopqrstuvwxyz0123456789_-".toList

def isSymbolOctet (b : UInt8) : Bool :=
  b.isASCIIAlphanum || b == '_'.toUInt8 || b == '-'.toUInt8

def spell (indices : Fin size → Fin 64) : String :=
  String.ofList (List.ofFn fun k => symbol (indices k))

/-- That drawing an identifier comes to this text where it is given these octets. -/
def Yields (octets : Vector UInt8 size) (s : String) : Prop :=
  Service.drawIdentifier.run.Follows [⟨.octets size, some octets⟩] (.done (.ok s))

theorem alphabet_table : ∀ i < 64,
    alphabet[i]? = some (symbol i) ∧ alphabet.idxOf (symbol i) = i := by
  decide +kernel

theorem isSymbol_symbol : ∀ i < 64, isSymbol (symbol i) := by decide

theorem symbol_inj {i j : Nat} (hi : i < 64) (hj : j < 64) (h : symbol i = symbol j) : i = j := by
  rw [← (alphabet_table i hi).2, h, (alphabet_table j hj).2]

theorem toNat_lt_of_isSymbol {c : Char} (h : isSymbol c) : c.toNat < 0x80 := by
  simp only [isSymbol, Bool.or_eq_true, Bool.and_eq_true, decide_eq_true_eq, beq_iff_eq] at h
  omega

theorem ascii_table : ∀ n < 0x80,
    isSymbolOctet (.ofNat n) = isSymbol (Char.ofNat n) ∧
      (isSymbol (Char.ofNat n) → ∃ i < 64, symbol i = Char.ofNat n) := by
  decide +kernel

theorem exists_symbol {c : Char} (h : isSymbol c) : ∃ i < 64, symbol i = c := by
  have table := (ascii_table c.toNat (toNat_lt_of_isSymbol h)).2
  rw [Char.ofNat_toNat] at table
  exact table h

theorem isSymbolOctet_ofNat {c : Char} (h : c.toNat < 0x80) :
    isSymbolOctet (.ofNat c.toNat) = isSymbol c := by
  have table := (ascii_table c.toNat h).1
  rwa [Char.ofNat_toNat] at table

theorem toNat_lt_of_isSymbolOctet {b : UInt8} (h : isSymbolOctet b) : b.toNat < 0x80 := by
  have table : ∀ n < 256, isSymbolOctet (.ofNat n) → n < 0x80 := by decide +kernel
  have hb := table b.toNat b.toNat_lt
  rw [UInt8.ofNat_toNat] at hb
  exact hb h

theorem isIdentifier_iff {s : String} :
    isIdentifier s ↔ s.toList.length = size ∧ ∀ c ∈ s.toList, isSymbol c := by
  simp only [isIdentifier, Bool.and_eq_true, beq_iff_eq, List.all_eq_true]

/-- Identifiers can be told from their octets in UTF-8: no octet of another character is that of a
symbol. -/
theorem isIdentifier_iff_octets (s : String) : isIdentifier s ↔
    (Text.Utf8.encode s).length = size ∧ (Text.Utf8.encode s).all isSymbolOctet := by
  have written (ascii : ∀ c ∈ s.toList, c.toNat < 0x80) :
      Text.Utf8.encode s = s.toList.map fun c => .ofNat c.toNat :=
    Text.Utf8.encodeChars_of_lt ascii
  rw [isIdentifier_iff]
  constructor
  · rintro ⟨hlength, hall⟩
    have ascii : ∀ c ∈ s.toList, c.toNat < 0x80 := fun c hc => toNat_lt_of_isSymbol (hall c hc)
    rw [written ascii, List.length_map, List.all_map, List.all_eq_true]
    exact ⟨hlength, fun c hc => (isSymbolOctet_ofNat (ascii c hc)).trans (hall c hc)⟩
  · rintro ⟨hlength, hall⟩
    have ascii : ∀ c ∈ s.toList, c.toNat < 0x80 := by
      intro c hc
      refine Text.Utf8.toNat_lt_of_encodeChar fun b hb => toNat_lt_of_isSymbolOctet ?_
      exact List.all_eq_true.mp hall b (List.mem_flatMap.mpr ⟨c, hc, hb⟩)
    rw [written ascii, List.length_map] at hlength
    rw [written ascii, List.all_map, List.all_eq_true] at hall
    exact ⟨hlength, fun c hc => (isSymbolOctet_ofNat (ascii c hc)).symm.trans (hall c hc)⟩

theorem spell_injective : Function.Injective spell := by
  intro f g h
  have hchars := List.ofFn_inj.mp (String.ofList_injective h)
  funext k
  exact Fin.ext (symbol_inj (f k).2 (g k).2 (congrFun hchars k))

theorem isIdentifier_spell (indices : Fin size → Fin 64) : isIdentifier (spell indices) := by
  rw [isIdentifier_iff, spell, String.toList_ofList]
  refine ⟨List.length_ofFn, fun c hc => ?_⟩
  obtain ⟨k, rfl⟩ := List.mem_ofFn.mp hc
  exact isSymbol_symbol _ (indices k).2

theorem exists_spell {s : String} (h : isIdentifier s) : ∃ indices, spell indices = s := by
  obtain ⟨hlength, hall⟩ := isIdentifier_iff.mp h
  have hbound (k : Fin size) : k < s.toList.length := hlength.symm ▸ k.2
  have hindex (k : Fin size) : ∃ i : Fin 64, symbol i = s.toList.get ⟨k, hbound k⟩ := by
    obtain ⟨i, hi, hsymbol⟩ := exists_symbol (hall _ (List.get_mem s.toList ⟨k, hbound k⟩))
    exact ⟨⟨i, hi⟩, hsymbol⟩
  choose indices hindices using hindex
  refine ⟨indices, String.toList_inj.mp ?_⟩
  rw [spell, String.toList_ofList]
  refine List.ext_getElem (List.length_ofFn.trans hlength.symm) fun k hk hk' => ?_
  rw [List.getElem_ofFn]
  exact hindices _

theorem bijective_spell : Function.Bijective fun indices : Fin size → Fin 64 =>
    (⟨spell indices, isIdentifier_spell indices⟩ : {s // isIdentifier s}) := by
  constructor
  · intro f g h
    exact spell_injective (congrArg Subtype.val h)
  · rintro ⟨s, hs⟩
    obtain ⟨indices, rfl⟩ := exists_spell hs
    exact ⟨indices, rfl⟩

/-- An octet as its two high bits and its six low ones, which are the index of a symbol. -/
def parts : UInt8 ≃ Fin 4 × Fin 64 :=
  Equiv.trans ⟨UInt8.toFin, UInt8.ofFin, UInt8.ofFin_toFin, UInt8.toFin_ofFin⟩
    (finProdFinEquiv : Fin 4 × Fin 64 ≃ Fin (4 * 64)).symm

def places : Vector UInt8 size ≃ (Fin size → UInt8) where
  toFun octets k := octets[k]
  invFun := Vector.ofFn
  left_inv _ := Vector.ofFn_getElem
  right_inv _ := funext fun k => Vector.getElem_ofFn k.2

def layers : Vector UInt8 size ≃ (Fin size → Fin 4) × (Fin size → Fin 64) :=
  places.trans ((Equiv.piCongrRight fun _ => parts).trans (Equiv.arrowProdEquivProdArrow _ _ _))

theorem layers_snd (octets : Vector UInt8 size) (k : Fin size) :
    ((layers octets).2 k : Nat) = octets[k].toNat % 64 := rfl

theorem ofOctets_eq_spell (octets : Vector UInt8 size) :
    ofOctets octets = spell (layers octets).2 := by
  have hlist : octets.toList = List.ofFn fun k : Fin size => octets[k] := by
    rw [← Vector.toList_ofFn]
    exact congrArg Vector.toList Vector.ofFn_getElem.symm
  rw [ofOctets, hlist, List.map_ofFn]
  simp only [spell, layers_snd, Function.comp_def]

theorem isIdentifier_ofOctets (octets : Vector UInt8 size) : isIdentifier (ofOctets octets) := by
  rw [ofOctets_eq_spell]
  exact isIdentifier_spell _

theorem exists_ofOctets {s : String} (h : isIdentifier s) : ∃ octets, ofOctets octets = s := by
  obtain ⟨indices, rfl⟩ := exists_spell h
  refine ⟨layers.symm (fun _ => 0, indices), ?_⟩
  rw [ofOctets_eq_spell, Equiv.apply_symm_apply]

/-- Every octet has a symbol in the alphabet, so that leaving out those that have none leaves out
nothing. -/
theorem toList_ofOctets (octets : Vector UInt8 size) :
    (ofOctets octets).toList =
      octets.toList.filterMap fun b => alphabet[(b &&& 0x3f).toNat]? := by
  have hsymbol (b : UInt8) : alphabet[(b &&& 0x3f).toNat]? = some (symbol (b.toNat % 64)) := by
    have hindex : (b &&& 0x3f).toNat = b.toNat % 64 :=
      (UInt8.toNat_and b 0x3f).trans (Nat.and_two_pow_sub_one_eq_mod b.toNat 6)
    rw [hindex]
    exact (alphabet_table _ (Nat.mod_lt _ (by decide))).1
  rw [funext hsymbol, ofOctets, String.toList_ofList]
  exact (congrFun List.filterMap_eq_map octets.toList).symm

theorem yields_iff {octets : Vector UInt8 size} {s : String} :
    Yields octets s ↔ ofOctets octets = s := by
  constructor
  · intro h
    obtain ⟨next, hask, hdone⟩ := Program.follows_cons h
    cases Program.follows_nil hask
    cases hdone
    rfl
  · rintro rfl
    exact Program.Follows.answer (q := .octets size) .start (some octets)

theorem ofOctets_eq_spell_iff {octets : Vector UInt8 size} {indices : Fin size → Fin 64} :
    ofOctets octets = spell indices ↔ (layers octets).2 = indices := by
  rw [ofOctets_eq_spell]
  exact spell_injective.eq_iff

/-- The draws of an identifier differ in the high bits of their octets, which are arbitrary. -/
def drawsOf (indices : Fin size → Fin 64) :
    {octets // ofOctets octets = spell indices} ≃ (Fin size → Fin 4) where
  toFun draw := (layers draw.1).1
  invFun high := ⟨layers.symm (high, indices), ofOctets_eq_spell_iff.mpr (by simp)⟩
  left_inv draw := by
    refine Subtype.ext (layers.symm_apply_eq.mpr (Prod.ext rfl ?_))
    exact (ofOctets_eq_spell_iff.mp draw.2).symm
  right_inv high := by simp

theorem card_draws {s : String} (h : isIdentifier s) :
    Nat.card {octets // ofOctets octets = s} = 4 ^ size := by
  obtain ⟨indices, rfl⟩ := exists_spell h
  rw [Nat.card_congr (drawsOf indices), Nat.card_fun, Nat.card_fin, Nat.card_fin]

theorem card_octets : Nat.card (Vector UInt8 size) = 256 ^ size := by
  have hoctet : Nat.card UInt8 = 256 := by
    rw [Nat.card_congr parts, Nat.card_prod, Nat.card_fin, Nat.card_fin]
  rw [Nat.card_congr places, Nat.card_fun, hoctet, Nat.card_fin]

theorem card_identifiers : Nat.card {s // isIdentifier s} = 64 ^ size := by
  rw [← Nat.card_eq_of_bijective _ bijective_spell, Nat.card_fun, Nat.card_fin, Nat.card_fin]

/-- Whatever octets are given, an identifier is drawn: each octet finds a symbol at the index in its
six low bits, none is left out. The texts that look like identifiers, by their characters or by
their octets in UTF-8, are exactly those that are drawn, and they are drawn evenly: of the 256 ^ 21
draws, 4 ^ 21 come to each of the 64 ^ 21 identifiers. -/
theorem drawn_evenly :
    (∀ octets s, Yields octets s ↔
      s.toList = octets.toList.filterMap fun b => alphabet[(b &&& 0x3f).toNat]?) ∧
    (∀ octets, ∃ s, Yields octets s ∧ s.length = 21) ∧
    (∀ s, isIdentifier s ↔ ∃ octets, Yields octets s) ∧
    (∀ s, isIdentifier s ↔
      (Text.Utf8.encode s).length = 21 ∧ (Text.Utf8.encode s).all isSymbolOctet) ∧
    (∀ s, Nat.card {octets // Yields octets s} = if isIdentifier s then 4 ^ 21 else 0) ∧
    Nat.card (Vector UInt8 21) = 256 ^ 21 ∧ Nat.card {s // isIdentifier s} = 64 ^ 21 := by
  have drawn (s : String) : isIdentifier s ↔ ∃ octets, ofOctets octets = s :=
    ⟨exists_ofOctets, fun ⟨octets, h⟩ => h ▸ isIdentifier_ofOctets octets⟩
  simp only [yields_iff]
  refine ⟨fun octets s => ?_, fun octets => ⟨_, rfl, ?_⟩, drawn, isIdentifier_iff_octets,
    fun s => ?_, card_octets, card_identifiers⟩
  · rw [← toList_ofOctets, String.toList_inj]
    exact eq_comm
  · rw [← String.length_toList]
    exact (isIdentifier_iff.mp (isIdentifier_ofOctets octets)).1
  · split
    case isTrue h => exact card_draws h
    case isFalse h =>
      have hempty : IsEmpty {octets // ofOctets octets = s} :=
        ⟨fun draw => h ((drawn s).mpr ⟨draw.1, draw.2⟩)⟩
      exact Nat.card_of_isEmpty

end Rendezvous.Meeting.Identifier
