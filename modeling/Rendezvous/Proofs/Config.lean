import Rendezvous.Config
import Rendezvous.Proofs.Numeral.Bounded

namespace Rendezvous.Config

open Numeral.Bounded (Denotes Flaw Spells map_eq_error_iff map_eq_ok_iff)
open Text.Blank (trim)

structure Quantity where
  name : String
  below : Nat
  above : Nat
  default : Nat

def ttl : Quantity :=
  ⟨"MEETING_DEFAULT_TTL_SECONDS", 0x8000000000000000, 0x7fffffffffffffff, 86400⟩

def capacity : Quantity := ⟨"MEETING_CACHE_CAPACITY", 0, 0xffffffffffffffff, 50000⟩

def interval : Quantity := ⟨"MEETING_SWEEP_INTERVAL_SECONDS", 0, 0xffffffffffffffff, 60⟩

/-- What a configuration can fail for, in the order in which it is looked at. -/
inductive Setting where
  | secret
  | quantity (q : Quantity)

def settings : List Setting := [.secret, .quantity ttl, .quantity capacity, .quantity interval]

/-- That a text, but for blanks around it, is a positive integer up to a limit: decimal digits, one
at least, that may follow a plus sign. -/
def IsPositive (limit : Nat) (text : String) (n : Nat) : Prop :=
  1 ≤ n ∧ n ≤ limit ∧
    ∃ sign ∈ [[], ['+']], ∃ digits, (trim text).toList = sign ++ digits ∧ Spells digits n

/-- That a service can be run with a setting. -/
def Setting.Safe (vars : Variables) : Setting → Prop
  | secret => ∃ text, vars.get? "MEETING_TOKEN_SECRET" = some text ∧
      16 ≤ (Text.Utf8.encode text).length
  | quantity q => ∀ text, vars.get? q.name = some text → ∃ n, IsPositive q.above text n

/-- What is said about a setting that a service cannot be run with. -/
inductive Offence (vars : Variables) : Setting → Fault → Prop where
  | missing (absent : vars.get? "MEETING_TOKEN_SECRET" = none) :
      Offence vars .secret (.missing "MEETING_TOKEN_SECRET")
  | shortSecret {text : String} (given : vars.get? "MEETING_TOKEN_SECRET" = some text)
      (short : (Text.Utf8.encode text).length < 16) :
      Offence vars .secret (.shortSecret (Text.Utf8.encode text).length)
  | unreadable {q : Quantity} {text : String} {flaw : Flaw} (given : vars.get? q.name = some text)
      (unread : ∀ i, ¬Denotes q.below q.above (trim text).toList i)
      (told : Numeral.Bounded.read q.below q.above (trim text).toList = .error flaw) :
      Offence vars (.quantity q) (.unreadable q.name text flaw)
  | notPositive {q : Quantity} {text : String} {i : Int} (given : vars.get? q.name = some text)
      (denoted : Denotes q.below q.above (trim text).toList i) (low : i ≤ 0) :
      Offence vars (.quantity q) (.notPositive q.name i)

def Quantity.Holds (q : Quantity) (vars : Variables) (i : Int) : Prop :=
  (vars.get? q.name = none ∧ i = q.default) ∨
    ∃ text n, vars.get? q.name = some text ∧ IsPositive q.above text n ∧ i = n

def Gives (vars : Variables) (name text : String) : Prop :=
  ∃ value, vars.get? name = some value ∧ trim value = text ∧ text ≠ ""

/-- What is in the configuration that variables make. -/
structure Fields (vars : Variables) (c : Config) : Prop where
  tokenSecret : vars.get? "MEETING_TOKEN_SECRET" = some c.tokenSecret.reveal
  defaultTtl : ttl.Holds vars c.defaultTtl.toInt
  cacheCapacity : capacity.Holds vars c.cacheCapacity.toNat
  sweepInterval : interval.Holds vars c.sweepInterval.toNat
  positive : 1 ≤ c.defaultTtl ∧ 1 ≤ c.cacheCapacity ∧ 1 ≤ c.sweepInterval
  databaseUrl : ∀ text, c.databaseUrl = some ⟨text⟩ ↔ Gives vars "DATABASE_URL" text
  chatServiceUrl : ∀ text, c.chatServiceUrl = some text ↔ Gives vars "CHAT_SERVICE_URL" text
  callEngineUrl : ∀ text, c.callEngineUrl = some text ↔ Gives vars "CALL_ENGINE_URL" text
  serviceToken : ∀ text, c.serviceToken = some ⟨text⟩ ↔ Gives vars "SERVICE_TOKEN" text
  bindAddress : c.bindAddress = (vars.get? "BIND_ADDRESS").getD "0.0.0.0:8090"

def names : List String :=
  ["MEETING_TOKEN_SECRET", "DATABASE_URL", "BIND_ADDRESS", "MEETING_DEFAULT_TTL_SECONDS",
    "MEETING_CACHE_CAPACITY", "MEETING_SWEEP_INTERVAL_SECONDS", "CHAT_SERVICE_URL",
    "CALL_ENGINE_URL", "SERVICE_TOKEN"]

variable {vars vars' : Variables} {q : Quantity}

def Setting.check (vars : Variables) : Setting → Except Fault Unit
  | secret => (readSecret vars).map fun _ => ()
  | quantity q => (readPositive q.below q.above vars q.name).map fun _ => ()

theorem readSecret_eq_ok_iff {secret : Text.Secret} :
    readSecret vars = .ok secret ↔ vars.get? "MEETING_TOKEN_SECRET" = some secret.reveal ∧
      16 ≤ (Text.Utf8.encode secret.reveal).length := by
  unfold readSecret
  split
  case h_1 hget => simp [hget]
  case h_2 text hget =>
    dsimp only
    split
    case isTrue hshort =>
      constructor
      · intro h
        cases h
      · rintro ⟨hsecret, hlong⟩
        obtain rfl := Option.some.inj (hget.symm.trans hsecret)
        exact absurd hlong (Nat.not_le.mpr hshort)
    case isFalse hlong =>
      constructor
      · rintro ⟨⟩
        exact ⟨hget, Nat.le_of_not_lt hlong⟩
      · rintro ⟨hsecret, -⟩
        obtain rfl := Option.some.inj (hget.symm.trans hsecret)
        rfl

theorem readSecret_eq_error_iff {fault : Fault} :
    readSecret vars = .error fault ↔ Offence vars .secret fault := by
  constructor
  · intro h
    unfold readSecret at h
    split at h
    case h_1 hget =>
      cases h
      exact .missing hget
    case h_2 text hget =>
      dsimp only at h
      split at h
      case isTrue hshort =>
        cases h
        exact .shortSecret hget hshort
      case isFalse => cases h
  · intro h
    unfold readSecret
    cases h with
    | missing absent => rw [absent]
    | shortSecret given short =>
      rw [given]
      exact if_pos short

theorem isPositive_iff {text : String} {n : Nat} :
    IsPositive q.above text n ↔ 1 ≤ n ∧ Denotes q.below q.above (trim text).toList n := by
  constructor
  · rintro ⟨hpos, hbound, hspelled⟩
    exact ⟨hpos, (Numeral.Bounded.denotes_pos_iff (by omega)).mpr ⟨n, rfl, hbound, hspelled⟩⟩
  · rintro ⟨hpos, hdenotes⟩
    obtain ⟨m, hm, hbound, hspelled⟩ := (Numeral.Bounded.denotes_pos_iff (by omega)).mp hdenotes
    obtain rfl := Int.ofNat.inj hm
    exact ⟨hpos, hbound, hspelled⟩

theorem readPositive_of_none (h : vars.get? q.name = none) :
    readPositive q.below q.above vars q.name = .ok none := by
  rw [readPositive, h]

theorem readPositive_eq_ok_iff {text : String} (given : vars.get? q.name = some text)
    {n? : Option Int} :
    readPositive q.below q.above vars q.name = .ok n? ↔
      ∃ n : Nat, IsPositive q.above text n ∧ n? = some (n : Int) := by
  rw [readPositive, given]
  dsimp only
  constructor
  · intro h
    split at h
    case h_1 => cases h
    case h_2 i hread =>
      split at h
      case isTrue => cases h
      case isFalse hpos =>
        cases h
        obtain ⟨n, rfl⟩ := Int.eq_ofNat_of_zero_le (by omega : 0 ≤ i)
        exact ⟨n, isPositive_iff.mpr ⟨by omega, Numeral.Bounded.read_eq_ok_iff.mp hread⟩, rfl⟩
  · rintro ⟨n, hn, rfl⟩
    obtain ⟨hpos, hdenotes⟩ := isPositive_iff.mp hn
    rw [Numeral.Bounded.read_eq_ok_iff.mpr hdenotes]
    dsimp only
    rw [if_neg (by omega)]

theorem readPositive_eq_error_iff {fault : Fault} :
    readPositive q.below q.above vars q.name = .error fault ↔
      Offence vars (.quantity q) fault := by
  constructor
  · intro h
    unfold readPositive at h
    split at h
    case h_1 => cases h
    case h_2 text hget =>
      split at h
      case h_1 flaw hread =>
        cases h
        refine .unreadable hget (fun i hdenotes => ?_) hread
        rw [Numeral.Bounded.read_eq_ok_iff.mpr hdenotes] at hread
        cases hread
      case h_2 i hread =>
        split at h
        case isTrue hlow =>
          cases h
          exact .notPositive hget (Numeral.Bounded.read_eq_ok_iff.mp hread) hlow
        case isFalse => cases h
  · intro h
    unfold readPositive
    cases h with
    | unreadable given unread told =>
      rw [given]
      dsimp only
      rw [told]
    | notPositive given denoted low =>
      rw [given]
      dsimp only
      rw [Numeral.Bounded.read_eq_ok_iff.mpr denoted]
      exact if_pos low

theorem Setting.check_eq_ok_iff {setting : Setting} :
    setting.check vars = .ok () ↔ setting.Safe vars := by
  cases setting with
  | secret =>
    rw [check, map_eq_ok_iff, Safe]
    constructor
    · rintro ⟨secret, h, -⟩
      exact ⟨_, readSecret_eq_ok_iff.mp h⟩
    · rintro ⟨text, h⟩
      exact ⟨⟨text⟩, readSecret_eq_ok_iff.mpr h, rfl⟩
  | quantity q =>
    rw [check, map_eq_ok_iff, Safe]
    constructor
    · rintro ⟨n?, h, -⟩ text given
      obtain ⟨n, hn, -⟩ := (readPositive_eq_ok_iff given).mp h
      exact ⟨n, hn⟩
    · intro h
      cases given : vars.get? q.name with
      | none => exact ⟨none, readPositive_of_none given, rfl⟩
      | some text =>
        obtain ⟨n, hn⟩ := h text given
        exact ⟨_, (readPositive_eq_ok_iff given).mpr ⟨n, hn, rfl⟩, rfl⟩

theorem Setting.check_eq_error_iff {setting : Setting} {fault : Fault} :
    setting.check vars = .error fault ↔ Offence vars setting fault := by
  cases setting with
  | secret => rw [check, map_eq_error_iff, readSecret_eq_error_iff]
  | quantity q => rw [check, map_eq_error_iff, readPositive_eq_error_iff]

def checkAll (vars : Variables) : List Setting → Except Fault Unit
  | [] => .ok ()
  | setting :: rest => do
    setting.check vars
    checkAll vars rest

theorem checkAll_eq_ok_iff {ss : List Setting} :
    checkAll vars ss = .ok () ↔ ∀ setting ∈ ss, setting.Safe vars := by
  induction ss with
  | nil => simp [checkAll]
  | cons setting rest ih =>
    rw [checkAll, List.forall_mem_cons, ← ih, ← Setting.check_eq_ok_iff]
    cases setting.check vars <;> simp [bind, Except.bind]

/-- The first setting that is not safe is told. -/
theorem checkAll_eq_error_iff {ss : List Setting} {fault : Fault} :
    checkAll vars ss = .error fault ↔ ∃ before setting after, ss = before ++ setting :: after ∧
      (∀ earlier ∈ before, earlier.Safe vars) ∧ Offence vars setting fault := by
  induction ss with
  | nil => simp [checkAll]
  | cons setting rest ih =>
    rw [checkAll]
    cases hcheck : setting.check vars with
    | error fault' =>
      constructor
      · rintro ⟨⟩
        exact ⟨[], setting, rest, rfl, by simp, Setting.check_eq_error_iff.mp hcheck⟩
      · rintro ⟨before, setting', after, hsplit, hbefore, hoffence⟩
        cases before with
        | nil =>
          obtain ⟨rfl, rfl⟩ := List.cons.inj hsplit
          rw [← Setting.check_eq_error_iff.mpr hoffence, hcheck]
          rfl
        | cons first before =>
          obtain ⟨rfl, rfl⟩ := List.cons.inj hsplit
          have hsafe := Setting.check_eq_ok_iff.mpr (hbefore _ List.mem_cons_self)
          rw [hcheck] at hsafe
          cases hsafe
    | ok _ =>
      have hsafe : setting.Safe vars := Setting.check_eq_ok_iff.mp hcheck
      refine Iff.trans ih ⟨?_, ?_⟩
      · rintro ⟨before, setting', after, rfl, hbefore, hoffence⟩
        exact ⟨setting :: before, setting', after, rfl,
          List.forall_mem_cons.mpr ⟨hsafe, hbefore⟩, hoffence⟩
      · rintro ⟨before, setting', after, hsplit, hbefore, hoffence⟩
        cases before with
        | nil =>
          obtain ⟨rfl, rfl⟩ := List.cons.inj hsplit
          rw [Setting.check_eq_error_iff.mpr hoffence] at hcheck
          cases hcheck
        | cons first before =>
          obtain ⟨rfl, rfl⟩ := List.cons.inj hsplit
          exact ⟨before, setting', after, rfl, (List.forall_mem_cons.mp hbefore).2, hoffence⟩

theorem readTtl_eq (vars : Variables) (default : Int64) :
    readTtl vars "MEETING_DEFAULT_TTL_SECONDS" default =
      (readPositive ttl.below ttl.above vars ttl.name).map fun n =>
        (n.map Int64.ofInt).getD default :=
  rfl

theorem readCapacity_eq (vars : Variables) (default : UInt64) :
    readCount vars "MEETING_CACHE_CAPACITY" default =
      (readPositive capacity.below capacity.above vars capacity.name).map fun n =>
        (n.map UInt64.ofInt).getD default :=
  rfl

theorem readInterval_eq (vars : Variables) (default : UInt64) :
    readCount vars "MEETING_SWEEP_INTERVAL_SECONDS" default =
      (readPositive interval.below interval.above vars interval.name).map fun n =>
        (n.map UInt64.ofInt).getD default :=
  rfl

theorem ofVariables_map (vars : Variables) :
    (ofVariables vars).map (fun _ => ()) = checkAll vars settings := by
  simp only [settings, checkAll, Setting.check]
  rw [ofVariables, readTtl_eq, readCapacity_eq, readInterval_eq]
  cases readSecret vars with
  | error fault => rfl
  | ok secret =>
    cases readPositive ttl.below ttl.above vars ttl.name with
    | error fault => rfl
    | ok ttl? =>
      cases readPositive capacity.below capacity.above vars capacity.name with
      | error fault => rfl
      | ok capacity? =>
        cases readPositive interval.below interval.above vars interval.name <;> rfl

structure Parts (vars : Variables) (c : Config) : Prop where
  tokenSecret : readSecret vars = .ok c.tokenSecret
  defaultTtl : readTtl vars "MEETING_DEFAULT_TTL_SECONDS" Meeting.defaultTtl = .ok c.defaultTtl
  cacheCapacity :
    readCount vars "MEETING_CACHE_CAPACITY" defaultCacheCapacity = .ok c.cacheCapacity
  sweepInterval :
    readCount vars "MEETING_SWEEP_INTERVAL_SECONDS" defaultSweepInterval = .ok c.sweepInterval
  databaseUrl : c.databaseUrl = (readText vars "DATABASE_URL").map Text.Secret.mk
  bindAddress : c.bindAddress = (vars.get? "BIND_ADDRESS").getD defaultBindAddress
  chatServiceUrl : c.chatServiceUrl = readText vars "CHAT_SERVICE_URL"
  callEngineUrl : c.callEngineUrl = readText vars "CALL_ENGINE_URL"
  serviceToken : c.serviceToken = (readText vars "SERVICE_TOKEN").map Text.Secret.mk

theorem ofVariables_eq_ok_iff {c : Config} : ofVariables vars = .ok c ↔ Parts vars c := by
  constructor
  · intro h
    rw [ofVariables] at h
    cases hsecret : readSecret vars with
    | error fault => rw [hsecret] at h; cases h
    | ok secret =>
    cases httl : readTtl vars "MEETING_DEFAULT_TTL_SECONDS" Meeting.defaultTtl with
    | error fault => rw [hsecret, httl] at h; cases h
    | ok ttl =>
    cases hcapacity : readCount vars "MEETING_CACHE_CAPACITY" defaultCacheCapacity with
    | error fault => rw [hsecret, httl, hcapacity] at h; cases h
    | ok capacity =>
    cases hinterval : readCount vars "MEETING_SWEEP_INTERVAL_SECONDS" defaultSweepInterval with
    | error fault => rw [hsecret, httl, hcapacity, hinterval] at h; cases h
    | ok interval =>
      rw [hsecret, httl, hcapacity, hinterval] at h
      cases h
      exact ⟨hsecret, httl, hcapacity, hinterval, rfl, rfl, rfl, rfl, rfl⟩
  · rintro ⟨hsecret, httl, hcapacity, hinterval, hdatabase, hbind, hchat, hengine, htoken⟩
    rw [ofVariables, hsecret, httl, hcapacity, hinterval]
    cases c
    simp_all
    rfl

theorem readText_eq_some_iff {name text : String} :
    readText vars name = some text ↔ Gives vars name text := by
  rw [readText, Option.filter_eq_some_iff, Option.map_eq_some_iff, bne_iff_ne]
  constructor
  · rintro ⟨⟨value, hget, htrim⟩, hne⟩
    exact ⟨value, hget, htrim, hne⟩
  · rintro ⟨value, hget, htrim, hne⟩
    exact ⟨⟨value, hget, htrim⟩, hne⟩

theorem Quantity.holds {n? : Option Int}
    (h : readPositive q.below q.above vars q.name = .ok n?) :
    q.Holds vars (n?.getD q.default) ∧ ∀ i ∈ n?, 1 ≤ i ∧ i ≤ q.above := by
  cases given : vars.get? q.name with
  | none =>
    rw [readPositive_of_none given] at h
    cases h
    exact ⟨.inl ⟨given, rfl⟩, by simp⟩
  | some text =>
    obtain ⟨n, hn, rfl⟩ := (readPositive_eq_ok_iff given).mp h
    refine ⟨.inr ⟨text, n, given, hn, rfl⟩, ?_⟩
    rintro _ ⟨⟩
    have := hn.1
    have := hn.2.1
    omega

theorem toInt_getD {n? : Option Int} (h : ∀ i ∈ n?, 1 ≤ i ∧ i ≤ ttl.above) :
    ((n?.map Int64.ofInt).getD Meeting.defaultTtl).toInt = n?.getD ttl.default := by
  cases n? with
  | none => decide
  | some i =>
    have hi := h i rfl
    simp only [ttl] at hi
    exact Int64.toInt_ofInt_of_le (by omega) (by omega)

theorem toNat_getD {n? : Option Int} {default : UInt64}
    (h : ∀ i ∈ n?, 1 ≤ i ∧ i ≤ (0xffffffffffffffff : Nat)) :
    (((n?.map UInt64.ofInt).getD default).toNat : Int) = n?.getD default.toNat := by
  cases n? with
  | none => rfl
  | some i =>
    have hi := h i rfl
    simp only [Option.map_some, Option.getD_some, UInt64.ofInt, UInt64.toNat_ofNat']
    omega

theorem Quantity.Holds.pos {i : Int} (hdefault : 1 ≤ q.default) (h : q.Holds vars i) : 1 ≤ i := by
  rcases h with ⟨-, rfl⟩ | ⟨text, n, -, hn, rfl⟩
  · omega
  · have := hn.1
    omega

theorem Parts.fields {c : Config} (h : Parts vars c) : Fields vars c := by
  have map_mk {text? : Option String} {text : String} :
      text?.map Text.Secret.mk = some ⟨text⟩ ↔ text? = some text := by
    cases text? <;> simp
  have hsecret := readSecret_eq_ok_iff.mp h.tokenSecret
  have httl : ttl.Holds vars c.defaultTtl.toInt := by
    obtain ⟨n?, hread, hvalue⟩ := map_eq_ok_iff.mp h.defaultTtl
    obtain ⟨hholds, hbound⟩ := ttl.holds hread
    rwa [← hvalue, toInt_getD hbound]
  have hcapacity : capacity.Holds vars c.cacheCapacity.toNat := by
    obtain ⟨n?, hread, hvalue⟩ := map_eq_ok_iff.mp h.cacheCapacity
    obtain ⟨hholds, hbound⟩ := capacity.holds hread
    rwa [← hvalue, toNat_getD hbound]
  have hinterval : interval.Holds vars c.sweepInterval.toNat := by
    obtain ⟨n?, hread, hvalue⟩ := map_eq_ok_iff.mp h.sweepInterval
    obtain ⟨hholds, hbound⟩ := interval.holds hread
    rwa [← hvalue, toNat_getD hbound]
  exact {
    tokenSecret := hsecret.1
    defaultTtl := httl
    cacheCapacity := hcapacity
    sweepInterval := hinterval
    positive := by
      have := httl.pos (by decide)
      have := hcapacity.pos (by decide)
      have := hinterval.pos (by decide)
      rw [Int64.le_iff_toInt_le, UInt64.le_iff_toNat_le, UInt64.le_iff_toNat_le]
      refine ⟨?_, ?_, ?_⟩
      all_goals simp; omega
    databaseUrl := fun text => by rw [h.databaseUrl, map_mk, readText_eq_some_iff]
    chatServiceUrl := fun text => by rw [h.chatServiceUrl, readText_eq_some_iff]
    callEngineUrl := fun text => by rw [h.callEngineUrl, readText_eq_some_iff]
    serviceToken := fun text => by rw [h.serviceToken, map_mk, readText_eq_some_iff]
    bindAddress := h.bindAddress }

theorem readSecret_congr
    (h : vars'.get? "MEETING_TOKEN_SECRET" = vars.get? "MEETING_TOKEN_SECRET") :
    readSecret vars' = readSecret vars := by
  rw [readSecret, h, readSecret]

theorem readText_congr {name : String} (h : vars'.get? name = vars.get? name) :
    readText vars' name = readText vars name := by
  rw [readText, h, readText]

theorem readPositive_congr {below above : Nat} {name : String}
    (h : vars'.get? name = vars.get? name) :
    readPositive below above vars' name = readPositive below above vars name := by
  rw [readPositive, h, readPositive]

theorem readTtl_congr {name : String} {default : Int64} (h : vars'.get? name = vars.get? name) :
    readTtl vars' name default = readTtl vars name default := by
  rw [readTtl, readPositive_congr h, readTtl]

theorem readCount_congr {name : String} {default : UInt64}
    (h : vars'.get? name = vars.get? name) :
    readCount vars' name default = readCount vars name default := by
  rw [readCount, readPositive_congr h, readCount]

theorem ofVariables_congr (h : ∀ name ∈ names, vars'.get? name = vars.get? name) :
    ofVariables vars' = ofVariables vars := by
  simp only [names, List.forall_mem_cons, List.not_mem_nil, false_imp_iff, implies_true,
    and_true] at h
  obtain ⟨hsecret, hdatabase, hbind, httl, hcapacity, hinterval, hchat, hengine, htoken⟩ := h
  rw [ofVariables, readSecret_congr hsecret, readTtl_congr httl, readCount_congr hcapacity,
    readCount_congr hinterval, readText_congr hdatabase, hbind, readText_congr hchat,
    readText_congr hengine, readText_congr htoken, ofVariables]

theorem ofVariables_insert_bindAddress (vars : Variables) (address : String) :
    ofVariables (vars.insert "BIND_ADDRESS" address) =
      (ofVariables vars).map fun c => { c with bindAddress := address } := by
  have hget {name : String} (hne : name ≠ "BIND_ADDRESS") :
      (vars.insert "BIND_ADDRESS" address).get? name = vars.get? name := by
    rw [Dictionary.get?_insert, if_neg hne]
  have hbind : (vars.insert "BIND_ADDRESS" address).get? "BIND_ADDRESS" = some address := by
    rw [Dictionary.get?_insert, if_pos rfl]
  rw [ofVariables, readSecret_congr (hget (by decide)), readTtl_congr (hget (by decide)),
    readCount_congr (hget (by decide)), readCount_congr (hget (by decide)),
    readText_congr (hget (by decide)), hbind, readText_congr (hget (by decide)),
    readText_congr (hget (by decide)), readText_congr (hget (by decide)), ofVariables]
  cases readSecret vars with
  | error fault => rfl
  | ok secret =>
    cases readTtl vars "MEETING_DEFAULT_TTL_SECONDS" Meeting.defaultTtl with
    | error fault => rfl
    | ok ttl =>
      cases readCount vars "MEETING_CACHE_CAPACITY" defaultCacheCapacity with
      | error fault => rfl
      | ok capacity =>
        cases readCount vars "MEETING_SWEEP_INTERVAL_SECONDS" defaultSweepInterval <;> rfl

def secretNames : List String := ["MEETING_TOKEN_SECRET", "DATABASE_URL", "SERVICE_TOKEN"]

def shownSecret (secret? : Option Text.Secret) : String := shownOption (secret?.map redacted)

def shownMiddle (c : Config) : String :=
  ", " ++ ", ".intercalate ["bind_address" ++ ": " ++ Text.Quoted.text c.bindAddress,
    "default_ttl_seconds" ++ ": " ++ Numeral.Decimal.signedText c.defaultTtl.toInt,
    "cache_capacity" ++ ": " ++ Numeral.Decimal.text c.cacheCapacity.toNat,
    "sweep_interval" ++ ": " ++ (Numeral.Decimal.text c.sweepInterval.toNat ++ "s"),
    "chat_service_url" ++ ": " ++ shownOption c.chatServiceUrl,
    "call_engine_url" ++ ": " ++ shownOption c.callEngineUrl,
    "service_token" ++ ": "]

theorem intercalate_around (f₁ name₂ value₂ f₃ f₄ f₅ f₆ f₇ f₈ name₉ value₉ : String) :
    ", ".intercalate [f₁, name₂ ++ value₂, f₃, f₄, f₅, f₆, f₇, f₈, name₉ ++ value₉] =
      f₁ ++ ", " ++ name₂ ++
        (value₂ ++ (", " ++ ", ".intercalate [f₃, f₄, f₅, f₆, f₇, f₈, name₉] ++ value₉)) := by
  simp [String.intercalate_cons_cons, String.append_assoc]

theorem shown_eq (c : Config) :
    c.shown = "Config \x7b " ++ ("token_secret" ++ ": " ++ Text.Quoted.text "[REDACTED]" ++ ", " ++
      ("database_url" ++ ": ") ++
      (shownSecret c.databaseUrl ++ (c.shownMiddle ++ shownSecret c.serviceToken))) ++ " \x7d" := by
  unfold shown
  simp only [List.map_cons, List.map_nil]
  rw [intercalate_around]
  rfl

theorem shownSecret_some (secret : Text.Secret) :
    shownSecret (some secret) = "Some(" ++ Text.Quoted.text "[REDACTED]" ++ ")" :=
  rfl

theorem shownSecret_none : shownSecret none = "None" := rfl

theorem shownSecret_append_inj {secret? secret?' : Option Text.Secret} {s s' : String} :
    shownSecret secret?' ++ s' = shownSecret secret? ++ s ↔
      secret?'.isSome = secret?.isSome ∧ s' = s := by
  have some_ne_none (secret : Text.Secret) (s s' : String) :
      shownSecret (some secret) ++ s ≠ shownSecret none ++ s' := by
    intro h
    rw [shownSecret_some, shownSecret_none] at h
    have hhead := congrArg (fun text : String => text.toList.head?) h
    simp only [String.toList_append, List.append_assoc] at hhead
    exact absurd (Option.some.inj hhead) (by decide)
  cases secret? with
  | none =>
    cases secret?' with
    | none => simp [String.append_right_inj]
    | some secret' => simpa using some_ne_none secret' s' s
  | some secret =>
    cases secret?' with
    | none => simpa using (some_ne_none secret s s').symm
    | some secret' =>
      rw [shownSecret_some, shownSecret_some]
      simp [String.append_right_inj]

theorem shownSecret_inj {secret? secret?' : Option Text.Secret} :
    shownSecret secret?' = shownSecret secret? ↔ secret?'.isSome = secret?.isSome := by
  have h : shownSecret secret?' ++ "" = shownSecret secret? ++ "" ↔ _ := shownSecret_append_inj
  simpa using h

/-- What is shown of a configuration tells of its secrets only which of them there are. -/
theorem Parts.shown_eq_iff {c c' : Config} (h : Parts vars c) (h' : Parts vars' c')
    (agree : ∀ name, name ∉ secretNames → vars'.get? name = vars.get? name) :
    c'.shown = c.shown ↔ c'.databaseUrl.isSome = c.databaseUrl.isSome ∧
      c'.serviceToken.isSome = c.serviceToken.isSome := by
  have hbind : c'.bindAddress = c.bindAddress := by
    rw [h'.bindAddress, h.bindAddress, agree _ (by decide)]
  have httl : c'.defaultTtl = c.defaultTtl :=
    Except.ok.inj (by rw [← h'.defaultTtl, ← h.defaultTtl, readTtl_congr (agree _ (by decide))])
  have hcapacity : c'.cacheCapacity = c.cacheCapacity :=
    Except.ok.inj
      (by rw [← h'.cacheCapacity, ← h.cacheCapacity, readCount_congr (agree _ (by decide))])
  have hinterval : c'.sweepInterval = c.sweepInterval :=
    Except.ok.inj
      (by rw [← h'.sweepInterval, ← h.sweepInterval, readCount_congr (agree _ (by decide))])
  have hchat : c'.chatServiceUrl = c.chatServiceUrl := by
    rw [h'.chatServiceUrl, h.chatServiceUrl, readText_congr (agree _ (by decide))]
  have hengine : c'.callEngineUrl = c.callEngineUrl := by
    rw [h'.callEngineUrl, h.callEngineUrl, readText_congr (agree _ (by decide))]
  have hmiddle : c'.shownMiddle = c.shownMiddle := by
    rw [shownMiddle, hbind, httl, hcapacity, hinterval, hchat, hengine, shownMiddle]
  rw [shown_eq c', shown_eq c, hmiddle, String.append_left_inj, String.append_right_inj,
    String.append_right_inj, shownSecret_append_inj, String.append_right_inj, shownSecret_inj]

/-- Variables make a configuration exactly if a service can be run with all settings; else the first
setting with which it cannot is told. Nothing but the nine variables matters, the address only as
what it is. What is shown of a configuration tells of its secrets only which of them there are. -/
theorem configuration_of_variables (vars : Variables) :
    ((∃ c, ofVariables vars = .ok c) ↔ ∀ setting ∈ settings, setting.Safe vars) ∧
    (∀ c, ofVariables vars = .ok c → Fields vars c) ∧
    (∀ fault, ofVariables vars = .error fault ↔ ∃ before setting after,
      settings = before ++ setting :: after ∧ (∀ earlier ∈ before, earlier.Safe vars) ∧
        Offence vars setting fault) ∧
    (∀ vars', (∀ name ∈ names, vars'.get? name = vars.get? name) →
      ofVariables vars' = ofVariables vars) ∧
    (∀ address, ofVariables (vars.insert "BIND_ADDRESS" address) =
      (ofVariables vars).map fun c : Config => { c with bindAddress := address }) ∧
    (∀ (vars' : Variables) (c c' : Config),
      (∀ name, name ∉ secretNames → vars'.get? name = vars.get? name) →
      ofVariables vars = .ok c → ofVariables vars' = .ok c' →
      (c'.shown = c.shown ↔ c'.databaseUrl.isSome = c.databaseUrl.isSome ∧
        c'.serviceToken.isSome = c.serviceToken.isSome)) := by
  refine ⟨?_, ?_, ?_, ?_, ?_, ?_⟩
  · rw [← checkAll_eq_ok_iff, ← ofVariables_map, map_eq_ok_iff]
    exact exists_congr fun c => (and_iff_left rfl).symm
  · intro c h
    exact (ofVariables_eq_ok_iff.mp h).fields
  · intro fault
    rw [← checkAll_eq_error_iff, ← ofVariables_map, map_eq_error_iff]
  · exact fun vars' => ofVariables_congr
  · exact ofVariables_insert_bindAddress vars
  · intro vars' c c' agree h h'
    exact (ofVariables_eq_ok_iff.mp h).shown_eq_iff (ofVariables_eq_ok_iff.mp h') agree

/-- The address is in the configuration, and a blank database is shown as none. -/
theorem address_and_blank_database_matter :
    let secret : Variables := .single "MEETING_TOKEN_SECRET" "0123456789abcdef"
    ofVariables (secret.insert "BIND_ADDRESS" "127.0.0.1:9000") ≠ ofVariables secret ∧
    (ofVariables (secret.insert "DATABASE_URL" " ")).map shown ≠
      (ofVariables (secret.insert "DATABASE_URL" "postgresql://localhost")).map shown := by
  decide +kernel

end Rendezvous.Config
