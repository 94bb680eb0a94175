import Rendezvous.Proofs.Http.Absence
import Rendezvous.Proofs.Interleaving.Endurance
import Rendezvous.Proofs.Sequence.Queue

namespace Rendezvous

open Store Service

namespace Meeting

variable {d : Draft}

theorem tidyText_of_empty {what s : String} {maxLength : Nat} (empty : Text.Blank.trim s = "") :
    tidyText what maxLength s = .error (.badRequest (what ++ " is required")) :=
  if_pos empty

theorem tidyText_of_long (what : String) {s : String} {maxLength : Nat}
    (filled : Text.Blank.trim s ≠ "") (long : maxLength < (Text.Blank.trim s).length) :
    ∃ reason, tidyText what maxLength s = .error (.badRequest reason) :=
  ⟨_, (if_neg filled).trans (if_pos long)⟩

theorem tidyBasePath_of_filled {s : String}
    (filled : Text.Blank.trimEnd '/' (Text.Blank.trim s) ≠ "") :
    tidyBasePath s = .ok (Text.Blank.trimEnd '/' (Text.Blank.trim s)) := by
  unfold tidyBasePath
  exact if_neg filled

theorem tidyBasePath_of_empty {s : String}
    (empty : Text.Blank.trimEnd '/' (Text.Blank.trim s) = "") :
    tidyBasePath s = .error (.badRequest "base_path is required") := by
  unfold tidyBasePath
  exact if_pos empty

def Draft.trimmed (d : Draft) : Draft :=
  { d with
    title := Text.Blank.trim d.title
    basePath := Text.Blank.trimEnd '/' (Text.Blank.trim d.basePath) }

structure Draft.Acceptable (d : Draft) : Prop where
  titled : d.trimmed.title ≠ ""
  short : d.trimmed.title.length ≤ maxTitleLength
  based : d.trimmed.basePath ≠ ""

theorem Draft.Acceptable.tidy (h : d.Acceptable) : d.tidy = .ok d.trimmed := by
  unfold Draft.tidy
  rw [tidyText_of_filled h.titled h.short, tidyBasePath_of_filled h.based]
  rfl

theorem Draft.tidy_of_not_acceptable (h : ¬d.Acceptable) :
    ∃ reason, d.tidy = .error (.badRequest reason) := by
  unfold Draft.tidy
  by_cases titled : Text.Blank.trim d.title = ""
  · rw [tidyText_of_empty titled]
    exact ⟨_, rfl⟩
  by_cases long : maxTitleLength < (Text.Blank.trim d.title).length
  · obtain ⟨reason, hreason⟩ := tidyText_of_long "title" titled long
    rw [hreason]
    exact ⟨_, rfl⟩
  · have short := Nat.not_lt.mp long
    have based : Text.Blank.trimEnd '/' (Text.Blank.trim d.basePath) = "" := by
      by_contra based
      exact h ⟨titled, short, based⟩
    rw [tidyText_of_filled titled short, tidyBasePath_of_empty based]
    exact ⟨_, rfl⟩

theorem toInt_expiry (createdAt requestedTtl : Int64) {defaultTtl : Int64} (h : 0 < defaultTtl) :
    (expiry createdAt requestedTtl defaultTtl).toInt = min Int64.maxValue.toInt
      (createdAt.toInt + (if requestedTtl ≤ 0 then defaultTtl else requestedTtl).toInt) := by
  have hlow : Int64.minValue.toInt = -2 ^ 63 := by decide
  have hhigh : Int64.maxValue.toInt = 2 ^ 63 - 1 := by decide
  have hge := createdAt.le_toInt
  have hpos := toInt_ttl_pos requestedTtl h
  rw [expiry, toInt_saturatingAdd]
  omega

end Meeting

theorem Store.Memory.Proper.push_of_new {memory : Memory} (h : memory.Proper) {m : Meeting}
    (new : memory.find? m.id = none) : (memory.push m).meetings =
      m :: if memory.size < memory.capacity then memory.meetings else memory.meetings.dropLast := by
  by_cases room : memory.size < memory.capacity
  · rw [if_pos room, Memory.push_of_lt room, Memory.promote, Memory.without_eq_of_new new]
  · have full : memory.size = memory.capacity := Nat.le_antisymm h.bound (Nat.not_lt.mp room)
    rw [if_neg room, Memory.push_of_full new full h.room]

def Entropy.next (e : Entropy) : Entropy := { e with draws := e.draws + 1 }

namespace Service

variable {s : Service} {d : Deployment} {draft : Meeting.Draft}

theorem run_create_of_not_acceptable (h : ¬draft.Acceptable) :
    ∃ reason, d.run (s.create draft).run = (.error (.badRequest reason), d) := by
  obtain ⟨reason, hreason⟩ := Meeting.Draft.tidy_of_not_acceptable h
  refine ⟨reason, ?_⟩
  unfold create
  rw [hreason]
  rfl

def meetingOf (s : Service) (d : Deployment) (draft : Meeting.Draft) (id token : String) :
    Meeting :=
  .ofDraft draft.trimmed id (draft.trimmed.basePath ++ "/" ++ token) d.clock.now s.defaultTtl

theorem run_drawIdentifier_of_drawn {octets : Vector UInt8 Meeting.Identifier.size}
    (drawn : d.entropy.draw d.entropy.draws Meeting.Identifier.size = some octets) :
    d.run drawIdentifier.run = (.ok (Meeting.Identifier.ofOctets octets),
      { d with entropy := d.entropy.next }) := by
  unfold drawIdentifier
  rw [Deployment.run_ask_bind, handle_octets, drawn]
  rfl

theorem run_issue_of_drawn {nonce : Token.Nonce}
    (drawn : d.entropy.draw d.entropy.draws Token.nonceLength = some nonce) (id : String) :
    d.run (s.issue id).run = (.ok (s.cipher.issue nonce id),
      { d with entropy := d.entropy.next }) := by
  unfold issue
  rw [Deployment.run_ask_bind, handle_octets, drawn]
  rfl

/-- What draws an identifier that is new to the store, and then a nonce. -/
structure Draws (d : Deployment) (id : String) (nonce : Token.Nonce) : Prop where
  identifier : ∃ octets, d.entropy.draw d.entropy.draws Meeting.Identifier.size = some octets ∧
    id = Meeting.Identifier.ofOctets octets
  nonce : d.entropy.draw (d.entropy.draws + 1) Token.nonceLength = some nonce
  new : d.memory.find? id = none

theorem run_create_of_acceptable (healthy : d.Healthy) (h : draft.Acceptable) {id : String}
    {nonce : Token.Nonce} (draws : Draws d id nonce) :
    ∃ entropy tally, d.run (s.create draft).run =
      (.ok ⟨s.cipher.issue nonce id, draft.trimmed.basePath ++ "/" ++ s.cipher.issue nonce id⟩,
        { d with
          memory := d.memory.push (s.meetingOf d draft id (s.cipher.issue nonce id))
          entropy, tally }) := by
  obtain ⟨octets, drawn, rfl⟩ := draws.identifier
  unfold create
  rw [h.tidy, show Action.ofExcept (.ok draft.trimmed : Except Fault Meeting.Draft) =
    pure draft.trimmed from rfl, pure_bind,
    Deployment.run_bind_of_ok (run_drawIdentifier_of_drawn drawn), Deployment.run_ask_bind]
  have issued := run_issue_of_drawn (s := s) (d := { d with entropy := d.entropy.next }) draws.nonce
    (Meeting.Identifier.ofOctets octets)
  have new := draws.new
  -- what is drawn is only passed on from here
  generalize Meeting.Identifier.ofOctets octets = id at issued new ⊢
  generalize s.cipher.issue nonce id = token at issued ⊢
  change ∃ entropy tally,
    Deployment.run { d with entropy := d.entropy.next } (s.issue id >>= _).run = _
  rw [Deployment.run_bind_of_ok issued]
  generalize d.entropy.next.next = entropy
  have healthy' : { d with entropy }.Healthy := healthy
  obtain ⟨tally, hperform⟩ := healthy'.perform (.create (s.meetingOf d draft id token))
  have hcreate := (Deployment.run_store _ _).trans hperform
  have free : ¬(d.memory.find? id).any (·.isVisibleAt d.storeClock.now) := by simp [new]
  dsimp only [Memory.perform] at hcreate
  rw [Memory.create_of_free free] at hcreate
  exact ⟨entropy, _, Deployment.run_bind_of_ok hcreate⟩

structure Creation (s : Service) (d d' : Deployment) (draft : Meeting.Draft) (id token : String) :
    Prop where
  safe : Text.UrlSafe token
  routed : ∀ r : Http.Request, r.method = "GET" → r.target = "/v1/meetings/" ++ token →
    r.Presents .meeting token
  redeemed : s.cipher.redeem token = .ok id
  shown : ∃ expiresAt : Int64,
    (d'.run (s.get token).run).1 = .ok (some
      { id := token
        domainId := draft.domainId
        title := Text.Blank.trim draft.title
        createdAt := d.clock.now
        expiresAt
        metadata := draft.metadata
        url := Text.Blank.trimEnd '/' (Text.Blank.trim draft.basePath) ++ "/" ++ token
        callId := none
        bridged := false
        satisfaction := none
        allowSatisfaction := false }) ∧
    expiresAt.toInt = min Int64.maxValue.toInt
      (d.clock.now.toInt + (if draft.ttl ≤ 0 then s.defaultTtl else draft.ttl).toInt) ∧
    d.clock.now < expiresAt
  /-- the meetings that are held are the new one and those from before, of which a full store
  evicts the one whose last use is the longest ago -/
  stored : ∃ m, m.id = id ∧ d'.memory.meetings =
    m :: if d.memory.size < d.memory.capacity then d.memory.meetings
      else d.memory.meetings.dropLast
  chats : d'.memory.chats = d.memory.chats

section

variable (positive : 0 < s.defaultTtl) (proper : d.memory.Proper)
  (before : d.clock.now < Int64.maxValue) (behind : d.storeClock.now ≤ d.clock.now)
include positive before

theorem now_lt_expiry (requestedTtl : Int64) :
    d.clock.now < Meeting.expiry d.clock.now requestedTtl s.defaultTtl := by
  rcases Meeting.lt_expiry d.clock.now requestedTtl positive with hlt | ⟨hend, -⟩
  · exact hlt
  · rw [hend] at before
    exact (Int64.lt_irrefl before).elim

include proper behind

theorem shows_meetingOf {id token : String} (new : d.memory.find? id = none) (entropy : Entropy)
    (tally : Metrics.Tally) :
    Shows { d with memory := d.memory.push (s.meetingOf d draft id token), entropy, tally } id
      (s.meetingOf d draft id token) := by
  have seen (now : Int64) (hle : now ≤ d.clock.now) :
      (s.meetingOf d draft id token).isVisibleAt now := by
    by_contra hidden
    exact Int64.lt_irrefl (Int64.lt_of_lt_of_le (now_lt_expiry positive before draft.ttl)
      (Int64.le_trans (not_isVisibleAt.mp hidden).1 hle))
  refine ⟨?_, seen _ behind, seen _ (Int64.le_refl _)⟩
  change ((d.memory.push (s.meetingOf d draft id token)).meetings).find? _ = _
  rw [proper.push_of_new new]
  exact List.find?_cons_of_pos (beq_self_eq_true _)

theorem Draws.creation (healthy : d.Healthy) {id : String} {nonce : Token.Nonce}
    (draws : Draws d id nonce) (entropy : Entropy) (tally : Metrics.Tally) :
    s.Creation d
      { d with
        memory := d.memory.push (s.meetingOf d draft id (s.cipher.issue nonce id))
        entropy, tally }
      draft id (s.cipher.issue nonce id) := by
  have redeemed := s.cipher.redeem_issue nonce id
  have safe := s.cipher.urlSafe_issue nonce id
  have filled := s.cipher.issue_ne_empty nonce id
  generalize s.cipher.issue nonce id = token at redeemed safe filled ⊢
  have healthy' : { d with
    memory := d.memory.push (s.meetingOf d draft id token), entropy, tally }.Healthy := healthy
  have shown : Shows { d with
      memory := d.memory.push (s.meetingOf d draft id token), entropy, tally } id
      (s.meetingOf d draft id token) :=
    shows_meetingOf positive proper before behind draws.new entropy tally
  exact
    { safe
      redeemed
      routed := by
        intro r hmethod htarget
        have taken : r.method ∈ (Http.Gate.meeting.route token).methods := by
          rw [hmethod]
          exact List.mem_cons_self
        exact Http.Request.presents_of_urlSafe safe filled taken (by simp [htarget, Http.Gate.rest])
      shown := ⟨Meeting.expiry d.clock.now draft.ttl s.defaultTtl,
        run_get_of_shows healthy' redeemed shown, Meeting.toInt_expiry _ _ positive,
        now_lt_expiry positive before draft.ttl⟩
      stored := ⟨s.meetingOf d draft id token, rfl, proper.push_of_new draws.new⟩
      chats := rfl }

end

end Service

/-- Where the default time to live is positive, the clock is not at its end, and the clock of the
store is not ahead of it: a draft is refused, and nothing happens, if its title without blanks
around it is empty or longer than 512 characters, or if nothing is left of its base path without
blanks around it and slashes at its end. Otherwise, if an identifier that is new to the store is
drawn, there is a ticket: its token and, behind the base path, its address. The token stands for
itself in a path, where it is found, it is redeemed for the identifier, and its holder is shown just
what the draft says. No other meeting is different, but that a full store evicts the one whose last
use is the longest ago. -/
theorem creation_explained (s : Service) (positive : 0 < s.defaultTtl) {d : Deployment}
    (h : d.Attainable) (room : 0 < d.memory.capacity) (healthy : d.Healthy)
    (before : d.clock.now < Int64.maxValue) (behind : d.storeClock.now ≤ d.clock.now)
    (draft : Meeting.Draft) :
    let title := Text.Blank.trim draft.title
    let basePath := Text.Blank.trimEnd '/' (Text.Blank.trim draft.basePath)
    (title = "" ∨ Meeting.maxTitleLength < title.length ∨ basePath = "" →
      ∃ reason, d.run (s.create draft).run = (.error (.badRequest reason), d)) ∧
    (title ≠ "" → title.length ≤ Meeting.maxTitleLength → basePath ≠ "" → ∀ id nonce,
      Draws d id nonce → ∃ token d',
        d.run (s.create draft).run = (.ok ⟨token, basePath ++ "/" ++ token⟩, d') ∧
          s.Creation d d' draft id token) := by
  refine ⟨fun wrong => run_create_of_not_acceptable ?_, ?_⟩
  · rintro ⟨titled, short, based⟩
    rcases wrong with empty | long | empty
    · exact titled empty
    · exact Nat.not_lt.mpr short long
    · exact based empty
  · intro titled short based id nonce draws
    have acceptable : draft.Acceptable := ⟨titled, short, based⟩
    obtain ⟨entropy, tally, hrun⟩ := run_create_of_acceptable (s := s) healthy acceptable draws
    exact ⟨_, _, hrun,
      draws.creation positive (h.proper room) before behind healthy entropy tally⟩

namespace Service.Sample

open System.Sample

/-- A store that is full with the first meeting, while the next identifier to draw is another. -/
def full : Deployment :=
  { calm 0 [meeting service 0] with
    entropy := ⟨fun _ n => some (Vector.replicate n 1), 0⟩ }

def next : String := Meeting.Identifier.ofOctets (Vector.replicate _ 1)

theorem attainable_full : full.Attainable := (exists_attainable service).drift full rfl rfl

theorem draws_next : Draws full next (Vector.replicate _ 1) := ⟨⟨_, rfl, rfl⟩, rfl, by decide⟩

end Service.Sample

open Service.Sample System.Sample in
/-- A second meeting is created and takes the place of the first. -/
theorem second_takes_place : ∃ token d' m,
    full.run (service.create draft).run = (.ok ⟨token, "/m" ++ "/" ++ token⟩, d') ∧
    service.cipher.redeem token = .ok next ∧ m.id = next ∧ d'.memory.meetings = [m] := by
  have htitle : Text.Blank.trim draft.title = "title" := by decide +kernel
  have hbase : Text.Blank.trimEnd '/' (Text.Blank.trim draft.basePath) = "/m" := by decide +kernel
  obtain ⟨-, hcreate⟩ := creation_explained service (by decide) attainable_full (by decide)
    (fun _ => rfl) (by decide) (by decide) draft
  rw [htitle, hbase] at hcreate
  obtain ⟨token, d', hrun, creation⟩ :=
    hcreate (by decide) (by decide) (by decide) next _ draws_next
  obtain ⟨m, hid, hmeetings⟩ := creation.stored
  exact ⟨token, d', m, hrun, creation.redeemed, hid, hmeetings⟩

open Service.Sample System.Sample in
/-- To create a meeting disturbs another. -/
theorem creation_disturbs : ¬∀ (s : Service) (d : Deployment), 0 < s.defaultTtl → d.Attainable →
    0 < d.memory.capacity → d.Healthy → d.clock.now < Int64.maxValue →
    d.storeClock.now ≤ d.clock.now → ∀ (draft : Meeting.Draft) (id : String) (nonce : Token.Nonce),
    Draws d id nonce → ∀ id' ≠ id,
      (d.run (s.create draft).run).2.memory.find? id' = d.memory.find? id' := by
  intro h
  have hkept := h service full (by decide) attainable_full (by decide) (fun _ => rfl) (by decide)
    (by decide) draft next _ draws_next System.Sample.id (by decide)
  have acceptable : draft.Acceptable := ⟨by decide +kernel, by decide +kernel, by decide +kernel⟩
  obtain ⟨entropy, tally, hrun⟩ :=
    run_create_of_acceptable (s := service) (fun _ => rfl) acceptable draws_next
  rw [hrun] at hkept
  cases hkept

end Rendezvous
