import Mathlib.Data.List.Perm.Subperm
import Rendezvous.Meeting.Sample
import Rendezvous.Proofs.Store.History

namespace Rendezvous

theorem Dictionary.length_insert {α : Type} {d : Dictionary α} {key : String} {value : α}
    (h : d.get? key = none) : (d.insert key value).entries.length = d.entries.length + 1 := by
  have hne : ∀ e ∈ d.entries, key ≠ e.1 := by
    intro e he heq
    simp only [get?, Option.map_eq_none_iff, List.find?_eq_none] at h
    exact h e he (by simp [heq])
  change (insertEntry key value d.entries).length = d.entries.length + 1
  revert hne
  generalize d.entries = es
  intro hne
  induction es with
  | nil => rfl
  | cons e es ih =>
    rw [insertEntry]
    split
    · rfl
    · rw [if_neg (hne e List.mem_cons_self), List.length_cons, List.length_cons,
        ih fun e' he' => hne e' (List.mem_cons_of_mem _ he')]

namespace Store

theorem Turn.get?_chats_of_drops {s : Memory} (hk : s.Keyed) {m : Meeting} (hm : m ∈ s.meetings)
    {t : Turn} (h : Drops m t) : (t.apply s).chats.get? m.id = none := by
  have hfind := hk.find?_eq_some hm
  cases h with
  | deleted now =>
    change (s.delete m.id).2.chats.get? m.id = none
    rw [Memory.delete_of_find? hfind, Dictionary.get?_erase, if_pos rfl]
  | @swept now cutoff expired =>
    have hexpired : (s.find? m.id).any (·.isExpiredAt cutoff) := by
      simpa [hfind, Meeting.isExpiredAt] using expired
    change (s.deleteExpired cutoff).2.chats.get? m.id = none
    rw [hk.chats_deleteExpired, if_pos hexpired]

namespace Memory

variable {s : Memory} {now : Int64}

theorem chats_create (m : Meeting) : (s.create now m).2.chats = s.chats := by
  unfold create
  split <;> rfl

theorem chats_get (id : String) : (s.get now id).2.chats = s.chats := by
  unfold get
  split
  · rfl
  · split <;> rfl

theorem chats_modify (id : String) (f : Meeting → Meeting) :
    (s.modify id f).2.chats = s.chats := by
  unfold modify
  split <;> rfl

end Memory

namespace Turn

variable {s : Memory} {t : Turn}

theorem chats_of_strands {m : Meeting} (h : Strands s m t) : (t.apply s).chats = s.chats := by
  cases h with
  | lapsed => exact Memory.chats_get m.id
  | replaced => exact Memory.chats_create _
  | evicted => exact Memory.chats_create _

theorem of_get?_chats_apply {id : String} {link : ChatLink}
    (h : (t.apply s).chats.get? id = some link) :
    t = .linkChat id link ∨
      s.chats.get? id = some link ∧ t ≠ .unlinkChat id ∧ ∀ link', t ≠ .linkChat id link' := by
  have hperform {now : Int64} {op : Operation}
      (h : (s.perform now op).2.chats.get? id = some link → s.chats.get? id = some link)
      (hlink : (s.perform now op).2.chats.get? id = some link) :
      s.chats.get? id = some link ∧ perform now op ≠ .unlinkChat id ∧
        ∀ link', perform now op ≠ .linkChat id link' :=
    ⟨h hlink, nofun, nofun⟩
  cases t with
  | linkChat id' link' =>
    change (s.chats.insert id' link').get? id = some link at h
    rw [Dictionary.get?_insert] at h
    split at h
    · next hid =>
      cases h
      exact .inl (by rw [hid])
    · next hid => exact .inr ⟨h, nofun, fun _ heq => hid (Turn.linkChat.inj heq).1.symm⟩
  | unlinkChat id' =>
    change (s.chats.erase id').get? id = some link at h
    rw [Dictionary.get?_erase] at h
    split at h
    · cases h
    · next hid => exact .inr ⟨h, fun heq => hid (Turn.unlinkChat.inj heq).symm, nofun⟩
  | perform now op =>
    refine .inr (hperform (fun h => ?_) h)
    cases op with
    | create m => exact Memory.chats_create m ▸ h
    | get id => exact Memory.chats_get id ▸ h
    | setCall id callId bridged => exact Memory.chats_modify id _ ▸ h
    | setSatisfaction id value => exact Memory.chats_modify id _ ▸ h
    | chatLink => exact h
    | ping => exact h
    | delete id' =>
      change (s.delete id').2.chats.get? id = some link at h
      unfold Memory.delete at h
      split at h
      · exact h
      · rw [Dictionary.get?_erase] at h
        split at h
        · cases h
        · exact h
    | deleteExpired cutoff =>
      change (s.deleteExpired cutoff).2.chats.get? id = some link at h
      simp only [Memory.deleteExpired, Memory.get?_foldl_erase] at h
      split at h
      · cases h
      · exact h

end Turn

namespace Memory

/-- In a run chats are linked only to meetings that are held at that time. -/
def LinksHeld (capacity : Nat) : List Turn → Prop
  | [] => True
  | .linkChat id _ :: ts => ((after capacity ts).find? id).isSome ∧ LinksHeld capacity ts
  | _ :: ts => LinksHeld capacity ts

/-- A link was made for a meeting, which has been held ever since. -/
inductive Tied (capacity : Nat) (id : String) (link : ChatLink) : List Turn → Prop where
  | linked {ts : List Turn} (held : ((after capacity ts).find? id).isSome) :
      Tied capacity id link (.linkChat id link :: ts)
  | kept {t : Turn} {ts : List Turn} (tied : Tied capacity id link ts)
      (untaken : ∀ m, (after capacity ts).find? id = some m →
        ¬t.Drops m ∧ ¬t.Strands (after capacity ts) m)
      (linked : t ≠ .unlinkChat id ∧ ∀ link', t ≠ .linkChat id link') :
      Tied capacity id link (t :: ts)

/-- Each link belongs to a meeting that is held, and that was held when the link was made. -/
def AllTied (capacity : Nat) (ts : List Turn) : Prop :=
  ∀ id link, (after capacity ts).chats.get? id = some link →
    ((after capacity ts).find? id).isSome ∧ Tied capacity id link ts

/-- In some turn of a run a meeting with a link is stranded. -/
def StrandsLinked (capacity : Nat) : List Turn → Prop
  | [] => False
  | t :: ts => StrandsLinked capacity ts ∨ ∃ m ∈ (after capacity ts).meetings,
      t.Strands (after capacity ts) m ∧ ((after capacity ts).chats.get? m.id).isSome

variable {capacity : Nat} {ts : List Turn} {t : Turn}

theorem LinksHeld.tail (h : LinksHeld capacity (t :: ts)) : LinksHeld capacity ts := by
  cases t with
  | linkChat => exact h.2
  | perform => exact h
  | unlinkChat => exact h

theorem LinksHeld.suffix {ts' : List Turn} (h : LinksHeld capacity ts) (hsub : ts' <:+ ts) :
    LinksHeld capacity ts' := by
  induction ts with
  | nil => rwa [List.suffix_nil.mp hsub]
  | cons t ts ih =>
    rcases List.suffix_cons_iff.mp hsub with rfl | hsub
    · exact h
    · exact ih h.tail hsub

theorem StrandsLinked.of_suffix {ts' : List Turn} (h : StrandsLinked capacity ts')
    (hsub : ts' <:+ ts) : StrandsLinked capacity ts := by
  induction ts with
  | nil => rwa [← List.suffix_nil.mp hsub]
  | cons t ts ih =>
    rcases List.suffix_cons_iff.mp hsub with rfl | hsub
    · exact h
    · exact .inl (ih hsub)

theorem StrandsLinked.turn (h : StrandsLinked capacity ts) :
    ∃ t ts', t :: ts' <:+ ts ∧ ∃ m ∈ (after capacity ts').meetings,
      t.Strands (after capacity ts') m ∧ ((after capacity ts').chats.get? m.id).isSome := by
  induction ts with
  | nil => exact h.elim
  | cons t ts ih =>
    rcases h with h | h
    · obtain ⟨t', ts', hsub, hturn⟩ := ih h
      exact ⟨t', ts', hsub.trans (List.suffix_cons t ts), hturn⟩
    · exact ⟨t, ts, List.suffix_refl _, h⟩

theorem Tied.held (room : 0 < capacity) {id : String} {link : ChatLink}
    (h : Tied capacity id link ts) : ((after capacity ts).find? id).isSome := by
  induction h with
  | linked held => exact held
  | @kept t ts tied untaken linked ih =>
    obtain ⟨m, hfind⟩ := Option.isSome_iff_exists.mp ih
    obtain ⟨undropped, unstranded⟩ := untaken m hfind
    obtain ⟨hm, hid⟩ := find?_mem hfind
    have hkept :=
      (change_after room ts t).kept (keyed_after capacity ts) hm undropped unstranded
    exact List.find?_isSome.mpr ⟨_, hkept, by simp [Turn.id_effect, hid]⟩

/-- Links stay tied in a run that strands no meeting with a link. -/
theorem allTied_of_not_strandsLinked (room : 0 < capacity) (hheld : LinksHeld capacity ts)
    (h : ¬StrandsLinked capacity ts) : AllTied capacity ts := by
  induction ts with
  | nil => exact fun id link hlink => nomatch hlink
  | cons t ts ih =>
    intro id link hlink
    suffices htied : Tied capacity id link (t :: ts) from ⟨htied.held room, htied⟩
    rcases Turn.of_get?_chats_apply hlink with rfl | ⟨hold, hlinked⟩
    · exact .linked hheld.1
    · obtain ⟨_, htied⟩ := ih hheld.tail (fun hs => h (.inl hs)) id link hold
      refine .kept htied (fun m hfind => ?_) hlinked
      obtain ⟨hm, rfl⟩ := find?_mem hfind
      constructor
      · intro hdrops
        have hgone := Turn.get?_chats_of_drops (keyed_after capacity ts) hm hdrops
        exact nomatch hgone.symm.trans hlink
      · intro hstrands
        exact h (.inr ⟨m, hm, hstrands, Option.isSome_iff_exists.mpr ⟨link, hold⟩⟩)

/-- The link of a stranded meeting is not tied any more, and stays. -/
theorem not_allTied_of_strands {m : Meeting} (hm : m ∈ (after capacity ts).meetings)
    (hstrands : t.Strands (after capacity ts) m)
    (hlinked : ((after capacity ts).chats.get? m.id).isSome) : ¬AllTied capacity (t :: ts) := by
  intro h
  obtain ⟨link, hlink⟩ := Option.isSome_iff_exists.mp hlinked
  rw [← Turn.chats_of_strands hstrands] at hlink
  cases (h m.id link hlink).2 with
  | linked => cases hstrands
  | kept _ untaken =>
    exact (untaken m ((keyed_after capacity ts).find?_eq_some hm)).2 hstrands

/-- Where every link belongs to a meeting that is held, there are no more links than meetings. -/
theorem length_chats_le {s : Memory}
    (h : ∀ id link, s.chats.get? id = some link → (s.find? id).isSome) :
    s.chats.entries.length ≤ s.size := by
  have hnodup : (s.chats.entries.map (·.1)).Nodup := by
    rw [List.nodup_iff_pairwise_ne, List.pairwise_map]
    refine s.chats.increasing.imp fun {a b} hlt heq => ?_
    rw [heq] at hlt
    exact String.lt_irrefl _ hlt
  have hsub : s.chats.entries.map (·.1) ⊆ s.meetings.map Meeting.id := by
    intro id hid
    obtain ⟨e, he, rfl⟩ := List.mem_map.mp hid
    have hsome : (s.chats.entries.find? fun e' => e'.1 == e.1).isSome :=
      List.find?_isSome.mpr ⟨e, he, by simp⟩
    obtain ⟨e', he'⟩ := Option.isSome_iff_exists.mp hsome
    obtain ⟨m, hfind⟩ := Option.isSome_iff_exists.mp (h e.1 e'.2 (by simp [Dictionary.get?, he']))
    obtain ⟨hm, hid⟩ := find?_mem hfind
    exact List.mem_map.mpr ⟨m, hm, hid⟩
  have hle := (List.Nodup.subperm hnodup hsub).length_le
  rwa [List.length_map, List.length_map] at hle

theorem AllTied.get?_chats_of_created (room : 0 < capacity) {now : Int64} {n : Meeting}
    (hcreated : ((after capacity ts).create now n).1 = .ok ())
    (h : AllTied capacity (.perform now (.create n) :: ts)) :
    (after capacity (.perform now (.create n) :: ts)).chats.get? n.id = none := by
  refine Option.eq_none_iff_forall_ne_some.mpr fun link hlink => ?_
  cases (h n.id link hlink).2 with
  | kept tied untaken =>
    obtain ⟨m, hfind⟩ := Option.isSome_iff_exists.mp (tied.held room)
    by_cases hv : m.isVisibleAt now
    · rw [create_of_held (by simpa [hfind] using hv)] at hcreated
      cases hcreated
    · obtain ⟨hexpired, huncalled⟩ := not_isVisibleAt.mp hv
      exact (untaken m hfind).2 (.replaced (find?_mem hfind).2.symm hexpired huncalled)

theorem find?_create_isSome {s : Memory} (room : 0 < s.capacity) (now : Int64) (n : Meeting) :
    ((s.create now n).2.find? n.id).isSome := by
  by_cases hfree : (s.find? n.id).any (·.isVisibleAt now)
  · rw [create_of_held hfree]
    cases hfind : s.find? n.id with
    | some m => rfl
    | none => simp [hfind] at hfree
  · rw [create_of_free hfree]
    exact List.find?_isSome.mpr ⟨n, mem_push room n, by simp⟩

def numbered (k : Nat) : Meeting :=
  { Meeting.Sample.ofSeed 0 with id := String.ofList (List.replicate k 'm') }

theorem numbered_id_inj {j k : Nat} (h : (numbered j).id = (numbered k).id) : j = k := by
  have hlists : List.replicate j 'm' = List.replicate k 'm' := String.ofList_inj.mp h
  simpa using congrArg List.length hlists

/-- Meetings are created one after the other, and each is linked to a chat. -/
def crowd (now : Int64) (link : ChatLink) : Nat → List Turn
  | 0 => []
  | k + 1 => .linkChat (numbered k).id link :: .perform now (.create (numbered k)) ::
      crowd now link k

theorem linksHeld_crowd (room : 0 < capacity) (now : Int64) (link : ChatLink) (k : Nat) :
    LinksHeld capacity (crowd now link k) := by
  induction k with
  | zero => trivial
  | succ k ih =>
    have hcapacity := capacity_after capacity (crowd now link k)
    exact ⟨find?_create_isSome (Nat.lt_of_lt_of_eq room hcapacity.symm) now _, ih⟩

theorem length_chats_crowd (capacity : Nat) (now : Int64) (link : ChatLink) (k : Nat) :
    (after capacity (crowd now link k)).chats.entries.length = k := by
  suffices h : (after capacity (crowd now link k)).chats.entries.length = k ∧
      ∀ j, k ≤ j → (after capacity (crowd now link k)).chats.get? (numbered j).id = none from h.1
  induction k with
  | zero => exact ⟨rfl, fun _ _ => rfl⟩
  | succ k ih =>
    obtain ⟨hlength, habsent⟩ := ih
    have hchats : (after capacity (crowd now link (k + 1))).chats =
        (after capacity (crowd now link k)).chats.insert (numbered k).id link :=
      congrArg (Dictionary.insert · _ link) (chats_create _)
    rw [hchats]
    constructor
    · rw [Dictionary.length_insert (habsent k (Nat.le_refl k)), hlength]
    · intro j hj
      have hne : (numbered j).id ≠ (numbered k).id := by
        intro h
        have := numbered_id_inj h
        omega
      rw [Dictionary.get?_insert, if_neg hne]
      exact habsent j (by omega)

/-- The links of a run in which chats are linked only to meetings that are held. -/
theorem links_tied_iff (room : 0 < capacity) (hheld : LinksHeld capacity ts) :
    ((∀ ts', ts' <:+ ts → AllTied capacity ts') ↔ ¬StrandsLinked capacity ts) ∧
    (AllTied capacity ts → (after capacity ts).chats.entries.length ≤ capacity) ∧
    (∀ now n, ((after capacity ts).create now n).1 = .ok () →
      AllTied capacity (.perform now (.create n) :: ts) →
      (after capacity (.perform now (.create n) :: ts)).chats.get? n.id = none) ∧
    (∀ t, ∀ m ∈ (after capacity ts).meetings,
      (t.Drops m → (after capacity (t :: ts)).chats.get? m.id = none) ∧
      (t.Strands (after capacity ts) m →
        (after capacity (t :: ts)).chats = (after capacity ts).chats)) ∧
    (∀ now n, (after capacity (.perform now (.create n) :: ts)).chats =
      (after capacity ts).chats) ∧
    ∀ k, ∃ ts', LinksHeld capacity ts' ∧ (after capacity ts').chats.entries.length = k := by
  refine ⟨⟨?_, ?_⟩, ?_, fun now n => AllTied.get?_chats_of_created room, ?_, ?_, ?_⟩
  · intro h hstrands
    obtain ⟨t, ts', hsub, m, hm, hstrand, hlinked⟩ := hstrands.turn
    exact not_allTied_of_strands hm hstrand hlinked (h _ hsub)
  · intro h ts' hsub
    exact allTied_of_not_strandsLinked room (hheld.suffix hsub) fun hs => h (hs.of_suffix hsub)
  · intro h
    exact Nat.le_trans (length_chats_le fun id link hlink => (h id link hlink).1)
      (size_after_le room ts)
  · intro t m hm
    exact ⟨Turn.get?_chats_of_drops (keyed_after capacity ts) hm, Turn.chats_of_strands⟩
  · exact fun now n => chats_create n
  · intro k
    exact ⟨crowd 0 ⟨"", "", 0⟩ k, linksHeld_crowd room 0 _ k, length_chats_crowd capacity 0 _ k⟩

open Meeting.Sample in
/-- A meeting with a chat has to make room for another. -/
def crowdedOut : List Turn :=
  [.perform now (.create (ofSeed 1)), .linkChat (identifier 0) ⟨"conversation", "closer", 1⟩,
    .perform now (.create (ofSeed 0))]

open Meeting.Sample in
theorem link_of_crowdedOut :
    0 < 1 ∧ LinksHeld 1 crowdedOut ∧ ∃ ts', ts' <:+ crowdedOut ∧ ¬AllTied 1 ts' := by
  have hheld : LinksHeld 1 crowdedOut := ⟨by decide +kernel, trivial⟩
  refine ⟨by decide, hheld, ?_⟩
  have hstrands : StrandsLinked 1 crowdedOut :=
    .inr ⟨ofSeed 0, by decide +kernel,
      .evicted now (by decide +kernel) (by decide +kernel) (by decide +kernel), by decide +kernel⟩
  by_contra htied
  push Not at htied
  exact (links_tied_iff (by decide) hheld).1.mp htied hstrands

end Memory

end Store

end Rendezvous
