import NutServer.Net.EpollerProperties
import NutServer.Net.Poller

/-! The two back ends watch the same events until a channel whose `pollfds_`
entry has been negated is given events again: nothing restores the entry. -/

set_option autoImplicit false

namespace NutServer.Net

open Library

namespace Channel

/-- The masks that the four changes lead to. -/
def Plain (channel : Channel) : Prop :=
  channel.events = noneEvent ∨ channel.events = readEvent ∨ channel.events = writeEvent ∨
    channel.events = readEvent ||| writeEvent

theorem Plain.change {channel : Channel} (plain : channel.Plain) (change : Change) :
    (channel.change change).Plain := by
  unfold Plain at plain ⊢
  cases change with
  | enableReading | enableWriting | disableWriting =>
      simp only [Channel.change, enableReading, enableWriting, disableWriting]
      rcases plain with same | same | same | same <;> rw [same] <;> decide
  | disableAll => exact .inl rfl

private theorem Plain.widen {channel : Channel} (plain : channel.Plain) :
    (channel.events.setWidth 16).setWidth 32 = channel.events := by
  rcases plain with same | same | same | same <;> rw [same] <;> decide

end Channel

namespace Poller

variable {κ : Type}

def entryOf (poller : Poller κ) (channel : Channel) : Option PollFd :=
  if channel.index < 0 then none else poller.pollfds[channel.index.toNat]?

/-- The channel is in `pollfds_`, under a negative descriptor. -/
def ignores (poller : Poller κ) (channel : Channel) : Bool :=
  (poller.entryOf channel).any fun pfd => pfd.fd < 0

/-- What is passed to `poll(2)` and not skipped there. -/
def watched (poller : Poller κ) : Set (Nat × BitVec 32) :=
  {pair | ∃ pfd ∈ poller.pollfds, pfd.fd = pair.1 ∧ pfd.events.setWidth 32 = pair.2 ∧ pair.2 ≠ 0}

inductive Lists (poller : Poller κ) (pointer : κ) (channel : Channel) : Prop where
  | unknown (index : channel.index = -1) (unmapped : poller.channels[channel.fd]? = none)
  | listed (slot : Nat) (pfd : PollFd) (index : channel.index = slot)
      (mapped : poller.channels[channel.fd]? = some pointer) (entry : poller.pollfds[slot]? = some pfd)
      (fd : pfd.fd = channel.fd ∨ pfd.fd = ignoredFd channel)
      (events : pfd.events = channel.events.setWidth 16)

structure Holds (poller : Poller κ) (channels : κ → Channel) : Prop where
  apart : ∀ pointer other, (channels pointer).fd = (channels other).fd → pointer = other
  lists : ∀ pointer, poller.Lists pointer (channels pointer)
  owned : ∀ (slot : Nat) pfd, poller.pollfds[slot]? = some pfd → ∃ pointer, (channels pointer).index = slot

variable {poller next : Poller κ} {channels : κ → Channel} {pointer other : κ} {channel : Channel}
  {pfd : PollFd} {slot : Nat}

private theorem entryOf_index (index : channel.index = slot) : poller.entryOf channel = poller.pollfds[slot]? := by
  have known : ¬ channel.index < 0 := by omega
  rw [entryOf, if_neg known, index, Int.toNat_natCast]

private theorem ignores_iff_of_entry (index : channel.index = slot) (entry : poller.pollfds[slot]? = some pfd) :
    poller.ignores channel = true ↔ pfd.fd < 0 := by
  rw [ignores, entryOf_index index, entry]
  simp

private theorem ignores_of_unknown (index : channel.index = -1) : poller.ignores channel = false := by
  simp [ignores, entryOf, index]

private theorem Holds.slot_ne (holds : poller.Holds channels) (apart : other ≠ pointer)
    (index : (channels pointer).index = slot) : (channels other).index ≠ slot := by
  intro otherIndex
  cases holds.lists pointer with
  | unknown isNew => omega
  | listed first pfd firstIndex _ firstEntry firstFd _ =>
      cases holds.lists other with
      | unknown isNew => omega
      | listed second otherPfd secondIndex _ secondEntry secondFd _ =>
          have sameSlot : first = second := by omega
          subst sameSlot
          cases firstEntry.symm.trans secondEntry
          refine apart (holds.apart other pointer ?_)
          simp only [ignoredFd] at firstFd secondFd
          omega

theorem Lists.same (lists : poller.Lists pointer channel)
    (map : next.channels[channel.fd]? = poller.channels[channel.fd]?)
    (entry : ∀ slot : Nat, channel.index = slot → ∀ pfd, poller.pollfds[slot]? = some pfd →
      next.pollfds[slot]? = some pfd) : next.Lists pointer channel := by
  cases lists with
  | unknown index unmapped => exact .unknown index (map.trans unmapped)
  | listed slot pfd index mapped found fd events =>
      exact .listed slot pfd index (map.trans mapped) (entry slot index pfd found) fd events

private theorem Lists.ignores_same (lists : poller.Lists pointer channel)
    (entry : ∀ slot : Nat, channel.index = slot → ∀ pfd, poller.pollfds[slot]? = some pfd →
      next.pollfds[slot]? = some pfd) : next.ignores channel = poller.ignores channel := by
  cases lists with
  | unknown index unmapped => rw [ignores_of_unknown index, ignores_of_unknown index]
  | listed slot pfd index mapped found =>
      rw [ignores, ignores, entryOf_index index, entryOf_index index, found, entry slot index pfd found]

variable [DecidableEq κ]

theorem update_field {field : Type} (get : Channel → field) (same : get channel = get (channels pointer))
    (other : κ) : get (Function.update channels pointer channel other) = get (channels other) := by
  by_cases isPointer : other = pointer
  · subst isPointer
    rw [Function.update_self, same]
  · rw [Function.update_of_ne isPointer]

/-- A call that changes the entry of one channel only. -/
theorem Holds.change (holds : poller.Holds channels) (sameFd : channel.fd = (channels pointer).fd)
    (elsewhere : ∀ fd, fd ≠ channel.fd → next.channels[fd]? = poller.channels[fd]?)
    (entries : ∀ slot : Nat, (channels pointer).index ≠ slot → ∀ pfd, poller.pollfds[slot]? = some pfd →
      next.pollfds[slot]? = some pfd)
    (slots : ∀ (slot : Nat) pfd, next.pollfds[slot]? = some pfd →
      channel.index = slot ∨ (channels pointer).index ≠ slot ∧ ∃ former, poller.pollfds[slot]? = some former)
    (here : next.Lists pointer channel) :
    next.Holds (Function.update channels pointer channel) ∧
      ∀ other, other ≠ pointer → next.ignores (channels other) = poller.ignores (channels other) := by
  have others : ∀ other, other ≠ pointer → ∀ slot : Nat, (channels other).index = slot →
      ∀ pfd, poller.pollfds[slot]? = some pfd → next.pollfds[slot]? = some pfd :=
    fun other apart slot index pfd entry => entries slot (holds.slot_ne apart.symm index) pfd entry
  have fds : ∀ other, (Function.update channels pointer channel other).fd = (channels other).fd :=
    update_field Channel.fd sameFd
  refine ⟨⟨?_, ?_, ?_⟩, fun other apart => (holds.lists other).ignores_same (others other apart)⟩
  · intro first second sameFds
    exact holds.apart first second (by rw [← fds first, sameFds, fds second])
  · intro other
    by_cases same : other = pointer
    · subst same
      rw [Function.update_self]
      exact here
    · rw [Function.update_of_ne same]
      refine (holds.lists other).same (elsewhere _ fun sameFds => same ?_) (others other same)
      exact holds.apart other pointer (sameFds.trans sameFd)
  · intro slot pfd entry
    cases slots slot pfd entry with
    | inl mine => exact ⟨pointer, by rw [Function.update_self, mine]⟩
    | inr theirs =>
        obtain ⟨notMine, former, before⟩ := theirs
        obtain ⟨other, index⟩ := holds.owned slot former before
        refine ⟨other, ?_⟩
        rw [Function.update_of_ne, index]
        intro same
        subst same
        exact notMine index

private theorem addChannel_spec (channel : Channel) (holds : poller.Holds channels)
    (sameFd : channel.fd = (channels pointer).fd) (isNew : (channels pointer).index = -1)
    (unmapped : poller.channels[channel.fd]? = none) :
    ∃ next slot, poller.addChannel pointer channel = .ok (next, { channel with index := (slot : Nat) }) ∧
      next.Holds (Function.update channels pointer { channel with index := (slot : Nat) }) ∧
      (∀ other, other ≠ pointer → next.ignores (channels other) = poller.ignores (channels other)) ∧
      next.ignores { channel with index := (slot : Nat) } = false := by
  have absent : channel.fd ∉ poller.channels := by
    simp [Std.ExtTreeMap.mem_iff_isSome_getElem?, unmapped]
  let pfd : PollFd := { fd := channel.fd, events := channel.events.setWidth 16, revents := 0 }
  let next : Poller κ :=
    { pollfds := poller.pollfds ++ [pfd], channels := poller.channels.insert channel.fd pointer }
  let added : Channel := { channel with index := poller.pollfds.length }
  have last : next.pollfds[poller.pollfds.length]? = some pfd := by simp [next]
  have here : next.Lists pointer added :=
    .listed poller.pollfds.length pfd rfl (by simp [next, added]) last (.inl rfl) rfl
  have quiet : next.ignores added = false := by
    rw [← Bool.not_eq_true, ignores_iff_of_entry rfl last]
    exact not_lt.mpr (Int.natCast_nonneg channel.fd)
  have changed : next.Holds (Function.update channels pointer added) ∧
      ∀ other, other ≠ pointer → next.ignores (channels other) = poller.ignores (channels other) := by
    refine holds.change sameFd ?_ ?_ ?_ here
    · intro fd apart
      have apart : fd ≠ channel.fd := apart
      simp [next, Std.ExtTreeMap.getElem?_insert, apart.symm]
    · intro slot _ former entry
      exact List.getElem?_append_left (List.getElem?_eq_some_iff.mp entry).1 ▸ entry
    · intro slot former entry
      have inside := (List.getElem?_eq_some_iff.mp entry).1
      simp only [next, List.length_append, List.length_singleton] at inside
      by_cases before : slot < poller.pollfds.length
      · exact .inr ⟨by omega, _, List.getElem?_eq_getElem before⟩
      · refine .inl ?_
        simp only [added]
        omega
  refine ⟨next, poller.pollfds.length, ?_, changed.1, changed.2, quiet⟩
  rw [addChannel, assert_of absent]
  rfl

private theorem updateExisting_spec (channel : Channel) (holds : poller.Holds channels)
    (sameFd : channel.fd = (channels pointer).fd) (index : channel.index = slot)
    (sameIndex : channel.index = (channels pointer).index)
    (mapped : poller.channels[channel.fd]? = some pointer) (entry : poller.pollfds[slot]? = some pfd)
    (fd : pfd.fd = channel.fd ∨ pfd.fd = ignoredFd channel) :
    ∃ next, poller.updateExisting pointer channel = .ok next ∧
      next.Holds (Function.update channels pointer channel) ∧
      (∀ other, other ≠ pointer → next.ignores (channels other) = poller.ignores (channels other)) ∧
      (channel.isNothingFocus = false → next.ignores channel = poller.ignores (channels pointer)) := by
  have member : channel.fd ∈ poller.channels := by simp [Std.ExtTreeMap.mem_iff_isSome_getElem?, mapped]
  have inside := (List.getElem?_eq_some_iff.mp entry).1
  have position : channel.index.toNat = slot := by omega
  let next : Poller κ := { poller with pollfds := poller.pollfds.set slot (refresh channel pfd) }
  have refreshed : next.pollfds[slot]? = some (refresh channel pfd) := List.getElem?_set_self inside
  have here : next.Lists pointer channel := by
    refine .listed slot (refresh channel pfd) index mapped refreshed ?_ rfl
    unfold refresh
    cases channel.isNothingFocus with
    | true => exact .inr rfl
    | false => exact fd
  have changed : next.Holds (Function.update channels pointer channel) ∧
      ∀ other, other ≠ pointer → next.ignores (channels other) = poller.ignores (channels other) := by
    refine holds.change sameFd (fun _ _ => rfl) ?_ ?_ here
    · intro otherSlot apart former found
      have apart : slot ≠ otherSlot := by omega
      exact (List.getElem?_set_ne apart).trans found
    · intro otherSlot former found
      by_cases same : slot = otherSlot
      · exact .inl (by omega)
      · exact .inr ⟨by omega, former, (List.getElem?_set_ne same).symm.trans found⟩
  refine ⟨next, ?_, changed.1, changed.2, fun busy => ?_⟩
  · rw [updateExisting, assert_of member, assert_of mapped, position, entry]
    simp only [Outcome.ok_bind, assert_of fd]
    rfl
  · have before := ignores_iff_of_entry (sameIndex.symm.trans index) entry
    have after := ignores_iff_of_entry index refreshed
    simp only [refresh, busy] at after
    exact Bool.eq_iff_iff.mpr (after.trans before.symm)

/-- `updateChannel` lists the channel with its new events. An entry that is
negated stays so. -/
theorem updateChannel_spec (channel : Channel) (holds : poller.Holds channels)
    (sameFd : channel.fd = (channels pointer).fd) (sameIndex : channel.index = (channels pointer).index) :
    ∃ next index, poller.updateChannel pointer channel = .ok (next, { channel with index }) ∧ index ≠ -1 ∧
      next.Holds (Function.update channels pointer { channel with index }) ∧
      (∀ other, other ≠ pointer → next.ignores (channels other) = poller.ignores (channels other)) ∧
      (channel.isNothingFocus = false →
        next.ignores { channel with index } = poller.ignores (channels pointer)) := by
  cases holds.lists pointer with
  | unknown index unmapped =>
      rw [← sameFd] at unmapped
      obtain ⟨next, slot, added, nextHolds, others, quiet⟩ := addChannel_spec channel holds sameFd index unmapped
      refine ⟨next, slot, ?_, by omega, nextHolds, others, fun _ => quiet.trans (ignores_of_unknown index).symm⟩
      rw [updateChannel, if_pos (by omega), added]
  | listed slot pfd index mapped entry fd events =>
      rw [← sameFd] at mapped fd
      have sameIgnored : ignoredFd (channels pointer) = ignoredFd channel := by
        rw [ignoredFd, ignoredFd, sameFd]
      rw [sameIgnored] at fd
      obtain ⟨next, updated, nextHolds, others, kept⟩ :=
        updateExisting_spec channel holds sameFd (sameIndex.trans index) sameIndex mapped entry fd
      refine ⟨next, channel.index, ?_, by omega, nextHolds, others, kept⟩
      rw [updateChannel, if_neg (by omega), updated]
      rfl

omit [DecidableEq κ] in
private theorem mem_watched_iff (holds : poller.Holds channels) (plain : ∀ pointer, (channels pointer).Plain)
    {fd : Nat} {mask : BitVec 32} :
    (fd, mask) ∈ poller.watched ↔ mask ≠ 0 ∧ ∃ pointer, (channels pointer).fd = fd ∧
      (channels pointer).events = mask ∧ (channels pointer).index ≠ -1 ∧
      poller.ignores (channels pointer) = false := by
  constructor
  · rintro ⟨pfd, member, isFd, isMask, busy⟩
    simp only at isFd isMask
    obtain ⟨slot, inside, isEntry⟩ := List.getElem_of_mem member
    have entry : poller.pollfds[slot]? = some pfd := List.getElem?_eq_some_iff.mpr ⟨inside, isEntry⟩
    obtain ⟨pointer, index⟩ := holds.owned slot pfd entry
    refine ⟨busy, pointer, ?_⟩
    cases holds.lists pointer with
    | unknown isNew => omega
    | listed other otherPfd otherIndex mapped found itsFd events =>
        have sameSlot : other = slot := by omega
        subst sameSlot
        cases found.symm.trans entry
        have quiet := ignores_iff_of_entry index entry
        simp only [ignoredFd] at itsFd
        refine ⟨by omega, ?_, by omega, ?_⟩
        · rw [← isMask, events, (plain pointer).widen]
        · rw [← Bool.not_eq_true, quiet]
          omega
  · rintro ⟨busy, pointer, isFd, isMask, registered, quiet⟩
    cases holds.lists pointer with
    | unknown isNew => exact absurd isNew registered
    | listed slot pfd index mapped entry itsFd events =>
        rw [← Bool.not_eq_true, ignores_iff_of_entry index entry] at quiet
        simp only [ignoredFd] at itsFd
        refine ⟨pfd, List.mem_of_getElem? entry, ?_, ?_, busy⟩
        · simp only
          omega
        · rw [events, (plain pointer).widen, isMask]

end Poller

namespace Epoller

variable {κ : Type} {epoller : Epoller κ} {channels : κ → Channel}

/-- What is registered with epoll for some event. -/
def watched (epoller : Epoller κ) : Set (Nat × BitVec 32) :=
  {pair | ∃ event, epoller.interest[pair.1]? = some event ∧ event.events = pair.2 ∧ pair.2 ≠ 0}

private theorem mem_watched_iff (tracks : epoller.Tracks fun pointer => some (channels pointer)) {fd : Nat}
    {mask : BitVec 32} :
    (fd, mask) ∈ epoller.watched ↔ mask ≠ 0 ∧ ∃ pointer, (channels pointer).fd = fd ∧
      (channels pointer).events = mask ∧ (channels pointer).index ≠ -1 := by
  constructor
  · rintro ⟨event, registered, isMask, busy⟩
    obtain ⟨pointer, channel, isChannel, isFd⟩ := tracks.watched fd event registered
    cases isChannel
    refine ⟨busy, pointer, isFd, ?_⟩
    simp only [← isFd] at registered
    have mirrors := tracks.mirrors pointer _ rfl
    rw [mirrors.watched_eq registered] at isMask
    refine ⟨isMask, fun isNew => ?_⟩
    cases mirrors with
    | unknown _ _ unwatched => cases unwatched.symm.trans registered
    | watched index => omega
    | ignored index => omega
  · rintro ⟨busy, pointer, isFd, isMask, registered⟩
    cases tracks.mirrors pointer _ rfl with
    | unknown isNew => exact absurd isNew registered
    | watched _ _ watched =>
        rw [isFd] at watched
        exact ⟨_, watched, isMask, busy⟩
    | ignored _ _ idle => exact absurd (isMask.symm.trans idle) busy

end Epoller

/-- The same channels in both back ends, each with its own copy of their state. -/
structure PollerPair (κ : Type) where
  poller : Poller κ
  polled : κ → Channel
  epoller : Epoller κ
  epolled : κ → Channel

structure ChannelUpdate (κ : Type) where
  pointer : κ
  change : Channel.Change
  deriving DecidableEq, Repr

namespace PollerPair

variable {κ : Type} [DecidableEq κ]

def new (fds : κ → Nat) : PollerPair κ where
  poller := Poller.new
  polled pointer := Channel.new (fds pointer)
  epoller := Epoller.new
  epolled pointer := Channel.new (fds pointer)

def perform (pair : PollerPair κ) (update : ChannelUpdate κ) : Outcome (PollerPair κ) := do
  let (poller, polled) ← pair.poller.updateChannel update.pointer
    ((pair.polled update.pointer).change update.change)
  let (epoller, epolled) ← pair.epoller.updateChannel update.pointer
    ((pair.epolled update.pointer).change update.change)
  return {
    poller
    polled := Function.update pair.polled update.pointer polled
    epoller
    epolled := Function.update pair.epolled update.pointer epolled }

def step (pair : PollerPair κ) (update : ChannelUpdate κ) : Option (PollerPair κ) :=
  (pair.perform update).toOption

def Agree (pair : PollerPair κ) : Prop := pair.poller.watched = pair.epoller.watched

/-- The channel is given events while its `pollfds_` entry is negated. -/
def Deafens (pair : PollerPair κ) (update : ChannelUpdate κ) : Prop :=
  pair.poller.ignores (pair.polled update.pointer) = true ∧
    ((pair.polled update.pointer).change update.change).isNothingFocus = false

instance decidableDeafens (pair : PollerPair κ) (update : ChannelUpdate κ) : Decidable (pair.Deafens update) :=
  inferInstanceAs (Decidable (_ ∧ _))

/-- Only channels without events are ignored. -/
def Hears (pair : PollerPair κ) : Prop :=
  ∀ pointer, pair.poller.ignores (pair.polled pointer) = true → (pair.polled pointer).isNothingFocus = true

/-- Both back ends are in order, and the two copies differ in their index only. -/
structure Paired (pair : PollerPair κ) : Prop where
  holds : pair.poller.Holds pair.polled
  tracks : pair.epoller.Tracks fun pointer => some (pair.epolled pointer)
  plain : ∀ pointer, (pair.polled pointer).Plain
  fd : ∀ pointer, (pair.polled pointer).fd = (pair.epolled pointer).fd
  events : ∀ pointer, (pair.polled pointer).events = (pair.epolled pointer).events
  registered : ∀ pointer, (pair.polled pointer).index = -1 ↔ (pair.epolled pointer).index = -1

variable {pair next : PollerPair κ} {update : ChannelUpdate κ}

omit [DecidableEq κ] in
private theorem Paired.agree_iff (paired : pair.Paired) : pair.Agree ↔ pair.Hears := by
  constructor
  · intro agree pointer ignored
    by_contra busy
    have some : (pair.polled pointer).events ≠ Channel.noneEvent := by simpa [Channel.isNothingFocus] using busy
    have registered : (pair.epolled pointer).index ≠ -1 := by
      rw [Ne, ← paired.registered pointer]
      intro isNew
      rw [Poller.ignores_of_unknown isNew] at ignored
      cases ignored
    have watched : ((pair.polled pointer).fd, (pair.polled pointer).events) ∈ pair.epoller.watched :=
      (Epoller.mem_watched_iff paired.tracks).mpr
        ⟨some, pointer, (paired.fd pointer).symm, (paired.events pointer).symm, registered⟩
    rw [← agree, Poller.mem_watched_iff paired.holds paired.plain] at watched
    obtain ⟨_, other, sameFd, _, _, quiet⟩ := watched
    cases paired.holds.apart other pointer sameFd
    cases quiet.symm.trans ignored
  · intro hears
    ext ⟨fd, mask⟩
    rw [Poller.mem_watched_iff paired.holds paired.plain, Epoller.mem_watched_iff paired.tracks]
    refine and_congr_right fun some => exists_congr fun pointer => ?_
    rw [paired.fd pointer, paired.events pointer, Ne, paired.registered pointer]
    refine and_congr_right fun _ => and_congr_right fun isMask => and_iff_left_iff_imp.mpr fun _ => ?_
    cases ignored : pair.poller.ignores (pair.polled pointer) with
    | false => rfl
    | true =>
        have idle := hears pointer ignored
        simp only [Channel.isNothingFocus, decide_eq_true_eq, paired.events pointer, isMask] at idle
        exact absurd idle some

/-- The pair with a channel stored in each back end. -/
def store (pair : PollerPair κ) (pointer : κ) (polled : Poller κ × Channel) (epolled : Epoller κ × Channel) :
    PollerPair κ where
  poller := polled.1
  polled := Function.update pair.polled pointer polled.2
  epoller := epolled.1
  epolled := Function.update pair.epolled pointer epolled.2

private theorem store_paired (paired : pair.Paired) {pointer : κ} {poller : Poller κ} {epoller : Epoller κ}
    {polled epolled : Channel} (holds : poller.Holds (Function.update pair.polled pointer polled))
    (tracks : epoller.Tracks
      (Function.update (fun other => some (pair.epolled other)) pointer (some epolled)))
    (plain : polled.Plain) (fd : polled.fd = epolled.fd) (events : polled.events = epolled.events)
    (slotKnown : polled.index ≠ -1) (indexKnown : epolled.index ≠ -1) :
    (pair.store pointer (poller, polled) (epoller, epolled)).Paired where
  holds := holds
  tracks := by
    have stored : (fun other => some ((pair.store pointer (poller, polled) (epoller, epolled)).epolled other)) =
        Function.update (fun other => some (pair.epolled other)) pointer (some epolled) := by
      funext other
      exact Function.apply_update (fun _ found => some found) pair.epolled pointer epolled other
    rw [stored]
    exact tracks
  plain := (Function.forall_update_iff pair.polled fun _ channel => channel.Plain).mpr
    ⟨plain, fun other _ => paired.plain other⟩
  fd other := by
    by_cases same : other = pointer
    · subst same
      simp [store, fd]
    · simp [store, same, paired.fd other]
  events other := by
    by_cases same : other = pointer
    · subst same
      simp [store, events]
    · simp [store, same, paired.events other]
  registered other := by
    by_cases same : other = pointer
    · subst same
      simp [store, slotKnown, indexKnown]
    · simp [store, same, paired.registered other]

private theorem store_hears {pointer : κ} {poller : Poller κ} {polled : Channel} {epolled : Epoller κ × Channel}
    (hears : pair.Hears)
    (others : ∀ other, other ≠ pointer →
      poller.ignores (pair.polled other) = pair.poller.ignores (pair.polled other))
    (kept : polled.isNothingFocus = false → poller.ignores polled = pair.poller.ignores (pair.polled pointer)) :
    (pair.store pointer (poller, polled) epolled).Hears ↔
      ¬ (pair.poller.ignores (pair.polled pointer) = true ∧ polled.isNothingFocus = false) := by
  have split : (pair.store pointer (poller, polled) epolled).Hears ↔
      (poller.ignores polled = true → polled.isNothingFocus = true) ∧
        ∀ other, other ≠ pointer → poller.ignores (pair.polled other) = true →
          (pair.polled other).isNothingFocus = true :=
    Function.forall_update_iff pair.polled fun _ channel =>
      poller.ignores channel = true → channel.isNothingFocus = true
  rw [split, and_iff_left]
  · cases idle : polled.isNothingFocus with
    | true => simp
    | false => simp [kept idle]
  · intro other apart ignored
    exact hears other ((others other apart).symm.trans ignored)

theorem perform_paired (paired : pair.Paired) (update : ChannelUpdate κ) :
    ∃ next, pair.perform update = .ok next ∧ next.Paired ∧
      (pair.Hears → (next.Hears ↔ ¬ pair.Deafens update)) := by
  obtain ⟨pointer, change⟩ := update
  let polled := (pair.polled pointer).change change
  let epolled := (pair.epolled pointer).change change
  have sameFd : polled.fd = epolled.fd := by simp [polled, epolled, paired.fd pointer]
  have sameEvents : polled.events = epolled.events := Channel.events_change (paired.events pointer) change
  obtain ⟨poller, slot, listed, slotKnown, holds, others, kept⟩ :=
    Poller.updateChannel_spec polled paired.holds (Channel.fd_change ..) (Channel.index_change ..)
  obtain ⟨epoller, index, registered, indexKnown, tracks⟩ :=
    Epoller.updateChannel_spec epolled paired.tracks rfl (Channel.fd_change ..) (Channel.index_change ..)
  refine ⟨pair.store pointer (poller, { polled with index := slot }) (epoller, { epolled with index }), ?_,
    store_paired paired holds tracks ((paired.plain pointer).change change) sameFd sameEvents slotKnown indexKnown,
    fun hears => store_hears hears others kept⟩
  simp only [perform]
  rw [listed, Outcome.ok_bind]
  simp only
  rw [registered]
  rfl

theorem step_eq_some_iff : step pair update = some next ↔ pair.perform update = .ok next :=
  Outcome.toOption_eq_some_iff

theorem step_paired (paired : pair.Paired) (stepped : step pair update = some next) :
    next.Paired ∧ (pair.Hears → (next.Hears ↔ ¬ pair.Deafens update)) := by
  obtain ⟨other, performed, nextPaired, hears⟩ := perform_paired paired update
  cases (step_eq_some_iff.mp stepped).symm.trans performed
  exact ⟨nextPaired, hears⟩

omit [DecidableEq κ] in
theorem new_paired (fds : κ → Nat) (apart : Function.Injective fds) : (new fds).Paired where
  holds := {
    apart := fun pointer other same => apart same
    lists := fun pointer => .unknown rfl (by simp [new, Poller.new])
    owned := fun slot pfd entry => by simp [new, Poller.new] at entry }
  tracks := Epoller.new_tracks
    (fun pointer other channel found isChannel isFound same => by
      cases isChannel
      cases isFound
      exact apart same)
    (fun pointer channel isChannel => by
      cases isChannel
      rfl)
  plain pointer := .inl rfl
  fd pointer := rfl
  events pointer := rfl
  registered pointer := Iff.rfl

/-- From unregistered channels with distinct descriptors, every update succeeds
in both back ends, and after each of them they watch the same events, exactly
when no channel is given events while its `pollfds_` entry is negated. -/
theorem agree_iff_never_deafens (fds : κ → Nat) (apart : Function.Injective fds)
    (updates : List (ChannelUpdate κ)) :
    (∃ final, run step (new fds) updates = some final) ∧
      (Throughout step Agree (new fds) updates ↔
        Along step (fun pair update => ¬ pair.Deafens update) (new fds) updates) := by
  have start := new_paired fds apart
  have startHears : (new fds).Hears := fun pointer _ => rfl
  have anything : Along step (fun _ _ => True) (new fds) updates := along_of_forall fun _ _ => trivial
  obtain ⟨final, ran, -⟩ := run_total (fun _ (pair : PollerPair κ) => pair.Paired) start
    (fun past pair update paired _ => by
      obtain ⟨next, performed, nextPaired, -⟩ := perform_paired paired update
      exact ⟨next, step_eq_some_iff.mpr performed, nextPaired⟩) anything
  refine ⟨⟨final, ran⟩, throughout_iff_along (fun pair => pair.Paired ∧ pair.Hears) Agree
    ⟨start, startHears⟩ ?_ ?_ ?_ ran⟩
  · intro pair both
    exact both.1.agree_iff.mpr both.2
  · intro pair update next both quiet stepped
    obtain ⟨nextPaired, nextHears⟩ := step_paired both.1 stepped
    exact ⟨nextPaired, (nextHears both.2).mpr quiet⟩
  · intro pair update next both deafens stepped agree
    obtain ⟨nextPaired, nextHears⟩ := step_paired both.1 stepped
    exact deafens ((nextHears both.2).mp (nextPaired.agree_iff.mp agree))

/-- A channel that is only disabled at the end. -/
theorem agree_iff_never_deafens_disabled :
    Throughout step Agree (new fun pointer : Nat => pointer + 3)
      [⟨0, .enableReading⟩, ⟨1, .enableReading⟩, ⟨0, .enableWriting⟩, ⟨0, .disableWriting⟩, ⟨1, .disableAll⟩] :=
  (agree_iff_never_deafens (fun pointer : Nat => pointer + 3) (add_left_injective 3)
    [⟨0, .enableReading⟩, ⟨1, .enableReading⟩, ⟨0, .enableWriting⟩, ⟨0, .disableWriting⟩,
      ⟨1, .disableAll⟩]).2.mpr (by decide +kernel)

/-- One channel, disabled and enabled again: `poll` goes on skipping it. -/
theorem enabled_again_deaf :
    ∃ final, run step (new fun _ : Unit => 5) [⟨(), .enableReading⟩, ⟨(), .disableAll⟩, ⟨(), .enableReading⟩] =
      some final ∧ ¬ final.Agree := by
  have reached : (run step (new fun _ : Unit => 5)
      [⟨(), .enableReading⟩, ⟨(), .disableAll⟩, ⟨(), .enableReading⟩]).any (fun final =>
        final.poller.pollfds = [⟨-6, 3, 0⟩] ∧ final.epoller.interest[5]? = some ⟨3, ()⟩) = true := by
    decide +kernel
  obtain ⟨final, ran, shown⟩ := (Option.any_eq_true _ _).mp reached
  obtain ⟨pollfds, registered⟩ := of_decide_eq_true shown
  refine ⟨final, ran, fun agree => ?_⟩
  have watched : (5, 3) ∈ final.epoller.watched := ⟨_, registered, rfl, by decide⟩
  rw [← agree] at watched
  obtain ⟨pfd, member, isFd, _⟩ := watched
  rw [pollfds, List.mem_singleton] at member
  subst member
  simp at isFd

end PollerPair

end NutServer.Net
