import NutServer.Net.EpollerPoll
import NutServer.Net.PollerActiveChannels

/-!
# Registered channels

What a back end knows of each channel, whatever its tables look like, and what
a call makes of it. The two differ where an ignored channel is updated.
-/

set_option autoImplicit false

namespace NutServer.Net

open Library

inductive Registration where
  | absent
  | watched
  | ignored
  deriving DecidableEq, Repr

namespace Registration

/-- `Poller::updateChannel`: nothing restores an entry that is negated. -/
def updatePoller (events : BitVec 32) : Registration → Registration
  | .absent => .watched
  | .watched => if events = Channel.noneEvent then .ignored else .watched
  | .ignored => .ignored

/-- `Epoller::updateChannel`: an ignored channel is added again, also without events. -/
def updateEpoller (events : BitVec 32) : Registration → Registration
  | .absent | .ignored => .watched
  | .watched => if events = Channel.noneEvent then .ignored else .watched

theorem updatePoller_eq_updateEpoller_iff {registration : Registration} {events : BitVec 32} :
    registration.updatePoller events = registration.updateEpoller events ↔ registration ≠ .ignored := by
  cases registration with
  | absent | watched => simp [updatePoller, updateEpoller]
  | ignored => simp [updatePoller, updateEpoller]

theorem updatePoller_ne_absent {registration : Registration} {events : BitVec 32} :
    registration.updatePoller events ≠ .absent := by
  cases registration with
  | absent | ignored => simp [updatePoller]
  | watched =>
      rw [updatePoller]
      split_ifs <;> simp

theorem updateEpoller_ne_absent {registration : Registration} {events : BitVec 32} :
    registration.updateEpoller events ≠ .absent := by
  cases registration with
  | absent | ignored => simp [updateEpoller]
  | watched =>
      rw [updateEpoller]
      split_ifs <;> simp

end Registration

/-- A channel as its back end sees it. -/
structure ChannelView where
  fd : Nat
  events : BitVec 32
  registration : Registration
  deriving DecidableEq, Repr

namespace ChannelView

def updatePoller (view : ChannelView) (events : BitVec 32) : ChannelView :=
  { view with events, registration := view.registration.updatePoller events }

def updateEpoller (view : ChannelView) (events : BitVec 32) : ChannelView :=
  { view with events, registration := view.registration.updateEpoller events }

def remove (view : ChannelView) : ChannelView := { view with registration := .absent }

end ChannelView

namespace Poller

variable {κ : Type} [DecidableEq κ] {poller next : Poller κ} {channels later : κ → Channel} {pointer other : κ}
  {channel : Channel} {pfd : PollFd}

def registrationOf : Option PollFd → Registration
  | none => .absent
  | some pfd => if pfd.fd < 0 then .ignored else .watched

/-- The entry of a channel that is in the map. -/
def fileOf (poller : Poller κ) (channels : κ → Channel) : κ → Option PollFd :=
  lookup poller.pollfds (poller.placeOf channels)

theorem registrationOf_eq_absent_iff {file : Option PollFd} : registrationOf file = .absent ↔ file = none := by
  cases file with
  | none => simp [registrationOf]
  | some pfd =>
      rw [registrationOf]
      split_ifs <;> simp

theorem registrationOf_eq_ignored_iff {file : Option PollFd} :
    registrationOf file = .ignored ↔ ∃ pfd, file = some pfd ∧ pfd.fd < 0 := by
  cases file with
  | none => simp [registrationOf]
  | some pfd =>
      rw [registrationOf]
      split_ifs with negative <;> simp [negative]

theorem registrationOf_eq_watched_iff {file : Option PollFd} :
    registrationOf file = .watched ↔ ∃ pfd, file = some pfd ∧ ¬ pfd.fd < 0 := by
  cases file with
  | none => simp [registrationOf]
  | some pfd =>
      rw [registrationOf]
      split_ifs with negative
      · simp [negative]
      · exact iff_of_true rfl ⟨pfd, rfl, negative⟩

private theorem registrationOf_refresh {channel : Channel} :
    registrationOf (some (refresh channel pfd)) = (registrationOf (some pfd)).updatePoller channel.events := by
  by_cases idle : channel.events = Channel.noneEvent
  · have nothing : channel.isNothingFocus = true := decide_eq_true idle
    have negative : ignoredFd channel < 0 := by
      rw [ignoredFd]
      omega
    simp only [registrationOf, refresh, nothing, if_true, if_pos negative]
    split_ifs <;> simp [Registration.updatePoller, idle]
  · have busy : channel.isNothingFocus = false := decide_eq_false idle
    simp only [registrationOf, refresh, busy, Bool.false_eq_true, if_false]
    split_ifs <;> simp [Registration.updatePoller, idle]

theorem InStep.entryOf_eq (inStep : poller.InStep channels)
    (mapped : poller.channels[(channels pointer).fd]? = some pointer) :
    poller.entryOf (channels pointer) = poller.fileOf channels pointer := by
  have index := (inStep.listed _ pointer mapped).2
  rw [entryOf, if_neg (by omega), fileOf, lookup_of_place (placeOf_of_mapped mapped)]

theorem fileOf_of_unmapped (unmapped : poller.channels[(channels pointer).fd]? ≠ some pointer) :
    poller.fileOf channels pointer = none := lookup_of_unlisted (placeOf_of_unmapped unmapped)

theorem InStep.exists_file (inStep : poller.InStep channels)
    (mapped : poller.channels[(channels pointer).fd]? = some pointer) :
    ∃ pfd, poller.fileOf channels pointer = some pfd ∧ Owns channels pointer pfd := by
  have place := placeOf_of_mapped mapped
  obtain ⟨pfd, found, owned⟩ := inStep.dense.cell pointer _ place
  exact ⟨pfd, (lookup_of_place place).trans found, owned⟩

private theorem placeOf_insert (absent : channel.fd ∉ poller.channels)
    (inserted : next.channels = poller.channels.insert channel.fd pointer) :
    next.placeOf (Function.update channels pointer channel) =
      Function.update (poller.placeOf channels) pointer (some channel.index.toNat) := by
  have unmapped := Std.ExtTreeMap.getElem?_eq_none absent
  rw [Function.eq_update_iff]
  constructor
  · rw [placeOf, Function.update_self, if_pos (by simp [inserted])]
  · intro other isPointer
    have differs : some pointer ≠ some other := fun same => isPointer (Option.some.inj same).symm
    rw [placeOf, placeOf, Function.update_of_ne isPointer]
    by_cases same : channel.fd = (channels other).fd
    · simp [inserted, same.symm, unmapped, differs]
    · simp [inserted, Std.ExtTreeMap.getElem?_insert, same]

private theorem addChannel_file (inStep : poller.InStep channels) (absent : channel.fd ∉ poller.channels) {listed : Channel}
    (added : poller.addChannel pointer channel = .ok (next, listed)) :
    (∃ index, listed = { channel with index }) ∧
      next.fileOf (Function.update channels pointer listed) = Function.update (poller.fileOf channels) pointer
        (some { fd := channel.fd, events := channel.events.setWidth 16, revents := 0 }) := by
  rw [addChannel, assert_of absent] at added
  cases added
  refine ⟨⟨_, rfl⟩, ?_⟩
  rw [fileOf, placeOf_insert (by exact absent) rfl]
  exact inStep.dense.lookup_append

private theorem updateExisting_file (inStep : poller.InStep channels)
    (found : poller.fileOf channels pointer = some pfd)
    (sameFd : channel.fd = (channels pointer).fd) (sameIndex : channel.index = (channels pointer).index)
    (updated : poller.updateExisting pointer channel = .ok next) :
    next.channels = poller.channels ∧ next.fileOf (Function.update channels pointer channel) =
      Function.update (poller.fileOf channels) pointer (some (refresh channel pfd)) := by
  obtain ⟨slot, place, entry⟩ := lookup_eq_some_iff.mp found
  have isSlot := (placeOf_eq_some_iff.mp place).2
  unfold updateExisting at updated
  obtain ⟨-, -, updated⟩ := Outcome.bind_eq_ok_iff.mp updated
  obtain ⟨-, -, updated⟩ := Outcome.bind_eq_ok_iff.mp updated
  rw [sameIndex, isSlot, entry] at updated
  obtain ⟨-, -, same⟩ := Outcome.bind_eq_ok_iff.mp updated
  cases same
  refine ⟨rfl, ?_⟩
  have samePlace := placeOf_congr (rfl : poller.channels = poller.channels) (update_field Channel.fd sameFd)
    (update_field Channel.index sameIndex)
  change lookup (poller.pollfds.set slot (refresh channel pfd)) (poller.placeOf _) = _
  rw [samePlace]
  exact inStep.dense.lookup_set place

/-- `updateChannel` gives the channel an entry for its events. -/
theorem updateChannel_file {stored : Channel} (inStep : poller.InStep channels)
    (sameFd : channel.fd = (channels pointer).fd) (sameIndex : channel.index = (channels pointer).index)
    (unused : (channels pointer).index < 0 → (channels pointer).fd ∉ poller.channels)
    (known : ¬ (channels pointer).index < 0 → poller.channels[(channels pointer).fd]? = some pointer)
    (updated : poller.updateChannel pointer channel = .ok (next, stored)) :
    stored.fd = channel.fd ∧ stored.events = channel.events ∧ ∃ pfd, pfd.events = channel.events.setWidth 16 ∧
      next.fileOf (Function.update channels pointer stored) =
        Function.update (poller.fileOf channels) pointer (some pfd) ∧
      registrationOf (some pfd) = (registrationOf (poller.fileOf channels pointer)).updatePoller channel.events := by
  rw [updateChannel, sameIndex] at updated
  by_cases isNew : (channels pointer).index < 0
  · rw [if_pos isNew] at updated
    obtain ⟨⟨index, isStored⟩, files⟩ := addChannel_file inStep (sameFd ▸ unused isNew) updated
    subst isStored
    have absent : poller.fileOf channels pointer = none := by
      apply fileOf_of_unmapped
      intro mapped
      have listed := (inStep.listed _ pointer mapped).2
      omega
    refine ⟨rfl, rfl, _, rfl, files, ?_⟩
    simp [absent, registrationOf, Registration.updatePoller]
  · rw [if_neg isNew] at updated
    obtain ⟨later, updatedExisting, same⟩ := Outcome.bind_pure_eq_ok_iff.mp updated
    cases same
    obtain ⟨pfd, found, -⟩ := inStep.exists_file (known isNew)
    obtain ⟨-, files⟩ := updateExisting_file inStep found sameFd sameIndex updatedExisting
    refine ⟨rfl, rfl, refresh channel pfd, rfl, files, ?_⟩
    rw [found, registrationOf_refresh]

/-- The entry that is swapped into the gap stays its channel's. -/
theorem removeChannel_file (inStep : poller.InStep channels)
    (mapped : poller.channels[(channels pointer).fd]? = some pointer)
    (removed : poller.removeChannel channels pointer = .ok (next, later)) :
    next.fileOf later = Function.update (poller.fileOf channels) pointer none ∧
      ∀ other, (later other).events = (channels other).events := by
  have place := placeOf_of_mapped mapped
  have inside := inStep.dense.inside place
  unfold removeChannel at removed
  simp only at removed
  obtain ⟨-, -, removed⟩ := Outcome.bind_eq_ok_iff.mp removed
  obtain ⟨-, -, removed⟩ := Outcome.bind_eq_ok_iff.mp removed
  obtain ⟨-, -, removed⟩ := Outcome.bind_eq_ok_iff.mp removed
  obtain ⟨pfd, -, removed⟩ := Outcome.bind_eq_ok_iff.mp removed
  obtain ⟨-, -, removed⟩ := Outcome.bind_eq_ok_iff.mp removed
  by_cases last : (channels pointer).index.toNat = poller.pollfds.length - 1
  · rw [if_pos last] at removed
    cases removed
    refine ⟨?_, fun _ => rfl⟩
    rw [fileOf, placeOf_erase rfl mapped]
    exact inStep.dense.lookup_removeLast place (by omega)
  · rw [if_neg last] at removed
    obtain ⟨back, backFound, removed⟩ := Outcome.bind_eq_ok_iff.mp removed
    obtain ⟨moved, movedFound, same⟩ := Outcome.bind_eq_ok_iff.mp removed
    cases same
    have lastInside : poller.pollfds.length - 1 < poller.pollfds.length := by omega
    obtain ⟨owner, isLast⟩ := inStep.dense.owner _ lastInside
    obtain ⟨entry, entryFound, owned⟩ := inStep.dense.cell owner _ isLast
    have ownerMapped := (placeOf_eq_some_iff.mp isLast).1
    have different : owner ≠ pointer := by
      intro same
      rw [same, place, Option.some.injEq] at isLast
      exact last isLast
    -- The last entry leads back to its own channel.
    have isOwner : moved = owner := by
      rw [List.getLast?_eq_getElem?, entryFound, demand_some] at backFound
      cases backFound
      rw [fd_of_owns owned, find_natCast, getElem?_erase_of_mapped mapped ownerMapped different, demand_some]
        at movedFound
      cases movedFound
      rfl
    subst isOwner
    let landed : Channel := { channels moved with index := ((channels pointer).index.toNat : Nat) }
    have stays : (Function.update channels moved landed pointer).fd = (channels pointer).fd := by
      rw [Function.update_of_ne different.symm]
    have sameFd : landed.fd = (channels moved).fd := rfl
    refine ⟨?_, update_field Channel.events rfl⟩
    rw [fileOf, placeOf_erase (by rw [stays]) (by rw [stays, mapped]), placeOf_update ownerMapped sameFd]
    exact inStep.dense.lookup_removeSwap place (by omega) isLast

/-- What `poll(2)` makes of an entry. -/
theorem fileOf_answered (answer : Nat → BitVec 16) :
    (poller.answered answer).fileOf channels pointer = (poller.fileOf channels pointer).map fun pfd =>
      if pfd.fd < 0 then pfd else { pfd with revents := answer (channels pointer).index.toNat } := by
  have samePlace : (poller.answered answer).placeOf channels pointer = poller.placeOf channels pointer := rfl
  rw [fileOf, fileOf, lookup, lookup, samePlace]
  cases place : poller.placeOf channels pointer with
  | none => rfl
  | some slot =>
      have isSlot := (placeOf_eq_some_iff.mp place).2
      rw [Option.bind_some, Option.bind_some, answered, List.getElem?_mapIdx, isSlot]

/-- The poller does not look at `revents`. -/
theorem fileOf_congr (sameMap : next.channels = poller.channels) (samePollfds : next.pollfds = poller.pollfds)
    (sameFd : ∀ other, (later other).fd = (channels other).fd)
    (sameIndex : ∀ other, (later other).index = (channels other).index) :
    next.fileOf later = poller.fileOf channels := by
  rw [fileOf, fileOf, samePollfds, placeOf_congr sameMap sameFd sameIndex]

end Poller

namespace PollerUse

open Poller

variable {κ : Type} [DecidableEq κ] {use next : PollerUse κ} {pointer other : κ} {pfd : PollFd}

def fileOf (use : PollerUse κ) : κ → Option PollFd := use.poller.fileOf use.channels

def view (use : PollerUse κ) (pointer : κ) : ChannelView where
  fd := (use.channels pointer).fd
  events := (use.channels pointer).events
  registration := registrationOf (use.fileOf pointer)

/-- Each entry asks for the events of its channel. -/
structure Filed (use : PollerUse κ) : Prop where
  valid : use.Valid
  events : ∀ pointer pfd, use.fileOf pointer = some pfd → pfd.events = (use.channels pointer).events.setWidth 16

/-- A call after which one channel may have another entry. -/
theorem Filed.change (filed : use.Filed) (valid : next.Valid) {result : Option PollFd}
    (fds : ∀ other, (next.channels other).fd = (use.channels other).fd)
    (events : ∀ other, other ≠ pointer → (next.channels other).events = (use.channels other).events)
    (files : next.fileOf = Function.update use.fileOf pointer result)
    (own : ∀ pfd, result = some pfd → pfd.events = (next.channels pointer).events.setWidth 16) :
    next.Filed ∧ next.view = Function.update use.view pointer
      ⟨(use.channels pointer).fd, (next.channels pointer).events, registrationOf result⟩ := by
  constructor
  · refine ⟨valid, fun other pfd found => ?_⟩
    rw [files] at found
    by_cases isPointer : other = pointer
    · subst isPointer
      rw [Function.update_self] at found
      exact own pfd found
    · rw [Function.update_of_ne isPointer] at found
      rw [events other isPointer]
      exact filed.events other pfd found
  · rw [Function.eq_update_iff]
    constructor
    · rw [view, fds, files, Function.update_self]
    · intro other isPointer
      rw [view, fds, files, Function.update_of_ne isPointer, events other isPointer]
      rfl

theorem update_filed (filed : use.Filed) (events : BitVec 32) (current : pointer ∉ use.removed)
    (unused : (use.channels pointer).index < 0 → (use.channels pointer).fd ∉ use.poller.channels) :
    ∃ next, use.update pointer events = .ok next ∧ next.Filed ∧ next.removed = use.removed ∧
      next.view = Function.update use.view pointer ((use.view pointer).updatePoller events) := by
  obtain ⟨next, updated, valid⟩ := update_valid filed.valid events current unused
  refine ⟨next, updated, ?_⟩
  obtain ⟨⟨poller, stored⟩, updatedChannel, same⟩ := Outcome.bind_pure_eq_ok_iff.mp updated
  subst same
  obtain ⟨sameFd, sameEvents, pfd, mask, files, registration⟩ := updateChannel_file filed.valid.inStep (by rfl)
    (by rfl) unused (filed.valid.fresh pointer current).resolve_right updatedChannel
  have sameEvents : stored.events = events := sameEvents
  have elsewhere : ∀ other, other ≠ pointer →
      (Function.update use.channels pointer stored other).events = (use.channels other).events := by
    intro other different
    rw [Function.update_of_ne different]
  have own : ∀ entry, some pfd = some entry →
      entry.events = (Function.update use.channels pointer stored pointer).events.setWidth 16 := by
    intro entry same
    cases same
    rw [mask, Function.update_self, sameEvents]
  obtain ⟨nextFiled, view⟩ := filed.change valid (update_field Channel.fd sameFd) elsewhere files own
  refine ⟨nextFiled, rfl, ?_⟩
  rw [view, registration]
  simp only [Function.update_self, sameEvents]
  rfl

theorem remove_filed (filed : use.Filed) (allowed : use.Allowed (.remove pointer)) :
    ∃ next, use.remove pointer = .ok next ∧ next.Filed ∧ next.removed = pointer :: use.removed ∧
      next.view = Function.update use.view pointer (use.view pointer).remove := by
  obtain ⟨mapped, off⟩ := allowed
  have inStep := filed.valid.inStep
  obtain ⟨next, left, valid⟩ := remove_valid filed.valid mapped off
  refine ⟨next, left, ?_⟩
  obtain ⟨⟨poller, channels⟩, removed, same⟩ := Outcome.bind_pure_eq_ok_iff.mp left
  subst same
  obtain ⟨otherPoller, otherChannels, alsoRemoved, -, fds, -, -⟩ := removeChannel_inStep inStep mapped off
  cases removed.symm.trans alsoRemoved
  obtain ⟨files, events⟩ := removeChannel_file inStep mapped removed
  have nothing : ∀ entry, (none : Option PollFd) = some entry →
      entry.events = (channels pointer).events.setWidth 16 := by
    intro entry same
    cases same
  obtain ⟨nextFiled, view⟩ := filed.change valid fds (fun other _ => events other) files nothing
  refine ⟨nextFiled, rfl, ?_⟩
  rw [view]
  simp only [events]
  rfl

/-- `Poller::poll` keeps what is registered. -/
theorem poll_filed (filed : use.Filed) (answer : Nat → BitVec 16) :
    ∃ next, use.poll answer = .ok next ∧ next.Filed ∧ next.removed = use.removed ∧ next.view = use.view := by
  obtain ⟨later, active, polled, reports⟩ := poll_spec filed.valid.inStep answer []
  obtain ⟨next, performed, valid⟩ := poll_valid filed.valid answer
  refine ⟨next, performed, ?_⟩
  rw [poll, polled] at performed
  cases performed
  have events : ∀ other, (later other).events = (use.channels other).events := by
    intro other
    by_cases isActive : other ∈ active
    · obtain ⟨pfd, -, entry, -⟩ := (reports.mem_iff other).mp isActive
      rw [reports.revents other isActive pfd entry]
    · rw [reports.others other isActive]
  have files : ∀ other, (use.poller.answered answer).fileOf later other = (use.fileOf other).map fun pfd =>
      if pfd.fd < 0 then pfd else { pfd with revents := answer (use.channels other).index.toNat } := by
    intro other
    have same : (use.poller.answered answer).fileOf later = (use.poller.answered answer).fileOf use.channels :=
      fileOf_congr rfl rfl (fun other => (reports.frame other).1) fun other => (reports.frame other).2
    rw [same, fileOf_answered]
    rfl
  refine ⟨⟨valid, ?_⟩, rfl, ?_⟩
  · intro other pfd found
    obtain ⟨former, before, same⟩ := Option.map_eq_some_iff.mp ((files other).symm.trans found)
    subst same
    have itsEvents := filed.events other former before
    simp only [events]
    split_ifs <;> exact itsEvents
  · funext other
    have sameFile : PollerUse.fileOf ⟨use.poller.answered answer, later, use.removed⟩ other = _ := files other
    rw [view, sameFile, view]
    simp only [(reports.frame other).1, events]
    cases use.fileOf other with
    | none => rfl
    | some pfd =>
        simp only [Option.map_some, registrationOf]
        split_ifs <;> rfl

end PollerUse

namespace EpollerSession

variable {κ : Type} {session next : EpollerSession κ} {pointer : κ}

def registrationOf (index : Int) : Registration :=
  if index = 1 then .watched else if index = 2 then .ignored else .absent

def view (session : EpollerSession κ) (pointer : κ) : ChannelView where
  fd := (session.channels pointer).fd
  events := (session.channels pointer).events
  registration := registrationOf (session.channels pointer).index

/-- The epoll set has the channels that are watched, with their events. -/
theorem Tracked.interest_iff (tracked : session.Tracked) :
    session.epoller.interest[(session.channels pointer).fd]? = some ⟨(session.channels pointer).events, pointer⟩ ↔
      (session.view pointer).registration = .watched := by
  cases tracked.mirrors pointer _ rfl with
  | unknown index unmapped unwatched => simp [view, registrationOf, index, unwatched]
  | watched index mapped watched => simp [view, registrationOf, index, watched]
  | ignored index mapped idle unwatched => simp [view, registrationOf, index, unwatched]

private theorem updateChannel_index {epoller later : Epoller κ} {former channel stored : Channel}
    (mirrors : epoller.Mirrors pointer former) (sameFd : channel.fd = former.fd)
    (sameIndex : channel.index = former.index)
    (updated : epoller.updateChannel pointer channel = .ok (later, stored)) :
    stored.fd = channel.fd ∧ stored.events = channel.events ∧
      registrationOf stored.index = (registrationOf former.index).updateEpoller channel.events := by
  cases mirrors with
  | unknown index unmapped unwatched =>
      rw [← sameFd] at unmapped unwatched
      rw [Epoller.updateChannel_of_unknown (sameIndex.trans index) unmapped unwatched] at updated
      cases updated
      exact ⟨rfl, rfl, by rw [index]; rfl⟩
  | watched index mapped watched =>
      rw [← sameFd] at watched
      rw [Epoller.updateChannel_of_watched pointer (sameIndex.trans index) watched] at updated
      by_cases idle : channel.events = Channel.noneEvent
      · have nothing : channel.isNothingFocus = true := decide_eq_true idle
        rw [if_pos nothing] at updated
        cases updated
        refine ⟨rfl, rfl, ?_⟩
        simp [index, registrationOf, Registration.updateEpoller, idle]
      · rw [if_neg (by simpa [Channel.isNothingFocus] using idle)] at updated
        cases updated
        refine ⟨rfl, rfl, ?_⟩
        simp [sameIndex, index, registrationOf, Registration.updateEpoller, idle]
  | ignored index mapped idle unwatched =>
      rw [← sameFd] at unwatched
      rw [Epoller.updateChannel_of_ignored (sameIndex.trans index) unwatched] at updated
      cases updated
      exact ⟨rfl, rfl, by rw [index]; rfl⟩

variable [DecidableEq κ]

private theorem view_store (epoller : Epoller κ) (channel : Channel) :
    (session.store pointer (epoller, channel)).view = Function.update session.view pointer
      ⟨channel.fd, channel.events, registrationOf channel.index⟩ := by
  rw [Function.eq_update_iff]
  constructor
  · simp only [view, store, Function.update_self]
  · intro other isPointer
    simp only [view, store, Function.update_of_ne isPointer]

theorem change_view (tracked : session.Tracked) (change : Channel.Change) :
    ∃ next, session.perform (.change pointer change) = .ok next ∧ next.Tracked ∧
      next.view = Function.update session.view pointer
        ((session.view pointer).updateEpoller ((session.channels pointer).change change).events) := by
  have allowed : session.Allowed (.change pointer change) := trivial
  obtain ⟨next, performed, nextTracked⟩ := perform_tracked tracked allowed
  refine ⟨next, performed, nextTracked, ?_⟩
  obtain ⟨⟨epoller, stored⟩, updated, same⟩ := Outcome.bind_pure_eq_ok_iff.mp performed
  subst same
  obtain ⟨sameFd, sameEvents, registration⟩ := updateChannel_index (tracked.mirrors pointer _ rfl)
    (Channel.fd_change ..) (Channel.index_change ..) updated
  rw [view_store, sameFd, sameEvents, registration, Channel.fd_change]
  rfl

theorem removeChannel_view (tracked : session.Tracked) (allowed : session.Allowed (.removeChannel pointer)) :
    ∃ next, session.perform (.removeChannel pointer) = .ok next ∧ next.Tracked ∧
      next.view = Function.update session.view pointer (session.view pointer).remove := by
  obtain ⟨next, performed, nextTracked⟩ := perform_tracked tracked allowed
  refine ⟨next, performed, nextTracked, ?_⟩
  obtain ⟨mapped, idle⟩ := allowed
  have registered := (tracked.mirrors pointer _ rfl).mapped_iff.mp mapped
  obtain ⟨epoller, removed, -⟩ := Epoller.removeChannel_spec tracked rfl registered (of_decide_eq_true idle)
  obtain ⟨result, alsoRemoved, same⟩ := Outcome.bind_pure_eq_ok_iff.mp performed
  cases removed.symm.trans alsoRemoved
  subst same
  rw [view_store]
  rfl

end EpollerSession

end NutServer.Net
