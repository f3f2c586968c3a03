import NutServer.Net.Registration

/-!
# The two back ends side by side

The same changes, removals and polls on a `Poller` and on an `Epoller`, while
the same things happen to the descriptors. The one is as good as the other
until a channel is updated whose `pollfds_` entry is negated.
-/

set_option autoImplicit false

namespace NutServer.Net

open Library

/-- What is reported of what has happened to a descriptor: errors and hang-ups
also where they are not asked for. -/
def Channel.occurred (events : BitVec 32) (ready : BitVec 16) : BitVec 32 :=
  ready.setWidth 32 &&& (events ||| pollErr ||| pollHup)

/-- What `poll(2)` writes into an entry of an open descriptor that it does not skip. -/
def Poller.answerOf {κ : Type} (poller : Poller κ) (ready : Nat → BitVec 16) (slot : Nat) : BitVec 16 :=
  poller.pollfds[slot]?.elim 0 fun pfd =>
    ready pfd.fd.toNat &&& (pfd.events ||| Channel.pollErr.setWidth 16 ||| Channel.pollHup.setWidth 16)

namespace EpollLoop

variable {κ : Type} [DecidableEq κ]

/-- The descriptors of the set that something has happened to. -/
def due (polled : EpollLoop κ) (ready : Nat → BitVec 16) : List (Nat × BitVec 32) :=
  (polled.session.epoller.interest.toList.map fun watched =>
    (watched.1, Channel.occurred watched.2.events (ready watched.1))).filter fun entry => entry.2 ≠ 0

/-- `epoll_wait` reports any of them, as many as there is room for. -/
def Answers (polled : EpollLoop κ) (ready : Nat → BitVec 16) (entries : List (Nat × BitVec 32)) : Prop :=
  entries.Subperm (polled.due ready) ∧ entries.length = min polled.epollEvents.length (polled.due ready).length

instance decidableAnswers (polled : EpollLoop κ) (ready : Nat → BitVec 16) (entries : List (Nat × BitVec 32)) :
    Decidable (polled.Answers ready entries) := inferInstanceAs (Decidable (_ ∧ _))

end EpollLoop

/-- Each back end has its own copy of the channels. -/
structure Backends (κ : Type) where
  polling : PollerUse κ
  epolling : EpollLoop κ

namespace Backends

variable {κ : Type} [DecidableEq κ]

inductive Event (κ : Type) where
  | change (pointer : κ) (change : Channel.Change)
  | remove (pointer : κ)
  | poll (ready : Nat → BitVec 16) (entries : List (Nat × BitVec 32))

def new (fds : κ → Nat) : Backends κ where
  polling := .new fds
  epolling := .new fds

def perform (both : Backends κ) : Event κ → Outcome (Backends κ)
  | .change pointer change => do
      let polling ← both.polling.update pointer ((both.polling.channels pointer).change change).events
      let epolling ← both.epolling.perform (.operate (.change pointer change))
      return { polling, epolling }
  | .remove pointer => do
      let polling ← both.polling.remove pointer
      let epolling ← both.epolling.perform (.operate (.removeChannel pointer))
      return { polling, epolling }
  | .poll ready entries => do
      let polling ← both.polling.poll (both.polling.poller.answerOf ready)
      let epolling ← both.epolling.perform (.poll (.ready entries))
      return { polling, epolling }

/-- A removed channel is not changed again, and one that is removed meets what
both calls assert of it. -/
def Event.Enabled (both : Backends κ) : Event κ → Prop
  | .change pointer _ => pointer ∉ both.polling.removed
  | .remove pointer =>
      both.polling.Allowed (.remove pointer) ∧ both.epolling.session.Allowed (.removeChannel pointer)
  | .poll ready entries => both.epolling.Answers ready entries

instance decidableEnabled (both : Backends κ) : (event : Event κ) → Decidable (event.Enabled both)
  | .change pointer _ => inferInstanceAs (Decidable (pointer ∉ both.polling.removed))
  | .remove pointer => inferInstanceAs (Decidable
      (both.polling.Allowed (.remove pointer) ∧ both.epolling.session.Allowed (.removeChannel pointer)))
  | .poll ready entries => inferInstanceAs (Decidable (both.epolling.Answers ready entries))

def step (both : Backends κ) (event : Event κ) : Option (Backends κ) :=
  if event.Enabled both then (both.perform event).toOption else none

/-- Whatever happens to the descriptors, the channels that `Epoller::poll` makes
active are among those of `Poller::poll`, with the same events, and are all of
them as far as `epollEvents_` has room. -/
def Alike (both : Backends κ) : Prop :=
  ∀ ready entries, both.epolling.Answers ready entries →
    ∃ poller later active next,
      both.polling.poller.poll (both.polling.poller.answerOf ready) both.polling.channels [] =
        .ok (poller, later, active) ∧
      both.epolling.perform (.poll (.ready entries)) = .ok next ∧
      next.activeChannels.Subperm active ∧
      next.activeChannels.length = min both.epolling.epollEvents.length active.length ∧
      ∀ pointer ∈ next.activeChannels, (next.session.channels pointer).revents = (later pointer).revents

/-- A channel is updated whose entry is negated. -/
def Event.Revisits (both : Backends κ) : Event κ → Prop
  | .change pointer _ => both.polling.poller.ignores (both.polling.channels pointer) = true
  | .remove _ | .poll _ _ => False

instance decidableRevisits (both : Backends κ) : (event : Event κ) → Decidable (event.Revisits both)
  | .change pointer _ =>
      inferInstanceAs (Decidable (both.polling.poller.ignores (both.polling.channels pointer) = true))
  | .remove _ | .poll _ _ => isFalse id

end Backends

namespace Channel

private theorem Plain.of_events {channel other : Channel} (plain : channel.Plain) (same : other.events = channel.events) :
    other.Plain := by
  rwa [Plain, same]

private theorem Plain.occurred {channel : Channel} (plain : channel.Plain) (ready : BitVec 16) :
    let word := ready &&& (channel.events.setWidth 16 ||| pollErr.setWidth 16 ||| pollHup.setWidth 16)
    word.signExtend 32 = Channel.occurred channel.events ready ∧
      (0 < word.toInt ↔ Channel.occurred channel.events ready ≠ 0) := by
  intro word
  let mask : BitVec 16 := channel.events.setWidth 16 ||| pollErr.setWidth 16 ||| pollHup.setWidth 16
  -- No sign bit is asked for.
  have unsigned : mask.msb = false ∧ mask.setWidth 32 = (channel.events ||| pollErr ||| pollHup) := by
    simp only [mask]
    rcases plain with same | same | same | same <;> rw [same] <;> decide
  have positive : word.msb = false := by
    change (ready &&& mask).msb = false
    rw [BitVec.msb_and, unsigned.1, Bool.and_false]
  have wide : word.setWidth 32 = Channel.occurred channel.events ready := by
    change (ready &&& mask).setWidth 32 = _
    rw [BitVec.setWidth_and, unsigned.2, Channel.occurred]
  constructor
  · rw [BitVec.signExtend_eq_setWidth_of_msb_false positive, wide]
  · rw [BitVec.toInt_eq_toNat_of_msb positive, ← wide, Ne, ← BitVec.toNat_inj, BitVec.toNat_setWidth_of_le (by decide)]
    have zero : (0 : BitVec 32).toNat = 0 := rfl
    omega

end Channel

namespace PollerUse

open Poller

variable {κ : Type} [DecidableEq κ] {use : PollerUse κ} {pointer : κ} {ready : Nat → BitVec 16}

private theorem ignores_iff (valid : use.Valid) (current : pointer ∉ use.removed) :
    use.poller.ignores (use.channels pointer) = true ↔ (use.view pointer).registration = .ignored := by
  rw [view, registrationOf_eq_ignored_iff, ignores]
  cases valid.fresh pointer current with
  | inl mapped =>
      have entry : use.poller.entryOf (use.channels pointer) = use.fileOf pointer := valid.inStep.entryOf_eq mapped
      simp [entry, Option.any_eq_true]
  | inr isNew =>
      have unmapped : use.poller.channels[(use.channels pointer).fd]? ≠ some pointer := by
        intro mapped
        have known := (valid.inStep.listed _ pointer mapped).2
        omega
      have absent : use.fileOf pointer = none := fileOf_of_unmapped unmapped
      simp [absent, entryOf, isNew]

/-- The entry of a channel after `poll(2)`. -/
theorem Filed.entryOf_answered (filed : use.Filed) {pfd : PollFd}
    (mapped : use.poller.channels[(use.channels pointer).fd]? = some pointer) (found : use.fileOf pointer = some pfd) :
    (use.poller.answered (use.poller.answerOf ready)).entryOf (use.channels pointer) = some
      (if pfd.fd < 0 then pfd else
        { pfd with revents := ready (use.channels pointer).fd &&&
            ((use.channels pointer).events.setWidth 16 ||| Channel.pollErr.setWidth 16 |||
              Channel.pollHup.setWidth 16) }) := by
  have inStep := filed.valid.inStep
  obtain ⟨slot, place, entry⟩ := lookup_eq_some_iff.mp found
  have isSlot := (placeOf_eq_some_iff.mp place).2
  subst isSlot
  have owned := fd_of_owns (inStep.dense.owns_of_lookup found)
  have mask := filed.events pointer pfd found
  have sameMap : (use.poller.answered (use.poller.answerOf ready)).channels[(use.channels pointer).fd]? =
      some pointer := mapped
  rw [(inStep.answered (use.poller.answerOf ready)).entryOf_eq sameMap, fileOf_answered]
  have file : use.poller.fileOf use.channels pointer = some pfd := found
  rw [file, Option.map_some, answerOf, entry, Option.elim_some, mask]
  split_ifs with negative
  · rfl
  · rw [if_neg negative] at owned
    rw [owned, Int.toNat_natCast]

/-- `poll(2)` reports nothing for an entry that it skips. -/
theorem Filed.file_of_reported (filed : use.Filed) {entry : PollFd}
    (mapped : use.poller.channels[(use.channels pointer).fd]? = some pointer)
    (isEntry : (use.poller.answered (use.poller.answerOf ready)).entryOf (use.channels pointer) = some entry)
    (positive : 0 < entry.revents.toInt) : ∃ pfd, use.fileOf pointer = some pfd ∧ ¬ pfd.fd < 0 := by
  have inStep := filed.valid.inStep
  obtain ⟨pfd, file, -⟩ := inStep.exists_file mapped
  refine ⟨pfd, file, fun negative => ?_⟩
  rw [filed.entryOf_answered mapped file, if_pos negative] at isEntry
  cases isEntry
  rw [inStep.idle _ (inStep.dense.mem_iff_lookup.mpr ⟨pointer, file⟩) negative] at positive
  exact absurd positive (by decide)

/-- The channels that `Poller::poll` makes active, and their `revents`. -/
theorem poll_occurred (filed : use.Filed) (plain : ∀ pointer, (use.channels pointer).Plain)
    (ready : Nat → BitVec 16) :
    ∃ later active, use.poller.poll (use.poller.answerOf ready) use.channels [] =
        .ok (use.poller.answered (use.poller.answerOf ready), later, active) ∧
      active.Nodup ∧
      (∀ pointer, pointer ∈ active ↔ (use.view pointer).registration = .watched ∧
        Channel.occurred (use.channels pointer).events (ready (use.channels pointer).fd) ≠ 0) ∧
      ∀ pointer ∈ active, (later pointer).revents =
        Channel.occurred (use.channels pointer).events (ready (use.channels pointer).fd) := by
  have inStep := filed.valid.inStep
  obtain ⟨later, active, polled, reports⟩ := poll_spec inStep (use.poller.answerOf ready) []
  refine ⟨later, active, polled, reports.once, fun pointer => ?_, fun pointer isActive => ?_⟩
  · have word := ((plain pointer).occurred (ready (use.channels pointer).fd)).2
    rw [reports.mem_iff]
    constructor
    · intro found
      obtain ⟨entry, mapped, isEntry, positive⟩ := found
      obtain ⟨pfd, file, watched⟩ := filed.file_of_reported mapped isEntry positive
      rw [filed.entryOf_answered mapped file, if_neg watched] at isEntry
      cases isEntry
      exact ⟨registrationOf_eq_watched_iff.mpr ⟨pfd, file, watched⟩, word.mp positive⟩
    · intro both
      obtain ⟨registration, happened⟩ := both
      obtain ⟨pfd, file, watched⟩ := registrationOf_eq_watched_iff.mp registration
      have mapped : use.poller.channels[(use.channels pointer).fd]? = some pointer := by
        by_contra unmapped
        have absent : use.fileOf pointer = none := fileOf_of_unmapped unmapped
        cases absent.symm.trans file
      refine ⟨_, mapped, filed.entryOf_answered mapped file, ?_⟩
      rw [if_neg watched]
      exact word.mpr happened
  · obtain ⟨entry, mapped, isEntry, positive⟩ := (reports.mem_iff pointer).mp isActive
    obtain ⟨pfd, file, watched⟩ := filed.file_of_reported mapped isEntry positive
    rw [reports.revents pointer isActive entry isEntry]
    rw [filed.entryOf_answered mapped file, if_neg watched] at isEntry
    cases isEntry
    exact ((plain pointer).occurred (ready (use.channels pointer).fd)).1

end PollerUse

namespace EpollLoop

variable {κ : Type} [DecidableEq κ] {polled : EpollLoop κ} {ready : Nat → BitVec 16}
  {entries : List (Nat × BitVec 32)} {pointer : κ}

omit [DecidableEq κ] in
private theorem mem_due_iff {entry : Nat × BitVec 32} :
    entry ∈ polled.due ready ↔ ∃ event, polled.session.epoller.interest[entry.1]? = some event ∧
      Channel.occurred event.events (ready entry.1) = entry.2 ∧ entry.2 ≠ 0 := by
  obtain ⟨fd, revents⟩ := entry
  rw [due, List.mem_filter, List.mem_map]
  constructor
  · intro found
    obtain ⟨⟨⟨key, event⟩, watched, same⟩, something⟩ := found
    cases same
    exact ⟨event, Std.ExtTreeMap.mem_toList_iff_getElem?_eq_some.mp watched, rfl, of_decide_eq_true something⟩
  · intro found
    obtain ⟨event, watched, isRevents, something⟩ := found
    refine ⟨⟨(fd, event), Std.ExtTreeMap.mem_toList_iff_getElem?_eq_some.mpr watched, ?_⟩, decide_eq_true something⟩
    exact Prod.ext rfl isRevents

omit [DecidableEq κ] in
private theorem nodup_due : ((polled.due ready).map Prod.fst).Nodup := by
  have keys : polled.session.epoller.interest.keys.Nodup := by
    refine Std.ExtTreeMap.distinct_keys.imp fun different same => different ?_
    exact Std.LawfulEqCmp.compare_eq_iff_eq.mpr same
  have inside : ((polled.due ready).map Prod.fst).Sublist polled.session.epoller.interest.keys := by
    rw [← Std.ExtTreeMap.map_fst_toList_eq_keys]
    have kept := (List.filter_sublist (p := fun entry : Nat × BitVec 32 => decide (entry.2 ≠ 0))
      (l := polled.session.epoller.interest.toList.map fun watched =>
        (watched.1, Channel.occurred watched.2.events (ready watched.1)))).map Prod.fst
    rwa [List.map_map] at kept
  exact keys.sublist inside

omit [DecidableEq κ] in
theorem Answers.nodup (answers : polled.Answers ready entries) : (entries.map Prod.fst).Nodup := by
  obtain ⟨⟨kept, permuted, sublist⟩, -⟩ := answers
  exact (permuted.map Prod.fst).nodup_iff.mp ((sublist.map Prod.fst).nodup nodup_due)

omit [DecidableEq κ] in
theorem Answers.enabled (answers : polled.Answers ready entries) :
    (Event.poll (.ready entries) : Event κ).Enabled polled := by
  refine ⟨answers.2 ▸ Nat.min_le_left _ _, answers.nodup, fun entry member => ?_⟩
  obtain ⟨event, watched, isRevents, -⟩ := mem_due_iff.mp (answers.1.subset member)
  rw [reports, watched, Option.any_some, ← isRevents]
  apply decide_eq_true
  rw [Channel.occurred, BitVec.and_assoc, BitVec.and_not_self]
  exact BitVec.and_zero

omit [DecidableEq κ] in
theorem Sound.apart {other : κ} (sound : polled.Sound)
    (sameFd : (polled.session.channels pointer).fd = (polled.session.channels other).fd) : pointer = other :=
  sound.tracked.apart pointer other _ _ rfl rfl sameFd

/-- The channels that `Epoller::poll` makes active, and their `revents`. -/
theorem poll_occurred (sound : polled.Sound) (answers : polled.Answers ready entries) :
    ∃ next, polled.perform (.poll (.ready entries)) = .ok next ∧ next.Sound ∧
      next.session.view = polled.session.view ∧ next.activeChannels.Nodup ∧
      next.activeChannels.length = entries.length ∧
      (∀ pointer, pointer ∈ next.activeChannels ↔ (polled.session.channels pointer).fd ∈ entries.map Prod.fst) ∧
      ∀ pointer ∈ next.activeChannels, (polled.session.view pointer).registration = .watched ∧
        (next.session.channels pointer).revents = Channel.occurred (polled.session.channels pointer).events
          (ready (polled.session.channels pointer).fd) ∧
        (next.session.channels pointer).revents ≠ 0 := by
  obtain ⟨next, performed, shown⟩ := poll_spec sound.tracked sound.nonempty answers.enabled
  obtain ⟨other, alsoPerformed, nextSound, -⟩ := perform_sound sound answers.enabled
  cases performed.symm.trans alsoPerformed
  have reported := shown.reported
  have fds : ∀ pointer, (next.session.channels pointer).fd = (polled.session.channels pointer).fd := by
    intro pointer
    rw [reported.kept pointer]
  have mem_iff : ∀ pointer, pointer ∈ next.activeChannels ↔
      (polled.session.channels pointer).fd ∈ entries.map Prod.fst := by
    intro pointer
    rw [← reported.active, List.map_map, List.mem_map]
    constructor
    · exact fun isActive => ⟨pointer, isActive, fds pointer⟩
    · intro found
      obtain ⟨other, isActive, same⟩ := found
      cases sound.apart ((fds other).symm.trans same)
      exact isActive
  refine ⟨next, performed, nextSound, ?_, reported.once, ?_, mem_iff, fun pointer isActive => ?_⟩
  · funext pointer
    rw [EpollerSession.view, reported.kept pointer]
    rfl
  · rw [← reported.active, List.length_map]
  · have isEntry : ((polled.session.channels pointer).fd, (next.session.channels pointer).revents) ∈ entries := by
      rw [← fds, ← reported.active]
      exact List.mem_map_of_mem isActive
    obtain ⟨event, watched, isRevents, something⟩ := mem_due_iff.mp (answers.1.subset isEntry)
    have isEvent := (sound.tracked.mirrors pointer _ rfl).watched_eq watched
    subst isEvent
    exact ⟨sound.tracked.interest_iff.mp watched, isRevents.symm, something⟩

omit [DecidableEq κ] in
/-- The descriptors that something has happened to are those of these channels. -/
theorem due_fds (sound : polled.Sound) {active : List κ} (once : active.Nodup)
    (mem_iff : ∀ pointer, pointer ∈ active ↔ (polled.session.view pointer).registration = .watched ∧
      Channel.occurred (polled.session.channels pointer).events (ready (polled.session.channels pointer).fd) ≠ 0) :
    (active.map fun pointer => (polled.session.channels pointer).fd).Perm ((polled.due ready).map Prod.fst) := by
  have distinct : (active.map fun pointer => (polled.session.channels pointer).fd).Nodup :=
    once.map fun _ _ same => sound.apart same
  rw [List.perm_ext_iff_of_nodup distinct nodup_due]
  intro fd
  rw [List.mem_map, List.mem_map]
  constructor
  · intro found
    obtain ⟨pointer, isActive, isFd⟩ := found
    obtain ⟨watched, something⟩ := (mem_iff pointer).mp isActive
    exact ⟨(_, _), mem_due_iff.mpr ⟨_, sound.tracked.interest_iff.mpr watched, rfl, something⟩, isFd⟩
  · intro found
    obtain ⟨entry, isDue, isFd⟩ := found
    obtain ⟨event, watched, isRevents, something⟩ := mem_due_iff.mp isDue
    obtain ⟨pointer, channel, isChannel, sameFd⟩ := sound.tracked.watched _ event watched
    cases isChannel
    rw [← sameFd] at watched isRevents
    have isEvent := (sound.tracked.mirrors pointer _ rfl).watched_eq watched
    subst isEvent
    rw [← isRevents] at something
    exact ⟨pointer, (mem_iff pointer).mpr ⟨sound.tracked.interest_iff.mp watched, something⟩, sameFd.trans isFd⟩

end EpollLoop

/-- The two views of a channel, which may differ in whether it is ignored. -/
structure ChannelView.Near (left right : ChannelView) : Prop where
  fd : left.fd = right.fd
  events : left.events = right.events
  absent : left.registration = .absent ↔ right.registration = .absent

namespace ChannelView.Near

variable {left right : ChannelView}

theorem update (near : left.Near right) (events : BitVec 32) :
    (left.updatePoller events).Near (right.updateEpoller events) where
  fd := near.fd
  events := rfl
  absent := iff_of_false Registration.updatePoller_ne_absent Registration.updateEpoller_ne_absent

theorem remove (near : left.Near right) : left.remove.Near right.remove where
  fd := near.fd
  events := near.events
  absent := Iff.rfl

end ChannelView.Near

namespace Backends

variable {κ : Type} [DecidableEq κ] {both next : Backends κ} {event : Event κ} {pointer : κ}

/-- Both back ends are in order, each on its own copy. -/
structure Paired (both : Backends κ) : Prop where
  filed : both.polling.Filed
  sound : both.epolling.Sound
  plain : ∀ pointer, (both.polling.channels pointer).Plain
  near : ∀ pointer, (both.polling.view pointer).Near (both.epolling.session.view pointer)

/-- Both back ends see every channel the same way. -/
def Same (both : Backends κ) : Prop := both.polling.view = both.epolling.session.view

theorem Paired.alike (paired : both.Paired) (same : both.Same) : both.Alike := by
  intro ready entries answers
  obtain ⟨later, active, polled, once, mem_iff, revents⟩ :=
    PollerUse.poll_occurred paired.filed paired.plain ready
  obtain ⟨next, performed, -, -, nextOnce, count, nextMem, nextRevents⟩ :=
    EpollLoop.poll_occurred paired.sound answers
  have fds : ∀ pointer, (both.polling.channels pointer).fd = (both.epolling.session.channels pointer).fd :=
    fun pointer => (paired.near pointer).fd
  have events : ∀ pointer,
      (both.polling.channels pointer).events = (both.epolling.session.channels pointer).events :=
    fun pointer => (paired.near pointer).events
  simp only [fds, events, congrFun same] at mem_iff revents
  have inside : next.activeChannels ⊆ active := by
    intro pointer isActive
    obtain ⟨watched, isRevents, something⟩ := nextRevents pointer isActive
    rw [isRevents] at something
    exact (mem_iff pointer).mpr ⟨watched, something⟩
  refine ⟨_, later, active, next, polled, performed, List.subperm_of_subset nextOnce inside, ?_, ?_⟩
  · have due := (EpollLoop.due_fds paired.sound once mem_iff).length_eq
    rw [List.length_map, List.length_map] at due
    rw [count, answers.2, due]
  · intro pointer isActive
    rw [(nextRevents pointer isActive).2.1, revents pointer (inside isActive)]

/-- A hang-up that `poll(2)` does not report. -/
theorem Paired.not_alike (paired : both.Paired) (ignored : (both.polling.view pointer).registration = .ignored)
    (watched : (both.epolling.session.view pointer).registration = .watched) : ¬ both.Alike := by
  intro alike
  let fd := (both.epolling.session.channels pointer).fd
  let ready : Nat → BitVec 16 := fun other => if other = fd then Channel.pollHup.setWidth 16 else 0
  have registered := paired.sound.tracked.interest_iff.mpr watched
  have isDue : ∀ entry ∈ both.epolling.due ready, entry.1 = fd := by
    intro entry member
    obtain ⟨event, -, isRevents, something⟩ := EpollLoop.mem_due_iff.mp member
    by_contra different
    refine something ?_
    rw [← isRevents, Channel.occurred, show ready entry.1 = 0 from if_neg different]
    exact BitVec.zero_and
  have happened : Channel.occurred (both.epolling.session.channels pointer).events (ready fd) ≠ 0 := by
    have isReady : ready fd = Channel.pollHup.setWidth 16 := if_pos rfl
    have sameEvents : (both.polling.channels pointer).events = (both.epolling.session.channels pointer).events :=
      (paired.near pointer).events
    rw [isReady, ← sameEvents]
    rcases paired.plain pointer with mask | mask | mask | mask <;> rw [mask] <;> decide
  have mine : (fd, Channel.occurred (both.epolling.session.channels pointer).events (ready fd)) ∈
      both.epolling.due ready := EpollLoop.mem_due_iff.mpr ⟨_, registered, rfl, happened⟩
  have few : (both.epolling.due ready).length ≤ 1 := by
    have inside : (both.epolling.due ready).map Prod.fst ⊆ [fd] := by
      intro other member
      obtain ⟨entry, isEntry, same⟩ := List.mem_map.mp member
      rw [List.mem_singleton, ← same, isDue entry isEntry]
    have bounded := (List.subperm_of_subset EpollLoop.nodup_due inside).length_le
    rwa [List.length_map] at bounded
  have room : 1 ≤ both.epolling.epollEvents.length := List.length_pos_iff.mpr paired.sound.nonempty
  have answers : both.epolling.Answers ready (both.epolling.due ready) := ⟨List.Subperm.refl _, by omega⟩
  obtain ⟨poller, later, active, next, polled, performed, fewer, -, -⟩ := alike ready _ answers
  obtain ⟨_, _, alsoPolled, -, mem_iff, -⟩ := PollerUse.poll_occurred paired.filed paired.plain ready
  cases polled.symm.trans alsoPolled
  obtain ⟨_, alsoPerformed, -, -, -, -, nextMem, -⟩ := EpollLoop.poll_occurred paired.sound answers
  cases performed.symm.trans alsoPerformed
  have isActive := fewer.subset ((nextMem pointer).mpr (List.mem_map_of_mem mine))
  cases ignored.symm.trans ((mem_iff pointer).mp isActive).1

theorem Paired.unused (paired : both.Paired) (isNew : (both.polling.channels pointer).index < 0) :
    (both.polling.channels pointer).fd ∉ both.polling.poller.channels := by
  intro member
  obtain ⟨other, mapped⟩ := Option.isSome_iff_exists.mp (Std.ExtTreeMap.mem_iff_isSome_getElem?.mp member)
  obtain ⟨sameFd, known⟩ := paired.filed.valid.inStep.listed _ other mapped
  have sameEpollFd := ((paired.near other).fd.symm.trans sameFd).trans (paired.near pointer).fd
  cases paired.sound.apart sameEpollFd
  omega

/-- Only the views count of what a call makes of a pair. -/
theorem Paired.of_views (paired : both.Paired) (filed : next.polling.Filed) (sound : next.epolling.Sound)
    {left right : ChannelView} (near : left.Near right)
    (plain : ∀ channel : Channel, channel.events = left.events → channel.Plain)
    (polled : next.polling.view = Function.update both.polling.view pointer left)
    (epolled : next.epolling.session.view = Function.update both.epolling.session.view pointer right) :
    next.Paired := by
  obtain ⟨here, elsewhere⟩ := Function.eq_update_iff.mp polled
  obtain ⟨epolledHere, epolledElsewhere⟩ := Function.eq_update_iff.mp epolled
  refine ⟨filed, sound, fun other => ?_, fun other => ?_⟩
  · by_cases isPointer : other = pointer
    · subst isPointer
      exact plain _ (congrArg ChannelView.events here)
    · have sameEvents : (next.polling.channels other).events = (both.polling.channels other).events :=
        congrArg ChannelView.events (elsewhere other isPointer)
      exact (paired.plain other).of_events sameEvents
  · by_cases isPointer : other = pointer
    · subst isPointer
      rw [here, epolledHere]
      exact near
    · rw [elsewhere other isPointer, epolledElsewhere other isPointer]
      exact paired.near other

private theorem change_paired (paired : both.Paired) (change : Channel.Change) (current : pointer ∉ both.polling.removed) :
    ∃ next, both.perform (.change pointer change) = .ok next ∧ next.Paired ∧
      (both.Same → ((both.polling.view pointer).registration ≠ .ignored → next.Same) ∧
        ((both.polling.view pointer).registration = .ignored → ¬ next.Alike)) := by
  let events := ((both.polling.channels pointer).change change).events
  have sameEvents : ((both.epolling.session.channels pointer).change change).events = events :=
    Channel.events_change (paired.near pointer).events.symm change
  obtain ⟨polling, updated, filed, -, polled⟩ :=
    PollerUse.update_filed paired.filed events current fun isNew => paired.unused isNew
  obtain ⟨session, performed, tracked, epolled⟩ := EpollerSession.change_view paired.sound.tracked change
  rw [sameEvents] at epolled
  let next : Backends κ := ⟨polling, { both.epolling with session }⟩
  have nextPaired : next.Paired := by
    refine paired.of_views filed ⟨tracked, paired.sound.size⟩ ((paired.near pointer).update events) ?_ polled epolled
    exact fun channel same => ((paired.plain pointer).change change).of_events same
  refine ⟨next, ?_, nextPaired, fun same => ⟨fun heard => ?_, fun ignored => ?_⟩⟩
  · rw [perform, updated, Outcome.ok_bind, EpollLoop.perform, performed]
    rfl
  · have sameUpdate : (both.polling.view pointer).updatePoller events =
        (both.epolling.session.view pointer).updateEpoller events := by
      rw [← congrFun same pointer, ChannelView.updatePoller, ChannelView.updateEpoller,
        Registration.updatePoller_eq_updateEpoller_iff.mpr heard]
    change polling.view = session.view
    rw [polled, epolled, sameUpdate, same]
  · have stays : (polling.view pointer).registration = .ignored := by
      rw [polled, Function.update_self, ChannelView.updatePoller, ignored]
      rfl
    have returns : (session.view pointer).registration = .watched := by
      rw [epolled, Function.update_self, ChannelView.updateEpoller, ← congrFun same pointer, ignored]
      rfl
    exact nextPaired.not_alike stays returns

private theorem remove_paired (paired : both.Paired) (enabled : (Event.remove pointer).Enabled both) :
    ∃ next, both.perform (.remove pointer) = .ok next ∧ next.Paired ∧ (both.Same → next.Same) := by
  obtain ⟨polling, left, filed, -, polled⟩ := PollerUse.remove_filed paired.filed enabled.1
  obtain ⟨session, performed, tracked, epolled⟩ := EpollerSession.removeChannel_view paired.sound.tracked enabled.2
  let next : Backends κ := ⟨polling, { both.epolling with session }⟩
  have nextPaired : next.Paired := by
    refine paired.of_views filed ⟨tracked, paired.sound.size⟩ (paired.near pointer).remove ?_ polled epolled
    exact fun channel same => (paired.plain pointer).of_events same
  refine ⟨next, ?_, nextPaired, fun same => ?_⟩
  · rw [perform, left, Outcome.ok_bind, EpollLoop.perform, performed]
    rfl
  · change polling.view = session.view
    rw [polled, epolled, congrFun same pointer, same]

private theorem poll_paired (paired : both.Paired) {ready : Nat → BitVec 16} {entries : List (Nat × BitVec 32)}
    (answers : both.epolling.Answers ready entries) :
    ∃ next, both.perform (.poll ready entries) = .ok next ∧ next.Paired ∧ (both.Same → next.Same) := by
  obtain ⟨polling, performed, filed, -, polled⟩ :=
    PollerUse.poll_filed paired.filed (both.polling.poller.answerOf ready)
  obtain ⟨epolling, alsoPerformed, sound, epolled, -⟩ := EpollLoop.poll_occurred paired.sound answers
  have sameEvents : ∀ pointer, (polling.channels pointer).events = (both.polling.channels pointer).events :=
    fun pointer => congrArg ChannelView.events (congrFun polled pointer)
  refine ⟨⟨polling, epolling⟩, ?_, ⟨filed, sound, fun pointer => ?_, fun pointer => ?_⟩, fun same => ?_⟩
  · rw [perform, performed, Outcome.ok_bind, alsoPerformed]
    rfl
  · exact (paired.plain pointer).of_events (sameEvents pointer)
  · simp only [polled, epolled]
    exact paired.near pointer
  · change polling.view = epolling.session.view
    rw [polled, epolled, same]

theorem perform_paired (paired : both.Paired) (enabled : event.Enabled both) :
    ∃ next, both.perform event = .ok next ∧ next.Paired ∧
      (both.Same → (¬ event.Revisits both → next.Same) ∧ (event.Revisits both → ¬ next.Alike)) := by
  cases event with
  | change pointer change =>
      obtain ⟨next, performed, nextPaired, effect⟩ := change_paired paired change enabled
      refine ⟨next, performed, nextPaired, fun same => ?_⟩
      have ignored := PollerUse.ignores_iff paired.filed.valid enabled
      obtain ⟨keeps, breaks⟩ := effect same
      exact ⟨fun quiet => keeps (mt ignored.mpr quiet), fun revisits => breaks (ignored.mp revisits)⟩
  | remove pointer =>
      obtain ⟨next, performed, nextPaired, keeps⟩ := remove_paired paired enabled
      exact ⟨next, performed, nextPaired, fun same => ⟨fun _ => keeps same, fun never => absurd never id⟩⟩
  | poll ready entries =>
      obtain ⟨next, performed, nextPaired, keeps⟩ := poll_paired paired enabled
      exact ⟨next, performed, nextPaired, fun same => ⟨fun _ => keeps same, fun never => absurd never id⟩⟩

private theorem new_same (fds : κ → Nat) : (new fds).Same := by
  funext pointer
  have unmapped : (Poller.new : Poller κ).channels[fds pointer]? ≠ some pointer := by simp [Poller.new]
  have absent : (PollerUse.new fds).fileOf pointer = none := Poller.fileOf_of_unmapped unmapped
  change (PollerUse.new fds).view pointer = _
  rw [PollerUse.view, absent]
  rfl

theorem new_paired (fds : κ → Nat) (apart : Function.Injective fds) : (new fds).Paired where
  filed := ⟨PollerUse.new_valid fds, fun pointer pfd found => by
    have absent : Poller.registrationOf ((new fds).polling.fileOf pointer) = .absent := by
      change ((new fds).polling.view pointer).registration = _
      rw [congrFun (new_same fds) pointer]
      rfl
    cases (Poller.registrationOf_eq_absent_iff.mp absent).symm.trans found⟩
  sound := EpollLoop.new_sound fds apart
  plain pointer := .inl rfl
  near pointer := by
    rw [congrFun (new_same fds) pointer]
    exact ⟨rfl, rfl, Iff.rfl⟩

theorem step_paired (paired : both.Paired) (stepped : step both event = some next) :
    next.Paired ∧
      (both.Same → (¬ event.Revisits both → next.Same) ∧ (event.Revisits both → ¬ next.Alike)) := by
  obtain ⟨enabled, performed⟩ := Outcome.ite_toOption_eq_some_iff.mp stepped
  obtain ⟨other, alsoPerformed, nextPaired, effect⟩ := perform_paired paired enabled
  cases performed.symm.trans alsoPerformed
  exact ⟨nextPaired, effect⟩

/-- Over channels with distinct descriptors, in whatever order they are changed,
removed and polled on a `Poller` and on an `Epoller`: no call fails, and the two
always report alike exactly when no channel is updated whose entry in
`pollfds_` is negated. -/
theorem alike_iff_never_revisits (fds : κ → Nat) (apart : Function.Injective fds) (events : List (Event κ))
    (enabled : Along step (fun both event => event.Enabled both) (new fds) events) :
    (∃ final, run step (new fds) events = some final) ∧
      (Throughout step Alike (new fds) events ↔
        Along step (fun both event => ¬ event.Revisits both) (new fds) events) := by
  obtain ⟨final, ran, -⟩ := run_total (fun _ (both : Backends κ) => both.Paired) (new_paired fds apart)
    (fun past both event paired isEnabled => by
      obtain ⟨next, performed, nextPaired, -⟩ := perform_paired paired isEnabled
      exact ⟨next, Outcome.ite_toOption_eq_some_iff.mpr ⟨isEnabled, performed⟩, nextPaired⟩) enabled
  refine ⟨⟨final, ran⟩, throughout_iff_along (fun both => both.Paired ∧ both.Same) Alike
    ⟨new_paired fds apart, new_same fds⟩ ?_ ?_ ?_ ran⟩
  · intro both inOrder
    exact inOrder.1.alike inOrder.2
  · intro both event next inOrder quiet stepped
    obtain ⟨nextPaired, effect⟩ := step_paired inOrder.1 stepped
    exact ⟨nextPaired, (effect inOrder.2).1 quiet⟩
  · intro both event next inOrder revisits stepped
    obtain ⟨-, effect⟩ := step_paired inOrder.1 stepped
    exact (effect inOrder.2).2 (not_not.mp revisits)

/-- The first of two is switched off and removed, with polls in between. -/
def switchedOff : List (Event Nat) :=
  [.change 0 .enableReading, .change 1 .disableAll, .poll (fun _ => 0x11) [(4, 0x10), (3, 0x11)],
    .change 1 .enableWriting, .change 0 .disableAll, .poll (fun _ => 0x14) [(4, 0x14)], .remove 0,
    .poll (fun _ => 0) []]

theorem alike_iff_never_revisits_removed : Throughout step Alike (new fun pointer : Nat => pointer + 3) switchedOff :=
  (alike_iff_never_revisits (fun pointer : Nat => pointer + 3) (add_left_injective 3) switchedOff
    (by decide +kernel)).2.mpr (by decide +kernel)

end Backends

end NutServer.Net
