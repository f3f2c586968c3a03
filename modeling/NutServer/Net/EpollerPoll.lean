import NutServer.Library.Peak
import NutServer.Net.EpollerProperties

/-!
# Waiting for events

`Epoller::poll` between `activeChannels_.clear()` and the handlers: the kernel
writes the ready descriptors into `epollEvents_`, which is doubled when it was
full, and each of its entries makes a channel active.
-/

set_option autoImplicit false

namespace NutServer.Net

open Library

/-- An entry of `epollEvents_`; that of a `resize` has a null pointer. -/
structure EpollEntry (κ : Type) where
  events : BitVec 32
  ptr : Option κ
  deriving DecidableEq, Repr

structure EpollLoop (κ : Type) where
  session : EpollerSession κ
  epollEvents : List (EpollEntry κ)
  activeChannels : List κ

/-- What `epoll_wait` reports; nothing is ready after the timeout. -/
inductive EpollWait where
  | failed
  | ready (entries : List (Nat × BitVec 32))
  deriving DecidableEq, Repr

namespace EpollLoop

variable {κ : Type}

def emptyEntry : EpollEntry κ where
  events := 0
  ptr := none

/-- What the kernel writes for a descriptor: the pointer it was given for it. -/
def entryFor (polled : EpollLoop κ) (entry : Nat × BitVec 32) : EpollEntry κ where
  events := entry.2
  ptr := (polled.session.epoller.interest[entry.1]?).map EpollEvent.ptr

/-- The array behind the call, and the result. -/
def epollWait (polled : EpollLoop κ) : EpollWait → EpollLoop κ × Int
  | .failed => (polled, -1)
  | .ready entries =>
      ({ polled with epollEvents := entries.map polled.entryFor ++ polled.epollEvents.drop entries.length },
        entries.length)

/-- `vector::resize`. -/
def resize (entries : List (EpollEntry κ)) (size : Nat) : List (EpollEntry κ) :=
  entries.take size ++ List.replicate (size - entries.length) emptyEntry

variable [DecidableEq κ]

def new (fds : κ → Nat) : EpollLoop κ where
  session := .new fds
  epollEvents := List.replicate 16 emptyEntry
  activeChannels := []

/-- `setRevents`. -/
def setRevents (channels : κ → Channel) (report : κ × BitVec 32) : κ → Channel :=
  Function.update channels report.1 { channels report.1 with revents := report.2 }

/-- One turn of the loop in `fillActiveChannels`. -/
def fillAt (polled : EpollLoop κ) (index : Nat) : Outcome (EpollLoop κ) := do
  let entry ← demand polled.epollEvents[index]? .range
  let channel ← demand entry.ptr .dangling
  return { polled with
    session := { polled.session with channels := setRevents polled.session.channels (channel, entry.events) }
    activeChannels := polled.activeChannels ++ [channel] }

def fillActiveChannels (polled : EpollLoop κ) (nCounts : Nat) : Outcome (EpollLoop κ) :=
  (List.range nCounts).foldlM fillAt polled

def poll (polled : EpollLoop κ) (wait : EpollWait) : Outcome (EpollLoop κ) :=
  let waited := polled.epollWait wait
  if 0 < waited.2 then do
    let filled ← waited.1.fillActiveChannels waited.2.toNat
    if (filled.epollEvents.length : Int) = waited.2 then
      return { filled with epollEvents := resize filled.epollEvents (waited.2.toNat * 2) }
    else return filled
  else return waited.1

inductive Event (κ : Type) where
  | operate (op : EpollerOp κ)
  | poll (wait : EpollWait)
  deriving DecidableEq, Repr

def perform (polled : EpollLoop κ) : Event κ → Outcome (EpollLoop κ)
  | .operate op => do
      let session ← polled.session.perform op
      return { polled with session }
  | .poll wait => { polled with activeChannels := [] }.poll wait

omit [DecidableEq κ] in
/-- Of the watched events, or an error or a hang-up. -/
def reports (polled : EpollLoop κ) (entry : Nat × BitVec 32) : Bool :=
  (polled.session.epoller.interest[entry.1]?).any fun event =>
    entry.2 &&& ~~~(event.events ||| Channel.pollErr ||| Channel.pollHup) = 0

/-- The kernel reports each ready descriptor of the set once, and no more than
there is room for. -/
def Event.Enabled (polled : EpollLoop κ) : Event κ → Prop
  | .operate op => polled.session.Allowed op
  | .poll .failed => True
  | .poll (.ready entries) => entries.length ≤ polled.epollEvents.length ∧ (entries.map Prod.fst).Nodup ∧
      ∀ entry ∈ entries, polled.reports entry = true

instance decidableEnabled (polled : EpollLoop κ) : ∀ event : Event κ, Decidable (event.Enabled polled)
  | .operate op => inferInstanceAs (Decidable (polled.session.Allowed op))
  | .poll .failed => isTrue trivial
  | .poll (.ready entries) => inferInstanceAs (Decidable (entries.length ≤ polled.epollEvents.length ∧
      (entries.map Prod.fst).Nodup ∧ ∀ entry ∈ entries, polled.reports entry = true))

def step (polled : EpollLoop κ) (event : Event κ) : Option (EpollLoop κ) :=
  if event.Enabled polled then (polled.perform event).toOption else none

section Marks

variable {channels : κ → Channel} {pointer : κ} {reported : List (κ × BitVec 32)}

private theorem setRevents_self {events : BitVec 32} :
    setRevents channels (pointer, events) pointer = { channels pointer with revents := events } :=
  Function.update_self ..

private theorem setRevents_of_ne {report : κ × BitVec 32} (other : pointer ≠ report.1) :
    setRevents channels report pointer = channels pointer := Function.update_of_ne other ..

/-- `setRevents` leaves everything else of a channel. -/
theorem foldl_setRevents (reported : List (κ × BitVec 32)) (channels : κ → Channel) (pointer : κ) :
    reported.foldl setRevents channels pointer =
      { channels pointer with revents := (reported.foldl setRevents channels pointer).revents } := by
  induction reported generalizing channels with
  | nil => rfl
  | cons report rest ih =>
      rw [List.foldl_cons, ih]
      by_cases same : pointer = report.1
      · subst same
        rw [show setRevents channels report report.1 = _ from setRevents_self]
      · rw [setRevents_of_ne same]

private theorem foldl_setRevents_of_notMem (unreported : pointer ∉ reported.map Prod.fst) :
    reported.foldl setRevents channels pointer = channels pointer := by
  induction reported generalizing channels with
  | nil => rfl
  | cons report rest ih =>
      rw [List.map_cons, List.mem_cons, not_or] at unreported
      rw [List.foldl_cons, ih unreported.2, setRevents_of_ne unreported.1]

/-- Where no channel is reported twice, each gets what is reported for it. -/
theorem revents_foldl_setRevents (distinct : (reported.map Prod.fst).Nodup) {report : κ × BitVec 32}
    (member : report ∈ reported) : (reported.foldl setRevents channels report.1).revents = report.2 := by
  induction reported generalizing channels with
  | nil => cases member
  | cons first rest ih =>
      rw [List.map_cons, List.nodup_cons] at distinct
      rw [List.foldl_cons]
      cases List.mem_cons.mp member with
      | inl same =>
          subst same
          rw [foldl_setRevents_of_notMem distinct.1, show setRevents channels report report.1 = _ from setRevents_self]
      | inr later => exact ih distinct.2 later

end Marks

variable {polled next : EpollLoop κ} {entries : List (Nat × BitVec 32)}

/-- The loop of `fillActiveChannels` over entries that all have a channel. -/
theorem fillActiveChannels_spec (polled : EpollLoop κ) (reported : List (κ × BitVec 32))
    (filled : ∀ (index : Nat) report, reported[index]? = some report →
      polled.epollEvents[index]? = some ⟨report.2, some report.1⟩) (nCounts : Nat)
    (inside : nCounts ≤ reported.length) :
    polled.fillActiveChannels nCounts = .ok { polled with
      session := { polled.session with
        channels := (reported.take nCounts).foldl setRevents polled.session.channels }
      activeChannels := polled.activeChannels ++ (reported.take nCounts).map Prod.fst } := by
  induction nCounts with
  | zero => simp [fillActiveChannels]; rfl
  | succ nCounts ih =>
      have before := ih (Nat.le_of_succ_le inside)
      have isReport : reported[nCounts]? = some reported[nCounts] := List.getElem?_eq_getElem inside
      rw [fillActiveChannels, List.range_succ, List.foldlM_append]
      rw [fillActiveChannels] at before
      rw [before, Outcome.ok_bind, List.foldlM_cons, fillAt, filled nCounts _ isReport]
      simp only [demand_some, Outcome.ok_bind, List.foldlM_nil]
      rw [← List.take_concat_get' reported nCounts inside, List.foldl_append, List.map_append, ← List.append_assoc]
      rfl

omit [DecidableEq κ] in
/-- The poller does not look at `revents`. -/
theorem tracked_of_revents {session : EpollerSession κ} (tracked : session.Tracked) {channels : κ → Channel}
    (same : ∀ pointer, channels pointer =
      { session.channels pointer with revents := (channels pointer).revents }) :
    ({ session with channels } : EpollerSession κ).Tracked := by
  have fds : ∀ pointer, (channels pointer).fd = (session.channels pointer).fd := by
    intro pointer
    rw [same pointer]
  refine ⟨?_, ?_, ?_, ?_, tracked.legal⟩
  · intro pointer other channel found isChannel isFound sameFd
    cases isChannel
    cases isFound
    rw [fds, fds] at sameFd
    exact tracked.apart pointer other _ _ rfl rfl sameFd
  · intro pointer channel isChannel
    cases isChannel
    change session.epoller.Mirrors pointer (channels pointer)
    rw [same pointer]
    cases tracked.mirrors pointer _ rfl with
    | unknown index unmapped unwatched => exact .unknown index unmapped unwatched
    | watched index mapped watched => exact .watched index mapped watched
    | ignored index mapped idle unwatched => exact .ignored index mapped idle unwatched
  · intro fd pointer mapped
    obtain ⟨channel, isChannel, sameFd⟩ := tracked.mapped fd pointer mapped
    cases isChannel
    exact ⟨_, rfl, (fds pointer).trans sameFd⟩
  · intro fd event watched
    obtain ⟨pointer, channel, isChannel, sameFd⟩ := tracked.watched fd event watched
    cases isChannel
    exact ⟨pointer, _, rfl, (fds pointer).trans sameFd⟩

/-- A channel that the poller has, and events that it watches for. -/
structure Living (session : EpollerSession κ) (report : κ × BitVec 32) : Prop where
  mapped : session.epoller.channelMap[(session.channels report.1).fd]? = some report.1
  index : (session.channels report.1).index = 1
  watched : report.2 &&& ~~~((session.channels report.1).events ||| Channel.pollErr ||| Channel.pollHup) = 0

omit [DecidableEq κ] in
/-- Whatever the kernel reports belongs to a living channel. -/
theorem exists_reported (tracked : polled.session.Tracked)
    (reported : ∀ entry ∈ entries, polled.reports entry = true) :
    ∃ reported : List (κ × BitVec 32),
      reported.map (fun report => ((polled.session.channels report.1).fd, report.2)) = entries ∧
      reported.map (fun report => ⟨report.2, some report.1⟩) = entries.map polled.entryFor ∧
      ∀ report ∈ reported, Living polled.session report := by
  induction entries with
  | nil => exact ⟨[], rfl, rfl, fun report member => absurd member List.not_mem_nil⟩
  | cons entry rest ih =>
      obtain ⟨others, fds, pointers, living⟩ := ih fun other member => reported other (List.mem_cons_of_mem _ member)
      obtain ⟨fd, revents⟩ := entry
      obtain ⟨event, watched, masked⟩ := (Option.any_eq_true _ _).mp (reported _ List.mem_cons_self)
      obtain ⟨pointer, channel, isChannel, isFd⟩ := tracked.watched fd event watched
      cases isChannel
      subst isFd
      have mirrors := tracked.mirrors pointer _ rfl
      have isEvent := mirrors.watched_eq watched
      subst isEvent
      have here : Living polled.session (pointer, revents) := by
        cases mirrors with
        | unknown index unmapped unwatched => cases unwatched.symm.trans watched
        | watched index mapped isWatched => exact ⟨mapped, index, of_decide_eq_true masked⟩
        | ignored index mapped idle unwatched => cases unwatched.symm.trans watched
      refine ⟨(pointer, revents) :: others, ?_, ?_, ?_⟩
      · rw [List.map_cons, fds]
      · rw [List.map_cons, List.map_cons, pointers]
        simp [entryFor, watched]
      · intro report member
        cases List.mem_cons.mp member with
        | inl same => exact same ▸ here
        | inr later => exact living report later

/-- What the loop finds after a call that reported these descriptors. -/
structure Reported (polled next : EpollLoop κ) (entries : List (Nat × BitVec 32)) : Prop where
  active : next.activeChannels.map (fun pointer =>
    ((next.session.channels pointer).fd, (next.session.channels pointer).revents)) = entries
  once : next.activeChannels.Nodup
  living : ∀ pointer ∈ next.activeChannels,
    Living next.session (pointer, (next.session.channels pointer).revents)
  others : ∀ pointer, pointer ∉ next.activeChannels →
    next.session.channels pointer = polled.session.channels pointer
  kept : ∀ pointer, next.session.channels pointer =
    { polled.session.channels pointer with revents := (next.session.channels pointer).revents }
  epoller : next.session.epoller = polled.session.epoller

/-- The size of the array is the old one, or twice it where the call filled it. -/
structure Polled (polled next : EpollLoop κ) (entries : List (Nat × BitVec 32)) : Prop where
  reported : polled.Reported next entries
  size : next.epollEvents.length =
    if entries.length = polled.epollEvents.length then 2 * polled.epollEvents.length else polled.epollEvents.length

theorem poll_spec (tracked : polled.session.Tracked) (nonempty : polled.epollEvents ≠ [])
    (enabled : (Event.poll (.ready entries) : Event κ).Enabled polled) :
    ∃ next, polled.perform (.poll (.ready entries)) = .ok next ∧ polled.Polled next entries := by
  obtain ⟨room, distinct, isReported⟩ := enabled
  obtain ⟨reported, fds, pointers, living⟩ := exists_reported tracked isReported
  have count : reported.length = entries.length := by rw [← fds, List.length_map]
  have once : (reported.map Prod.fst).Nodup := by
    rw [← fds, List.map_map] at distinct
    have composed : (Prod.fst ∘ fun report : κ × BitVec 32 => ((polled.session.channels report.1).fd, report.2)) =
        (fun pointer => (polled.session.channels pointer).fd) ∘ Prod.fst := rfl
    rw [composed, ← List.map_map] at distinct
    exact List.Nodup.of_map _ distinct
  let waited : EpollLoop κ := { polled with
    activeChannels := []
    epollEvents := entries.map polled.entryFor ++ polled.epollEvents.drop entries.length }
  have sameSize : waited.epollEvents.length = polled.epollEvents.length := by
    simp only [waited, List.length_append, List.length_map, List.length_drop]
    omega
  have filled : ∀ (index : Nat) report, reported[index]? = some report →
      waited.epollEvents[index]? = some ⟨report.2, some report.1⟩ := by
    intro index report present
    have inside : index < (entries.map polled.entryFor).length := by
      rw [List.length_map, ← count]
      exact (List.getElem?_eq_some_iff.mp present).1
    rw [List.getElem?_append_left inside, ← pointers, List.getElem?_map, present, Option.map_some]
  have marked := fillActiveChannels_spec waited reported filled reported.length (Nat.le_refl _)
  rw [List.take_length, count] at marked
  let channels := reported.foldl setRevents polled.session.channels
  have revents : ∀ report ∈ reported, (channels report.1).revents = report.2 :=
    fun report member => revents_foldl_setRevents once member
  have kept : ∀ pointer, channels pointer =
      { polled.session.channels pointer with revents := (channels pointer).revents } :=
    foldl_setRevents reported polled.session.channels
  have shows : ∀ epollEvents, polled.Reported { waited with
      session := { polled.session with channels }
      epollEvents
      activeChannels := reported.map Prod.fst } entries := by
    intro epollEvents
    refine ⟨?_, once, ?_, ?_, kept, rfl⟩
    · rw [List.map_map, ← fds]
      refine List.map_congr_left fun report member => ?_
      change ((channels report.1).fd, (channels report.1).revents) = _
      rw [revents report member, kept report.1]
    · intro pointer member
      obtain ⟨report, isReport, same⟩ := List.mem_map.mp member
      subst same
      have here := living report isReport
      change Living { polled.session with channels } (report.1, (channels report.1).revents)
      rw [revents report isReport]
      have same := kept report.1
      refine ⟨?_, ?_, ?_⟩
      · change polled.session.epoller.channelMap[(channels report.1).fd]? = _
        rw [same]
        exact here.mapped
      · change (channels report.1).index = 1
        rw [same]
        exact here.index
      · change report.2 &&& ~~~((channels report.1).events ||| _ ||| _) = 0
        rw [same]
        exact here.watched
    · intro pointer unreported
      exact foldl_setRevents_of_notMem unreported
  have waits : ({ polled with activeChannels := [] } : EpollLoop κ).epollWait (.ready entries) =
      (waited, (entries.length : Int)) := rfl
  by_cases nothing : entries.length = 0
  · have unreported : reported = [] := List.eq_nil_of_length_eq_zero (count.trans nothing)
    have size : 0 < polled.epollEvents.length := List.length_pos_iff.mpr nonempty
    refine ⟨waited, ?_, ?_, ?_⟩
    · rw [perform, poll, waits]
      exact if_neg (by omega)
    · have shown := shows waited.epollEvents
      simp only [channels, unreported] at shown
      exact shown
    · rw [sameSize, if_neg (by omega)]
  · let later : EpollLoop κ := { waited with
      session := { polled.session with channels }
      activeChannels := reported.map Prod.fst }
    have filledAll : waited.fillActiveChannels entries.length = .ok later := marked
    have performed : polled.perform (.poll (.ready entries)) =
        if (waited.epollEvents.length : Int) = entries.length then
          .ok { later with epollEvents := resize later.epollEvents (entries.length * 2) }
        else .ok later := by
      rw [perform, poll, waits]
      simp only
      rw [if_pos (by omega), Int.toNat_natCast, filledAll]
      rfl
    rw [performed, sameSize]
    by_cases full : entries.length = polled.epollEvents.length
    · rw [if_pos (by omega)]
      refine ⟨_, rfl, shows _, ?_⟩
      change (resize waited.epollEvents (entries.length * 2)).length = _
      rw [if_pos full, resize, List.length_append, List.length_take, List.length_replicate, sameSize]
      omega
    · rw [if_neg (by omega)]
      refine ⟨later, rfl, shows _, ?_⟩
      rw [if_neg full]
      exact sameSize

/-- The array has doubled some number of times. -/
structure Sound (polled : EpollLoop κ) : Prop where
  tracked : polled.session.Tracked
  size : ∃ doublings, polled.epollEvents.length = 16 * 2 ^ doublings

omit [DecidableEq κ] in
theorem Sound.nonempty (sound : polled.Sound) : polled.epollEvents ≠ [] := by
  obtain ⟨doublings, size⟩ := sound.size
  have positive : 0 < 16 * 2 ^ doublings := by positivity
  exact List.length_pos_iff.mp (size ▸ positive)

omit [DecidableEq κ] in
/-- The descriptors that are reported are distinct ones of the set. -/
theorem length_le_size (distinct : (entries.map Prod.fst).Nodup)
    (reported : ∀ entry ∈ entries, polled.reports entry = true) :
    entries.length ≤ polled.session.epoller.interest.size := by
  have inside : entries.map Prod.fst ⊆ polled.session.epoller.interest.keys := by
    intro fd member
    obtain ⟨entry, isEntry, same⟩ := List.mem_map.mp member
    subst same
    obtain ⟨event, watched, -⟩ := (Option.any_eq_true _ _).mp (reported entry isEntry)
    rw [Std.ExtTreeMap.mem_keys, Std.ExtTreeMap.mem_iff_isSome_getElem?, watched]
    rfl
  have bounded := (distinct.subperm inside).length_le
  rwa [List.length_map, Std.ExtTreeMap.length_keys] at bounded

/-- The descriptors in the epoll set. -/
def watchedCount (polled : EpollLoop κ) : Nat := polled.session.epoller.interest.size

theorem perform_sound (sound : polled.Sound) {event : Event κ} (enabled : event.Enabled polled) :
    ∃ next, polled.perform event = .ok next ∧ next.Sound ∧
      next.epollEvents.length ≤ max polled.epollEvents.length (2 * next.watchedCount) := by
  cases event with
  | operate op =>
      obtain ⟨session, performed, tracked⟩ := EpollerSession.perform_tracked sound.tracked enabled
      refine ⟨{ polled with session }, ?_, ⟨tracked, sound.size⟩, Nat.le_max_left _ _⟩
      rw [perform, performed]
      rfl
  | poll wait =>
      cases wait with
      | failed => exact ⟨_, rfl, ⟨sound.tracked, sound.size⟩, Nat.le_max_left _ _⟩
      | ready entries =>
          obtain ⟨next, performed, shown⟩ := poll_spec sound.tracked sound.nonempty enabled
          have few := length_le_size enabled.2.1 enabled.2.2
          have same : next.watchedCount = polled.watchedCount := by
            rw [watchedCount, shown.reported.epoller]
            rfl
          have tracked : next.session.Tracked := by
            have marked := tracked_of_revents sound.tracked shown.reported.kept
            rw [← shown.reported.epoller] at marked
            exact marked
          refine ⟨next, performed, ⟨tracked, ?_⟩, ?_⟩
          · obtain ⟨doublings, size⟩ := sound.size
            rw [shown.size, size]
            split_ifs
            · exact ⟨doublings + 1, by rw [pow_succ]; omega⟩
            · exact ⟨doublings, rfl⟩
          · rw [shown.size, same, watchedCount]
            split_ifs <;> omega

omit [DecidableEq κ] in
theorem new_sound (fds : κ → Nat) (apart : Function.Injective fds) : (new fds).Sound where
  tracked := by
    refine Epoller.new_tracks ?_ ?_
    · intro pointer other channel found isChannel isFound same
      cases isChannel
      cases isFound
      exact apart same
    · intro pointer channel isChannel
      cases isChannel
      rfl
  size := ⟨0, by simp [new]⟩

/-- Over channels with distinct descriptors, in whatever order they are changed,
waited for and, once they are registered and without events, removed: no step
fails, the array is 16 entries doubled some
number of times and, beyond these, at most twice what the set has held at once;
and the next call makes exactly the channels active whose descriptors it
reports, each once, known to the poller and with these events, and leaves the
others as they are. -/
theorem polls_report (fds : κ → Nat) (apart : Function.Injective fds) (events : List (Event κ))
    (enabled : Along step (fun polled event => event.Enabled polled) (new fds) events) :
    ∃ final, run (peakStep step watchedCount) ⟨new fds, 0⟩ events = some final ∧
      (∃ doublings, final.state.epollEvents.length = 16 * 2 ^ doublings) ∧
      final.state.epollEvents.length ≤ max 16 (2 * final.peak) ∧
      ∀ entries, (Event.poll (.ready entries) : Event κ).Enabled final.state →
        ∃ next, step final.state (.poll (.ready entries)) = some next ∧ final.state.Reported next entries := by
  have twice : Monotone fun peak => 2 * peak := fun _ _ grown => Nat.mul_le_mul_left 2 grown
  have progress : ∀ (polled : EpollLoop κ) (event : Event κ), polled.Sound → event.Enabled polled →
      ∃ next, step polled event = some next ∧ next.Sound ∧
        next.epollEvents.length ≤ max polled.epollEvents.length (2 * next.watchedCount) := by
    intro polled event sound isEnabled
    obtain ⟨next, performed, kept, bounded⟩ := perform_sound sound isEnabled
    exact ⟨next, Outcome.ite_toOption_eq_some_iff.mpr ⟨isEnabled, performed⟩, kept, bounded⟩
  have first : (new fds).epollEvents.length ≤ max 16 (2 * 0) := by simp [new]
  obtain ⟨final, ran, sound, bounded⟩ := run_peak_bound ⟨new fds, 0⟩ Sound
    (fun polled => polled.epollEvents.length) 16 (fun peak => 2 * peak) twice (new_sound fds apart) first progress enabled
  refine ⟨final, ran, sound.size, bounded, fun entries isEnabled => ?_⟩
  obtain ⟨next, performed, shown⟩ := poll_spec sound.tracked sound.nonempty isEnabled
  exact ⟨next, Outcome.ite_toOption_eq_some_iff.mpr ⟨isEnabled, performed⟩, shown.reported⟩

/-- A channel is removed between two calls. -/
def removesBetween : List (Event Nat) :=
  [.operate (.change 0 .enableReading), .operate (.change 1 .enableReading), .poll (.ready [(4, 1), (3, 0x10)]),
    .operate (.change 0 .disableAll), .operate (.removeChannel 0), .poll .failed, .operate (.change 1 .enableWriting)]

theorem polls_report_removed :
    ∃ final, run (peakStep step watchedCount) ⟨new fun pointer : Nat => pointer + 3, 0⟩ removesBetween = some final ∧
      final.state.epollEvents.length ≤ max 16 (2 * final.peak) ∧
      ∃ next, step final.state (.poll (.ready [(4, 5)])) = some next ∧ final.state.Reported next [(4, 5)] := by
  obtain ⟨final, ran, -, bounded, reports⟩ :=
    polls_report (fun pointer : Nat => pointer + 3) (add_left_injective 3) removesBetween (by decide +kernel)
  have reached : (run (peakStep step watchedCount) ⟨new fun pointer : Nat => pointer + 3, 0⟩ removesBetween).any
      (fun final => (Event.poll (.ready [(4, 5)]) : Event Nat).Enabled final.state) = true := by decide +kernel
  rw [ran, Option.any_some] at reached
  exact ⟨final, ran, bounded, reports [(4, 5)] (of_decide_eq_true reached)⟩

end EpollLoop

end NutServer.Net
