import NutServer.Net.TimerQueueProperties

/-! Timers are conserved and never fire early, over whole runs. -/

set_option autoImplicit false

namespace NutServer.Net

open Library Base

/-- The timers that are due in a call of `handler`, in the order of the set. -/
def HandlerCall.due (call : HandlerCall) : List Nat :=
  (call.entry.filter fun pair => pair.1 ≤ call.now).map Prod.snd

/-- A call runs the timers that were due on its entry, in the order of their
expirations, each at most once and none that was not due. -/
structure HandlerCall.Kept (call : HandlerCall) : Prop where
  ordered : call.entry.Pairwise fun earlier later => earlier.1 ≤ later.1
  once : call.due.Nodup
  ran : call.ran <+: call.due

/-- A call that has returned has run every timer that was due, and has put each
that repeats back into the set once. -/
structure HandlerReturn.Kept (constructed : List Timer) (finished : HandlerReturn) : Prop where
  complete : finished.call.ran = finished.call.due
  back : ∀ serial ∈ finished.call.ran, ∃ timer, constructed[serial]? = some timer ∧
    (timer.isRepeat = true → finished.left.filter (fun pair => pair.2 = serial) =
      [(addTime finished.call.now timer.interval, serial)])

private theorem HandlerReturn.Kept.extend {constructed : List Timer} {finished : HandlerReturn}
    (kept : finished.Kept constructed) (more : List Timer) : finished.Kept (constructed ++ more) where
  complete := kept.complete
  back := fun serial member => by
    obtain ⟨timer, isTimer, back⟩ := kept.back serial member
    exact ⟨timer, (List.getElem?_append_left (List.getElem?_eq_some_iff.mp isTimer).1).trans isTimer, back⟩

namespace TimerQueue

def isOneShot (constructed : List Timer) (serial : Nat) : Bool :=
  constructed[serial]?.any fun timer => !timer.isRepeat

def Phase.expired : Phase → List TimerIndex
  | .idle => []
  | .running _ expired _ => expired

def Phase.calls : Phase → List HandlerCall
  | .idle => []
  | .running call _ _ => [call]

/-- The calls of `handler`, the last of which may still run. -/
def calls (queue : TimerQueue) : List HandlerCall :=
  queue.returned.map HandlerReturn.call ++ queue.phase.calls

/-- The timers that the calls of `handler` that have returned have run. -/
def finished (queue : TimerQueue) : List Nat :=
  (queue.returned.map HandlerReturn.call).flatMap HandlerCall.ran

/-- What holds between two callbacks of `handler`. -/
def Calling (timers : Nat → Option Timer) : Phase → Prop
  | .idle => True
  | .running call expired index => 0 < call.now ∧
      call.due = serials timers (expired.map TimerIndex.timer) ∧ call.ran = call.due.take index

structure Sound (queue : TimerQueue) : Prop where
  held : Held queue queue.phase.expired
  calling : Calling queue.timers queue.phase
  kept : ∀ call ∈ queue.calls, call.Kept
  returned : ∀ finished ∈ queue.returned, finished.Kept queue.constructed
  gone : queue.deleted = queue.finished.filter (isOneShot queue.constructed)

theorem new_sound : Sound new where
  held := new_held
  calling := trivial
  kept := nofun
  returned := nofun
  gone := rfl

section Lists

variable {timers : Nat → Option Timer} {entries : List TimerIndex}

/-- Below the sentry are the entries that are due, those at `now` included. -/
theorem lt_sentry_iff {entry : TimerIndex} {now : Timestamp} (bounded : entry.timer < UINTPTR_MAX) :
    entry < ⟨now, UINTPTR_MAX⟩ ↔ entry.expiration ≤ now := by
  rw [TimerIndex.lt_iff, le_iff_lt_or_eq]
  exact or_congr_right (and_iff_left bounded)

private theorem filter_contents (now : Timestamp) :
    (contents timers entries).filter (fun pair => pair.1 ≤ now) =
      contents timers (entries.filter fun entry => entry.expiration ≤ now) := by
  induction entries with
  | nil => rfl
  | cons entry rest ih =>
      unfold contents at ih ⊢
      cases found : timers entry.timer with
      | none => by_cases due : entry.expiration ≤ now <;> simp [found, due, ih]
      | some timer => by_cases due : entry.expiration ≤ now <;> simp [found, due, ih]

private theorem contents_ordered (ascending : entries.Pairwise (· < ·)) :
    (contents timers entries).Pairwise fun earlier later => earlier.1 ≤ later.1 := by
  refine List.Pairwise.filterMap _ ?_ ascending
  intro earlier later ordered left isLeft right isRight
  obtain ⟨_, _, rfl⟩ := Option.map_eq_some_iff.mp isLeft
  obtain ⟨_, _, rfl⟩ := Option.map_eq_some_iff.mp isRight
  exact TimerIndex.expiration_le_of_le ordered.le

private theorem contents_subset {others : List TimerIndex} {changed : Nat → Option Timer}
    (inside : entries ⊆ others) (same : ∀ entry ∈ entries, changed entry.timer = timers entry.timer) :
    contents timers entries ⊆ contents changed others := by
  rintro ⟨expiration, serial⟩ member
  obtain ⟨entry, isEntry, key, timer, found, number⟩ := mem_contents.mp member
  exact mem_contents.mpr ⟨entry, inside isEntry, key, timer, (same entry isEntry).trans found, number⟩

private theorem take_serials {addresses : List Nat} {index address : Nat} {timer : Timer}
    (live : ∀ address ∈ addresses, ∃ timer, timers address = some timer)
    (next : addresses[index]? = some address) (found : timers address = some timer) :
    (serials timers addresses).take (index + 1) = (serials timers addresses).take index ++ [timer.serial] := by
  induction addresses generalizing index with
  | nil => cases next
  | cons first rest ih =>
      obtain ⟨head, isHead⟩ := live first List.mem_cons_self
      rw [serials_cons isHead]
      cases index with
      | zero =>
          cases next
          cases isHead.symm.trans found
          rfl
      | succ index =>
          rw [List.take_succ_cons, List.take_succ_cons,
            ih (fun address member => live address (List.mem_cons_of_mem _ member)) next]
          rfl

private theorem serials_length_le {addresses : List Nat} : (serials timers addresses).length ≤ addresses.length :=
  List.length_filterMap_le _ _

end Lists

variable {queue next : TimerQueue} {taken : List TimerIndex}

private theorem Held.serials_nodup (held : Held queue taken) :
    (serials queue.timers (queue.addresses taken) ++ queue.deleted).Nodup :=
  held.conserved.nodup_iff.mpr List.nodup_range

private theorem serials_addresses : serials queue.timers (queue.addresses taken) =
    serials queue.timers queue.pending ++
      serials queue.timers (queue.timerLists.toList.map TimerIndex.timer) ++
      serials queue.timers (taken.map TimerIndex.timer) := by
  rw [addresses, List.map_append, serials_append, serials_append, List.append_assoc]

private theorem Held.isOneShot_serial (held : Held queue taken) {address : Nat} {timer : Timer}
    (found : queue.timers address = some timer) :
    isOneShot queue.constructed timer.serial = !timer.isRepeat := by
  obtain ⟨original, isOriginal, interval⟩ := held.known address timer found
  simp [isOneShot, isOriginal, Timer.isRepeat, interval]

theorem Sound.addTimer (sound : Sound queue) {address : Nat} {when : Timestamp} {interval : Seconds}
    (fresh : queue.timers address = none) (bounded : address < UINTPTR_MAX) :
    Sound (queue.addTimer address when interval) where
  held := sound.held.addTimer fresh bounded
  calling := by
    have calling := sound.calling
    have held := sound.held
    cases phase : queue.phase with
    | idle =>
        change Calling _ queue.phase
        rw [phase]
        trivial
    | running call expired index =>
        change Calling _ queue.phase
        rw [phase] at calling held ⊢
        have other : address ∉ expired.map TimerIndex.timer := fun member => by
          obtain ⟨timer, found⟩ := held.live (List.mem_append_right _ (by
            rw [List.map_append]
            exact List.mem_append_right _ member))
          rw [fresh] at found
          cases found
        exact ⟨calling.1, calling.2.1.trans (serials_update other).symm, calling.2.2⟩
  kept := sound.kept
  returned := fun finished member => (sound.returned finished member).extend _
  gone := by
    refine sound.gone.trans (List.filter_congr fun serial member => ?_)
    obtain ⟨call, isCall, ran⟩ := List.mem_flatMap.mp member
    obtain ⟨finished, isFinished, rfl⟩ := List.mem_map.mp isCall
    obtain ⟨timer, isTimer, _⟩ := (sound.returned finished isFinished).back serial ran
    simp only [isOneShot, TimerQueue.addTimer]
    rw [List.getElem?_append_left (List.getElem?_eq_some_iff.mp isTimer).1]

theorem Sound.elsewhere (sound : Sound queue) (held : Held next queue.phase.expired)
    (phase : next.phase = queue.phase) (timers : next.timers = queue.timers)
    (constructed : next.constructed = queue.constructed) (deleted : next.deleted = queue.deleted)
    (returned : next.returned = queue.returned) : Sound next where
  held := by rwa [phase]
  calling := by
    rw [phase, timers]
    exact sound.calling
  kept := by
    rw [calls, returned, phase]
    exact sound.kept
  returned := by
    rw [returned, constructed]
    exact sound.returned
  gone := by
    rw [deleted, finished, returned, constructed]
    exact sound.gone

theorem Held.getExpired (held : Held queue []) (now : Timestamp) :
    ∃ rest, TimerQueue.getExpired queue.timerLists now =
        .ok (queue.timerLists.toList.filter fun entry => entry.expiration ≤ now, rest) ∧
      queue.timerLists.toList =
        (queue.timerLists.toList.filter fun entry => entry.expiration ≤ now) ++ rest.toList ∧
      ∀ entry ∈ rest.toList, now < entry.expiration := by
  have due : ∀ entry ∈ queue.timerLists.toList,
      entry < ⟨now, UINTPTR_MAX⟩ ↔ entry.expiration ≤ now := by
    intro entry member
    obtain ⟨timer, found, _⟩ := held.keyed entry (List.mem_append_left _ member)
    exact lt_sentry_iff (held.bounded entry.timer timer found)
  have below : queue.timerLists.below ⟨now, UINTPTR_MAX⟩ =
      queue.timerLists.toList.filter fun entry => entry.expiration ≤ now := by
    rw [SortedSet.below_eq_filter]
    exact List.filter_congr fun entry member => decide_eq_decide.mpr (due entry member)
  have parts := SortedSet.below_append_lowerBound queue.timerLists ⟨now, UINTPTR_MAX⟩
  have after : ∀ entry ∈ (queue.timerLists.lowerBound ⟨now, UINTPTR_MAX⟩).toList, now < entry.expiration := by
    intro entry member
    have inSet : entry ∈ queue.timerLists.toList := parts ▸ List.mem_append_right _ member
    exact not_le.mp fun early => absurd ((due entry inSet).mpr early)
      (not_lt.mpr (SortedSet.le_of_mem_lowerBound member))
  have asserted : isAfter now (queue.timerLists.lowerBound ⟨now, UINTPTR_MAX⟩) = true := by
    unfold isAfter
    split
    · rfl
    · next first isFirst => exact decide_eq_true (after first (SortedSet.mem_of_first? isFirst))
  rw [below] at parts
  refine ⟨queue.timerLists.lowerBound ⟨now, UINTPTR_MAX⟩, ?_, parts.symm, after⟩
  simp only [TimerQueue.getExpired, assert_of asserted, below]
  rfl

theorem Sound.handler (sound : Sound queue) (idle : queue.phase = .idle) {now : Timestamp}
    (positive : 0 < now) :
    ∃ next, queue.handler now = .ok next ∧ Sound next ∧ next.settings = queue.settings ∧
      next.phase ≠ .idle ∧ ∀ entry ∈ next.timerLists.toList, now < entry.expiration := by
  have held := sound.held
  rw [idle] at held
  obtain ⟨rest, called, parts, after⟩ := held.getExpired now
  let expired := queue.timerLists.toList.filter fun entry => entry.expiration ≤ now
  let call : HandlerCall := { now, entry := contents queue.timers queue.timerLists.toList, ran := [] }
  have due : call.due = serials queue.timers (expired.map TimerIndex.timer) := by
    rw [HandlerCall.due, filter_contents, contents_serials]
  have moved : (rest.toList ++ expired).Perm (queue.timerLists.toList ++ []) := by
    rw [List.append_nil]
    exact List.perm_append_comm.trans (.of_eq parts.symm)
  have nextHeld : Held { queue with timerLists := rest, phase := .running call expired 0 } expired :=
    held.move rfl rfl rfl ((moved.map _).append_left _) fun entry member =>
      held.keyed entry (moved.mem_iff.mp member)
  refine ⟨{ queue with timerLists := rest, phase := .running call expired 0 }, ?_, ?_, rfl, by simp, after⟩
  · simp only [TimerQueue.handler, called, Outcome.ok_bind]
    rfl
  · refine ⟨nextHeld, ⟨positive, due, rfl⟩, ?_, sound.returned, sound.gone⟩
    intro other member
    rcases List.mem_append.mp member with earlier | current
    · exact sound.kept other (List.mem_append_left _ earlier)
    · rw [List.mem_singleton.mp current]
      refine ⟨contents_ordered queue.timerLists.ascending, ?_, List.nil_prefix⟩
      have nodup := nextHeld.serials_nodup
      rw [serials_addresses] at nodup
      rw [due]
      exact (List.nodup_append.mp (List.nodup_append.mp nodup).1).2.1

theorem exists_of_callbacks (remain : 0 < queue.phase.callbacks) :
    ∃ call expired index entry, queue.phase = .running call expired index ∧ expired[index]? = some entry := by
  cases phase : queue.phase with
  | idle => simp [phase, Phase.callbacks] at remain
  | running call expired index =>
      rw [phase] at remain
      have inside : index < expired.length := Nat.lt_of_sub_pos remain
      exact ⟨call, expired, index, expired[index], rfl, List.getElem?_eq_getElem inside⟩

theorem Sound.runCallback (sound : Sound queue) (remain : 0 < queue.phase.callbacks) :
    ∃ next, queue.runCallback = .ok next ∧ Sound next ∧ next.settings = queue.settings ∧
      next.phase ≠ .idle ∧ next.timerLists = queue.timerLists := by
  obtain ⟨call, expired, index, entry, phase, isEntry⟩ := exists_of_callbacks remain
  obtain ⟨held, calling, kept, returned, gone⟩ := sound
  simp only [phase, Phase.expired, Calling] at held calling
  obtain ⟨positive, due, ran⟩ := calling
  have pointers : ∀ address ∈ expired.map TimerIndex.timer, ∃ timer, queue.timers address = some timer :=
    fun address member => held.live (by simp [addresses, member])
  obtain ⟨timer, found⟩ := pointers entry.timer (List.mem_map_of_mem (List.mem_of_getElem? isEntry))
  have ranNext : call.ran ++ [timer.serial] = call.due.take (index + 1) := by
    rw [ran, due, take_serials pointers (by simp [isEntry]) found]
  refine ⟨{ queue with phase := .running { call with ran := call.ran ++ [timer.serial] } expired (index + 1) },
    ?_, ⟨held.move rfl rfl rfl (.refl _) held.keyed, ⟨positive, due, ranNext⟩, ?_, returned, gone⟩,
    rfl, by simp, rfl⟩
  · simp only [TimerQueue.runCallback, phase, isEntry, deref_of _ found]
    rfl
  · intro other member
    rcases List.mem_append.mp member with earlier | current
    · exact kept other (List.mem_append_left _ earlier)
    · have before := kept call (by simp [calls, phase, Phase.calls])
      rw [List.mem_singleton.mp current]
      exact ⟨before.ordered, before.once, ranNext ▸ List.take_prefix _ _⟩

def Back (queue : TimerQueue) (now : Timestamp) (serial : Nat) : Prop :=
  ∃ timer, queue.constructed[serial]? = some timer ∧ (timer.isRepeat = true →
    (addTime now timer.interval, serial) ∈ contents queue.timers queue.timerLists.toList)

/-- How far the loop of `reset` is, with `rest` still to come of the entries
that point to `due`. -/
structure Resetting (start : TimerQueue) (now : Timestamp) (due : List Nat) (rest : List TimerIndex)
    (queue : TimerQueue) : Prop where
  frame : queue = { start with
    timers := queue.timers
    timerLists := queue.timerLists
    deleted := queue.deleted }
  gone : queue.deleted ++
      (serials queue.timers (rest.map TimerIndex.timer)).filter (isOneShot start.constructed) =
    start.deleted ++ due.filter (isOneShot start.constructed)
  back : ∀ serial ∈ due, serial ∈ serials queue.timers (rest.map TimerIndex.timer) ∨ queue.Back now serial

section Reset

variable {start : TimerQueue} {now : Timestamp} {due : List Nat} {entry : TimerIndex}
  {rest : List TimerIndex} {timer : Timer}

private theorem Held.notMem_rest (held : Held queue (entry :: rest)) : entry.timer ∉ rest.map TimerIndex.timer :=
  fun member => held.apart (by simp [addresses, member])

private theorem Held.ne_of_mem_set (held : Held queue (entry :: rest)) {other : TimerIndex}
    (member : other ∈ queue.timerLists.toList) : other.timer ≠ entry.timer := fun same =>
  held.apart (same ▸ List.mem_append_right _ (List.mem_map_of_mem (List.mem_append_left _ member)))

private theorem Back.of_subset {serial : Nat} (back : queue.Back now serial)
    (constructed : next.constructed = queue.constructed)
    (subset : contents queue.timers queue.timerLists.toList ⊆ contents next.timers next.timerLists.toList) :
    next.Back now serial := by
  obtain ⟨original, isOriginal, inSet⟩ := back
  exact ⟨original, constructed ▸ isOriginal, fun repeats => subset (inSet repeats)⟩

/-- An entry is done with once what its timer becomes is back where it belongs. -/
theorem back_of_cons {serial : Nat} {remaining : List Nat}
    (back : ∀ other ∈ due, other ∈ serial :: remaining ∨ queue.Back now other)
    (constructed : next.constructed = queue.constructed)
    (subset : contents queue.timers queue.timerLists.toList ⊆ contents next.timers next.timerLists.toList)
    (first : next.Back now serial) : ∀ other ∈ due, other ∈ remaining ∨ next.Back now other := by
  intro other member
  cases back other member with
  | inl remains =>
      cases List.mem_cons.mp remains with
      | inl same => exact .inr (same ▸ first)
      | inr later => exact .inl later
  | inr isBack => exact .inr (isBack.of_subset constructed subset)

theorem Resetting.restarted (resetting : Resetting start now due (entry :: rest) queue)
    (held : Held queue (entry :: rest)) (found : queue.timers entry.timer = some timer)
    (repeats : timer.isRepeat = true) :
    Resetting start now due rest (queue.restarted entry timer now) := by
  obtain ⟨frame, gone, back⟩ := resetting
  have constructed : queue.constructed = start.constructed := by rw [frame]
  have others : serials (queue.restarted entry timer now).timers (rest.map TimerIndex.timer) =
      serials queue.timers (rest.map TimerIndex.timer) := serials_update held.notMem_rest
  have kind := held.isOneShot_serial found
  rw [repeats, constructed] at kind
  rw [List.map_cons, serials_cons found] at gone back
  refine ⟨?_, ?_, ?_⟩
  · rw [TimerQueue.restarted, frame]
  · rw [others]
    rwa [List.filter_cons_of_neg (by simp [kind])] at gone
  · have inserted := SortedSet.insert_perm (held.restarted now found repeats).2.1
    have subset : contents queue.timers queue.timerLists.toList ⊆
        contents (queue.restarted entry timer now).timers
          (queue.restarted entry timer now).timerLists.toList :=
      contents_subset (fun other member => inserted.mem_iff.mpr (List.mem_cons_of_mem _ member))
        fun other member => Function.update_of_ne (held.ne_of_mem_set member) _ _
    rw [others]
    refine back_of_cons back rfl subset ?_
    obtain ⟨original, isOriginal, interval⟩ := held.known _ timer found
    refine ⟨original, isOriginal, fun _ => mem_contents.mpr
      ⟨_, inserted.mem_iff.mpr List.mem_cons_self, ?_, timer.restart now, Function.update_self ..,
        Timer.restart_serial⟩⟩
    rw [interval]
    exact Timer.restart_expirationDate repeats

theorem Resetting.dropped (resetting : Resetting start now due (entry :: rest) queue)
    (held : Held queue (entry :: rest)) (found : queue.timers entry.timer = some timer)
    (once : timer.isRepeat = false) : Resetting start now due rest (queue.dropped entry timer) := by
  obtain ⟨frame, gone, back⟩ := resetting
  have constructed : queue.constructed = start.constructed := by rw [frame]
  have others : serials (queue.dropped entry timer).timers (rest.map TimerIndex.timer) =
      serials queue.timers (rest.map TimerIndex.timer) := serials_update held.notMem_rest
  have kind := held.isOneShot_serial found
  rw [once, constructed] at kind
  rw [List.map_cons, serials_cons found] at gone back
  refine ⟨?_, ?_, ?_⟩
  · rw [TimerQueue.dropped, frame]
  · rw [others, ← gone, List.filter_cons_of_pos kind]
    simp [TimerQueue.dropped]
  · have subset : contents queue.timers queue.timerLists.toList ⊆
        contents (queue.dropped entry timer).timers queue.timerLists.toList :=
      contents_subset (fun _ member => member)
        fun other member => Function.update_of_ne (held.ne_of_mem_set member) _ _
    rw [others]
    refine back_of_cons back rfl subset ?_
    obtain ⟨original, isOriginal, interval⟩ := held.known _ timer found
    refine ⟨original, isOriginal, fun repeats => ?_⟩
    rw [Timer.isRepeat, interval, ← Timer.isRepeat, once] at repeats
    cases repeats

theorem reset_loop (now : Timestamp) {expired : List TimerIndex} (held : Held queue expired)
    (isDue : due = serials queue.timers (expired.map TimerIndex.timer)) :
    ∃ next, expired.foldlM (resetOne now) queue = .ok next ∧ Held next [] ∧
      Resetting queue now due [] next :=
  reset_run now (Resetting queue now due) held
    { frame := rfl
      gone := by rw [isDue]
      back := fun serial member => .inl (isDue ▸ member) }
    (fun _ _ _ _ held found repeats resetting => resetting.restarted held found repeats)
    (fun _ _ _ _ held found once resetting => resetting.dropped held found once)

end Reset

theorem Held.nextExpire (held : Held queue []) :
    queue.nextExpire = .ok ((queue.timerLists.first?.map TimerIndex.expiration).getD .invalid) := by
  unfold TimerQueue.nextExpire
  cases isFirst : queue.timerLists.first? with
  | none => rfl
  | some first =>
      obtain ⟨timer, found, key⟩ := held.keyed first
        (List.mem_append_left _ (SortedSet.mem_of_first? isFirst))
      simp only [deref_of _ found, Outcome.ok_bind, Option.map_some, Option.getD_some, key]
      rfl

def rearmed (first : Option TimerIndex) (clock : Timestamp) : List Setting :=
  let next := (first.map TimerIndex.expiration).getD .invalid
  if next.valid then [resetTimerfd next clock] else []

theorem Sound.handlerReturns (sound : Sound queue) (running : queue.phase ≠ .idle)
    (done : queue.phase.callbacks = 0) (clock : Timestamp) :
    ∃ call expired index looped next, queue.phase = .running call expired index ∧
      expired.foldlM (resetOne call.now) queue = .ok looped ∧
      queue.handlerReturns clock = .ok next ∧ Sound next ∧ next.phase = .idle ∧
      next.timerLists = looped.timerLists ∧
      next.settings = queue.settings ++ rearmed looped.timerLists.first? clock := by
  cases phase : queue.phase with
  | idle => exact absurd phase running
  | running call expired index =>
      obtain ⟨held, calling, kept, returned, gone⟩ := sound
      simp only [phase, Phase.expired, Calling] at held calling
      obtain ⟨_, due, ran⟩ := calling
      have whole : call.ran = call.due := by
        have short : call.due.length ≤ expired.length := by
          rw [due]
          exact serials_length_le.trans (List.length_map _).le
        rw [phase] at done
        rw [ran, List.take_of_length_le (short.trans (Nat.sub_eq_zero_iff_le.mp done))]
      obtain ⟨looped, loops, nextHeld, frame, nextGone, back⟩ := reset_loop call.now held due
      have constructed : looped.constructed = queue.constructed := by rw [frame]
      have sameReturned : looped.returned = queue.returned := by rw [frame]
      have settings : looped.settings = queue.settings := by rw [frame]
      let left := contents looped.timers looped.timerLists.toList
      let next : TimerQueue := { looped with
        phase := .idle
        settings := looped.settings ++ rearmed looped.timerLists.first? clock
        returned := looped.returned ++ [⟨call, left⟩] }
      refine ⟨call, expired, index, looped, next, rfl, loops, ?_, ⟨?_, trivial, ?_, ?_, ?_⟩, rfl, rfl, ?_⟩
      · simp only [TimerQueue.handlerReturns, phase, reset, loops, Outcome.ok_bind, nextHeld.nextExpire, next,
          rearmed]
        split_ifs <;> simp [settime, pure, Except.pure, left]
      · exact nextHeld.move rfl rfl rfl (.refl _) nextHeld.keyed
      · intro other member
        refine kept other ?_
        simpa [calls, next, sameReturned, Phase.calls, phase] using member
      · intro finished member
        rcases List.mem_append.mp member with earlier | last
        · exact constructed ▸ returned finished (sameReturned ▸ earlier)
        · rw [List.mem_singleton.mp last]
          refine ⟨whole, fun serial member => ?_⟩
          rcases back serial (whole ▸ member) with remains | ⟨timer, isTimer, inSet⟩
          · cases remains
          · refine ⟨timer, isTimer, fun repeats => filter_serial ?_ (inSet repeats)⟩
            have nodup := nextHeld.serials_nodup
            rw [serials_addresses] at nodup
            rw [contents_serials]
            exact (List.nodup_append.mp (List.nodup_append.mp (List.nodup_append.mp nodup).1).1).2.1
      · have split : next.finished = queue.finished ++ call.due := by
          simp [finished, next, sameReturned, whole]
        rw [split, List.filter_append]
        change looped.deleted = _
        rw [List.map_nil, serials, List.filterMap_nil, List.filter_nil, List.append_nil] at nextGone
        rw [nextGone, gone]
        simp [next, constructed]
      · simp [next, settings]

theorem perform_sound (sound : Sound queue) {event : Event} (enabled : event.Enabled queue) :
    ∃ next, queue.perform event = .ok next ∧ Sound next := by
  cases event with
  | addTimer address when interval => exact ⟨_, rfl, sound.addTimer enabled.1 enabled.2⟩
  | addTimerInLoop address clock =>
      obtain ⟨timer, next, found, added, _, shape, held⟩ := sound.held.addTimerInLoop clock enabled
      refine ⟨next, added, ?_⟩
      subst shape
      exact sound.elsewhere held rfl rfl rfl rfl rfl
  | handler now =>
      obtain ⟨next, called, nextSound, _⟩ := sound.handler enabled.1 enabled.2
      exact ⟨next, called, nextSound⟩
  | runCallback =>
      obtain ⟨next, called, nextSound, _⟩ := sound.runCallback enabled
      exact ⟨next, called, nextSound⟩
  | handlerReturns clock =>
      obtain ⟨_, _, _, _, next, _, _, returns, nextSound, _⟩ := sound.handlerReturns enabled.1 enabled.2 clock
      exact ⟨next, returns, nextSound⟩

/-- The timers whose `addTimerInLoop` is still to be called. -/
def waiting (queue : TimerQueue) : List Nat := serials queue.timers queue.pending

def inSet (queue : TimerQueue) : List Nat :=
  serials queue.timers (queue.timerLists.toList.map TimerIndex.timer)

/-- The timers that the running call of `handler` has taken out of the set. -/
def inHand (queue : TimerQueue) : List Nat := queue.phase.calls.flatMap HandlerCall.due

theorem Sound.inHand (sound : Sound queue) :
    queue.inHand = serials queue.timers (queue.phase.expired.map TimerIndex.timer) := by
  have calling := sound.calling
  cases phase : queue.phase with
  | idle => simp [TimerQueue.inHand, phase, Phase.calls, Phase.expired, serials]
  | running call expired index =>
      simp only [phase, Calling] at calling
      simp [TimerQueue.inHand, phase, Phase.calls, Phase.expired, calling.2.1]

theorem Sound.one_place (sound : Sound queue) {serial : Nat} (inside : serial < queue.constructed.length) :
    queue.waiting.count serial + queue.inSet.count serial + queue.inHand.count serial +
      queue.deleted.count serial = 1 := by
  have places := sound.held.conserved.count_eq serial
  rw [serials_addresses, List.count_append, List.count_append, List.count_append, ← sound.inHand] at places
  exact places.trans (List.count_eq_one_of_mem List.nodup_range (List.mem_range.mpr inside))

private theorem Sound.deleted_count (sound : Sound queue) {serial : Nat} {timer : Timer}
    (isTimer : queue.constructed[serial]? = some timer) :
    queue.deleted.count serial = if timer.isRepeat then 0 else queue.finished.count serial := by
  have kind : isOneShot queue.constructed serial = !timer.isRepeat := by simp [isOneShot, isTimer]
  rw [sound.gone]
  cases repeats : timer.isRepeat with
  | true => exact List.count_eq_zero.mpr fun member => by simp [kind, repeats] at member
  | false => exact List.count_filter (by simp [kind, repeats])

private theorem Sound.ran_count (sound : Sound queue) (serial : Nat) :
    (queue.calls.flatMap HandlerCall.ran).count serial ≤
      queue.finished.count serial + queue.inHand.count serial := by
  rw [calls, List.flatMap_append, List.count_append]
  refine Nat.add_le_add_left ?_ _
  cases phase : queue.phase with
  | idle => exact Nat.zero_le _
  | running call expired index =>
      have kept := sound.kept call (by simp [calls, phase, Phase.calls])
      simpa [TimerQueue.inHand, phase, Phase.calls] using kept.ran.sublist.count_le serial

/-- In whatever order timers are added, from any thread and from callbacks, and
whatever the clock reads: no assertion fails and no pointer dangles; every entry
of the set has the key of its timer; every call of `handler` runs the timers
that were due when it began; a timer that does not repeat is waiting for its
insertion, in the set, in the hands of `handler` or has been run, and run once;
and a timer that repeats is never lost. -/
theorem timers_conserved (events : List Event)
    (enabled : Along step (fun queue event => event.Enabled queue) new events) :
    ∃ final, run step new events = some final ∧
      (∀ entry ∈ final.timerLists.toList, ∃ timer,
        final.timers entry.timer = some timer ∧ timer.expirationDate = entry.expiration) ∧
      (∀ call ∈ final.calls, call.Kept) ∧
      (∀ finished ∈ final.returned, finished.Kept final.constructed) ∧
      ∀ serial timer, final.constructed[serial]? = some timer →
        if timer.isRepeat then
          final.waiting.count serial + final.inSet.count serial + final.inHand.count serial = 1
        else
          final.waiting.count serial + final.inSet.count serial + final.inHand.count serial +
            final.finished.count serial = 1 ∧ (final.calls.flatMap HandlerCall.ran).count serial ≤ 1 := by
  have progress : ∀ (past : List Event) (queue : TimerQueue) (event : Event), Sound queue →
      event.Enabled queue → ∃ next, step queue event = some next ∧ Sound next := by
    intro past queue event sound isEnabled
    obtain ⟨next, performed, nextSound⟩ := perform_sound sound isEnabled
    exact ⟨next, Outcome.ite_toOption_eq_some_iff.mpr ⟨isEnabled, performed⟩, nextSound⟩
  obtain ⟨final, ran, sound⟩ := run_total (fun _ queue => Sound queue) new_sound progress enabled
  refine ⟨final, ran, fun entry member => sound.held.keyed entry (List.mem_append_left _ member), sound.kept,
    sound.returned, fun serial timer isTimer => ?_⟩
  have place := sound.one_place (List.getElem?_eq_some_iff.mp isTimer).1
  have runs := sound.ran_count serial
  rw [sound.deleted_count isTimer] at place
  split_ifs at place ⊢
  · exact place
  · exact ⟨place, by omega⟩

/-- Two timers that are due at the same microsecond, one of which repeats, and a
callback that adds a timer for a time in the past. -/
theorem timers_conserved_reentrant :
    let events : List Event := [.addTimer 16 100 (.ofMicroseconds 0), .addTimerInLoop 16 50,
      .addTimer 8 100 (.ofMicroseconds 25), .addTimerInLoop 8 60, .handler 100, .runCallback,
      .addTimer 24 (-5) (.ofMicroseconds 0), .addTimerInLoop 24 110, .runCallback, .handlerReturns 120]
    ∃ final, run step new events = some final ∧ (∀ finished ∈ final.returned, finished.Kept final.constructed) := by
  obtain ⟨final, ran, _, _, returned, _⟩ := timers_conserved
    [.addTimer 16 100 (.ofMicroseconds 0), .addTimerInLoop 16 50, .addTimer 8 100 (.ofMicroseconds 25),
      .addTimerInLoop 8 60, .handler 100, .runCallback, .addTimer 24 (-5) (.ofMicroseconds 0),
      .addTimerInLoop 24 110, .runCallback, .handlerReturns 120] (by decide +kernel)
  exact ⟨final, ran, returned⟩

end TimerQueue

end NutServer.Net
