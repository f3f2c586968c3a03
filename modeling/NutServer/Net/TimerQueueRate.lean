import NutServer.Net.TimerQueueConservation

/-! How often a timer runs, by the readings of the clock in the calls of
`handler` that run it. -/

set_option autoImplicit false

namespace NutServer.Net

open Library Base

/-- The readings of the clock in the calls that run a timer. -/
def readings (calls : List HandlerCall) (serial : Nat) : List Timestamp :=
  (calls.filter fun call => serial ∈ call.ran).map HandlerCall.now

/-- No reading is before the time the timer was made for, and between two of
them there is its interval. -/
structure Spaced (original : Timer) (times : List Timestamp) : Prop where
  first : ∀ time ∈ times, original.expirationDate ≤ time
  apart : times.Pairwise fun earlier later => addTime earlier original.interval ≤ later

/-- The timer is set for a time that keeps its distance from the calls that ran it. -/
structure Timer.Ahead (timer original : Timer) (calls : List HandlerCall) : Prop where
  first : original.expirationDate ≤ timer.expirationDate
  apart : ∀ time ∈ readings calls timer.serial, addTime time timer.interval ≤ timer.expirationDate

section Readings

variable {calls : List HandlerCall} {call : HandlerCall} {serial : Nat} {timer original : Timer}
  {times : List Timestamp} {time : Timestamp}

private theorem readings_concat :
    readings (calls ++ [call]) serial =
      readings calls serial ++ if serial ∈ call.ran then [call.now] else [] := by
  rw [readings, List.filter_append, List.map_append, ← readings]
  split_ifs with ran
  · rw [List.filter_cons_of_pos (by simpa using ran)]
    rfl
  · rw [List.filter_cons_of_neg (by simpa using ran)]
    rfl

private theorem readings_eq_nil (never : ∀ call ∈ calls, serial ∉ call.ran) : readings calls serial = [] := by
  rw [readings, List.filter_eq_nil_iff.mpr fun call member => by simpa using never call member]
  rfl

theorem Spaced.concat (spaced : Spaced original times) (first : original.expirationDate ≤ time)
    (apart : ∀ earlier ∈ times, addTime earlier original.interval ≤ time) : Spaced original (times ++ [time]) where
  first := List.forall_mem_append.mpr ⟨spaced.first, List.forall_mem_singleton.mpr first⟩
  apart := by
    refine List.pairwise_append.mpr ⟨spaced.apart, List.pairwise_singleton _ _, ?_⟩
    exact fun earlier member => List.forall_mem_singleton.mpr (apart earlier member)

/-- The run after so many others is as many intervals late. -/
theorem Spaced.time_of (spaced : Spaced original times) {index : Nat} (isTime : times[index]? = some time) :
    original.expirationDate + index * original.interval.delta ≤ time := by
  obtain ⟨first, apart⟩ := spaced
  suffices reached : ∀ start, (∀ time ∈ times, start ≤ time) → start + index * original.interval.delta ≤ time from
    reached _ first
  induction times generalizing index with
  | nil => cases isTime
  | cons head rest ih =>
      intro start least
      obtain ⟨later, apartRest⟩ := List.pairwise_cons.mp apart
      cases index with
      | zero =>
          cases isTime
          simpa using least time List.mem_cons_self
      | succ index =>
          have started := least head List.mem_cons_self
          have reached := ih isTime (fun time member => first time (List.mem_cons_of_mem _ member)) apartRest
            (addTime head original.interval) later
          simp only [addTime] at reached
          push_cast
          linarith

end Readings

namespace TimerQueue

/-- No two timers have one number, every timer is ahead of the calls that have
returned, and those in the hands of `handler` are due. -/
structure Paced (queue : TimerQueue) : Prop where
  unique : ∀ address timer place other, queue.timers address = some timer → queue.timers place = some other →
    timer.serial = other.serial → address = place
  ahead : ∀ address timer, queue.timers address = some timer → ∀ original,
    queue.constructed[timer.serial]? = some original → timer.Ahead original (queue.returned.map HandlerReturn.call)
  due : ∀ entry ∈ queue.phase.expired, ∀ call ∈ queue.phase.calls, entry.expiration ≤ call.now
  spaced : ∀ serial original, queue.constructed[serial]? = some original →
    Spaced original (readings (queue.returned.map HandlerReturn.call) serial)

private theorem new_paced : Paced new where
  unique := nofun
  ahead := nofun
  due := nofun
  spaced := nofun

variable {queue next : TimerQueue}

/-- A timer that the running call has run is still in its hands. -/
theorem Sound.in_hand (sound : Sound queue) {call : HandlerCall} {serial : Nat} (isCall : call ∈ queue.phase.calls)
    (ran : serial ∈ call.ran) :
    ∃ entry ∈ queue.phase.expired, ∃ timer, queue.timers entry.timer = some timer ∧ timer.serial = serial ∧
      timer.expirationDate = entry.expiration := by
  have handed := sound.inHand
  have kept := sound.kept call (List.mem_append_right _ isCall)
  have due : serial ∈ queue.inHand := List.mem_flatMap.mpr ⟨call, isCall, kept.ran.subset ran⟩
  rw [handed, serials, List.mem_filterMap] at due
  obtain ⟨address, inside, isSerial⟩ := due
  obtain ⟨timer, found, rfl⟩ := Option.map_eq_some_iff.mp isSerial
  obtain ⟨entry, isEntry, rfl⟩ := List.mem_map.mp inside
  obtain ⟨other, foundOther, key⟩ := sound.held.keyed entry (List.mem_append_right _ isEntry)
  cases found.symm.trans foundOther
  exact ⟨entry, isEntry, timer, found, rfl, key⟩

private theorem Sound.ran_known (sound : Sound queue) {call : HandlerCall} {serial : Nat} (isCall : call ∈ queue.calls)
    (ran : serial ∈ call.ran) : serial < queue.constructed.length := by
  cases List.mem_append.mp isCall with
  | inl earlier =>
      obtain ⟨finished, isFinished, rfl⟩ := List.mem_map.mp earlier
      obtain ⟨timer, isTimer, _⟩ := (sound.returned finished isFinished).back serial ran
      exact (List.getElem?_eq_some_iff.mp isTimer).1
  | inr current =>
      obtain ⟨entry, _, timer, found, rfl, _⟩ := sound.in_hand current ran
      obtain ⟨original, isOriginal, _⟩ := sound.held.known _ timer found
      exact (List.getElem?_eq_some_iff.mp isOriginal).1

/-- The call that runs keeps the distances as well. -/
theorem Paced.calls (paced : Paced queue) (sound : Sound queue) {serial : Nat} {original : Timer}
    (isOriginal : queue.constructed[serial]? = some original) : Spaced original (readings queue.calls serial) := by
  have before := paced.spaced serial original isOriginal
  cases phase : queue.phase with
  | idle => simpa [TimerQueue.calls, phase, Phase.calls] using before
  | running call expired index =>
      have isCall : call ∈ queue.phase.calls := by simp [phase, Phase.calls]
      have shape : queue.calls = queue.returned.map HandlerReturn.call ++ [call] := by
        simp [TimerQueue.calls, phase, Phase.calls]
      rw [shape, readings_concat]
      split_ifs with ran
      · obtain ⟨entry, inHand, timer, found, rfl, key⟩ := sound.in_hand isCall ran
        have due := paced.due entry inHand call isCall
        obtain ⟨first, apart⟩ := paced.ahead _ timer found original isOriginal
        obtain ⟨known, isKnown, interval⟩ := sound.held.known _ timer found
        cases isOriginal.symm.trans isKnown
        refine before.concat (first.trans (key.trans_le due)) fun earlier member => ?_
        rw [interval]
        exact (apart earlier member).trans (key.trans_le due)
      · simpa using before

theorem Paced.elsewhere (paced : Paced queue) (timers : next.timers = queue.timers)
    (constructed : next.constructed = queue.constructed) (returned : next.returned = queue.returned)
    (due : ∀ entry ∈ next.phase.expired, ∀ call ∈ next.phase.calls, entry.expiration ≤ call.now) : Paced next where
  unique := by
    rw [timers]
    exact paced.unique
  ahead := by
    rw [timers, constructed, returned]
    exact paced.ahead
  due := due
  spaced := by
    rw [constructed, returned]
    exact paced.spaced

theorem Paced.addTimer (paced : Paced queue) (sound : Sound queue) {address : Nat} {when : Timestamp}
    {interval : Seconds} : Paced (queue.addTimer address when interval) := by
  have never : readings (queue.returned.map HandlerReturn.call) queue.constructed.length = [] :=
    readings_eq_nil fun call member ran =>
      absurd (sound.ran_known (List.mem_append_left _ member) ran) (lt_irrefl _)
  have cases_constructed : ∀ {serial : Nat} {original : Timer},
      (queue.addTimer address when interval).constructed[serial]? = some original →
      queue.constructed[serial]? = some original ∨ serial = queue.constructed.length ∧
        original = { expirationDate := when, interval, serial := queue.constructed.length } := by
    intro serial original isOriginal
    simp only [TimerQueue.addTimer, List.getElem?_append] at isOriginal
    split_ifs at isOriginal with inside
    · exact .inl isOriginal
    · obtain ⟨position, rfl⟩ := List.getElem?_eq_some_iff.mp isOriginal
      rw [List.length_singleton] at position
      exact .inr ⟨by omega, List.getElem_singleton _⟩
  have cases_timers : ∀ {place : Nat} {timer : Timer},
      (queue.addTimer address when interval).timers place = some timer →
      (queue.timers place = some timer ∧ timer.serial < queue.constructed.length) ∨ place = address ∧
        timer = { expirationDate := when, interval, serial := queue.constructed.length } := by
    intro place timer found
    by_cases same : place = address
    · simp only [TimerQueue.addTimer, same, Function.update_self, Option.some.injEq] at found
      exact .inr ⟨same, found.symm⟩
    · have known : queue.timers place = some timer := by simpa [TimerQueue.addTimer, same] using found
      obtain ⟨original, isOriginal, _⟩ := sound.held.known place timer known
      exact .inl ⟨known, (List.getElem?_eq_some_iff.mp isOriginal).1⟩
  refine ⟨?_, ?_, paced.due, ?_⟩
  · intro place timer otherPlace other found foundOther same
    cases cases_timers found with
    | inl known =>
        cases cases_timers foundOther with
        | inl knownOther => exact paced.unique place timer otherPlace other known.1 knownOther.1 same
        | inr last =>
            obtain ⟨_, rfl⟩ := last
            exact absurd (same ▸ known.2) (lt_irrefl _)
    | inr last =>
        obtain ⟨rfl, rfl⟩ := last
        cases cases_timers foundOther with
        | inl knownOther => exact absurd (same ▸ knownOther.2) (lt_irrefl _)
        | inr lastOther => exact lastOther.1.symm
  · intro place timer found original isOriginal
    cases cases_timers found with
    | inl known =>
        cases cases_constructed isOriginal with
        | inl before => exact paced.ahead place timer known.1 original before
        | inr last => exact absurd (last.1 ▸ known.2) (lt_irrefl _)
    | inr isNew =>
      obtain ⟨_, rfl⟩ := isNew
      cases cases_constructed isOriginal with
      | inl earlier => exact absurd (List.getElem?_eq_some_iff.mp earlier).1 (lt_irrefl _)
      | inr last =>
          obtain ⟨_, rfl⟩ := last
          refine ⟨le_rfl, fun time member => ?_⟩
          have none : time ∈ readings (queue.returned.map HandlerReturn.call) queue.constructed.length := member
          rw [never] at none
          cases none
  · intro serial original isOriginal
    cases cases_constructed isOriginal with
    | inl earlier => exact paced.spaced serial original earlier
    | inr last =>
        have none : readings ((queue.addTimer address when interval).returned.map HandlerReturn.call) serial = [] := by
          rw [last.1]
          exact never
        rw [none]
        exact ⟨fun time member => absurd member List.not_mem_nil, .nil⟩

theorem Paced.handler (paced : Paced queue) (sound : Sound queue) (idle : queue.phase = .idle) {now : Timestamp}
    (called : queue.handler now = .ok next) : Paced next := by
  have held := sound.held
  rw [idle] at held
  obtain ⟨rest, expired, _, _⟩ := held.getExpired now
  simp only [TimerQueue.handler, expired, Outcome.ok_bind] at called
  cases called
  refine paced.elsewhere rfl rfl rfl ?_
  intro entry inHand call isCall
  rw [List.mem_singleton.mp isCall]
  exact of_decide_eq_true (List.mem_filter.mp inHand).2

theorem Paced.runCallback (paced : Paced queue) (sound : Sound queue) (remain : 0 < queue.phase.callbacks)
    (called : queue.runCallback = .ok next) : Paced next := by
  obtain ⟨call, expired, index, entry, phase, isEntry⟩ := exists_of_callbacks remain
  have inHand := List.mem_of_getElem? isEntry
  obtain ⟨timer, found, _⟩ := sound.held.keyed entry (by simp [phase, Phase.expired, inHand])
  simp only [TimerQueue.runCallback, phase, isEntry, deref_of _ found, Outcome.ok_bind] at called
  cases called
  refine paced.elsewhere rfl rfl rfl ?_
  intro other isOther later isLater
  have due := paced.due other (by rwa [phase]) call (by simp [phase, Phase.calls])
  rwa [List.mem_singleton.mp isLater]

/-- How far the loop of `reset` is, with `rest` still to come. -/
structure Pacing (start : TimerQueue) (call : HandlerCall) (rest : List TimerIndex) (queue : TimerQueue) : Prop where
  constructed : queue.constructed = start.constructed
  returned : queue.returned = start.returned
  due : ∀ entry ∈ rest, entry.expiration ≤ call.now
  before : ∀ address timer, queue.timers address = some timer →
    ∃ before, start.timers address = some before ∧ before.serial = timer.serial
  ahead : ∀ address timer, queue.timers address = some timer → ∀ original,
    start.constructed[timer.serial]? = some original →
      timer.Ahead original (start.returned.map HandlerReturn.call) ∧
        (address ∉ rest.map TimerIndex.timer → timer.serial ∈ call.ran →
          addTime call.now timer.interval ≤ timer.expirationDate)

section Reset

variable {start : TimerQueue} {call : HandlerCall} {entry : TimerIndex} {rest : List TimerIndex} {timer : Timer}

private theorem notMem_cons {address : Nat} (other : address ≠ entry.timer) (absent : address ∉ rest.map TimerIndex.timer) :
    address ∉ (entry :: rest).map TimerIndex.timer := by
  rw [List.map_cons, List.mem_cons, not_or]
  exact ⟨other, absent⟩

theorem Pacing.restarted (pacing : Pacing start call (entry :: rest) queue) (held : Held queue (entry :: rest))
    (found : queue.timers entry.timer = some timer) (repeats : timer.isRepeat = true) :
    Pacing start call rest (queue.restarted entry timer call.now) := by
  obtain ⟨constructed, returned, due, earlier, ahead⟩ := pacing
  refine ⟨constructed, returned, fun other member => due other (List.mem_cons_of_mem _ member), ?_, ?_⟩
  · intro address other isOther
    by_cases same : address = entry.timer
    · simp only [TimerQueue.restarted, same, Function.update_self, Option.some.injEq] at isOther
      subst isOther
      rw [same, Timer.restart_serial]
      exact earlier _ timer found
    · exact earlier address other (by simpa [TimerQueue.restarted, same] using isOther)
  intro address other isOther original isOriginal
  by_cases same : address = entry.timer
  · simp only [TimerQueue.restarted, same, Function.update_self, Option.some.injEq] at isOther
    subst isOther
    rw [Timer.restart_serial] at isOriginal
    obtain ⟨before, isBefore, key⟩ := held.keyed entry (by simp)
    cases found.symm.trans isBefore
    obtain ⟨⟨first, apart⟩, _⟩ := ahead _ timer found original isOriginal
    have forward : timer.expirationDate ≤ (timer.restart call.now).expirationDate :=
      calc timer.expirationDate = entry.expiration := key
        _ ≤ call.now := due entry List.mem_cons_self
        _ ≤ addTime call.now timer.interval := le_add_of_nonneg_right (timer.interval.nonneg repeats)
        _ = _ := (Timer.restart_expirationDate repeats).symm
    refine ⟨⟨first.trans forward, fun time member => ?_⟩, fun _ _ => ?_⟩
    · rw [Timer.restart_serial] at member
      rw [Timer.restart_interval]
      exact (apart time member).trans forward
    · rw [Timer.restart_interval, Timer.restart_expirationDate repeats]
  · have known : queue.timers address = some other := by simpa [TimerQueue.restarted, same] using isOther
    obtain ⟨before, done⟩ := ahead address other known original isOriginal
    exact ⟨before, fun absent => done (notMem_cons same absent)⟩

theorem Pacing.dropped (pacing : Pacing start call (entry :: rest) queue) :
    Pacing start call rest (queue.dropped entry timer) := by
  obtain ⟨constructed, returned, due, earlier, ahead⟩ := pacing
  have remains : ∀ {address : Nat} {other : Timer}, (queue.dropped entry timer).timers address = some other →
      address ≠ entry.timer ∧ queue.timers address = some other := by
    intro address other isOther
    by_cases same : address = entry.timer
    · simp [TimerQueue.dropped, same] at isOther
    · exact ⟨same, by simpa [TimerQueue.dropped, same] using isOther⟩
  refine ⟨constructed, returned, fun other member => due other (List.mem_cons_of_mem _ member),
    fun address other isOther => earlier address other (remains isOther).2, ?_⟩
  · intro address other isOther original isOriginal
    obtain ⟨different, known⟩ := remains isOther
    obtain ⟨before, done⟩ := ahead address other known original isOriginal
    exact ⟨before, fun absent => done (notMem_cons different absent)⟩

end Reset

/-- A timer outside the hands of `handler` is not one that its call has run. -/
theorem Paced.not_ran (paced : Paced queue) (sound : Sound queue) {call : HandlerCall}
    (isCall : call ∈ queue.phase.calls) {address : Nat}
    {timer : Timer} (found : queue.timers address = some timer)
    (absent : address ∉ queue.phase.expired.map TimerIndex.timer) : timer.serial ∉ call.ran := by
  intro ran
  obtain ⟨entry, inHand, other, foundOther, same, _⟩ := sound.in_hand isCall ran
  have here := paced.unique _ other _ timer foundOther found same
  exact absent (here ▸ List.mem_map_of_mem inHand)

theorem Paced.handlerReturns (paced : Paced queue) (sound : Sound queue) (running : queue.phase ≠ .idle)
    {clock : Timestamp} (returns : queue.handlerReturns clock = .ok next) : Paced next := by
  cases phase : queue.phase with
  | idle => exact absurd phase running
  | running call expired index =>
      have isCall : call ∈ queue.phase.calls := by simp [phase, Phase.calls]
      have held := sound.held
      simp only [phase, Phase.expired] at held
      have start : Pacing queue call expired queue := by
        refine ⟨rfl, rfl, ?_, fun address timer found => ⟨timer, found, rfl⟩, ?_⟩
        · exact fun entry inHand => paced.due entry (by rwa [phase]) call isCall
        · intro address timer found original isOriginal
          refine ⟨paced.ahead address timer found original isOriginal, fun absent ran => ?_⟩
          exact absurd ran (paced.not_ran sound isCall found (by rwa [phase]))
      obtain ⟨looped, loops, nextHeld, pacing⟩ := reset_run call.now (Pacing queue call) held start
        (fun _ _ _ _ held found repeats pacing => pacing.restarted held found repeats)
        (fun _ _ _ _ _ _ _ pacing => pacing.dropped)
      obtain ⟨constructed, returned, _, earlier, ahead⟩ := pacing
      have shape : next.timers = looped.timers ∧ next.constructed = looped.constructed ∧ next.phase = .idle ∧
          next.returned.map HandlerReturn.call = looped.returned.map HandlerReturn.call ++ [call] := by
        simp only [TimerQueue.handlerReturns, phase, reset, loops, Outcome.ok_bind, nextHeld.nextExpire] at returns
        cases returns
        split_ifs <;> simp [settime]
      obtain ⟨sameTimers, sameConstructed, idle, nextReturned⟩ := shape
      rw [returned] at nextReturned
      have whole : queue.calls = queue.returned.map HandlerReturn.call ++ [call] := by
        simp [TimerQueue.calls, phase, Phase.calls]
      refine ⟨?_, ?_, ?_, ?_⟩
      · rw [sameTimers]
        intro address timer place other found foundOther same
        obtain ⟨before, isBefore, serial⟩ := earlier address timer found
        obtain ⟨beforeOther, isBeforeOther, serialOther⟩ := earlier place other foundOther
        exact paced.unique address before place beforeOther isBefore isBeforeOther
          (serial.trans (same.trans serialOther.symm))
      · rw [sameTimers, sameConstructed, constructed, nextReturned]
        intro address timer found original isOriginal
        obtain ⟨⟨first, apart⟩, current⟩ := ahead address timer found original isOriginal
        refine ⟨first, fun time member => ?_⟩
        rw [readings_concat] at member
        cases List.mem_append.mp member with
        | inl before => exact apart time before
        | inr last =>
            split_ifs at last with ran
            · rw [List.mem_singleton.mp last]
              exact current (by simp) ran
            · cases last
      · rw [idle]
        exact fun entry inHand => absurd inHand List.not_mem_nil
      · rw [sameConstructed, constructed, nextReturned]
        intro serial original isOriginal
        rw [← whole]
        exact paced.calls sound isOriginal

private theorem perform_paced (sound : Sound queue) (paced : Paced queue) {event : Event}
    (enabled : event.Enabled queue) (performed : queue.perform event = .ok next) : Paced next := by
  cases event with
  | addTimer address when interval =>
      cases performed
      exact paced.addTimer sound
  | addTimerInLoop address clock =>
      obtain ⟨timer, other, _, added, _, shape, _⟩ := sound.held.addTimerInLoop clock enabled
      cases performed.symm.trans added
      subst shape
      exact paced.elsewhere rfl rfl rfl paced.due
  | handler now => exact paced.handler sound enabled.1 performed
  | runCallback => exact paced.runCallback sound enabled performed
  | handlerReturns clock => exact paced.handlerReturns sound enabled.1 performed

/-- In whatever order timers are added, and whatever the clock reads, back in
time included: no timer runs before the time it was made for, two calls of
`handler` that run a timer read times that are the whole microseconds of its
interval apart, and so its run number `n`, from 0, is not before the first one
can be and `n` times these. -/
theorem timers_keep_rate (events : List Event)
    (enabled : Along step (fun queue event => event.Enabled queue) new events) :
    ∃ final, run step new events = some final ∧ ∀ serial original, final.constructed[serial]? = some original →
      (readings final.calls serial).Pairwise (fun earlier later => addTime earlier original.interval ≤ later) ∧
      ∀ (index : Nat) time, (readings final.calls serial)[index]? = some time →
        original.expirationDate + index * original.interval.delta ≤ time := by
  have progress : ∀ (past : List Event) (queue : TimerQueue) (event : Event), Sound queue ∧ Paced queue →
      event.Enabled queue → ∃ next, step queue event = some next ∧ Sound next ∧ Paced next := by
    intro past queue event holds isEnabled
    obtain ⟨next, performed, nextSound⟩ := perform_sound holds.1 isEnabled
    exact ⟨next, Outcome.ite_toOption_eq_some_iff.mpr ⟨isEnabled, performed⟩, nextSound,
      perform_paced holds.1 holds.2 isEnabled performed⟩
  obtain ⟨final, ran, sound, paced⟩ := run_total (fun _ queue => Sound queue ∧ Paced queue)
    ⟨new_sound, new_paced⟩ progress enabled
  refine ⟨final, ran, fun serial original isOriginal => ?_⟩
  have spaced := paced.calls sound isOriginal
  exact ⟨spaced.apart, fun index time isTime => spaced.time_of isTime⟩

/-- A repeating timer over a clock that is set back. -/
theorem timers_keep_rate_set_back :
    let events : List Event := [.addTimer 8 100 (.ofMicroseconds 25), .addTimerInLoop 8 60, .handler 110,
      .runCallback, .handlerReturns 112, .handler 90, .handlerReturns 91, .handler 135, .runCallback,
      .handlerReturns 140]
    ∃ final, run step new events = some final ∧ readings final.calls 0 = [110, 135] ∧
      ∀ original, final.constructed[0]? = some original → (readings final.calls 0).Pairwise
        (fun earlier later => addTime earlier original.interval ≤ later) := by
  obtain ⟨final, ran, rate⟩ := timers_keep_rate [.addTimer 8 100 (.ofMicroseconds 25), .addTimerInLoop 8 60,
    .handler 110, .runCallback, .handlerReturns 112, .handler 90, .handlerReturns 91, .handler 135, .runCallback,
    .handlerReturns 140] (by decide +kernel)
  have reached : ((run step new [.addTimer 8 100 (.ofMicroseconds 25), .addTimerInLoop 8 60, .handler 110,
      .runCallback, .handlerReturns 112, .handler 90, .handlerReturns 91, .handler 135, .runCallback,
      .handlerReturns 140]).map fun final => readings final.calls 0) = some [110, 135] := by decide +kernel
  rw [ran] at reached
  exact ⟨final, ran, Option.some.inj reached, fun original isOriginal => (rate 0 original isOriginal).1⟩

end TimerQueue

end NutServer.Net
