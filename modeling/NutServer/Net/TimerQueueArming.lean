import NutServer.Net.TimerQueueConservation

/-! Outside `handler` the timerfd is armed for the earliest timer, and no call
of `timerfd_settime` disarms it. -/

set_option autoImplicit false

namespace NutServer.Net

open Library Base

/-- The setting is a normalised one for the microseconds from `clock` to
`expiration`, of which there are at least 100; the timerfd fires once. -/
structure Setting.Normal (setting : Setting) : Prop where
  seconds : 0 ≤ setting.newValue.it_value.tv_sec
  nanoseconds : 0 ≤ setting.newValue.it_value.tv_nsec ∧ setting.newValue.it_value.tv_nsec < 10 ^ 9
  exact : setting.newValue.it_value.tv_sec * 10 ^ 9 + setting.newValue.it_value.tv_nsec =
    max (setting.expiration - setting.clock) 100 * 1000
  once : setting.newValue.it_interval = ⟨0, 0⟩

private theorem split_microseconds {microseconds : Int} (nonneg : 0 ≤ microseconds) :
    0 ≤ microseconds.tdiv 1000000 ∧ 0 ≤ microseconds.tmod 1000000 ∧ microseconds.tmod 1000000 < 1000000 ∧
      microseconds.tdiv 1000000 * 1000000 + microseconds.tmod 1000000 = microseconds := by
  rw [Int.tdiv_eq_ediv_of_nonneg nonneg, Int.tmod_eq_emod_of_nonneg nonneg]
  omega

private theorem resetTimerfd_normal (expiration clock : Timestamp) : (resetTimerfd expiration clock).Normal := by
  have most : ∀ microseconds : Int, (if microseconds < 100 then 100 else microseconds) =
      max microseconds 100 := by
    intro microseconds
    split_ifs <;> omega
  have value : (resetTimerfd expiration clock).newValue.it_value =
      ⟨(max (expiration - clock) 100).tdiv 1000000, (max (expiration - clock) 100).tmod 1000000 * 1000⟩ := by
    simp only [resetTimerfd, howMuchTimeFromNow, most]
    rfl
  have floor : (0 : Int) ≤ max (expiration - clock) 100 := le_trans (by decide) (le_max_right _ _)
  obtain ⟨seconds, micros, below, exact⟩ := split_microseconds floor
  refine ⟨?_, ⟨?_, ?_⟩, ?_, rfl⟩ <;> rw [value]
  · exact seconds
  · exact Int.mul_nonneg micros (by decide)
  · exact (Int.mul_lt_mul_of_pos_right below (by decide)).trans_le (by decide)
  · calc _ = ((max (expiration - clock) 100).tdiv 1000000 * 1000000 +
          (max (expiration - clock) 100).tmod 1000000) * 1000 := by ring
      _ = max (expiration - clock) 100 * 1000 := by rw [exact]

private theorem Setting.Normal.arms {setting : Setting} (normal : setting.Normal) :
    setting.newValue.it_value ≠ ⟨0, 0⟩ := by
  intro zero
  have exact := normal.exact
  rw [zero] at exact
  have floor : (100 : Int) ≤ max (setting.expiration - setting.clock) 100 := le_max_right _ _
  have positive : (0 : Int) < max (setting.expiration - setting.clock) 100 * 1000 :=
    Int.mul_pos (lt_of_lt_of_le (by decide) floor) (by decide)
  exact positive.ne exact

namespace TimerQueue

def armed (queue : TimerQueue) : Option Timestamp := queue.settings.getLast?.map Setting.expiration

/-- Outside `handler` the timerfd is armed for the least entry. Inside, this is
so for an entry that `reset` would take for invalid. -/
structure Armed (queue : TimerQueue) : Prop where
  idle : queue.phase = .idle → ∀ first, queue.timerLists.first? = some first →
    queue.armed = some first.expiration
  overdue : ∀ first, queue.timerLists.first? = some first → first.expiration ≤ 0 →
    queue.armed = some first.expiration
  normal : ∀ setting ∈ queue.settings, setting.Normal

theorem new_armed : Armed new where
  idle := nofun
  overdue := nofun
  normal := nofun

variable {queue next : TimerQueue} {timerLists : SortedSet TimerIndex} {entry first : TimerIndex}

private theorem first?_insert_earliest (absent : entry ∉ timerLists.toList)
    (earliest : isEarliest timerLists entry.expiration = true) :
    (timerLists.insert entry).1.first? = some entry := by
  rw [SortedSet.first?_insert absent]
  unfold isEarliest at earliest
  cases isFirst : timerLists.first? with
  | none => rfl
  | some first =>
      rw [isFirst] at earliest
      have before : entry < first := TimerIndex.lt_iff.mpr (.inl (of_decide_eq_true earliest))
      simp [before.le]

/-- Any other entry leaves the least expiration as it is, though it may come
before the least entry by its address. -/
theorem first?_insert_later (absent : entry ∉ timerLists.toList)
    (later : isEarliest timerLists entry.expiration = false)
    (isFirst : (timerLists.insert entry).1.first? = some first) :
    ∃ before, timerLists.first? = some before ∧ first.expiration = before.expiration := by
  rw [SortedSet.first?_insert absent] at isFirst
  unfold isEarliest at later
  cases wasFirst : timerLists.first? with
  | none =>
      rw [wasFirst] at later
      cases later
  | some before =>
      rw [wasFirst] at isFirst later
      have notEarlier : before.expiration ≤ entry.expiration := not_lt.mp (of_decide_eq_false later)
      refine ⟨before, rfl, ?_⟩
      rcases min_choice entry before with isEntry | isBefore
      · have ordered := TimerIndex.expiration_le_of_le (min_eq_left_iff.mp isEntry)
        simp only [Option.elim_some, isEntry, Option.some.injEq] at isFirst
        rw [← isFirst]
        exact le_antisymm ordered notEarlier
      · simp only [Option.elim_some, isBefore, Option.some.injEq] at isFirst
        rw [isFirst]

private theorem first?_insert_valid (absent : entry ∉ timerLists.toList) (valid : 0 < entry.expiration)
    (isFirst : (timerLists.insert entry).1.first? = some first) (overdue : first.expiration ≤ 0) :
    timerLists.first? = some first := by
  rw [SortedSet.first?_insert absent] at isFirst
  cases wasFirst : timerLists.first? with
  | none =>
      simp only [wasFirst, Option.elim_none, Option.some.injEq] at isFirst
      rw [isFirst] at valid
      exact absurd valid (not_lt.mpr overdue)
  | some before =>
      simp only [wasFirst, Option.elim_some, Option.some.injEq] at isFirst
      rcases min_choice entry before with isEntry | isBefore
      · rw [← isEntry, isFirst] at valid
        exact absurd valid (not_lt.mpr overdue)
      · rw [← isBefore, isFirst]

private theorem armed_settings {settings : List Setting} {expiration clock : Timestamp}
    (isLast : queue.settings = settings ++ [resetTimerfd expiration clock]) :
    queue.armed = some expiration := by
  rw [armed, isLast, List.getLast?_concat]
  rfl

theorem Armed.addTimerInLoop (armed : Armed queue) (sound : Sound queue) {address : Nat}
    {clock : Timestamp} (waits : address ∈ queue.pending)
    (added : queue.addTimerInLoop address clock = .ok next) : Armed next := by
  obtain ⟨timer, other, _, addedOther, absent, shape, _⟩ := sound.held.addTimerInLoop clock waits
  cases added.symm.trans addedOther
  have phase : next.phase = queue.phase := by rw [shape]
  have set : next.timerLists = (queue.timerLists.insert ⟨timer.expirationDate, address⟩).1 := by rw [shape]
  have settings : next.settings = queue.settings ++
      if isEarliest queue.timerLists timer.expirationDate then
        [resetTimerfd timer.expirationDate clock] else [] := by rw [shape]
  cases earliest : isEarliest queue.timerLists timer.expirationDate with
  | true =>
      simp only [earliest, if_true] at settings
      have here : ∀ first, next.timerLists.first? = some first → next.armed = some first.expiration := by
        intro first isFirst
        rw [set, first?_insert_earliest absent earliest] at isFirst
        cases isFirst
        exact armed_settings settings
      refine ⟨fun _ => here, fun first isFirst _ => here first isFirst, fun setting member => ?_⟩
      rw [settings] at member
      rcases List.mem_append.mp member with before | last
      · exact armed.normal setting before
      · rw [List.mem_singleton.mp last]
        exact resetTimerfd_normal _ _
  | false =>
      simp only [earliest, Bool.false_eq_true, if_false, List.append_nil] at settings
      have same : next.armed = queue.armed := by rw [TimerQueue.armed, settings, ← TimerQueue.armed]
      refine ⟨fun idle first isFirst => ?_, fun first isFirst overdue => ?_, settings ▸ armed.normal⟩
      · obtain ⟨before, wasFirst, sameTime⟩ := first?_insert_later absent earliest (set ▸ isFirst)
        rw [same, sameTime]
        exact armed.idle (phase ▸ idle) before wasFirst
      · obtain ⟨before, wasFirst, sameTime⟩ := first?_insert_later absent earliest (set ▸ isFirst)
        rw [same, sameTime]
        exact armed.overdue before wasFirst (sameTime ▸ overdue)

/-- The loop of `reset` inserts timers for valid times only. -/
theorem reset_overdue {taken : List TimerIndex} {now : Timestamp} {looped : TimerQueue}
    (held : Held queue taken) (positive : 0 < now)
    (loops : taken.foldlM (resetOne now) queue = .ok looped)
    (isFirst : looped.timerLists.first? = some first) (overdue : first.expiration ≤ 0) :
    queue.timerLists.first? = some first := by
  obtain ⟨other, loopsOther, _, kept⟩ := reset_run now
    (fun _ state => ∀ first, state.timerLists.first? = some first →
      first.expiration ≤ 0 → queue.timerLists.first? = some first)
    held (fun _ isFirst _ => isFirst)
    (fun state entry rest timer held found repeats before first isFirst overdue => by
      refine before first ?_ overdue
      have valid : 0 < (timer.restart now).expirationDate := by
        rw [Timer.restart_expirationDate repeats]
        exact addTime_positive positive repeats
      exact first?_insert_valid (held.restarted now found repeats).2.1 valid isFirst overdue)
    (fun _ _ _ _ _ _ _ before => before)
  cases loops.symm.trans loopsOther
  exact kept first isFirst overdue

theorem Armed.handlerReturns (armed : Armed queue) (sound : Sound queue) (running : queue.phase ≠ .idle)
    (done : queue.phase.callbacks = 0) {clock : Timestamp}
    (returns : queue.handlerReturns clock = .ok next) : Armed next := by
  obtain ⟨call, expired, index, looped, other, phase, loops, returnsOther, _, _, set, settings⟩ :=
    sound.handlerReturns running done clock
  cases returns.symm.trans returnsOther
  have held := sound.held
  have calling := sound.calling
  simp only [phase, Phase.expired, Calling] at held calling
  have here : ∀ first, next.timerLists.first? = some first → next.armed = some first.expiration := by
    intro first isFirst
    rw [set] at isFirst
    rw [isFirst] at settings
    cases valid : Timestamp.valid first.expiration with
    | true =>
        simp only [rearmed, Option.map_some, Option.getD_some, valid, if_true] at settings
        exact armed_settings settings
    | false =>
        simp only [rearmed, Option.map_some, Option.getD_some, valid, Bool.false_eq_true, if_false,
          List.append_nil] at settings
        have overdue : first.expiration ≤ 0 := not_lt.mp (of_decide_eq_false valid)
        rw [TimerQueue.armed, settings]
        exact armed.overdue first (reset_overdue held calling.1 loops isFirst overdue) overdue
  refine ⟨fun _ => here, fun first isFirst _ => here first isFirst, fun setting member => ?_⟩
  rw [settings] at member
  rcases List.mem_append.mp member with before | last
  · exact armed.normal setting before
  · simp only [rearmed] at last
    split_ifs at last
    · rw [List.mem_singleton.mp last]
      exact resetTimerfd_normal _ _
    · cases last

theorem perform_armed (sound : Sound queue) (armed : Armed queue) {event : Event}
    (enabled : event.Enabled queue) (performed : queue.perform event = .ok next) : Armed next := by
  cases event with
  | addTimer address when interval =>
      cases performed
      exact ⟨armed.idle, armed.overdue, armed.normal⟩
  | addTimerInLoop address clock => exact armed.addTimerInLoop sound enabled performed
  | handler now =>
      obtain ⟨other, called, _, settings, busy, after⟩ := sound.handler enabled.1 enabled.2
      cases performed.symm.trans called
      refine ⟨fun idle => absurd idle busy, fun first isFirst overdue => ?_, settings ▸ armed.normal⟩
      have late := enabled.2.trans (after first (SortedSet.mem_of_first? isFirst))
      exact absurd late (not_lt.mpr overdue)
  | runCallback =>
      obtain ⟨other, called, _, settings, busy, set⟩ := sound.runCallback enabled
      cases performed.symm.trans called
      refine ⟨fun idle => absurd idle busy, ?_, settings ▸ armed.normal⟩
      rw [TimerQueue.armed, set, settings]
      exact armed.overdue
  | handlerReturns clock => exact armed.handlerReturns sound enabled.1 enabled.2 performed

/-- The last setting of the timerfd is for the least of the entries. -/
theorem Armed.setting (armed : Armed queue) (idle : queue.phase = .idle) (filled : queue.timerLists.toList ≠ []) :
    ∃ setting, queue.settings.getLast? = some setting ∧ setting.newValue.it_value ≠ ⟨0, 0⟩ ∧
      (∃ entry ∈ queue.timerLists.toList, entry.expiration = setting.expiration) ∧
      ∀ entry ∈ queue.timerLists.toList, setting.expiration ≤ entry.expiration := by
  obtain ⟨first, rest, whole⟩ := List.exists_cons_of_ne_nil filled
  have isFirst : queue.timerLists.first? = some first := by rw [SortedSet.first?, whole, List.head?_cons]
  obtain ⟨setting, isLast, same⟩ := Option.map_eq_some_iff.mp (armed.idle idle first isFirst)
  refine ⟨setting, isLast, (armed.normal setting (List.mem_of_getLast? isLast)).arms,
    ⟨first, SortedSet.mem_of_first? isFirst, same.symm⟩, fun entry member => ?_⟩
  exact same ▸ TimerIndex.expiration_le_of_le (SortedSet.first?_le isFirst member)

/-- In whatever order timers are added, for whatever times, and whatever the
clock reads: outside `handler` a set that is not empty has its least expiration
in the last call of `timerfd_settime`; and every such call has a normalised
value of at least 100 microseconds. -/
theorem timerfd_armed (events : List Event)
    (enabled : Along step (fun queue event => event.Enabled queue) new events) :
    ∃ final, run step new events = some final ∧
      (final.phase = .idle → final.timerLists.toList ≠ [] →
        ∃ setting, final.settings.getLast? = some setting ∧
          (∃ entry ∈ final.timerLists.toList, entry.expiration = setting.expiration) ∧
          ∀ entry ∈ final.timerLists.toList, setting.expiration ≤ entry.expiration) ∧
      ∀ setting ∈ final.settings, setting.Normal ∧ setting.newValue.it_value ≠ ⟨0, 0⟩ := by
  have progress : ∀ (past : List Event) (queue : TimerQueue) (event : Event), Sound queue ∧ Armed queue →
      event.Enabled queue → ∃ next, step queue event = some next ∧ Sound next ∧ Armed next := by
    rintro past queue event ⟨sound, armed⟩ isEnabled
    obtain ⟨next, performed, nextSound⟩ := perform_sound sound isEnabled
    exact ⟨next, Outcome.ite_toOption_eq_some_iff.mpr ⟨isEnabled, performed⟩, nextSound,
      perform_armed sound armed isEnabled performed⟩
  obtain ⟨final, ran, _, armed⟩ := run_total (fun _ queue => Sound queue ∧ Armed queue)
    ⟨new_sound, new_armed⟩ progress enabled
  refine ⟨final, ran, fun idle some => ?_, fun setting member =>
    ⟨armed.normal setting member, (armed.normal setting member).arms⟩⟩
  obtain ⟨setting, isLast, _, least⟩ := armed.setting idle some
  exact ⟨setting, isLast, least⟩

/-- A repeating timer is put back behind a timer that its callback added for a
time that `reset` takes for invalid. -/
theorem timerfd_armed_invalid :
    let events : List Event := [.addTimer 8 100 (.ofMicroseconds 25), .addTimerInLoop 8 60, .handler 100,
      .runCallback, .addTimer 24 (-5) (.ofMicroseconds 0), .addTimerInLoop 24 110, .handlerReturns 120]
    ∃ final, run step new events = some final ∧
      ∀ setting ∈ final.settings, setting.Normal ∧ setting.newValue.it_value ≠ ⟨0, 0⟩ := by
  obtain ⟨final, ran, _, normal⟩ := timerfd_armed [.addTimer 8 100 (.ofMicroseconds 25),
    .addTimerInLoop 8 60, .handler 100, .runCallback, .addTimer 24 (-5) (.ofMicroseconds 0),
    .addTimerInLoop 24 110, .handlerReturns 120] (by decide +kernel)
  exact ⟨final, ran, normal⟩

end TimerQueue

end NutServer.Net
