import NutServer.Base.LoggingStart
import NutServer.Library.Progress

/-!
# What the first messages find

The parts of the logger at each point of `once_init`, how far it still is from
its end, and what becomes of the threads that wait for it.
-/

set_option autoImplicit false

namespace NutServer.Base

open Library

namespace LoggingStart

variable {ι : Type} [DecidableEq ι]

/-- Behind `pthread_create`: the latch of `AsyncLogging` is closed until
`threadFunc` has been entered, which it is not before the id is stored. -/
structure Started (log : AsyncLogging) (thread : Thread) (latch : CountDownLatch) : Prop where
  sound : log.Sound
  worker : thread.Sound
  started : thread.started = true
  begun : log.backend ≠ .unstarted
  closed : log.backend = .entered → latch = ⟨1⟩
  opened : log.backend ≠ .entered → latch = ⟨0⟩ ∧ thread.runner = .running

/-- Where the parts are at each point of `once_init`. -/
inductive Stage : Point → Option AsyncLogging → Thread → CountDownLatch → Prop where
  | untouched : Stage .untouched none .new ⟨1⟩
  | constructing : Stage .constructing none .new ⟨1⟩
  | storing : Stage .storing (some .new) .new ⟨1⟩
  | creating : Stage .creating (some { AsyncLogging.new with running := true }) .new ⟨1⟩
  | failed : Stage .awaitingLatch (some { AsyncLogging.new with running := true }) .new ⟨1⟩
  | awaitingTid {log thread latch} (started : Started log thread latch) : Stage .awaitingTid (some log) thread latch
  | awaitingLatch {log thread latch} (started : Started log thread latch) (running : thread.runner = .running) :
      Stage .awaitingLatch (some log) thread latch
  | returned {log thread latch} (started : Started log thread latch) (entered : log.backend ≠ .entered) :
      Stage .returned (some log) thread latch

structure Sound (start : LoggingStart ι) : Prop where
  stage : Stage start.point start.asyncLogging start.thread start.latch
  past : ∀ thread message, start.callers thread = .past message → start.point = .returned
  short : ∀ thread message, start.callers thread = .atOnce message ∨ start.callers thread = .past message →
    message.length < SmallBuffer

variable {start next : LoggingStart ι} {log : AsyncLogging} {thread : Thread} {latch : CountDownLatch}

omit [DecidableEq ι] in
theorem new_sound : (new : LoggingStart ι).Sound where
  stage := .untouched
  past thread message isPast := by cases isPast
  short thread message waits := by rcases waits with waits | waits <;> cases waits

private theorem isOpen_iff_running (sound : thread.Sound) : thread.latch.IsOpen ↔ thread.runner = .running := by
  cases sound with
  | absent | created | announced positive => exact iff_of_false (not_not_intro one_pos) Runner.noConfusion
  | running positive => exact iff_of_true (lt_irrefl 0) rfl

private theorem Started.isOpen_iff (started : Started log thread latch) : latch.IsOpen ↔ log.backend ≠ .entered := by
  by_cases entered : log.backend = .entered
  · rw [started.closed entered]
    exact iff_of_false (not_not_intro one_pos) (not_not_intro entered)
  · rw [(started.opened entered).1]
    exact iff_of_true (lt_irrefl 0) entered

/-- The thread that `pthread_create` makes. -/
theorem created_started : Started { AsyncLogging.new with running := true, backend := .entered }
    { Thread.new with started := true, runner := .created } ⟨1⟩ where
  sound := ⟨nofun, fun _ same => Option.some.inj same ▸ rfl, List.not_mem_nil, rfl⟩
  worker := .created
  started := rfl
  begun := AsyncLogging.Backend.noConfusion
  closed _ := rfl
  opened other := absurd rfl other

omit [DecidableEq ι] in
private theorem initialise_awaitingTid (awaits : start.point = .awaitingTid) (sound : start.thread.Sound)
    (running : start.thread.runner = .running) (created : Bool) :
    start.initialise created = .ok { start with point := .awaitingLatch } := by
  obtain ⟨_, asyncLogging, thread, latch, callers⟩ := start
  cases awaits
  have positive : thread.checkTid = .ok () := by
    cases sound with
    | absent | created | announced positive => cases running
    | running positive => exact assert_of positive
  simp only [initialise, positive, Outcome.ok_bind]
  rfl

omit [DecidableEq ι] in
private theorem initialise_sound (sound : start.Sound) (ready : start.canInitialise = true) (created : Bool) :
    ∃ next, start.initialise created = .ok next ∧ next.Sound ∧ next.stream = start.stream := by
  obtain ⟨point, asyncLogging, thread, latch, callers⟩ := start
  obtain ⟨stage, past, short⟩ := sound
  have unpassed : point ≠ .returned → ∀ thread message, callers thread ≠ .past message :=
    fun other thread message isPast => other (past thread message isPast)
  cases stage with
  | untouched => cases ready
  | constructing =>
      exact ⟨_, rfl, ⟨.storing, fun thread message isPast => absurd isPast (unpassed nofun _ _), short⟩, rfl⟩
  | storing =>
      exact ⟨_, rfl, ⟨.creating, fun thread message isPast => absurd isPast (unpassed nofun _ _), short⟩, rfl⟩
  | creating =>
      cases created with
      | true =>
          exact ⟨_, rfl, ⟨.awaitingTid created_started,
            fun thread message isPast => absurd isPast (unpassed nofun _ _), short⟩, rfl⟩
      | false =>
          exact ⟨_, rfl, ⟨.failed, fun thread message isPast => absurd isPast (unpassed nofun _ _), short⟩, rfl⟩
  | failed => cases ready
  | awaitingTid started =>
      have running := (isOpen_iff_running started.worker).mp (of_decide_eq_true ready)
      exact ⟨_, initialise_awaitingTid rfl started.worker running created,
        ⟨.awaitingLatch started running, fun thread message isPast => absurd isPast (unpassed nofun _ _), short⟩, rfl⟩
  | awaitingLatch started running =>
      have entered := started.isOpen_iff.mp (of_decide_eq_true ready)
      exact ⟨_, rfl, ⟨.returned started entered, fun _ _ _ => rfl, short⟩, rfl⟩
  | returned => cases ready

/-- `threadFunc` is entered once. -/
theorem threadFunc_backend {later : AsyncLogging} (stepped : log.threadFunc = .ok later)
    (begun : log.backend ≠ .unstarted) : later.backend ≠ .unstarted ∧ later.backend ≠ .entered := by
  cases AsyncLogging.threadFunc_cases stepped with
  | rests resting => rcases resting with backend | backend | backend <;> simp_all
  | enters | locks | leaves | waits | writes | recycles => exact ⟨nofun, nofun⟩
  | swaps =>
      unfold AsyncLogging.replaceSpare
      split_ifs <;> exact ⟨nofun, nofun⟩

def runnerLeft : Runner → Nat
  | .absent | .running => 0
  | .created => 2
  | .announced => 1

/-- The steps that the new thread still takes before `once_init` is free of it. -/
def threadLeft (log : AsyncLogging) (thread : Thread) : Nat :=
  runnerLeft thread.runner + if log.backend = .entered then 1 else 0

/-- A step of the new thread. -/
structure Runs (start next : LoggingStart ι) (log later : AsyncLogging) : Prop where
  point : next.point = start.point
  callers : next.callers = start.callers
  asyncLogging : next.asyncLogging = some later
  started : Started later next.thread next.latch
  running : start.thread.runner = .running → next.thread.runner = .running
  entered : log.backend ≠ .entered → later.backend ≠ .entered
  stream : later.stream = log.stream
  nearer : start.thread.runner ≠ .running ∨ log.backend = .entered →
    threadLeft later next.thread < threadLeft log start.thread

omit [DecidableEq ι] in
private theorem runThread_runs {tid : Int} (asyncLogging : start.asyncLogging = some log)
    (started : Started log start.thread start.latch) (positive : 0 < tid) :
    ∃ next later, start.runThread tid = .ok next ∧ Runs start next log later := by
  obtain ⟨point, _, thread, latch, callers⟩ := start
  cases asyncLogging
  obtain ⟨sound, worker, isStarted, begun, closed, opened⟩ := started
  cases worker with
  | absent => cases isStarted
  | @created former =>
      have entered : log.backend = .entered := by
        by_contra other
        cases (opened other).2
      let announced : Thread := ⟨true, tid, ⟨1⟩, .announced⟩
      have stored : (⟨true, former, ⟨1⟩, .created⟩ : Thread).perform (.setTid tid) = some (announced, false) :=
        if_pos ⟨rfl, positive⟩
      refine ⟨⟨point, some log, announced, latch, callers⟩, log, ?_, rfl, rfl, rfl,
        ⟨sound, .announced positive, rfl, begun, closed, fun other => absurd entered other⟩, nofun, id, rfl,
        fun _ => Nat.add_lt_add_right one_lt_two _⟩
      simp only [runThread, stored, demand_some, Outcome.ok_bind]
      rfl
  | announced isPositive =>
      have entered : log.backend = .entered := by
        by_contra other
        cases (opened other).2
      exact ⟨_, log, rfl, rfl, rfl, rfl,
        ⟨sound, .running isPositive, rfl, begun, closed, fun other => absurd entered other⟩, nofun, id, rfl,
        fun _ => Nat.add_lt_add_right one_pos _⟩
  | running isPositive =>
      obtain ⟨later, stepped, laterSound, shown⟩ := AsyncLogging.threadFunc_spec sound
      obtain ⟨laterBegun, laterEntered⟩ := threadFunc_backend stepped begun
      by_cases entered : log.backend = .entered
      · have isLatch := closed entered
        subst isLatch
        refine ⟨⟨point, some later, _, ⟨0⟩, callers⟩, later, ?_, rfl, rfl, rfl, ⟨laterSound, .running isPositive, rfl,
          laterBegun, fun again => absurd again laterEntered, fun _ => ⟨rfl, rfl⟩⟩, id, fun _ => laterEntered, shown,
          fun _ => ?_⟩
        · simp only [runThread, demand_some, Outcome.ok_bind, stepped, if_pos entered]
          rfl
        · rw [threadLeft, threadLeft, if_neg laterEntered, if_pos entered]
          exact Nat.lt_succ_self _
      · refine ⟨⟨point, some later, _, latch, callers⟩, later, ?_, rfl, rfl, rfl,
          ⟨laterSound, .running isPositive, rfl, laterBegun, fun again => absurd again laterEntered,
            fun _ => opened entered⟩, id, fun _ => laterEntered, shown,
          fun unfinished => absurd (unfinished.resolve_left (not_not_intro rfl)) entered⟩
        simp only [runThread, demand_some, Outcome.ok_bind, stepped, if_neg entered]
        rfl

omit [DecidableEq ι] in
theorem Runs.sound {later : AsyncLogging} (runs : Runs start next log later) (sound : start.Sound)
    (asyncLogging : start.asyncLogging = some log) (stage : Stage start.point (some later) next.thread next.latch) :
    next.Sound ∧ next.stream = start.stream := by
  refine ⟨⟨?_, ?_, ?_⟩, ?_⟩
  · rw [runs.point, runs.asyncLogging]
    exact stage
  · rw [runs.callers, runs.point]
    exact sound.past
  · rw [runs.callers]
    exact sound.short
  · rw [LoggingStart.stream, LoggingStart.stream, runs.asyncLogging, asyncLogging]
    exact runs.stream

omit [DecidableEq ι] in
private theorem runThread_sound (sound : start.Sound) {tid : Int} (positive : 0 < tid) (busy : start.threadRests = false) :
    ∃ next, start.runThread tid = .ok next ∧ next.Sound ∧ next.stream = start.stream := by
  have whole := sound
  obtain ⟨point, asyncLogging, thread, latch, callers⟩ := start
  obtain ⟨stage, past, short⟩ := sound
  cases stage with
  | untouched | constructing | storing | creating | failed => cases busy
  | awaitingTid started =>
      obtain ⟨next, later, ran, runs⟩ := runThread_runs rfl started positive
      exact ⟨next, ran, runs.sound whole rfl (.awaitingTid runs.started)⟩
  | awaitingLatch started running =>
      obtain ⟨next, later, ran, runs⟩ := runThread_runs rfl started positive
      exact ⟨next, ran, runs.sound whole rfl (.awaitingLatch runs.started (runs.running running))⟩
  | returned started entered =>
      obtain ⟨next, later, ran, runs⟩ := runThread_runs rfl started positive
      exact ⟨next, ran, runs.sound whole rfl (.returned runs.started (runs.entered entered))⟩

omit [DecidableEq ι] in
theorem Sound.started (sound : start.Sound) (asyncLogging : start.asyncLogging = some log)
    (begun : log.backend ≠ .unstarted) : Started log start.thread start.latch := by
  obtain ⟨point, _, thread, latch, callers⟩ := start
  cases asyncLogging
  cases sound.stage with
  | storing | creating | failed => exact absurd rfl begun
  | awaitingTid started | awaitingLatch started | returned started => exact started

/-- A step of the log outside its thread, which at most wakes it. -/
theorem Started.logged {later : AsyncLogging} (started : Started log thread latch) (sound : later.Sound)
    (backend : later.backend = log.backend ∨ (log.backend = .waiting ∧ later.backend = .locking)) :
    Started later thread latch ∧ (log.backend ≠ .entered → later.backend ≠ .entered) := by
  rcases backend with same | woken
  · refine ⟨⟨sound, started.worker, started.started, ?_, ?_, ?_⟩, ?_⟩ <;> rw [same]
    · exact started.begun
    · exact started.closed
    · exact started.opened
    · exact id
  · obtain ⟨waiting, locking⟩ := woken
    have entered : log.backend ≠ .entered := by
      rw [waiting]
      exact nofun
    refine ⟨⟨sound, started.worker, started.started, ?_, ?_, ?_⟩, ?_⟩ <;> rw [locking]
    · exact nofun
    · exact nofun
    · exact fun _ => started.opened entered
    · exact fun _ => nofun

omit [DecidableEq ι] in
theorem Sound.logged (sound : start.Sound) {later : AsyncLogging} (asyncLogging : start.asyncLogging = some log)
    (begun : log.backend ≠ .unstarted) (laterSound : later.Sound)
    (backend : later.backend = log.backend ∨ (log.backend = .waiting ∧ later.backend = .locking)) :
    ({ start with asyncLogging := some later } : LoggingStart ι).Sound := by
  refine ⟨?_, sound.past, sound.short⟩
  obtain ⟨point, _, thread, latch, callers⟩ := start
  cases asyncLogging
  cases sound.stage with
  | storing | creating | failed => exact absurd rfl begun
  | awaitingTid started => exact .awaitingTid (started.logged laterSound backend).1
  | awaitingLatch started running => exact .awaitingLatch (started.logged laterSound backend).1 running
  | returned started entered =>
      obtain ⟨kept, stays⟩ := started.logged laterSound backend
      exact .returned kept (stays entered)

/-- A caller goes where the point of `once_init` allows. -/
theorem Sound.moved (sound : start.Sound) (caller : ι) {moved : Caller}
    (past : ∀ message, moved = .past message → start.point = .returned)
    (short : ∀ message, moved = .atOnce message ∨ moved = .past message → message.length < SmallBuffer) :
    ({ start with callers := Function.update start.callers caller moved } : LoggingStart ι).Sound where
  stage := sound.stage
  past thread message isPast := by
    simp only [Function.update_apply] at isPast
    split_ifs at isPast
    · exact past message isPast
    · exact sound.past thread message isPast
  short thread message waits := by
    simp only [Function.update_apply] at waits
    split_ifs at waits
    · exact short message waits
    · exact sound.short thread message waits

private theorem once_sound (sound : start.Sound) {caller : ι} (enabled : (Event.once caller).Enabled start) :
    ∃ next, start.perform (.once caller) = .ok next ∧ next.Sound ∧ next.stream = start.stream := by
  obtain ⟨waits, reached⟩ := enabled
  by_cases untouched : start.point = .untouched
  · refine ⟨{ start with point := .constructing }, if_pos untouched, ⟨?_, ?_, sound.short⟩, rfl⟩
    · obtain ⟨point, asyncLogging, thread, latch, callers⟩ := start
      cases untouched
      cases sound.stage with
      | untouched => exact .constructing
    · intro thread message isPast
      cases untouched.symm.trans (sound.past thread message isPast)
  · have returned := reached.resolve_left untouched
    refine ⟨_, if_neg untouched, sound.moved caller (fun _ _ => returned) ?_, rfl⟩
    intro message passed
    cases here : start.callers caller with
    | outside | past other =>
        rw [here] at waits
        cases waits
    | atOnce other =>
        rw [here] at passed
        rcases passed with passed | passed
        · cases passed
        · cases passed
          exact sound.short caller message (.inl here)

omit [DecidableEq ι] in
/-- Who is past `pthread_once` finds the log and its thread at work. -/
theorem Sound.served (sound : start.Sound) {caller : ι} {message : Bytes}
    (isPast : start.callers caller = .past message) : start.point = .returned ∧
      ∃ log, start.asyncLogging = some log ∧ Started log start.thread start.latch ∧ log.backend ≠ .entered := by
  have returned := sound.past caller message isPast
  have stage := sound.stage
  rw [returned] at stage
  cases asyncLogging : start.asyncLogging with
  | none =>
      rw [asyncLogging] at stage
      cases stage
  | some log =>
      rw [asyncLogging] at stage
      cases stage with
      | returned started entered => exact ⟨returned, log, rfl, started, entered⟩

private theorem append_sound (sound : start.Sound) {caller : ι} {message : Bytes}
    (isPast : start.callers caller = .past message) :
    ∃ next, start.append caller message = .ok next ∧ next.Sound ∧ next.stream = start.stream ++ message := by
  obtain ⟨-, log, asyncLogging, started, -⟩ := sound.served isPast
  obtain ⟨later, appended, laterSound, shown⟩ :=
    AsyncLogging.append_spec started.sound (sound.short caller message (.inr isPast))
  obtain ⟨-, -, -, -, backend⟩ := AsyncLogging.append_frame appended
  have logged := sound.logged asyncLogging started.begun laterSound backend
  have silent : ∀ other, Caller.outside = .atOnce other ∨ Caller.outside = .past other →
      other.length < SmallBuffer := by
    intro other same
    rcases same with same | same <;> cases same
  have unpassed : ∀ other, Caller.outside = .past other → start.point = .returned := nofun
  refine ⟨_, ?_, logged.moved caller unpassed silent, ?_⟩
  · rw [append, asyncLogging, demand_some, Outcome.ok_bind, appended]
    rfl
  · rw [stream, stream, asyncLogging]
    exact shown

theorem perform_sound (sound : start.Sound) {event : Event ι} (enabled : event.Enabled start) :
    ∃ next, start.perform event = .ok next ∧ next.Sound ∧ next.stream = start.stream ++ event.message := by
  have unchanged : ∀ {next : LoggingStart ι}, next.Sound ∧ next.stream = start.stream →
      next.Sound ∧ next.stream = start.stream ++ [] :=
    fun both => ⟨both.1, both.2.trans (List.append_nil _).symm⟩
  cases event with
  | call caller message =>
      refine ⟨_, rfl, unchanged ⟨sound.moved caller (fun _ same => by cases same) ?_, rfl⟩⟩
      intro other waits
      rcases waits with waits | waits
      · cases waits
        exact enabled.2
      · cases waits
  | once caller =>
      obtain ⟨next, performed, both⟩ := once_sound sound enabled
      exact ⟨next, performed, unchanged both⟩
  | initialise created =>
      obtain ⟨next, performed, both⟩ := initialise_sound sound enabled created
      exact ⟨next, performed, unchanged both⟩
  | runThread tid =>
      obtain ⟨next, performed, both⟩ := runThread_sound sound enabled.1 enabled.2
      exact ⟨next, performed, unchanged both⟩
  | spuriousWakeup =>
      obtain ⟨log, asyncLogging, isWaiting⟩ := (Option.any_eq_true _ _).mp enabled
      have waiting : log.backend = .waiting := of_decide_eq_true isWaiting
      have begun : log.backend ≠ .unstarted := by
        rw [waiting]
        exact nofun
      have started := sound.started asyncLogging begun
      have sleeps : AsyncLogging.Event.spuriousWakeup.Enabled log := waiting
      obtain ⟨later, performed, laterSound, shown⟩ := AsyncLogging.perform_spec started.sound sleeps trivial
      have logged := sound.logged asyncLogging begun laterSound (.inr ⟨waiting, by cases performed; rfl⟩)
      refine ⟨_, ?_, unchanged ⟨logged, ?_⟩⟩
      · rw [perform, asyncLogging, demand_some, Outcome.ok_bind, performed]
        rfl
      · rw [stream, stream, asyncLogging]
        exact shown.trans (List.append_nil _)
  | append caller message =>
      obtain ⟨next, performed, both⟩ := append_sound sound enabled
      exact ⟨next, performed, both⟩

/-- `pthread_create` has failed, and `AsyncLogging::start()` waits all the same. -/
def Failed (start : LoggingStart ι) : Prop := start.point = .awaitingLatch ∧ start.thread.started = false

def pointLeft : Point → Nat
  | .untouched => 9
  | .constructing => 8
  | .storing => 7
  | .creating => 6
  | .awaitingTid => 2
  | .awaitingLatch => 1
  | .returned => 0

/-- The steps until `once_init` returns. -/
def left (start : LoggingStart ι) : Nat :=
  pointLeft start.point + start.asyncLogging.elim 0 fun log => threadLeft log start.thread

/-- What a caller, `once_init` and the new thread do until the caller is past. -/
inductive Helps (caller : ι) : Event ι → Prop where
  | once : Helps caller (.once caller)
  | initialise : Helps caller (.initialise true)
  | runThread : Helps caller (.runThread 1)

theorem step_of_perform {event : Event ι} (enabled : event.Enabled start) (performed : start.perform event = .ok next) :
    step start event = some next := by
  rw [step, if_pos enabled, performed]
  rfl

private theorem step_sound {event : Event ι} (sound : start.Sound) (stepped : step start event = some next) :
    event.Enabled start ∧ next.Sound ∧ next.stream = start.stream ++ event.message := by
  obtain ⟨enabled, performed⟩ := Option.ite_none_right_eq_some.mp stepped
  obtain ⟨other, performs, both⟩ := perform_sound sound enabled
  rw [performs] at performed
  cases performed
  exact ⟨enabled, both⟩

theorem Started.present (started : Started log thread latch) : thread.runner ≠ .absent := by
  have isStarted := started.started
  cases started.worker with
  | absent => cases isStarted
  | created | announced positive | running positive => exact Runner.noConfusion

omit [DecidableEq ι] in
private theorem threadRests_of_unfinished (asyncLogging : start.asyncLogging = some log)
    (started : Started log start.thread start.latch)
    (unfinished : start.thread.runner ≠ .running ∨ log.backend = .entered) : start.threadRests = false := by
  unfold threadRests
  cases runner : start.thread.runner with
  | absent => exact absurd runner started.present
  | created | announced => rfl
  | running =>
      have entered := unfinished.resolve_left (not_not_intro runner)
      simp [asyncLogging, AsyncLogging.Event.Enabled, entered]

/-- A step towards the end of `once_init`. -/
structure Nearer (caller : ι) (start : LoggingStart ι) (event : Event ι) (next : LoggingStart ι) : Prop where
  helps : Helps caller event
  stepped : step start event = some next
  callers : next.callers = start.callers
  intact : ¬ next.Failed
  left : next.left < start.left

private theorem runThread_nearer (caller : ι) (asyncLogging : start.asyncLogging = some log)
    (started : Started log start.thread start.latch)
    (unfinished : start.thread.runner ≠ .running ∨ log.backend = .entered) :
    ∃ event next, Nearer caller start event next := by
  obtain ⟨next, later, ran, runs⟩ := runThread_runs asyncLogging started one_pos
  have busy := threadRests_of_unfinished asyncLogging started unfinished
  refine ⟨.runThread 1, next, .runThread, step_of_perform ⟨one_pos, busy⟩ ran, runs.callers, ?_, ?_⟩
  · rintro ⟨-, unstarted⟩
    rw [runs.started.started] at unstarted
    cases unstarted
  · rw [left, left, runs.point, runs.asyncLogging, asyncLogging]
    exact Nat.add_lt_add_left (runs.nearer unfinished) _

/-- Until `once_init` has returned, the caller that makes it run, it itself or
the new thread can go on. -/
theorem exists_nearer {caller : ι} {message : Bytes} (sound : start.Sound)
    (waits : start.callers caller = .atOnce message) (intact : ¬ start.Failed) (unreturned : start.point ≠ .returned) :
    ∃ event next, Nearer caller start event next := by
  obtain ⟨point, asyncLogging, thread, latch, callers⟩ := start
  have stage := sound.stage
  cases stage with
  | untouched =>
      have enabled : (Event.once caller).Enabled ⟨.untouched, none, .new, ⟨1⟩, callers⟩ :=
        ⟨congrArg Caller.isAtOnce waits, .inl rfl⟩
      exact ⟨_, _, .once, step_of_perform enabled rfl, rfl, nofun, Nat.lt_add_one 8⟩
  | constructing =>
      exact ⟨_, _, .initialise, step_of_perform rfl rfl, rfl, nofun, Nat.lt_add_one 7⟩
  | storing =>
      exact ⟨_, _, .initialise, step_of_perform rfl rfl, rfl, nofun, Nat.lt_add_one 6⟩
  | creating =>
      exact ⟨_, _, .initialise, step_of_perform rfl rfl, rfl, nofun, Nat.lt_add_one 5⟩
  | failed => exact absurd ⟨rfl, rfl⟩ intact
  | awaitingTid started =>
      rename_i log
      by_cases running : thread.runner = .running
      · have enabled : (Event.initialise true : Event ι).Enabled ⟨.awaitingTid, some log, thread, latch, callers⟩ :=
          decide_eq_true ((isOpen_iff_running started.worker).mpr running)
        have checked := initialise_awaitingTid rfl started.worker running true
        refine ⟨_, _, .initialise, step_of_perform enabled checked, rfl, ?_, Nat.add_lt_add_right one_lt_two _⟩
        exact fun failed => Bool.noConfusion (started.started.symm.trans failed.2)
      · exact runThread_nearer caller rfl started (.inl running)
  | awaitingLatch started running =>
      rename_i log
      by_cases entered : log.backend = .entered
      · exact runThread_nearer caller rfl started (.inr entered)
      · have enabled : (Event.initialise true : Event ι).Enabled ⟨.awaitingLatch, some log, thread, latch, callers⟩ :=
          decide_eq_true (started.isOpen_iff.mpr entered)
        exact ⟨_, _, .initialise, step_of_perform enabled rfl, rfl, nofun, Nat.add_lt_add_right one_pos _⟩
  | returned => exact absurd rfl unreturned

omit [DecidableEq ι] in
theorem Helps.silent {caller : ι} {event : Event ι} (helps : Helps caller event) : event.message = [] := by
  cases helps <;> rfl

/-- A caller gets past `pthread_once` with its message. -/
theorem exists_append {caller : ι} {message : Bytes} (sound : start.Sound)
    (waits : start.callers caller = .atOnce message) (intact : ¬ start.Failed) :
    ∃ more later, (∀ event ∈ more, Helps caller event) ∧ more.length ≤ start.left + 1 ∧
      run step start (more ++ [.append caller message]) = some later ∧ later.stream = start.stream ++ message := by
  obtain ⟨most, returned, help, short, ran, ⟨returnedSound, _, here, shown⟩, isReturned⟩ :=
    exists_run_of_progress
      (fun state => state.Sound ∧ ¬ state.Failed ∧ state.callers caller = .atOnce message ∧ state.stream = start.stream)
      (fun state => state.point = .returned) (Helps caller) left (fun state kept unreturned => by
        obtain ⟨stateSound, whole, waits, shown⟩ := kept
        obtain ⟨event, next, nearer⟩ := exists_nearer stateSound waits whole unreturned
        obtain ⟨-, nextSound, streamed⟩ := step_sound stateSound nearer.stepped
        rw [nearer.helps.silent, List.append_nil] at streamed
        exact ⟨event, next, nearer.helps, nearer.stepped,
          ⟨nextSound, nearer.intact, (congrFun nearer.callers caller).trans waits, streamed.trans shown⟩, nearer.left⟩)
      start ⟨sound, intact, waits, rfl⟩
  have touched : returned.point ≠ .untouched := by
    rw [isReturned]
    exact nofun
  have admitted : (Event.once caller).Enabled returned := ⟨congrArg Caller.isAtOnce here, .inr isReturned⟩
  obtain ⟨past, performed, pastSound, pastStream⟩ := perform_sound returnedSound admitted
  have isPast : past.callers caller = .past message := by
    rw [perform, if_neg touched, here] at performed
    cases performed
    exact Function.update_self _ _ _
  obtain ⟨later, appended, -, laterStream⟩ := append_sound pastSound isPast
  have entitled : (Event.append caller message).Enabled past := isPast
  refine ⟨most ++ [.once caller], later, ?_, ?_, ?_, ?_⟩
  · intro event member
    rcases List.mem_append.mp member with member | member
    · exact help event member
    · exact List.mem_singleton.mp member ▸ .once
  · rw [List.length_append, List.length_singleton]
    exact Nat.add_le_add_right short 1
  · rw [List.append_assoc, run_append, ran, Option.bind_some, List.singleton_append, run_cons,
      step_of_perform admitted performed, Option.bind_some, run_cons, step_of_perform entitled appended]
    rfl
  · rw [laterStream, pastStream, shown]
    exact congrArg (· ++ message) (List.append_nil _)

omit [DecidableEq ι] in
private theorem left_le (sound : start.Sound) : start.left ≤ 9 := by
  obtain ⟨point, asyncLogging, thread, latch, callers⟩ := start
  have bound : ∀ log former, threadLeft log former ≤ 3 := by
    intro log former
    have runner : runnerLeft former.runner ≤ 2 := by cases former.runner <;> decide
    unfold threadLeft
    split_ifs <;> omega
  have stage := sound.stage
  unfold left
  cases stage with
  | untouched | constructing | storing | creating | failed => exact Nat.le_of_ble_eq_true rfl
  | awaitingTid | awaitingLatch | returned =>
      refine (Nat.add_le_add_left (bound _ thread) _).trans ?_
      exact Nat.le_of_ble_eq_true rfl

/-- Without a thread nothing opens the latch. -/
theorem Failed.stays {event : Event ι} (failed : start.Failed) (sound : start.Sound)
    (stepped : step start event = some next) : next.Failed := by
  obtain ⟨enabled, performed⟩ := Option.ite_none_right_eq_some.mp stepped
  obtain ⟨point, asyncLogging, thread, latch, callers⟩ := start
  obtain ⟨awaits, unstarted⟩ := failed
  cases awaits
  have stage := sound.stage
  cases stage with
  | awaitingLatch started running => exact absurd (started.started.symm.trans unstarted) Bool.noConfusion
  | failed =>
      cases event with
      | call caller message =>
          cases performed
          exact ⟨rfl, rfl⟩
      | once caller => rcases enabled.2 with reached | reached <;> cases reached
      | initialise created => cases enabled
      | runThread tid => cases enabled.2
      | spuriousWakeup => cases enabled
      | append caller message => cases sound.past caller message enabled

/-- Threads that log while nothing has been logged yet: no assertion fails and
nobody appends to a logger that is not there. Who is past `pthread_once` finds the
thread in `threadFunc`. Who waits there has its message in the log after at most
ten more steps, if these are the right ones, and its append behind them; unless
`pthread_create` has failed: then nobody ever gets past. -/
theorem output_starts (events : List (Event ι))
    (enabled : Along step (fun start event => event.Enabled start) new events) :
    ∃ final, run step new events = some final ∧ final.stream = events.flatMap Event.message ∧
      (∀ caller message, final.callers caller = .past message →
        final.point = .returned ∧ final.thread.runner = .running ∧ final.latch.IsOpen) ∧
      (¬ final.Failed → ∀ caller message, final.callers caller = .atOnce message →
        ∃ more later, (∀ event ∈ more, Helps caller event) ∧ more.length ≤ 10 ∧
          run step final (more ++ [.append caller message]) = some later ∧ later.stream = final.stream ++ message) ∧
      (final.Failed → ∀ more later, run step final more = some later →
        later.Failed ∧ ∀ caller message, later.callers caller ≠ .past message) := by
  obtain ⟨final, ran, sound, shown⟩ := run_total
    (fun past state => state.Sound ∧ state.stream = past.flatMap Event.message) ⟨new_sound, rfl⟩
    (fun past state event kept isEnabled => by
      obtain ⟨next, performed, nextSound, shown⟩ := perform_sound kept.1 isEnabled
      refine ⟨next, step_of_perform isEnabled performed, nextSound, ?_⟩
      rw [shown, kept.2, List.flatMap_append, List.flatMap_singleton]) enabled
  refine ⟨final, ran, shown, ?_, ?_, ?_⟩
  · intro caller message isPast
    obtain ⟨returned, log, -, started, entered⟩ := sound.served isPast
    exact ⟨returned, (started.opened entered).2, started.isOpen_iff.mpr entered⟩
  · intro intact caller message waits
    obtain ⟨more, later, help, short, ranMore, streamed⟩ := exists_append sound waits intact
    exact ⟨more, later, help, short.trans (Nat.add_le_add_right (left_le sound) 1), ranMore, streamed⟩
  · intro failed more later ranMore
    obtain ⟨laterSound, laterFailed⟩ := run_preserves (fun state => state.Sound ∧ state.Failed) ⟨sound, failed⟩
      (fun state event next kept stepped => ⟨(step_sound kept.1 stepped).2.1, kept.2.stays kept.1 stepped⟩) ranMore
    refine ⟨laterFailed, fun caller message isPast => ?_⟩
    cases laterFailed.1.symm.trans (laterSound.past caller message isPast)

/-- Two threads at once, of which the second is the first to append. -/
theorem output_starts_two :
    ∃ final, run step (new : LoggingStart Nat) [.call 0 [97], .call 1 [98], .once 1, .initialise true, .initialise true,
        .initialise true, .runThread 7, .runThread 7, .initialise true, .runThread 7, .initialise true, .once 1,
        .append 1 [98], .once 0] = some final ∧ final.stream = [98] := by
  obtain ⟨final, ran, shown, -⟩ := output_starts [.call 0 [97], .call 1 [98], .once 1, .initialise true,
    .initialise true, .initialise true, .runThread 7, .runThread 7, .initialise true, .runThread 7, .initialise true,
    .once 1, .append 1 [98], .once 0] (by decide +kernel)
  exact ⟨final, ran, shown⟩

end LoggingStart

end NutServer.Base
