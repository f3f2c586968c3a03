import NutServer.Net.TimerQueue

/-! What each step of the timer queue does to the timers: every timer that has
been constructed is waiting for its insertion, in the set, in the hands of
`handler` or deleted, and it is so at one place only. -/

set_option autoImplicit false

namespace NutServer.Net

open Library Base

namespace TimerQueue

/-- The numbers of the timers at some addresses. -/
def serials (timers : Nat → Option Timer) (addresses : List Nat) : List Nat :=
  addresses.filterMap fun address => (timers address).map Timer.serial

/-- The pointers that the queue holds while `taken` is in the hands of `handler`. -/
def addresses (queue : TimerQueue) (taken : List TimerIndex) : List Nat :=
  queue.pending ++ (queue.timerLists.toList ++ taken).map TimerIndex.timer

/-- Every timer is at one place, and every entry has the key of its timer. -/
structure Held (queue : TimerQueue) (taken : List TimerIndex) : Prop where
  keyed : ∀ entry ∈ queue.timerLists.toList ++ taken, ∃ timer,
    queue.timers entry.timer = some timer ∧ timer.expirationDate = entry.expiration
  waiting : ∀ address ∈ queue.pending, ∃ timer, queue.timers address = some timer
  distinct : (queue.addresses taken).Nodup
  bounded : ∀ address timer, queue.timers address = some timer → address < UINTPTR_MAX
  known : ∀ address timer, queue.timers address = some timer → ∃ original,
    queue.constructed[timer.serial]? = some original ∧ original.interval = timer.interval
  conserved : (serials queue.timers (queue.addresses taken) ++ queue.deleted).Perm
    (List.range queue.constructed.length)

theorem new_held : Held new [] where
  keyed := by simp [new, SortedSet.empty]
  waiting := by simp [new]
  distinct := List.nodup_nil
  bounded := nofun
  known := nofun
  conserved := .refl _

section Pointers

variable {timers : Nat → Option Timer} {entries : List TimerIndex} {address : Nat} {timer : Timer}

theorem deref_of (queue : TimerQueue) (found : queue.timers address = some timer) :
    queue.deref address = .ok timer := by
  rw [deref, found]
  rfl

theorem serials_append {first second : List Nat} :
    serials timers (first ++ second) = serials timers first ++ serials timers second :=
  List.filterMap_append

theorem serials_cons {rest : List Nat} (found : timers address = some timer) :
    serials timers (address :: rest) = timer.serial :: serials timers rest := by
  simp [serials, found]

theorem serials_update {addresses : List Nat} {value : Option Timer} (other : address ∉ addresses) :
    serials (Function.update timers address value) addresses = serials timers addresses := by
  refine List.filterMap_congr fun place member => ?_
  have different : place ≠ address := by
    rintro rfl
    exact other member
  rw [Function.update_of_ne different]

theorem contents_serials :
    (contents timers entries).map Prod.snd = serials timers (entries.map TimerIndex.timer) := by
  rw [contents, serials, List.map_filterMap, List.filterMap_map]
  refine List.filterMap_congr fun entry _ => ?_
  simp [Function.comp_def]

theorem mem_contents {expiration : Timestamp} {serial : Nat} :
    (expiration, serial) ∈ contents timers entries ↔ ∃ entry ∈ entries, entry.expiration = expiration ∧
      ∃ timer, timers entry.timer = some timer ∧ timer.serial = serial := by
  simp only [contents, List.mem_filterMap, Option.map_eq_some_iff, Prod.mk.injEq]
  constructor
  · rintro ⟨entry, member, timer, found, key, number⟩
    exact ⟨entry, member, key, timer, found, number⟩
  · rintro ⟨entry, member, key, timer, found, number⟩
    exact ⟨entry, member, timer, found, key, number⟩

/-- A timer that is in a list once is all that is found under its number. -/
theorem filter_serial {pairs : List (Timestamp × Nat)} {expiration : Timestamp} {serial : Nat}
    (distinct : (pairs.map Prod.snd).Nodup) (member : (expiration, serial) ∈ pairs) :
    pairs.filter (fun pair => pair.2 = serial) = [(expiration, serial)] := by
  induction pairs with
  | nil => cases member
  | cons pair rest ih =>
      obtain ⟨absent, distinctRest⟩ := List.nodup_cons.mp distinct
      rcases List.mem_cons.mp member with rfl | later
      · rw [List.filter_cons_of_pos (by simp), List.filter_eq_nil_iff.mpr]
        intro other inside
        have different : other.2 ≠ serial := by
          rintro rfl
          exact absent (List.mem_map.mpr ⟨other, inside, rfl⟩)
        simpa using different
      · have different : pair.2 ≠ serial := by
          rintro rfl
          exact absent (List.mem_map.mpr ⟨_, later, rfl⟩)
        rw [List.filter_cons_of_neg (by simpa using different)]
        exact ih distinctRest later

end Pointers

variable {queue next : TimerQueue} {taken : List TimerIndex}

theorem Held.live (held : Held queue taken) {address : Nat} (member : address ∈ queue.addresses taken) :
    ∃ timer, queue.timers address = some timer := by
  rcases List.mem_append.mp member with waits | inside
  · exact held.waiting address waits
  · obtain ⟨entry, isEntry, rfl⟩ := List.mem_map.mp inside
    obtain ⟨timer, found, _⟩ := held.keyed entry isEntry
    exact ⟨timer, found⟩

/-- Pointers that move from one place to another leave every timer at one place. -/
theorem Held.move (held : Held queue taken) {left : List TimerIndex} (timers : next.timers = queue.timers)
    (constructed : next.constructed = queue.constructed) (deleted : next.deleted = queue.deleted)
    (moved : (next.addresses left).Perm (queue.addresses taken))
    (keyed : ∀ entry ∈ next.timerLists.toList ++ left, ∃ timer,
      queue.timers entry.timer = some timer ∧ timer.expirationDate = entry.expiration) :
    Held next left where
  keyed := by rwa [timers]
  waiting := fun address waits => by
    rw [timers]
    exact held.live (moved.mem_iff.mp (List.mem_append_left _ waits))
  distinct := moved.nodup_iff.mpr held.distinct
  bounded := by
    rw [timers]
    exact held.bounded
  known := by
    rw [timers, constructed]
    exact held.known
  conserved := by
    rw [timers, constructed, deleted]
    exact ((moved.filterMap _).append_right _).trans held.conserved

theorem Held.addTimer (held : Held queue taken) {address : Nat} {when : Timestamp} {interval : Seconds}
    (fresh : queue.timers address = none) (bounded : address < UINTPTR_MAX) :
    Held (queue.addTimer address when interval) taken := by
  have other : address ∉ queue.addresses taken := fun member => by
    obtain ⟨timer, found⟩ := held.live member
    rw [fresh] at found
    cases found
  have moved : ((queue.addTimer address when interval).addresses taken).Perm
      (address :: queue.addresses taken) := by
    simp only [addresses, TimerQueue.addTimer, List.append_assoc, List.singleton_append]
    exact List.perm_middle
  have keeps : ∀ {place : Nat} {timer : Timer}, queue.timers place = some timer →
      (queue.addTimer address when interval).timers place = some timer := by
    intro place timer found
    have different : place ≠ address := by
      rintro rfl
      rw [fresh] at found
      cases found
    simpa [TimerQueue.addTimer, different] using found
  refine ⟨?_, ?_, ?_, ?_, ?_, ?_⟩
  · intro entry member
    obtain ⟨timer, found, key⟩ := held.keyed entry member
    exact ⟨timer, keeps found, key⟩
  · intro place member
    rcases List.mem_append.mp member with waits | last
    · obtain ⟨timer, found⟩ := held.waiting place waits
      exact ⟨timer, keeps found⟩
    · rw [List.mem_singleton.mp last]
      exact ⟨_, Function.update_self ..⟩
  · exact moved.nodup_iff.mpr (List.nodup_cons.mpr ⟨other, held.distinct⟩)
  · intro place timer found
    by_cases same : place = address
    · rwa [same]
    · exact held.bounded place timer (by simpa [TimerQueue.addTimer, same] using found)
  · intro place timer found
    by_cases same : place = address
    · subst same
      simp only [TimerQueue.addTimer, Function.update_self, Option.some.injEq] at found
      subst found
      exact ⟨_, List.getElem?_concat_length, rfl⟩
    · obtain ⟨original, isOriginal, interval⟩ := held.known place timer
        (by simpa [TimerQueue.addTimer, same] using found)
      exact ⟨original, (List.getElem?_append_left (List.getElem?_eq_some_iff.mp isOriginal).1).trans
        isOriginal, interval⟩
  · refine ((moved.filterMap _).append_right _).trans ?_
    have here : (queue.addTimer address when interval).timers address =
      some { expirationDate := when, interval, serial := queue.constructed.length } :=
      Function.update_self ..
    change (serials (queue.addTimer address when interval).timers (address :: queue.addresses taken) ++ _).Perm _
    rw [serials_cons here]
    simp only [TimerQueue.addTimer, serials_update other, List.length_append, List.length_singleton,
      List.range_succ]
    exact (held.conserved.cons _).trans (List.perm_append_singleton _ _).symm

theorem insert_spec (queue : TimerQueue) {address : Nat} {timer : Timer}
    (found : queue.timers address = some timer)
    (absent : address ∉ queue.timerLists.toList.map TimerIndex.timer) :
    queue.insert address =
      .ok ({ queue with timerLists := (queue.timerLists.insert ⟨timer.expirationDate, address⟩).1 },
        isEarliest queue.timerLists timer.expirationDate) := by
  have notMember : (⟨timer.expirationDate, address⟩ : TimerIndex) ∉ queue.timerLists.toList :=
    fun member => absent (List.mem_map_of_mem member)
  simp only [insert, deref_of _ found, Outcome.ok_bind, assert_of (SortedSet.insert_snd notMember)]
  rfl

theorem Held.addTimerInLoop (held : Held queue taken) {address : Nat} (clock : Timestamp)
    (waits : address ∈ queue.pending) :
    ∃ timer next, queue.timers address = some timer ∧ queue.addTimerInLoop address clock = .ok next ∧
      (⟨timer.expirationDate, address⟩ : TimerIndex) ∉ queue.timerLists.toList ∧
      next = { queue with
        pending := queue.pending.erase address
        timerLists := (queue.timerLists.insert ⟨timer.expirationDate, address⟩).1
        settings := queue.settings ++ if isEarliest queue.timerLists timer.expirationDate then
          [resetTimerfd timer.expirationDate clock] else [] } ∧
      Held next taken := by
  obtain ⟨timer, found⟩ := held.waiting address waits
  have absent : address ∉ queue.timerLists.toList.map TimerIndex.timer := fun member =>
    (List.nodup_append.mp held.distinct).2.2 address waits address (by simp [member]) rfl
  have notMember : (⟨timer.expirationDate, address⟩ : TimerIndex) ∉ queue.timerLists.toList :=
    fun member => absent (List.mem_map_of_mem member)
  have inserted := SortedSet.insert_perm notMember
  refine ⟨timer, _, found, ?_, notMember, rfl, held.move rfl rfl rfl ?_ ?_⟩
  · simp only [TimerQueue.addTimerInLoop, insert_spec { queue with
      pending := queue.pending.erase address } found absent, Outcome.ok_bind]
    split_ifs
    · have stillFound := deref_of { queue with
        pending := queue.pending.erase address
        timerLists := (queue.timerLists.insert ⟨timer.expirationDate, address⟩).1 } found
      rw [stillFound]
      rfl
    · rw [List.append_nil]
      rfl
  · have set : ((queue.timerLists.insert ⟨timer.expirationDate, address⟩).1.toList ++ taken).Perm
        (⟨timer.expirationDate, address⟩ :: (queue.timerLists.toList ++ taken)) := inserted.append_right _
    calc List.Perm (queue.pending.erase address ++ _)
          (queue.pending.erase address ++
            address :: (queue.timerLists.toList ++ taken).map TimerIndex.timer) :=
          (set.map TimerIndex.timer).append_left _
      List.Perm _ (address :: queue.pending.erase address ++
          (queue.timerLists.toList ++ taken).map TimerIndex.timer) := List.perm_middle
      List.Perm _ (queue.addresses taken) := (List.perm_cons_erase waits).symm.append_right _
  · intro entry member
    rcases List.mem_append.mp member with inSet | inHand
    · rcases List.mem_cons.mp (inserted.mem_iff.mp inSet) with rfl | before
      · exact ⟨timer, found, rfl⟩
      · exact held.keyed entry (List.mem_append_left _ before)
    · exact held.keyed entry (List.mem_append_right _ inHand)

variable {entry : TimerIndex} {rest : List TimerIndex} {timer : Timer} {now : Timestamp}

private theorem addresses_cons (queue : TimerQueue) (entry : TimerIndex) (rest : List TimerIndex) :
    (queue.addresses (entry :: rest)).Perm (entry.timer :: queue.addresses rest) := by
  rw [addresses, addresses, List.map_append, List.map_append, List.map_cons, ← List.append_assoc,
    ← List.append_assoc]
  exact List.perm_middle

theorem Held.apart (held : Held queue (entry :: rest)) : entry.timer ∉ queue.addresses rest :=
  (List.nodup_cons.mp ((addresses_cons ..).nodup_iff.mp held.distinct)).1

/-- The timer of an entry in the hands of `handler` gets another expiration, and
the entry with it. -/
theorem Held.rekey (held : Held queue (entry :: rest)) (found : queue.timers entry.timer = some timer)
    (changed : Timer) (serial : changed.serial = timer.serial) (interval : changed.interval = timer.interval) :
    Held { queue with timers := Function.update queue.timers entry.timer (some changed) }
      (⟨changed.expirationDate, entry.timer⟩ :: rest) := by
  have elsewhere : ∀ {address : Nat}, address ∈ queue.addresses rest →
      Function.update queue.timers entry.timer (some changed) address = queue.timers address :=
    fun member => Function.update_of_ne (ne_of_mem_of_not_mem member held.apart) _ _
  refine ⟨?_, ?_, ?_, ?_, ?_, ?_⟩
  · intro other member
    rcases List.perm_middle.mem_iff.mp member with _ | ⟨_, before⟩
    · exact ⟨changed, Function.update_self .., rfl⟩
    · obtain ⟨previous, isPrevious, key⟩ := held.keyed other
        (List.perm_middle.mem_iff.mpr (List.mem_cons_of_mem _ before))
      exact ⟨previous,
        (elsewhere (List.mem_append_right _ (List.mem_map_of_mem before))).trans isPrevious, key⟩
  · intro address waits
    obtain ⟨previous, isPrevious⟩ := held.waiting address waits
    exact ⟨previous, (elsewhere (List.mem_append_left _ waits)).trans isPrevious⟩
  · have distinct := (addresses_cons ..).nodup_iff.mp held.distinct
    exact (addresses_cons ..).nodup_iff.mpr distinct
  · intro address other isOther
    by_cases same : address = entry.timer
    · exact same ▸ held.bounded _ _ found
    · exact held.bounded address other (by simpa [same] using isOther)
  · intro address other isOther
    by_cases same : address = entry.timer
    · simp only [same, Function.update_self, Option.some.injEq] at isOther
      subst isOther
      rw [serial, interval]
      exact held.known _ _ found
    · exact held.known address other (by simpa [same] using isOther)
  · have same : serials (Function.update queue.timers entry.timer (some changed))
        (entry.timer :: queue.addresses rest) = serials queue.timers (entry.timer :: queue.addresses rest) := by
      rw [serials_cons (Function.update_self ..), serials_cons found, serials_update held.apart, serial]
    have perm := (addresses_cons queue entry rest).filterMap
      fun address => (queue.timers address).map Timer.serial
    refine List.Perm.trans (List.Perm.append_right _ ?_) held.conserved
    refine ((addresses_cons ..).filterMap _).trans (List.Perm.trans ?_ perm.symm)
    exact .of_eq same

def restarted (queue : TimerQueue) (entry : TimerIndex) (timer : Timer) (now : Timestamp) : TimerQueue :=
  { queue with
    timers := Function.update queue.timers entry.timer (some (timer.restart now))
    timerLists := (queue.timerLists.insert ⟨(timer.restart now).expirationDate, entry.timer⟩).1 }

def dropped (queue : TimerQueue) (entry : TimerIndex) (timer : Timer) : TimerQueue :=
  { queue with
    timers := Function.update queue.timers entry.timer none
    deleted := queue.deleted ++ [timer.serial] }

theorem Held.restarted (held : Held queue (entry :: rest)) (now : Timestamp)
    (found : queue.timers entry.timer = some timer)
    (repeats : timer.isRepeat = true) :
    resetOne now queue entry = .ok (queue.restarted entry timer now) ∧
      (⟨(timer.restart now).expirationDate, entry.timer⟩ : TimerIndex) ∉ queue.timerLists.toList ∧
      Held (queue.restarted entry timer now) rest := by
  have absent : entry.timer ∉ queue.timerLists.toList.map TimerIndex.timer := fun member =>
    held.apart (by simp [addresses, member])
  have notMember : (⟨(timer.restart now).expirationDate, entry.timer⟩ : TimerIndex) ∉ queue.timerLists.toList :=
    fun member => absent (List.mem_map.mpr ⟨_, member, rfl⟩)
  have inserted := SortedSet.insert_perm notMember
  have moved : ((queue.timerLists.insert ⟨(timer.restart now).expirationDate, entry.timer⟩).1.toList ++
      rest).Perm (queue.timerLists.toList ++ ⟨(timer.restart now).expirationDate, entry.timer⟩ :: rest) :=
    (inserted.append_right rest).trans List.perm_middle.symm
  have rekeyed := held.rekey found (timer.restart now) Timer.restart_serial Timer.restart_interval
  refine ⟨?_, notMember, rekeyed.move rfl rfl rfl ((moved.map _).append_left _) ?_⟩
  · simp only [resetOne, deref_of _ found, Outcome.ok_bind, repeats, if_true]
    rw [insert_spec { queue with
      timers := Function.update queue.timers entry.timer (some (timer.restart now)) }
      (Function.update_self ..) absent]
    rfl
  · exact fun other member => rekeyed.keyed other (moved.mem_iff.mp member)

theorem Held.dropped (held : Held queue (entry :: rest)) (now : Timestamp)
    (found : queue.timers entry.timer = some timer)
    (once : timer.isRepeat = false) :
    resetOne now queue entry = .ok (queue.dropped entry timer) ∧ Held (queue.dropped entry timer) rest := by
  have elsewhere : ∀ {address : Nat}, address ∈ queue.addresses rest →
      Function.update queue.timers entry.timer none address = queue.timers address :=
    fun member => Function.update_of_ne (ne_of_mem_of_not_mem member held.apart) _ _
  have remains : ∀ {address : Nat} {other : Timer},
      Function.update queue.timers entry.timer none address = some other →
      queue.timers address = some other := by
    intro address other isOther
    by_cases same : address = entry.timer
    · simp [same] at isOther
    · simpa [same] using isOther
  refine ⟨?_, ?_, ?_, ?_, ?_, ?_, ?_⟩
  · simp only [resetOne, deref_of _ found, Outcome.ok_bind, once]
    rfl
  · intro other member
    obtain ⟨previous, isPrevious, key⟩ := held.keyed other
      (List.perm_middle.mem_iff.mpr (List.mem_cons_of_mem _ member))
    exact ⟨previous, (elsewhere (List.mem_append_right _ (List.mem_map_of_mem member))).trans isPrevious, key⟩
  · intro address waits
    obtain ⟨previous, isPrevious⟩ := held.waiting address waits
    exact ⟨previous, (elsewhere (List.mem_append_left _ waits)).trans isPrevious⟩
  · exact (List.nodup_cons.mp ((addresses_cons ..).nodup_iff.mp held.distinct)).2
  · exact fun address other isOther => held.bounded address other (remains isOther)
  · exact fun address other isOther => held.known address other (remains isOther)
  · have before := (addresses_cons queue entry rest).filterMap
      fun address => (queue.timers address).map Timer.serial
    have same : serials (queue.dropped entry timer).timers ((queue.dropped entry timer).addresses rest) =
        serials queue.timers (queue.addresses rest) := serials_update held.apart
    rw [same]
    refine List.Perm.trans ?_ ((before.symm.append_right _).trans held.conserved)
    change (_ ++ (queue.deleted ++ [timer.serial])).Perm
      (serials queue.timers (entry.timer :: queue.addresses rest) ++ queue.deleted)
    rw [serials_cons found, ← List.append_assoc]
    exact List.perm_append_singleton _ _

/-- What holds before the loop of `reset`, and is kept by its two branches, holds
after it. The invariant sees the entries that are still to come. -/
theorem reset_run (now : Timestamp) (invariant : List TimerIndex → TimerQueue → Prop) {expired : List TimerIndex}
    (held : Held queue expired) (start : invariant expired queue)
    (restarts : ∀ queue entry rest timer, Held queue (entry :: rest) → queue.timers entry.timer = some timer →
      timer.isRepeat = true → invariant (entry :: rest) queue → invariant rest (queue.restarted entry timer now))
    (drops : ∀ queue entry rest timer, Held queue (entry :: rest) → queue.timers entry.timer = some timer →
      timer.isRepeat = false → invariant (entry :: rest) queue → invariant rest (queue.dropped entry timer)) :
    ∃ next, expired.foldlM (resetOne now) queue = .ok next ∧ Held next [] ∧ invariant [] next := by
  induction expired generalizing queue with
  | nil => exact ⟨queue, rfl, held, start⟩
  | cons entry rest ih =>
      obtain ⟨timer, found⟩ := held.live ((addresses_cons ..).mem_iff.mpr List.mem_cons_self)
      cases repeats : timer.isRepeat with
      | true =>
          obtain ⟨stepped, _, kept⟩ := held.restarted now found repeats
          obtain ⟨next, ran, finished⟩ := ih kept (restarts queue entry rest timer held found repeats start)
          exact ⟨next, by rw [List.foldlM_cons, stepped, Outcome.ok_bind, ran], finished⟩
      | false =>
          obtain ⟨stepped, kept⟩ := held.dropped now found repeats
          obtain ⟨next, ran, finished⟩ := ih kept (drops queue entry rest timer held found repeats start)
          exact ⟨next, by rw [List.foldlM_cons, stepped, Outcome.ok_bind, ran], finished⟩

end TimerQueue

end NutServer.Net
