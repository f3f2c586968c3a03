import NutServer.Net.PollerRemovalProperties

/-! After any number of additions, updates and removals a poll reports each
channel with events once. -/

set_option autoImplicit false

namespace NutServer.Net

open Library

namespace Poller

variable {κ : Type} {poller : Poller κ} {channels : κ → Channel} {pointer : κ} {pfd : PollFd}

/-- The channel that an entry makes active. -/
def reportOf (poller : Poller κ) (pfd : PollFd) : Option κ :=
  if 0 < pfd.revents.toInt then find poller.channels pfd.fd else none

/-- The array and the map belong together. -/
structure Consistent (poller : Poller κ) (channels : κ → Channel) : Prop where
  size : poller.pollfds.length = poller.channels.size
  indexed : ∀ fd pointer, poller.channels[fd]? = some pointer → (channels pointer).fd = fd ∧
    ∃ (slot : Nat) (pfd : PollFd), (channels pointer).index = slot ∧ poller.pollfds[slot]? = some pfd ∧
      (pfd.fd = fd ∨ pfd.fd = -(fd : Int) - 1)
  apart : ∀ (fd other : Nat) first second, poller.channels[fd]? = some first → poller.channels[other]? = some second →
    first ≠ second → (channels first).index ≠ (channels second).index

/-- The listed channels whose entries have positive `revents` are active, each
once and with its own. -/
structure Reports (poller : Poller κ) (channels later : κ → Channel) (active : List κ) : Prop where
  once : active.Nodup
  mem_iff : ∀ pointer, pointer ∈ active ↔ ∃ pfd, poller.channels[(channels pointer).fd]? = some pointer ∧
    poller.entryOf (channels pointer) = some pfd ∧ 0 < pfd.revents.toInt
  revents : ∀ pointer ∈ active, ∀ pfd, poller.entryOf (channels pointer) = some pfd →
    later pointer = { channels pointer with revents := pfd.revents.signExtend 32 }
  others : ∀ pointer, pointer ∉ active → later pointer = channels pointer

variable [DecidableEq κ]

private theorem fillFrom_zero (entries : List PollFd) (before : List κ) :
    poller.fillFrom entries 0 channels before = .ok (channels, before) := by
  cases entries <;> rfl

private theorem fillFrom_quiet {rest : List PollFd} (numEvents : Nat) {before : List κ} (quiet : ¬ 0 < pfd.revents.toInt) :
    poller.fillFrom (pfd :: rest) numEvents channels before = poller.fillFrom rest numEvents channels before := by
  by_cases none : numEvents = 0
  · rw [none, fillFrom_zero, fillFrom_zero]
  · rw [fillFrom, if_pos (Nat.pos_of_ne_zero none), if_neg quiet]

/-- Where `numEvents` counts at least the entries with positive `revents`, the
loop does not stop before the last of them. -/
theorem fillFrom_spec {entries : List PollFd} {numEvents : Nat} (before : List κ)
    (known : ∀ pfd ∈ entries, 0 < pfd.revents.toInt →
      ∃ pointer, find poller.channels pfd.fd = some pointer ∧ ((channels pointer).fd : Int) = pfd.fd)
    (enough : (entries.countP fun pfd => 0 < pfd.revents.toInt) ≤ numEvents)
    (distinct : entries.Pairwise fun first second => first.fd ≠ second.fd) :
    ∃ later, poller.fillFrom entries numEvents channels before =
        .ok (later, before ++ entries.filterMap poller.reportOf) ∧
      (∀ other, other ∉ entries.filterMap poller.reportOf → later other = channels other) ∧
      ∀ pfd ∈ entries, ∀ pointer, poller.reportOf pfd = some pointer →
        later pointer = { channels pointer with revents := pfd.revents.signExtend 32 } := by
  induction entries generalizing numEvents channels before with
  | nil => exact ⟨channels, by simp [fillFrom]; rfl, fun _ _ => rfl, by simp⟩
  | cons pfd rest ih =>
      have knownRest := fun other member => known other (List.mem_cons_of_mem pfd member)
      obtain ⟨fresh, distinctRest⟩ := List.pairwise_cons.mp distinct
      by_cases happened : 0 < pfd.revents.toInt
      · obtain ⟨pointer, found, itsFd⟩ := known pfd List.mem_cons_self happened
        let stored : Channel := { channels pointer with revents := pfd.revents.signExtend 32 }
        have sameFd : ∀ owner, (Function.update channels pointer stored owner).fd = (channels owner).fd :=
          update_field Channel.fd rfl
        have active : poller.reportOf pfd = some pointer := by rw [reportOf, if_pos happened, found]
        rw [List.countP_cons_of_pos (by simpa using happened)] at enough
        have knownStored : ∀ other ∈ rest, 0 < other.revents.toInt → ∃ owner,
            find poller.channels other.fd = some owner ∧
              ((Function.update channels pointer stored owner).fd : Int) = other.fd := by
          intro other member positive
          obtain ⟨owner, ownerFound, ownerFd⟩ := knownRest other member positive
          exact ⟨owner, ownerFound, by rw [sameFd, ownerFd]⟩
        obtain ⟨later, filled, others, own⟩ :=
          ih (before ++ [pointer]) knownStored (Nat.le_sub_of_add_le enough) distinctRest
        -- No later entry is this channel's.
        have absent : pointer ∉ rest.filterMap poller.reportOf := by
          intro again
          obtain ⟨other, member, reported⟩ := List.mem_filterMap.mp again
          unfold reportOf at reported
          split_ifs at reported with positive
          obtain ⟨owner, ownerFound, ownerFd⟩ := knownRest other member positive
          cases ownerFound.symm.trans reported
          exact fresh other member (itsFd.symm.trans ownerFd)
        refine ⟨later, ?_, ?_, ?_⟩
        · rw [fillFrom, if_pos (by omega), if_pos happened, found, demand_some, Outcome.ok_bind, assert_of itsFd,
            Outcome.ok_bind, filled, List.filterMap_cons_some active, List.append_assoc, List.singleton_append]
        · intro other notActive
          rw [List.filterMap_cons_some active, List.mem_cons, not_or] at notActive
          rw [others other notActive.2, Function.update_of_ne notActive.1]
        · intro entry member owner reported
          cases List.mem_cons.mp member with
          | inl isFirst =>
              subst isFirst
              cases active.symm.trans reported
              rw [others pointer absent, Function.update_self]
          | inr inRest =>
              rw [own entry inRest owner reported]
              by_cases same : owner = pointer
              · rw [same, Function.update_self]
              · rw [Function.update_of_ne same]
      · have silent : poller.reportOf pfd = none := if_neg happened
        rw [List.countP_cons_of_neg (by simpa using happened)] at enough
        obtain ⟨later, filled, others, own⟩ := ih before knownRest enough distinctRest
        refine ⟨later, ?_, ?_, ?_⟩
        · rw [fillFrom_quiet numEvents happened, List.filterMap_cons_none silent, filled]
        · rw [List.filterMap_cons_none silent]
          exact others
        · intro entry member owner reported
          cases List.mem_cons.mp member with
          | inl isFirst =>
              rw [isFirst, silent] at reported
              cases reported
          | inr inRest => exact own entry inRest owner reported

private theorem InStep.consistent (inStep : poller.InStep channels) : poller.Consistent channels where
  size := inStep.size
  indexed fd pointer found := by
    obtain ⟨itsFd, index⟩ := inStep.listed fd pointer found
    rw [← itsFd] at found
    obtain ⟨pfd, entry, owned⟩ := inStep.dense.cell pointer _ (placeOf_of_mapped found)
    refine ⟨itsFd, _, pfd, (Int.toNat_of_nonneg index).symm, entry, ?_⟩
    rw [← itsFd]
    exact owned
  apart fd other first second firstFound secondFound different sameIndex := by
    rw [← (inStep.listed fd first firstFound).1] at firstFound
    rw [← (inStep.listed other second secondFound).1] at secondFound
    have secondPlace := placeOf_of_mapped secondFound
    rw [← sameIndex] at secondPlace
    exact different (inStep.dense.apart first second _ (placeOf_of_mapped firstFound) secondPlace)

private theorem InStep.owner_of_mem (inStep : poller.InStep channels) (member : pfd ∈ poller.pollfds) :
    ∃ owner, poller.channels[(channels owner).fd]? = some owner ∧ poller.entryOf (channels owner) = some pfd := by
  obtain ⟨slot, inside, found⟩ := List.mem_iff_getElem.mp member
  obtain ⟨owner, place⟩ := inStep.dense.owner slot inside
  obtain ⟨mapped, atSlot⟩ := placeOf_eq_some_iff.mp place
  have index := (inStep.listed _ owner mapped).2
  exact ⟨owner, mapped, by rw [entryOf, if_neg (by omega), atSlot, List.getElem?_eq_getElem inside, found]⟩

/-- An entry with events has not been switched off. -/
theorem InStep.find_of_entry (inStep : poller.InStep channels)
    (mapped : poller.channels[(channels pointer).fd]? = some pointer)
    (entry : poller.entryOf (channels pointer) = some pfd) (positive : 0 < pfd.revents.toInt) :
    find poller.channels pfd.fd = some pointer ∧ ((channels pointer).fd : Int) = pfd.fd := by
  have index := (inStep.listed _ pointer mapped).2
  rw [entryOf, if_neg (by omega)] at entry
  have itsFd := fd_of_owns (inStep.dense.owns_of_getElem? (placeOf_of_mapped mapped) entry)
  have watched : ¬ pfd.fd < 0 := by
    intro negative
    rw [inStep.idle pfd (List.mem_of_getElem? entry) negative] at positive
    exact absurd positive (by decide)
  rw [if_neg watched] at itsFd
  exact ⟨by rw [itsFd, find_natCast, mapped], itsFd.symm⟩

private theorem InStep.reportOf_iff (inStep : poller.InStep channels) (member : pfd ∈ poller.pollfds) :
    poller.reportOf pfd = some pointer ↔ poller.channels[(channels pointer).fd]? = some pointer ∧
      poller.entryOf (channels pointer) = some pfd ∧ 0 < pfd.revents.toInt := by
  constructor
  · intro reported
    unfold reportOf at reported
    split_ifs at reported with positive
    obtain ⟨owner, mapped, entry⟩ := inStep.owner_of_mem member
    cases (inStep.find_of_entry mapped entry positive).1.symm.trans reported
    exact ⟨mapped, entry, positive⟩
  · intro all
    obtain ⟨mapped, entry, positive⟩ := all
    rw [reportOf, if_pos positive, (inStep.find_of_entry mapped entry positive).1]

private theorem InStep.countP_le_numEvents (inStep : poller.InStep channels) :
    (poller.pollfds.countP fun pfd => 0 < pfd.revents.toInt) ≤ poller.numEvents := by
  refine List.countP_mono_left fun pfd member happened => ?_
  have positive := of_decide_eq_true happened
  have nonzero : pfd.revents ≠ 0 := by
    intro same
    rw [same] at positive
    exact absurd positive (by decide)
  have watched : 0 ≤ pfd.fd := by
    by_contra negative
    exact nonzero (inStep.idle pfd member (by omega))
  exact decide_eq_true ⟨watched, nonzero⟩

theorem InStep.fillActiveChannels_spec (inStep : poller.InStep channels) (before : List κ) :
    ∃ later active, poller.fillActiveChannels poller.numEvents channels before = .ok (later, before ++ active) ∧
      poller.Reports channels later active := by
  have known : ∀ pfd ∈ poller.pollfds, 0 < pfd.revents.toInt → ∃ pointer,
      find poller.channels pfd.fd = some pointer ∧ ((channels pointer).fd : Int) = pfd.fd := by
    intro pfd member positive
    obtain ⟨owner, mapped, entry⟩ := inStep.owner_of_mem member
    exact ⟨owner, inStep.find_of_entry mapped entry positive⟩
  have member_of_entry : ∀ pointer pfd, poller.entryOf (channels pointer) = some pfd → pfd ∈ poller.pollfds := by
    intro pointer pfd entry
    unfold entryOf at entry
    split_ifs at entry
    exact List.mem_of_getElem? entry
  obtain ⟨later, filled, others, own⟩ := fillFrom_spec before known inStep.countP_le_numEvents inStep.distinct
  have mem_iff : ∀ pointer, pointer ∈ poller.pollfds.filterMap poller.reportOf ↔ ∃ pfd,
      poller.channels[(channels pointer).fd]? = some pointer ∧ poller.entryOf (channels pointer) = some pfd ∧
        0 < pfd.revents.toInt := by
    intro pointer
    rw [List.mem_filterMap]
    constructor
    · intro found
      obtain ⟨pfd, member, reported⟩ := found
      exact ⟨pfd, (inStep.reportOf_iff member).mp reported⟩
    · intro found
      obtain ⟨pfd, all⟩ := found
      have member := member_of_entry pointer pfd all.2.1
      exact ⟨pfd, member, (inStep.reportOf_iff member).mpr all⟩
  refine ⟨later, _, filled, ?_, mem_iff, ?_, others⟩
  · rw [List.nodup_iff_pairwise_ne, List.pairwise_filterMap]
    refine inStep.distinct.imp_of_mem ?_
    intro first second firstMember secondMember different pointer reported other otherReported same
    subst same
    have firstEntry := ((inStep.reportOf_iff firstMember).mp reported).2.1
    have secondEntry := ((inStep.reportOf_iff secondMember).mp otherReported).2.1
    cases firstEntry.symm.trans secondEntry
    exact different rfl
  · intro pointer active pfd entry
    obtain ⟨other, mapped, otherEntry, positive⟩ := (mem_iff pointer).mp active
    cases otherEntry.symm.trans entry
    have member := member_of_entry pointer pfd entry
    exact own pfd member pointer ((inStep.reportOf_iff member).mpr ⟨mapped, entry, positive⟩)

theorem InStep.answered (inStep : poller.InStep channels) (answer : Nat → BitVec 16) :
    (poller.answered answer).InStep channels := by
  refine inStep.rewrite rfl (fun _ => rfl) (fun _ => rfl) (List.length_mapIdx ..) ?_ ?_
  · intro other slot former now place formerFound nowFound owned
    simp only [Poller.answered, List.getElem?_mapIdx, formerFound, Option.map_some, Option.some.injEq] at nowFound
    subst nowFound
    split_ifs
    · exact owned
    · exact owned
  · intro entry member negative
    obtain ⟨slot, inside, same⟩ := List.mem_mapIdx.mp member
    subst same
    split_ifs at negative ⊢ with watched
    · exact inStep.idle _ (List.getElem_mem inside) watched
    · exact absurd negative watched

theorem Reports.frame {later : κ → Channel} {active : List κ} (reports : poller.Reports channels later active)
    (pointer : κ) : (later pointer).fd = (channels pointer).fd ∧ (later pointer).index = (channels pointer).index := by
  by_cases isActive : pointer ∈ active
  · obtain ⟨pfd, mapped, entry, positive⟩ := (reports.mem_iff pointer).mp isActive
    rw [reports.revents pointer isActive pfd entry]
    exact ⟨rfl, rfl⟩
  · rw [reports.others pointer isActive]
    exact ⟨rfl, rfl⟩

theorem InStep.stored {later : κ → Channel} {active : List κ} (inStep : poller.InStep channels)
    (reports : poller.Reports channels later active) : poller.InStep later := by
  refine inStep.rewrite rfl (fun other => (reports.frame other).1) (fun other => (reports.frame other).2) rfl ?_
    inStep.idle
  intro other slot former now place formerFound nowFound owned
  cases formerFound.symm.trans nowFound
  exact owned

theorem poll_spec (inStep : poller.InStep channels) (answer : Nat → BitVec 16) (before : List κ) :
    ∃ later active, poller.poll answer channels before = .ok (poller.answered answer, later, before ++ active) ∧
      (poller.answered answer).Reports channels later active := by
  obtain ⟨later, active, filled, reports⟩ := (inStep.answered answer).fillActiveChannels_spec before
  refine ⟨later, active, ?_, reports⟩
  unfold poll
  by_cases happened : 0 < (poller.answered answer).numEvents
  · simp only [if_pos happened, filled, Outcome.ok_bind]
    rfl
  · rw [Nat.eq_zero_of_not_pos happened, fillActiveChannels, fillFrom_zero] at filled
    simp only [if_neg happened]
    obtain ⟨same, sameList⟩ := Prod.mk.inj (Except.ok.inj filled)
    rw [← same, ← sameList]
    rfl

end Poller

namespace PollerUse

open Poller

variable {κ : Type} [DecidableEq κ] {use next : PollerUse κ} {call : PollerCall κ} {pointer : κ}

structure Valid (use : PollerUse κ) : Prop where
  inStep : use.poller.InStep use.channels
  fresh : ∀ pointer, pointer ∉ use.removed →
    use.poller.channels[(use.channels pointer).fd]? = some pointer ∨ (use.channels pointer).index < 0

theorem new_valid (fds : κ → Nat) : (new fds).Valid where
  inStep := new_inStep
  fresh pointer _ := .inr (by simp [new, Channel.new])

theorem update_valid (valid : use.Valid) (events : BitVec 32) (current : pointer ∉ use.removed)
    (unused : (use.channels pointer).index < 0 → (use.channels pointer).fd ∉ use.poller.channels) :
    ∃ next, use.update pointer events = .ok next ∧ next.Valid := by
  let channel : Channel := { use.channels pointer with events }
  by_cases isNew : (use.channels pointer).index < 0
  · obtain ⟨poller, listed, added, sameFd, map, inStep⟩ :=
      addChannel_inStep channel valid.inStep (unused isNew) rfl
    refine ⟨{ use with poller, channels := Function.update use.channels pointer listed }, ?_, inStep, ?_⟩
    · rw [update, updateChannel, if_pos isNew, added]
      rfl
    · intro other notRemoved
      by_cases isPointer : other = pointer
      · subst isPointer
        exact .inl (by simp [map, sameFd])
      · simp only
        rw [Function.update_of_ne isPointer]
        refine (valid.fresh other notRemoved).imp_left fun mapped => ?_
        have different : channel.fd ≠ (use.channels other).fd := by
          intro same
          rw [← same, Std.ExtTreeMap.getElem?_eq_none (unused isNew)] at mapped
          cases mapped
        simp [map, Std.ExtTreeMap.getElem?_insert, different, mapped]
  · have mapped := (valid.fresh pointer current).resolve_right isNew
    obtain ⟨poller, updated, map, inStep⟩ :=
      updateExisting_inStep channel valid.inStep mapped rfl rfl
    refine ⟨{ use with poller, channels := Function.update use.channels pointer channel }, ?_, inStep, ?_⟩
    · rw [update, updateChannel, if_neg isNew, updated]
      rfl
    · intro other notRemoved
      have fds : ∀ other, (Function.update use.channels pointer channel other).fd = (use.channels other).fd :=
        update_field Channel.fd rfl
      have indices : ∀ other,
          (Function.update use.channels pointer channel other).index = (use.channels other).index :=
        update_field Channel.index rfl
      simp only
      rw [fds, indices, map]
      exact valid.fresh other notRemoved

theorem remove_valid (valid : use.Valid) (mapped : use.poller.channels[(use.channels pointer).fd]? = some pointer)
    (off : (use.poller.entryOf (use.channels pointer)).any fun pfd =>
      pfd.fd = ignoredFd (use.channels pointer) ∧ pfd.events.signExtend 32 = (use.channels pointer).events) :
    ∃ next, use.remove pointer = .ok next ∧ next.Valid := by
  obtain ⟨poller, channels, removed, map, sameFd, same, inStep⟩ := removeChannel_inStep valid.inStep mapped off
  refine ⟨{ poller, channels, removed := pointer :: use.removed }, by rw [remove, removed]; rfl, inStep, ?_⟩
  intro other notRemoved
  obtain ⟨different, before⟩ := not_or.mp (mt List.mem_cons.mpr notRemoved)
  cases valid.fresh other before with
  | inl otherMapped =>
      refine .inl ?_
      simp only
      rw [sameFd, map]
      exact getElem?_erase_of_mapped mapped otherMapped different
  | inr negative =>
      refine .inr ?_
      simp only
      rw [same other negative]
      exact negative

theorem poll_valid (valid : use.Valid) (answer : Nat → BitVec 16) :
    ∃ next, use.poll answer = .ok next ∧ next.Valid := by
  obtain ⟨later, active, polled, reports⟩ := poll_spec valid.inStep answer []
  refine ⟨{ use with poller := use.poller.answered answer, channels := later }, by rw [poll, polled]; rfl,
    (valid.inStep.answered answer).stored reports, ?_⟩
  intro other notRemoved
  simp only
  rw [(reports.frame other).1, (reports.frame other).2]
  exact valid.fresh other notRemoved

private theorem perform_valid (valid : use.Valid) (allowed : use.Allowed call) :
    ∃ next, use.perform call = .ok next ∧ next.Valid := by
  cases call with
  | update pointer events => exact update_valid valid events allowed.1 allowed.2
  | remove pointer => exact remove_valid valid allowed.1 allowed.2
  | poll answer => exact poll_valid valid answer

/-- Whatever channels are added, updated and removed, with polls in between,
the array and the map stay consistent, and the next poll is reported in full. -/
theorem array_and_map_consistent (fds : κ → Nat) (calls : List (PollerCall κ))
    (allowed : Along step Allowed (new fds) calls) :
    ∃ final, run step (new fds) calls = some final ∧ final.poller.Consistent final.channels ∧
      ∀ answer before, ∃ later active,
        (final.poller.answered answer).fillActiveChannels (final.poller.answered answer).numEvents final.channels
          before = .ok (later, before ++ active) ∧
        (final.poller.answered answer).Reports final.channels later active := by
  obtain ⟨final, ran, valid⟩ := run_total (fun _ (use : PollerUse κ) => use.Valid) (new_valid fds)
    (fun past use call valid allowed => by
      obtain ⟨next, performed, nextValid⟩ := perform_valid valid allowed
      exact ⟨next, Outcome.toOption_eq_some_iff.mpr performed, nextValid⟩) allowed
  exact ⟨final, ran, valid.inStep.consistent, fun answer before =>
    (valid.inStep.answered answer).fillActiveChannels_spec before⟩

/-- The first of three is removed, then one whose successor at the end is
switched off; the descriptor 0 is used again. -/
theorem array_and_map_consistent_reused :
    ∃ final, run step (new fun pointer : Nat => pointer % 3) [.update 0 3, .update 1 3, .update 2 7, .update 0 0,
        .remove 0, .poll fun _ => 1, .update 2 0, .update 1 0, .remove 2, .update 3 3, .poll fun _ => 5] =
      some final ∧ final.poller.Consistent final.channels := by
  obtain ⟨final, ran, consistent, -⟩ := array_and_map_consistent (fun pointer : Nat => pointer % 3)
    [.update 0 3, .update 1 3, .update 2 7, .update 0 0, .remove 0, .poll fun _ => 1, .update 2 0, .update 1 0,
      .remove 2, .update 3 3, .poll fun _ => 5] (by decide +kernel)
  exact ⟨final, ran, consistent⟩

end PollerUse

end NutServer.Net
