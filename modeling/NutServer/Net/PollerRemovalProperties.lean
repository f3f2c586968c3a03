import NutServer.Net.PollerRemoval

/-! The entries of `pollfds_` stay those of the channels in the map, through
every swap-removal. -/

set_option autoImplicit false

namespace NutServer.Net

open Library

namespace Poller

variable {κ : Type} {poller next : Poller κ} {channels later : κ → Channel} {pointer : κ} {channel : Channel}

/-- The entry is the channel's, switched off or not. -/
def Owns (channels : κ → Channel) (pointer : κ) (pfd : PollFd) : Prop :=
  pfd.fd = (channels pointer).fd ∨ pfd.fd = ignoredFd (channels pointer)

/-- From the descriptor of an entry back to that of its channel. -/
theorem fd_of_owns {pfd : PollFd} (owned : Owns channels pointer pfd) :
    (if pfd.fd < 0 then -pfd.fd - 1 else pfd.fd) = ((channels pointer).fd : Int) := by
  unfold Owns ignoredFd at owned
  omega

theorem find_natCast (map : Std.ExtTreeMap Nat κ) (fd : Nat) : find map fd = map[fd]? := by
  rw [find, if_pos (Int.natCast_nonneg fd), Int.toNat_natCast]

private theorem owns_congr (sameFd : ∀ other, (later other).fd = (channels other).fd) : Owns later = Owns channels := by
  funext other pfd
  rw [Owns, Owns, ignoredFd, ignoredFd, sameFd]

theorem getElem?_erase_of_mapped {other : κ} (mapped : poller.channels[(channels pointer).fd]? = some pointer)
    (otherMapped : poller.channels[(channels other).fd]? = some other) (different : other ≠ pointer) :
    (poller.channels.erase (channels pointer).fd)[(channels other).fd]? = some other := by
  have apart : (channels pointer).fd ≠ (channels other).fd := by
    intro same
    rw [← same, mapped] at otherMapped
    exact different (Option.some.inj otherMapped).symm
  rw [Std.ExtTreeMap.getElem?_erase, if_neg (by rwa [Std.LawfulEqCmp.compare_eq_iff_eq]), otherMapped]

private theorem size_erase (mapped : poller.channels[(channels pointer).fd]? = some pointer) :
    (poller.channels.erase (channels pointer).fd).size = poller.channels.size - 1 := by
  have contained : poller.channels.contains (channels pointer).fd = true := by
    simp [Std.ExtTreeMap.contains_eq_isSome_getElem?, mapped]
  rw [Std.ExtTreeMap.size_erase, if_pos contained]

variable [DecidableEq κ]

/-- The place of a channel that is in the map. -/
def placeOf (poller : Poller κ) (channels : κ → Channel) (pointer : κ) : Option Nat :=
  if poller.channels[(channels pointer).fd]? = some pointer then some (channels pointer).index.toNat else none

structure InStep (poller : Poller κ) (channels : κ → Channel) : Prop where
  dense : Dense poller.pollfds (Owns channels) (poller.placeOf channels)
  listed : ∀ fd pointer, poller.channels[fd]? = some pointer →
    (channels pointer).fd = fd ∧ 0 ≤ (channels pointer).index
  size : poller.pollfds.length = poller.channels.size
  idle : ∀ pfd ∈ poller.pollfds, pfd.fd < 0 → pfd.revents = 0

theorem placeOf_eq_some_iff {slot : Nat} :
    poller.placeOf channels pointer = some slot ↔
      poller.channels[(channels pointer).fd]? = some pointer ∧ (channels pointer).index.toNat = slot := by
  unfold placeOf
  split_ifs with mapped <;> simp [mapped]

theorem placeOf_of_mapped (mapped : poller.channels[(channels pointer).fd]? = some pointer) :
    poller.placeOf channels pointer = some (channels pointer).index.toNat := if_pos mapped

theorem placeOf_of_unmapped (unmapped : poller.channels[(channels pointer).fd]? ≠ some pointer) :
    poller.placeOf channels pointer = none := if_neg unmapped

theorem InStep.distinct (inStep : poller.InStep channels) :
    poller.pollfds.Pairwise fun first second => first.fd ≠ second.fd := by
  rw [List.pairwise_iff_getElem]
  intro first second firstInside secondInside before same
  obtain ⟨left, leftPlace⟩ := inStep.dense.owner first firstInside
  obtain ⟨right, rightPlace⟩ := inStep.dense.owner second secondInside
  have leftFd := fd_of_owns (inStep.dense.owns_of_getElem? leftPlace (List.getElem?_eq_getElem firstInside))
  have rightFd := fd_of_owns (inStep.dense.owns_of_getElem? rightPlace (List.getElem?_eq_getElem secondInside))
  rw [same, rightFd, Nat.cast_inj] at leftFd
  have leftMapped := (placeOf_eq_some_iff.mp leftPlace).1
  have rightMapped := (placeOf_eq_some_iff.mp rightPlace).1
  rw [← leftFd, rightMapped] at leftMapped
  cases leftMapped
  rw [leftPlace] at rightPlace
  cases rightPlace
  exact lt_irrefl _ before

theorem new_inStep : (new : Poller κ).InStep channels where
  dense := by
    have unmapped : (new : Poller κ).placeOf channels = fun _ => none :=
      funext fun pointer => placeOf_of_unmapped (by simp [new])
    rw [unmapped]
    exact .nil
  listed fd pointer mapped := by simp [new] at mapped
  size := by simp [new]
  idle pfd member := by simp [new] at member

theorem placeOf_congr (sameMap : next.channels = poller.channels)
    (sameFd : ∀ other, (later other).fd = (channels other).fd)
    (sameIndex : ∀ other, (later other).index = (channels other).index) :
    next.placeOf later = poller.placeOf channels := by
  funext other
  rw [placeOf, placeOf, sameMap, sameFd, sameIndex]

/-- Only entries have changed, and no channel's place. -/
theorem InStep.rewrite (inStep : poller.InStep channels) (sameMap : next.channels = poller.channels)
    (sameFd : ∀ other, (later other).fd = (channels other).fd)
    (sameIndex : ∀ other, (later other).index = (channels other).index)
    (length : next.pollfds.length = poller.pollfds.length)
    (keeps : ∀ other slot pfd now, poller.placeOf channels other = some slot → poller.pollfds[slot]? = some pfd →
      next.pollfds[slot]? = some now → Owns channels other pfd → Owns channels other now)
    (idle : ∀ pfd ∈ next.pollfds, pfd.fd < 0 → pfd.revents = 0) : next.InStep later where
  dense := by
    rw [owns_congr sameFd, placeOf_congr sameMap sameFd sameIndex]
    exact inStep.dense.rewrite length keeps
  listed fd pointer mapped := by
    rw [sameMap] at mapped
    rw [sameFd, sameIndex]
    exact inStep.listed fd pointer mapped
  size := by rw [length, sameMap, inStep.size]
  idle := idle

theorem updateExisting_inStep (channel : Channel) (inStep : poller.InStep channels)
    (mapped : poller.channels[(channels pointer).fd]? = some pointer)
    (sameFd : channel.fd = (channels pointer).fd) (sameIndex : channel.index = (channels pointer).index) :
    ∃ next, poller.updateExisting pointer channel = .ok next ∧ next.channels = poller.channels ∧
      next.InStep (Function.update channels pointer channel) := by
  have place := placeOf_of_mapped mapped
  obtain ⟨pfd, found, owned⟩ := inStep.dense.cell pointer _ place
  let refreshed : Poller κ :=
    { poller with pollfds := poller.pollfds.set (channels pointer).index.toNat (refresh channel pfd) }
  refine ⟨refreshed, ?_, rfl, ?_⟩
  · have member : channel.fd ∈ poller.channels := by
      simp [Std.ExtTreeMap.mem_iff_isSome_getElem?, sameFd, mapped]
    have fd : pfd.fd = channel.fd ∨ pfd.fd = ignoredFd channel := by
      rw [ignoredFd, sameFd]
      exact owned
    rw [updateExisting, assert_of member, assert_of (sameFd ▸ mapped), sameIndex, found]
    simp only [Outcome.ok_bind, assert_of fd]
    rfl
  · refine inStep.rewrite rfl (update_field Channel.fd sameFd) (update_field Channel.index sameIndex)
      (List.length_set ..) ?_ ?_
    · intro other slot former now otherPlace formerFound nowFound formerOwned
      by_cases here : (channels pointer).index.toNat = slot
      · subst here
        have isPointer := inStep.dense.apart other pointer _ otherPlace place
        subst isPointer
        rw [List.getElem?_set_self (inStep.dense.inside place)] at nowFound
        cases nowFound
        unfold refresh
        cases channel.isNothingFocus with
        | true => exact .inr (by simp [ignoredFd, sameFd])
        | false => exact owned
      · rw [List.getElem?_set_ne here, formerFound] at nowFound
        cases nowFound
        exact formerOwned
    · intro entry member negative
      cases List.mem_or_eq_of_mem_set member with
      | inl before => exact inStep.idle entry before negative
      | inr same => rw [same, refresh]

theorem addChannel_inStep (channel : Channel) (inStep : poller.InStep channels)
    (absent : channel.fd ∉ poller.channels) (sameFd : channel.fd = (channels pointer).fd) :
    ∃ next listed, poller.addChannel pointer channel = .ok (next, listed) ∧ listed.fd = channel.fd ∧
      next.channels = poller.channels.insert channel.fd pointer ∧
      next.InStep (Function.update channels pointer listed) := by
  let listed : Channel := { channel with index := poller.pollfds.length }
  let pfd : PollFd := { fd := channel.fd, events := channel.events.setWidth 16, revents := 0 }
  let added : Poller κ :=
    { pollfds := poller.pollfds ++ [pfd], channels := poller.channels.insert channel.fd pointer }
  have unmapped := Std.ExtTreeMap.getElem?_eq_none absent
  have fds : ∀ other, (Function.update channels pointer listed other).fd = (channels other).fd :=
    update_field Channel.fd sameFd
  have place : added.placeOf (Function.update channels pointer listed) =
      Function.update (poller.placeOf channels) pointer (some poller.pollfds.length) := by
    funext other
    by_cases isPointer : other = pointer
    · subst isPointer
      rw [Function.update_self, placeOf, Function.update_self, if_pos (by simp [added, listed])]
      simp [listed]
    · have differs : some pointer ≠ some other := fun same => isPointer (Option.some.inj same).symm
      rw [Function.update_of_ne isPointer, placeOf, placeOf, Function.update_of_ne isPointer]
      by_cases same : channel.fd = (channels other).fd
      · simp [added, same.symm, unmapped, differs]
      · simp [added, Std.ExtTreeMap.getElem?_insert, same]
  refine ⟨added, listed, by rw [addChannel, assert_of absent]; rfl, rfl, rfl, ?_, ?_, ?_, ?_⟩
  · rw [owns_congr fds, place]
    exact inStep.dense.append (placeOf_of_unmapped (by simp [← sameFd, unmapped])) (.inl (by simp [pfd, sameFd]))
  · intro fd other mapped
    simp only [added, Std.ExtTreeMap.getElem?_insert] at mapped
    split_ifs at mapped with same
    · cases mapped
      rw [Function.update_self]
      exact ⟨by simpa [listed] using same, Int.natCast_nonneg _⟩
    · have different : other ≠ pointer := by
        intro isPointer
        subst isPointer
        have itsFd := (inStep.listed fd other mapped).1
        exact same (by simp [sameFd, itsFd])
      rw [Function.update_of_ne different]
      exact inStep.listed fd other mapped
  · have unlisted : ¬ poller.channels.contains channel.fd = true := by
      rwa [Std.ExtTreeMap.contains_iff_mem]
    simp only [added]
    rw [List.length_append, List.length_singleton, Std.ExtTreeMap.size_insert, if_neg unlisted, inStep.size]
  · intro entry member negative
    cases List.mem_append.mp member with
    | inl before => exact inStep.idle entry before negative
    | inr last => rw [List.mem_singleton.mp last]

theorem placeOf_erase (erased : next.channels = poller.channels.erase (channels pointer).fd)
    (mapped : poller.channels[(channels pointer).fd]? = some pointer) :
    next.placeOf channels = Function.update (poller.placeOf channels) pointer none := by
  funext other
  by_cases isPointer : other = pointer
  · subst isPointer
    rw [Function.update_self]
    exact placeOf_of_unmapped (by simp [erased])
  · rw [Function.update_of_ne isPointer, placeOf, placeOf, erased]
    by_cases same : (channels pointer).fd = (channels other).fd
    · have differs : some pointer ≠ some other := fun equal => isPointer (Option.some.inj equal).symm
      simp [← same, mapped, differs]
    · simp [Std.ExtTreeMap.getElem?_erase, same]

theorem placeOf_update {moved : κ} (mapped : poller.channels[(channels moved).fd]? = some moved)
    (sameFd : channel.fd = (channels moved).fd) :
    poller.placeOf (Function.update channels moved channel) =
      Function.update (poller.placeOf channels) moved (some channel.index.toNat) := by
  funext other
  by_cases isMoved : other = moved
  · subst isMoved
    rw [Function.update_self, placeOf, Function.update_self, sameFd, if_pos mapped]
  · rw [Function.update_of_ne isMoved, placeOf, placeOf, Function.update_of_ne isMoved]

private theorem InStep.listed_erase (inStep : poller.InStep channels) (owner : Nat) :
    ∀ fd other, (poller.channels.erase owner)[fd]? = some other →
      (channels other).fd = fd ∧ 0 ≤ (channels other).index := by
  intro fd other found
  rw [Std.ExtTreeMap.getElem?_erase] at found
  split_ifs at found
  exact inStep.listed fd other found

private theorem InStep.pop (inStep : poller.InStep channels)
    (mapped : poller.channels[(channels pointer).fd]? = some pointer)
    (last : (channels pointer).index.toNat + 1 = poller.pollfds.length) :
    InStep { pollfds := poller.pollfds.dropLast, channels := poller.channels.erase (channels pointer).fd }
      channels where
  dense := by
    rw [placeOf_erase rfl mapped]
    exact inStep.dense.removeLast (placeOf_of_mapped mapped) last
  listed := inStep.listed_erase _
  size := by rw [List.length_dropLast, inStep.size, size_erase mapped]
  idle pfd member := inStep.idle pfd (List.mem_of_mem_dropLast member)

/-- The last entry is swapped into the gap, and its channel told. -/
theorem InStep.swap (inStep : poller.InStep channels) {moved : κ}
    (mapped : poller.channels[(channels pointer).fd]? = some pointer)
    (inside : (channels pointer).index.toNat + 1 < poller.pollfds.length)
    (isLast : poller.placeOf channels moved = some (poller.pollfds.length - 1)) :
    InStep
      { pollfds := (swapCells poller.pollfds (channels pointer).index.toNat (poller.pollfds.length - 1)).dropLast
        channels := poller.channels.erase (channels pointer).fd }
      (Function.update channels moved
        { channels moved with index := ((channels pointer).index.toNat : Nat) }) := by
  let landed : Channel := { channels moved with index := ((channels pointer).index.toNat : Nat) }
  have place := placeOf_of_mapped mapped
  have movedMapped := (placeOf_eq_some_iff.mp isLast).1
  have different : pointer ≠ moved := by
    intro same
    rw [← same, place, Option.some.injEq] at isLast
    omega
  have sameFd : landed.fd = (channels moved).fd := rfl
  have stays : (Function.update channels moved landed pointer).fd = (channels pointer).fd := by
    rw [Function.update_of_ne different]
  refine ⟨?_, ?_, ?_, ?_⟩
  · rw [owns_congr (update_field Channel.fd sameFd), placeOf_erase (by rw [stays]) (by rw [stays, mapped]),
      placeOf_update movedMapped sameFd]
    exact inStep.dense.removeSwap place inside isLast
  · intro fd other found
    obtain ⟨itsFd, index⟩ := inStep.listed_erase _ fd other found
    rw [update_field Channel.fd sameFd]
    by_cases isMoved : other = moved
    · subst isMoved
      rw [Function.update_self]
      exact ⟨itsFd, Int.natCast_nonneg _⟩
    · rw [Function.update_of_ne isMoved]
      exact ⟨itsFd, index⟩
  · rw [length_dropLast_swapCells inside, inStep.size, size_erase mapped]
  · exact fun pfd member => inStep.idle pfd (mem_of_mem_dropLast_swapCells inside member)

theorem removeChannel_inStep (inStep : poller.InStep channels)
    (mapped : poller.channels[(channels pointer).fd]? = some pointer)
    (off : (poller.entryOf (channels pointer)).any fun pfd =>
      pfd.fd = ignoredFd (channels pointer) ∧ pfd.events.signExtend 32 = (channels pointer).events) :
    ∃ next later, poller.removeChannel channels pointer = .ok (next, later) ∧
      next.channels = poller.channels.erase (channels pointer).fd ∧
      (∀ other, (later other).fd = (channels other).fd) ∧
      (∀ other, (channels other).index < 0 → later other = channels other) ∧ next.InStep later := by
  have place := placeOf_of_mapped mapped
  have inside := inStep.dense.inside place
  have index := (inStep.listed _ pointer mapped).2
  obtain ⟨pfd, found, shown⟩ := (Option.any_eq_true _ _).mp off
  have entry := of_decide_eq_true shown
  rw [entryOf, if_neg (by omega)] at found
  have member : (channels pointer).fd ∈ poller.channels := by
    simp [Std.ExtTreeMap.mem_iff_isSome_getElem?, mapped]
  -- The assertions hold.
  unfold removeChannel
  simp only [assert_of member, assert_of mapped, assert_of (And.intro index inside), found, demand_some,
    assert_of entry, Outcome.ok_bind]
  by_cases last : (channels pointer).index.toNat = poller.pollfds.length - 1
  · rw [if_pos last]
    exact ⟨_, _, rfl, rfl, fun _ => rfl, fun _ _ => rfl, inStep.pop mapped (by omega)⟩
  · rw [if_neg last]
    have lastInside : poller.pollfds.length - 1 < poller.pollfds.length := by omega
    obtain ⟨moved, isLast⟩ := inStep.dense.owner _ lastInside
    obtain ⟨back, backFound, owned⟩ := inStep.dense.cell moved _ isLast
    have movedMapped := (placeOf_eq_some_iff.mp isLast).1
    have different : moved ≠ pointer := by
      intro same
      rw [same, place, Option.some.injEq] at isLast
      exact last isLast
    have foundMoved : find (poller.channels.erase (channels pointer).fd) (channels moved).fd = some moved := by
      rw [find_natCast, getElem?_erase_of_mapped mapped movedMapped different]
    rw [List.getLast?_eq_getElem?, backFound, demand_some, Outcome.ok_bind, fd_of_owns owned, foundMoved,
      demand_some, Outcome.ok_bind]
    refine ⟨_, _, rfl, rfl, update_field Channel.fd rfl, ?_, inStep.swap mapped (by omega) isLast⟩
    intro other negative
    refine Function.update_of_ne ?_ _ _
    intro isMoved
    have known := (inStep.listed _ moved movedMapped).2
    rw [isMoved] at negative
    omega

end Poller

end NutServer.Net
