import NutServer.Library.Machine
import NutServer.Net.Epoller

/-! The index of a channel, `ChannelMap_` and the epoll set say the same about
every channel, before and after each call. -/

set_option autoImplicit false

namespace NutServer.Net

open Library

namespace Epoller

variable {κ : Type}

/-- What the three records say about one channel. -/
inductive Mirrors (epoller : Epoller κ) (pointer : κ) (channel : Channel) : Prop where
  | unknown (index : channel.index = -1) (unmapped : epoller.channelMap[channel.fd]? = none)
      (unwatched : epoller.interest[channel.fd]? = none)
  | watched (index : channel.index = 1) (mapped : epoller.channelMap[channel.fd]? = some pointer)
      (watched : epoller.interest[channel.fd]? = some ⟨channel.events, pointer⟩)
  | ignored (index : channel.index = 2) (mapped : epoller.channelMap[channel.fd]? = some pointer)
      (idle : channel.events = Channel.noneEvent) (unwatched : epoller.interest[channel.fd]? = none)

/-- The records are right about all living channels, and hold nothing else. -/
structure Tracks (epoller : Epoller κ) (channels : κ → Option Channel) : Prop where
  apart : ∀ pointer other channel next, channels pointer = some channel → channels other = some next →
    channel.fd = next.fd → pointer = other
  mirrors : ∀ pointer channel, channels pointer = some channel → epoller.Mirrors pointer channel
  mapped : ∀ fd pointer, epoller.channelMap[fd]? = some pointer →
    ∃ channel, channels pointer = some channel ∧ channel.fd = fd
  watched : ∀ fd event, epoller.interest[fd]? = some event →
    ∃ pointer channel, channels pointer = some channel ∧ channel.fd = fd
  legal : ∀ call ∈ epoller.epollCtls, call.Legal

/-- Nothing is said differently about any other descriptor. -/
structure SameBut (fd : Nat) (epoller next : Epoller κ) : Prop where
  channelMap : ∀ other, other ≠ fd → next.channelMap[other]? = epoller.channelMap[other]?
  interest : ∀ other, other ≠ fd → next.interest[other]? = epoller.interest[other]?

variable {epoller next : Epoller κ} {channels : κ → Option Channel} {pointer other : κ}
  {channel old : Channel} {fd : Nat} {event : EpollEvent κ}

theorem erase_absent (absent : epoller.interest[fd]? = none) : epoller.interest.erase fd = epoller.interest := by
  apply Std.ExtTreeMap.ext_getElem?
  intro other
  rw [Std.ExtTreeMap.getElem?_erase]
  split_ifs with same
  · rw [Std.LawfulEqCmp.eq_of_compare same] at absent
    exact absent.symm
  · rfl

theorem new_tracks {channels : κ → Option Channel}
    (apart : ∀ pointer other channel next, channels pointer = some channel → channels other = some next →
      channel.fd = next.fd → pointer = other)
    (unknown : ∀ pointer channel, channels pointer = some channel → channel.index = -1) :
    (new : Epoller κ).Tracks channels where
  apart := apart
  mirrors pointer channel present := .unknown (unknown pointer channel present) (by simp [new]) (by simp [new])
  mapped fd pointer mapped := by simp [new] at mapped
  watched fd event watched := by simp [new] at watched
  legal call made := by simp [new] at made

theorem Mirrors.index (mirrors : epoller.Mirrors pointer channel) :
    channel.index = -1 ∨ channel.index = 1 ∨ channel.index = 2 := by
  cases mirrors with
  | unknown index => exact .inl index
  | watched index => exact .inr (.inl index)
  | ignored index => exact .inr (.inr index)

theorem Mirrors.same (mirrors : epoller.Mirrors pointer channel)
    (channelMap : next.channelMap[channel.fd]? = epoller.channelMap[channel.fd]?)
    (interest : next.interest[channel.fd]? = epoller.interest[channel.fd]?) :
    next.Mirrors pointer channel := by
  cases mirrors with
  | unknown index unmapped unwatched =>
      exact .unknown index (channelMap.trans unmapped) (interest.trans unwatched)
  | watched index mapped watched => exact .watched index (channelMap.trans mapped) (interest.trans watched)
  | ignored index mapped idle unwatched =>
      exact .ignored index (channelMap.trans mapped) idle (interest.trans unwatched)

private theorem Mirrors.mapped_eq (mirrors : epoller.Mirrors pointer channel)
    (mapped : epoller.channelMap[channel.fd]? = some other) : other = pointer := by
  cases mirrors with
  | unknown _ unmapped => rw [unmapped] at mapped; cases mapped
  | watched _ isMapped | ignored _ isMapped => rw [isMapped] at mapped; cases mapped; rfl

theorem Mirrors.mapped_iff (mirrors : epoller.Mirrors pointer channel) :
    epoller.channelMap[channel.fd]? = some pointer ↔ channel.index ≠ -1 := by
  cases mirrors with
  | unknown index unmapped => simp [index, unmapped]
  | watched index mapped | ignored index mapped => simp [index, mapped]

theorem Mirrors.index_one (mirrors : epoller.Mirrors pointer channel) (registered : channel.index ≠ -1)
    (busy : channel.events ≠ Channel.noneEvent) : channel.index = 1 := by
  cases mirrors with
  | unknown index => exact absurd index registered
  | watched index => exact index
  | ignored _ _ idle => exact absurd idle busy

theorem Mirrors.watched_eq (mirrors : epoller.Mirrors pointer channel)
    (watched : epoller.interest[channel.fd]? = some event) : event = ⟨channel.events, pointer⟩ := by
  cases mirrors with
  | unknown _ _ unwatched | ignored _ _ _ unwatched => rw [unwatched] at watched; cases watched
  | watched _ _ isWatched => rw [isWatched] at watched; cases watched; rfl

private theorem Tracks.fd_ne (tracks : epoller.Tracks channels) (present : channels pointer = some old)
    (otherPresent : channels other = some channel) (apart : other ≠ pointer) : channel.fd ≠ old.fd :=
  fun same => apart (tracks.apart other pointer channel old otherPresent present same)

theorem Tracks.unmapped (tracks : epoller.Tracks channels)
    (fresh : ∀ other found, channels other = some found → found.fd ≠ fd) : epoller.channelMap[fd]? = none := by
  cases mapped : epoller.channelMap[fd]? with
  | none => rfl
  | some pointer =>
      obtain ⟨found, present, same⟩ := tracks.mapped fd pointer mapped
      exact absurd same (fresh pointer found present)

theorem Tracks.unwatched (tracks : epoller.Tracks channels)
    (fresh : ∀ other found, channels other = some found → found.fd ≠ fd) : epoller.interest[fd]? = none := by
  cases watched : epoller.interest[fd]? with
  | none => rfl
  | some event =>
      obtain ⟨pointer, found, present, same⟩ := tracks.watched fd event watched
      exact absurd same (fresh pointer found present)

private theorem legal_concat {call : EpollCtl} (before : ∀ made ∈ epoller.epollCtls, made.Legal) (legal : call.Legal) :
    ∀ made ∈ epoller.epollCtls ++ [call], made.Legal := by
  intro made member
  cases List.mem_append.mp member with
  | inl earlier => exact before made earlier
  | inr last =>
      cases List.mem_singleton.mp last
      exact legal

private theorem add_of_absent (absent : epoller.interest[fd]? = none) :
    epoller.epollCtl .add fd event =
      { epoller with
        interest := epoller.interest.insert fd event
        epollCtls := epoller.epollCtls ++ [⟨.add, fd, false⟩] } := by
  have notMem : fd ∉ epoller.interest := by simp [Std.ExtTreeMap.mem_iff_isSome_getElem?, absent]
  simp [epollCtl, notMem]

private theorem mod_of_present {former : EpollEvent κ} (present : epoller.interest[fd]? = some former) :
    epoller.epollCtl .mod fd event =
      { epoller with
        interest := epoller.interest.insert fd event
        epollCtls := epoller.epollCtls ++ [⟨.mod, fd, true⟩] } := by
  have member : fd ∈ epoller.interest := by simp [Std.ExtTreeMap.mem_iff_isSome_getElem?, present]
  simp [epollCtl, member]

private theorem del_of_present {former : EpollEvent κ} (present : epoller.interest[fd]? = some former) :
    epoller.epollCtl .del fd event =
      { epoller with
        interest := epoller.interest.erase fd
        epollCtls := epoller.epollCtls ++ [⟨.del, fd, true⟩] } := by
  have member : fd ∈ epoller.interest := by simp [Std.ExtTreeMap.mem_iff_isSome_getElem?, present]
  simp [epollCtl, member]

theorem updateChannel_of_unknown (index : channel.index = -1) (unmapped : epoller.channelMap[channel.fd]? = none)
    (unwatched : epoller.interest[channel.fd]? = none) :
    epoller.updateChannel pointer channel = .ok
      ({ channelMap := epoller.channelMap.insert channel.fd pointer
         interest := epoller.interest.insert channel.fd ⟨channel.events, pointer⟩
         epollCtls := epoller.epollCtls ++ [⟨.add, channel.fd, false⟩] }, { channel with index := 1 }) := by
  let entered : Epoller κ := { epoller with channelMap := epoller.channelMap.insert channel.fd pointer }
  have notMapped : channel.fd ∉ epoller.channelMap := by
    simp [Std.ExtTreeMap.mem_iff_isSome_getElem?, unmapped]
  have enters : epoller.enter pointer channel = .ok entered := by
    rw [enter, if_pos index, assert_of notMapped]
    rfl
  have absent : entered.interest[channel.fd]? = none := unwatched
  rw [updateChannel, if_pos (.inl index), enters]
  exact congrArg (fun next => Except.ok (next, { channel with index := 1 })) (add_of_absent absent)

theorem updateChannel_of_ignored (index : channel.index = 2) (unwatched : epoller.interest[channel.fd]? = none) :
    epoller.updateChannel pointer channel = .ok
      ({ epoller with
         interest := epoller.interest.insert channel.fd ⟨channel.events, pointer⟩
         epollCtls := epoller.epollCtls ++ [⟨.add, channel.fd, false⟩] }, { channel with index := 1 }) := by
  have notNew : channel.index ≠ -1 := by
    rw [index]
    decide
  rw [updateChannel, if_pos (.inr index), enter, if_neg notNew]
  exact congrArg (fun next => Except.ok (next, { channel with index := 1 })) (add_of_absent unwatched)

theorem updateChannel_of_watched (pointer : κ) (index : channel.index = 1)
    (watched : epoller.interest[channel.fd]? = some event) :
    epoller.updateChannel pointer channel = .ok
      (if channel.isNothingFocus then
        ({ epoller with
           interest := epoller.interest.erase channel.fd
           epollCtls := epoller.epollCtls ++ [⟨.del, channel.fd, true⟩] }, { channel with index := 2 })
      else
        ({ epoller with
           interest := epoller.interest.insert channel.fd ⟨channel.events, pointer⟩
           epollCtls := epoller.epollCtls ++ [⟨.mod, channel.fd, true⟩] }, channel)) := by
  have registered : ¬ (channel.index = -1 ∨ channel.index = 2) := by
    rw [index]
    decide
  rw [updateChannel, if_neg registered, update, update, del_of_present watched, mod_of_present watched]
  split_ifs <;> rfl

private theorem ne_some_of_fd {former : Channel} (present : channels pointer = some old) (apart : former.fd ≠ old.fd) :
    channels pointer ≠ some former := by
  intro same
  cases present.symm.trans same
  exact apart rfl

variable [DecidableEq κ]

private theorem update_elsewhere {former : Channel} (value : Option Channel) (otherPresent : channels other = some former)
    (apart : channels pointer ≠ some former) : Function.update channels pointer value other = some former := by
  rw [Function.update_of_ne, otherPresent]
  intro same
  subst same
  exact apart otherPresent

private theorem update_cases {found : Channel} (updated : Function.update channels pointer (some channel) other = some found) :
    other = pointer ∧ found = channel ∨ other ≠ pointer ∧ channels other = some found := by
  by_cases same : other = pointer
  · subst same
    rw [Function.update_self] at updated
    exact .inl ⟨rfl, (Option.some.inj updated).symm⟩
  · rw [Function.update_of_ne same] at updated
    exact .inr ⟨same, updated⟩

/-- A call that speaks about one channel only, and says the truth about it. -/
theorem Tracks.change (tracks : epoller.Tracks channels) (present : channels pointer = some old)
    (sameFd : channel.fd = old.fd) (elsewhere : SameBut old.fd epoller next)
    (here : next.Mirrors pointer channel) (legal : ∀ call ∈ next.epollCtls, call.Legal) :
    next.Tracks (Function.update channels pointer (some channel)) where
  apart := by
    have before : ∀ other found, Function.update channels pointer (some channel) other = some found →
        ∃ former, channels other = some former ∧ former.fd = found.fd := by
      intro other found updated
      cases update_cases updated with
      | inl new =>
          obtain ⟨isPointer, isChannel⟩ := new
          rw [isPointer, isChannel, sameFd]
          exact ⟨old, present, rfl⟩
      | inr kept => exact ⟨found, kept.2, rfl⟩
    intro first second left right leftPresent rightPresent sameFds
    obtain ⟨leftFormer, leftBefore, leftFd⟩ := before first left leftPresent
    obtain ⟨rightFormer, rightBefore, rightFd⟩ := before second right rightPresent
    exact tracks.apart first second leftFormer rightFormer leftBefore rightBefore
      (leftFd.trans (sameFds.trans rightFd.symm))
  mirrors := by
    intro other found updated
    cases update_cases updated with
    | inl new =>
        obtain ⟨isPointer, isChannel⟩ := new
        rw [isPointer, isChannel]
        exact here
    | inr kept =>
        have fdNe := tracks.fd_ne present kept.2 kept.1
        exact (tracks.mirrors other found kept.2).same (elsewhere.channelMap _ fdNe) (elsewhere.interest _ fdNe)
  mapped := by
    intro fd found mapped
    by_cases same : fd = old.fd
    · subst same
      rw [← sameFd] at mapped
      cases here.mapped_eq mapped
      exact ⟨channel, Function.update_self .., sameFd⟩
    · rw [elsewhere.channelMap fd same] at mapped
      obtain ⟨former, formerPresent, formerFd⟩ := tracks.mapped fd found mapped
      have apart := ne_some_of_fd present (formerFd.trans_ne same)
      exact ⟨former, update_elsewhere _ formerPresent apart, formerFd⟩
  watched := by
    intro fd event watched
    by_cases same : fd = old.fd
    · exact ⟨pointer, channel, Function.update_self .., sameFd.trans same.symm⟩
    · rw [elsewhere.interest fd same] at watched
      obtain ⟨found, former, formerPresent, formerFd⟩ := tracks.watched fd event watched
      have apart := ne_some_of_fd present (formerFd.trans_ne same)
      exact ⟨found, former, update_elsewhere _ formerPresent apart, formerFd⟩
  legal := legal

/-- A new channel for a descriptor that no living channel has. -/
theorem Tracks.join (tracks : epoller.Tracks channels) (absent : channels pointer = none)
    (index : channel.index = -1)
    (fresh : ∀ other found, channels other = some found → found.fd ≠ channel.fd) :
    epoller.Tracks (Function.update channels pointer (some channel)) where
  apart := by
    intro first second left right leftPresent rightPresent sameFds
    rcases update_cases leftPresent with firstNew | firstKept <;>
      rcases update_cases rightPresent with secondNew | secondKept
    · exact firstNew.1.trans secondNew.1.symm
    · rw [firstNew.2] at sameFds
      exact absurd sameFds.symm (fresh second right secondKept.2)
    · rw [secondNew.2] at sameFds
      exact absurd sameFds (fresh first left firstKept.2)
    · exact tracks.apart first second left right firstKept.2 secondKept.2 sameFds
  mirrors := by
    intro other found updated
    cases update_cases updated with
    | inl new =>
        rw [new.2]
        exact .unknown index (tracks.unmapped fresh) (tracks.unwatched fresh)
    | inr kept => exact tracks.mirrors other found kept.2
  mapped := by
    intro fd found mapped
    obtain ⟨former, present, formerFd⟩ := tracks.mapped fd found mapped
    exact ⟨former, update_elsewhere _ present (by simp [absent]), formerFd⟩
  watched := by
    intro fd event watched
    obtain ⟨found, former, present, formerFd⟩ := tracks.watched fd event watched
    exact ⟨found, former, update_elsewhere _ present (by simp [absent]), formerFd⟩
  legal := tracks.legal

theorem Tracks.leave (tracks : epoller.Tracks channels) (present : channels pointer = some channel)
    (index : channel.index = -1) : epoller.Tracks (Function.update channels pointer none) where
  apart := by
    intro first second left right leftPresent rightPresent sameFds
    rw [Function.update_apply] at leftPresent rightPresent
    split_ifs at leftPresent rightPresent
    exact tracks.apart first second left right leftPresent rightPresent sameFds
  mirrors := by
    intro other found updated
    rw [Function.update_apply] at updated
    split_ifs at updated
    exact tracks.mirrors other found updated
  mapped := by
    intro fd found mapped
    obtain ⟨former, formerPresent, formerFd⟩ := tracks.mapped fd found mapped
    refine ⟨former, update_elsewhere _ formerPresent ?_, formerFd⟩
    intro same
    cases present.symm.trans same
    rw [← formerFd] at mapped
    cases (tracks.mirrors _ _ present).mapped_eq mapped
    exact (tracks.mirrors _ _ present).mapped_iff.mp mapped index
  watched := by
    intro fd event watched
    obtain ⟨found, former, formerPresent, formerFd⟩ := tracks.watched fd event watched
    refine ⟨found, former, update_elsewhere _ formerPresent ?_, formerFd⟩
    intro same
    cases present.symm.trans same
    rw [← formerFd] at watched
    cases tracks.mirrors _ _ present with
    | unknown _ _ unwatched => cases unwatched.symm.trans watched
    | watched isOne => rw [index] at isOne; cases isOne
    | ignored isTwo => rw [index] at isTwo; cases isTwo
  legal := tracks.legal

/-- `updateChannel` on any channel with any new events: it becomes or stays
registered, and nothing else changes. -/
theorem updateChannel_spec (channel : Channel) (tracks : epoller.Tracks channels) (present : channels pointer = some old)
    (sameFd : channel.fd = old.fd) (sameIndex : channel.index = old.index) :
    ∃ next index, epoller.updateChannel pointer channel = .ok (next, { channel with index }) ∧ index ≠ -1 ∧
      next.Tracks (Function.update channels pointer (some { channel with index })) := by
  cases tracks.mirrors pointer old present with
  | unknown index unmapped unwatched =>
      rw [← sameFd] at unmapped unwatched
      refine ⟨_, 1, updateChannel_of_unknown (sameIndex.trans index) unmapped unwatched, by decide,
        tracks.change present sameFd ?_ ?_ ?_⟩
      · rw [← sameFd]
        constructor <;> intro other apart <;> simp [Std.ExtTreeMap.getElem?_insert, apart.symm]
      · exact .watched rfl (by simp) (by simp)
      · exact legal_concat tracks.legal (by simp [EpollCtl.Legal])
  | watched index mapped watched =>
      rw [← sameFd] at mapped watched
      have updated := updateChannel_of_watched pointer (sameIndex.trans index) watched
      cases idle : channel.isNothingFocus with
      | true =>
          rw [idle, if_pos rfl] at updated
          refine ⟨_, 2, updated, by decide, tracks.change present sameFd ?_ ?_ ?_⟩
          · rw [← sameFd]
            constructor <;> intro other apart <;> simp [Std.ExtTreeMap.getElem?_erase, apart.symm]
          · exact .ignored rfl mapped (of_decide_eq_true idle) (by simp)
          · exact legal_concat tracks.legal (by simp [EpollCtl.Legal])
      | false =>
          rw [idle, if_neg Bool.false_ne_true] at updated
          refine ⟨_, channel.index, updated, ?_, tracks.change present sameFd ?_ ?_ ?_⟩
          · rw [sameIndex, index]
            decide
          · rw [← sameFd]
            constructor <;> intro other apart <;> simp [Std.ExtTreeMap.getElem?_insert, apart.symm]
          · exact .watched (sameIndex.trans index) mapped (by simp)
          · exact legal_concat tracks.legal (by simp [EpollCtl.Legal])
  | ignored index mapped idle unwatched =>
      rw [← sameFd] at mapped unwatched
      refine ⟨_, 1, updateChannel_of_ignored (sameIndex.trans index) unwatched, by decide,
        tracks.change present sameFd ?_ ?_ ?_⟩
      · rw [← sameFd]
        constructor <;> intro other apart <;> simp [Std.ExtTreeMap.getElem?_insert, apart.symm]
      · exact .watched rfl mapped (by simp)
      · exact legal_concat tracks.legal (by simp [EpollCtl.Legal])

/-- `removeChannel` on a registered channel without events. The update inside
may register it again; it is forgotten all the same. -/
theorem removeChannel_spec (tracks : epoller.Tracks channels) (present : channels pointer = some channel)
    (registered : channel.index ≠ -1) (idle : channel.events = Channel.noneEvent) :
    ∃ next, epoller.removeChannel pointer channel = .ok (next, { channel with index := -1 }) ∧
      next.Tracks (Function.update channels pointer (some { channel with index := -1 })) := by
  have mapped := (tracks.mirrors pointer channel present).mapped_iff.mpr registered
  have member : channel.fd ∈ epoller.channelMap := by simp [Std.ExtTreeMap.mem_iff_isSome_getElem?, mapped]
  have disabled : channel.disableAll = channel := by
    rw [Channel.disableAll, ← idle]
  obtain ⟨middle, index, updated, stays, middleTracks⟩ :=
    updateChannel_spec channel tracks present rfl rfl
  have here : Function.update channels pointer (some { channel with index }) pointer =
      some { channel with index } := Function.update_self ..
  have mirrors := middleTracks.mirrors pointer _ here
  have middleMapped : middle.channelMap[channel.fd]? = some pointer := mirrors.mapped_iff.mpr stays
  have middleMember : channel.fd ∈ middle.channelMap := by
    simp [Std.ExtTreeMap.mem_iff_isSome_getElem?, middleMapped]
  let erased : Epoller κ := { middle with channelMap := middle.channelMap.erase channel.fd }
  have removed : epoller.removeChannel pointer channel = .ok
      (if index = 1 then erased.update .del pointer { channel with index } else erased,
        { channel with index := -1 }) := by
    have nothing : channel.isNothingFocus = true := decide_eq_true idle
    rw [removeChannel, assert_of member, assert_of mapped, assert_of nothing, disabled, updated]
    simp only [Outcome.ok_bind, assert_of middleMember]
    rfl
  have tracksAfter : ∀ next : Epoller κ, next.channelMap = erased.channelMap →
      (∀ other, other ≠ channel.fd → next.interest[other]? = middle.interest[other]?) →
      next.interest[channel.fd]? = none → (∀ call ∈ next.epollCtls, call.Legal) →
      next.Tracks (Function.update channels pointer (some { channel with index := -1 })) := by
    intro next map others unwatched legal
    have once : Function.update (Function.update channels pointer (some { channel with index })) pointer
        (some { channel with index := -1 }) =
          Function.update channels pointer (some { channel with index := -1 }) := Function.update_idem ..
    rw [← once]
    refine middleTracks.change here rfl ⟨?_, others⟩ (.unknown rfl ?_ unwatched) legal
    · intro other apart
      simp [map, erased, Std.ExtTreeMap.getElem?_erase, apart.symm]
    · simp [map, erased]
  cases mirrors with
  | unknown isNew => exact absurd isNew stays
  | watched isOne _ watched =>
      have erasedWatched : erased.interest[channel.fd]? = some ⟨channel.events, pointer⟩ := watched
      have deleted : erased.epollCtl .del channel.fd ⟨channel.events, pointer⟩ = _ :=
        del_of_present erasedWatched
      have isOne : index = 1 := isOne
      rw [if_pos isOne, update, deleted] at removed
      refine ⟨_, removed, tracksAfter _ rfl ?_ ?_ ?_⟩
      · intro other apart
        simp [erased, Std.ExtTreeMap.getElem?_erase, apart.symm]
      · simp
      · exact legal_concat middleTracks.legal (by simp [EpollCtl.Legal])
  | ignored isTwo _ _ unwatched =>
      have notOne : index ≠ 1 := by
        intro isOne
        rw [show index = 2 from isTwo] at isOne
        cases isOne
      rw [if_neg notOne] at removed
      exact ⟨_, removed, tracksAfter _ rfl (fun _ _ => rfl) unwatched middleTracks.legal⟩

end Epoller

/-- An epoller and all the channels that were made for it. -/
structure EpollerSession (κ : Type) where
  epoller : Epoller κ
  channels : κ → Channel

inductive EpollerOp (κ : Type) where
  | change (pointer : κ) (change : Channel.Change)
  | removeChannel (pointer : κ)
  deriving DecidableEq, Repr

namespace EpollerSession

variable {κ : Type} [DecidableEq κ]

def new (fds : κ → Nat) : EpollerSession κ where
  epoller := Epoller.new
  channels pointer := Channel.new (fds pointer)

/-- What `removeChannel` asserts of its channel. -/
def Allowed (session : EpollerSession κ) : EpollerOp κ → Prop
  | .change _ _ => True
  | .removeChannel pointer =>
      session.epoller.channelMap[(session.channels pointer).fd]? = some pointer ∧
        (session.channels pointer).isNothingFocus = true

instance decidableAllowed (session : EpollerSession κ) : ∀ op, Decidable (session.Allowed op)
  | .change _ _ => isTrue trivial
  | .removeChannel pointer => inferInstanceAs (Decidable
      (session.epoller.channelMap[(session.channels pointer).fd]? = some pointer ∧
        (session.channels pointer).isNothingFocus = true))

def store (session : EpollerSession κ) (pointer : κ) (result : Epoller κ × Channel) : EpollerSession κ where
  epoller := result.1
  channels := Function.update session.channels pointer result.2

def perform (session : EpollerSession κ) : EpollerOp κ → Outcome (EpollerSession κ)
  | .change pointer change => do
      let result ← session.epoller.updateChannel pointer ((session.channels pointer).change change)
      return session.store pointer result
  | .removeChannel pointer => do
      let result ← session.epoller.removeChannel pointer (session.channels pointer)
      return session.store pointer result

def step (session : EpollerSession κ) (op : EpollerOp κ) : Option (EpollerSession κ) :=
  if session.Allowed op then (session.perform op).toOption else none

/-- Index, map and epoll set agree on every channel, and no call has failed. -/
structure Mirrored (session : EpollerSession κ) : Prop where
  mirrors : ∀ pointer, session.epoller.Mirrors pointer (session.channels pointer)
  legal : ∀ call ∈ session.epoller.epollCtls, call.Legal

def Tracked (session : EpollerSession κ) : Prop :=
  session.epoller.Tracks fun pointer => some (session.channels pointer)

variable {session next : EpollerSession κ} {op : EpollerOp κ}

omit [DecidableEq κ] in
private theorem Tracked.mirrored (tracked : session.Tracked) : session.Mirrored where
  mirrors pointer := tracked.mirrors pointer _ rfl
  legal := tracked.legal

private theorem store_tracked {pointer : κ} {epoller : Epoller κ} {channel : Channel}
    (tracks : epoller.Tracks
      (Function.update (fun other => some (session.channels other)) pointer (some channel))) :
    (session.store pointer (epoller, channel)).Tracked := by
  have stored : (fun other => some ((session.store pointer (epoller, channel)).channels other)) =
      Function.update (fun other => some (session.channels other)) pointer (some channel) := by
    funext other
    exact Function.apply_update (fun _ found => some found) session.channels pointer channel other
  rw [Tracked, stored]
  exact tracks

theorem perform_tracked (tracked : session.Tracked) (allowed : session.Allowed op) :
    ∃ next, session.perform op = .ok next ∧ next.Tracked := by
  cases op with
  | change pointer change =>
      obtain ⟨epoller, index, updated, -, tracks⟩ := Epoller.updateChannel_spec
        ((session.channels pointer).change change) tracked rfl
        (Channel.fd_change ..) (Channel.index_change ..)
      refine ⟨_, ?_, store_tracked tracks⟩
      rw [perform, updated]
      rfl
  | removeChannel pointer =>
      obtain ⟨mapped, idle⟩ := allowed
      have registered := (tracked.mirrors pointer _ rfl).mapped_iff.mp mapped
      obtain ⟨epoller, removed, tracks⟩ :=
        Epoller.removeChannel_spec tracked rfl registered (of_decide_eq_true idle)
      refine ⟨_, ?_, store_tracked tracks⟩
      rw [perform, removed]
      rfl

theorem step_eq_some_iff : step session op = some next ↔ session.Allowed op ∧ session.perform op = .ok next :=
  Outcome.ite_toOption_eq_some_iff

private theorem step_tracked (tracked : session.Tracked) (stepped : step session op = some next) : next.Tracked := by
  obtain ⟨allowed, performed⟩ := step_eq_some_iff.mp stepped
  obtain ⟨other, same, nextTracked⟩ := perform_tracked tracked allowed
  cases performed.symm.trans same
  exact nextTracked

/-- From unregistered channels with distinct descriptors, in any order of
operations: each of them succeeds, and after each of them the index of every
channel, the map and the epoll set say the same, and every `epoll_ctl` so far
was legal. -/
theorem always_mirrored (fds : κ → Nat) (apart : Function.Injective fds) (ops : List (EpollerOp κ))
    (allowed : Along step Allowed (new fds) ops) :
    (∃ final, run step (new fds) ops = some final) ∧ Throughout step Mirrored (new fds) ops := by
  have start : (new fds).Tracked := by
    refine Epoller.new_tracks ?_ ?_
    · intro pointer other channel found isChannel isFound same
      cases isChannel
      cases isFound
      exact apart same
    · intro pointer channel isChannel
      cases isChannel
      rfl
  obtain ⟨final, ran, -⟩ := run_total (fun _ session => session.Tracked) start
    (fun past session op tracked isAllowed => by
      obtain ⟨next, performed, nextTracked⟩ := perform_tracked tracked isAllowed
      exact ⟨next, step_eq_some_iff.mpr ⟨isAllowed, performed⟩, nextTracked⟩) allowed
  refine ⟨⟨final, ran⟩, throughout_of_along Tracked Mirrored start ?_ ?_ allowed⟩
  · intro session tracked
    exact tracked.mirrored
  · intro session op next tracked isAllowed stepped
    exact step_tracked tracked stepped

/-- The second `disableAll` registers the channel again, and `removeChannel`
takes it out. -/
theorem always_mirrored_repeated :
    Throughout step Mirrored (new fun pointer : Nat => pointer + 3)
      [.change 0 .enableReading, .change 1 .enableReading, .change 0 .disableAll, .change 0 .disableAll,
        .removeChannel 0, .change 1 .enableWriting, .change 0 .disableWriting] :=
  (always_mirrored (fun pointer : Nat => pointer + 3) (add_left_injective 3)
    [.change 0 .enableReading, .change 1 .enableReading, .change 0 .disableAll, .change 0 .disableAll,
      .removeChannel 0, .change 1 .enableWriting, .change 0 .disableWriting] (by decide +kernel)).2

end EpollerSession

end NutServer.Net
