import NutServer.Net.Channel

/-!
# The epoll back end

`nut::Epoller` and the epoll set of the kernel behind `epollfd_`. A pointer to a
channel is a value of the type `κ`; the channel it points to is passed beside it.
-/

set_option autoImplicit false

namespace NutServer.Net

/-- `struct epoll_event`. -/
structure EpollEvent (κ : Type) where
  events : BitVec 32
  ptr : κ
  deriving DecidableEq, Repr

inductive EpollOperation where
  | add
  | mod
  | del
  deriving DecidableEq, Repr

/-- A call of `epoll_ctl`, and whether the epoll set held the descriptor before. -/
structure EpollCtl where
  operation : EpollOperation
  fd : Nat
  present : Bool
  deriving DecidableEq, Repr

/-- Only an absent descriptor is added, and only a present one changed or deleted. -/
def EpollCtl.Legal (call : EpollCtl) : Prop := call.operation = .add ↔ call.present = false

structure Epoller (κ : Type) where
  /-- `ChannelMap_`. -/
  channelMap : Std.ExtTreeMap Nat κ
  /-- The epoll set of the kernel. -/
  interest : Std.ExtTreeMap Nat (EpollEvent κ)
  epollCtls : List EpollCtl

namespace Epoller

variable {κ : Type}

def new : Epoller κ where
  channelMap := ∅
  interest := ∅
  epollCtls := []

/-- A call that is not legal fails and changes nothing. -/
def epollCtl (epoller : Epoller κ) (operation : EpollOperation) (fd : Nat) (event : EpollEvent κ) : Epoller κ :=
  { epoller with
    interest :=
      match operation with
      | .add => if fd ∈ epoller.interest then epoller.interest else epoller.interest.insert fd event
      | .mod => if fd ∈ epoller.interest then epoller.interest.insert fd event else epoller.interest
      | .del => epoller.interest.erase fd
    epollCtls := epoller.epollCtls ++ [⟨operation, fd, decide (fd ∈ epoller.interest)⟩] }

def update (epoller : Epoller κ) (operation : EpollOperation) (pointer : κ) (channel : Channel) : Epoller κ :=
  epoller.epollCtl operation channel.fd ⟨channel.events, pointer⟩

/-- A channel of index -1 enters `ChannelMap_`. -/
def enter (epoller : Epoller κ) (pointer : κ) (channel : Channel) : Outcome (Epoller κ) :=
  if channel.index = -1 then do
    assert (channel.fd ∉ epoller.channelMap)
    return { epoller with channelMap := epoller.channelMap.insert channel.fd pointer }
  else return epoller

def updateChannel (epoller : Epoller κ) (pointer : κ) (channel : Channel) : Outcome (Epoller κ × Channel) :=
  if channel.index = -1 ∨ channel.index = 2 then do
    let epoller ← epoller.enter pointer channel
    let channel := { channel with index := 1 }
    return (epoller.update .add pointer channel, channel)
  else if channel.isNothingFocus then
    return (epoller.update .del pointer channel, { channel with index := 2 })
  else return (epoller.update .mod pointer channel, channel)

variable [DecidableEq κ]

/-- `disableAll` on the way updates the channel once more. -/
def removeChannel (epoller : Epoller κ) (pointer : κ) (channel : Channel) : Outcome (Epoller κ × Channel) := do
  assert (channel.fd ∈ epoller.channelMap)
  assert (epoller.channelMap[channel.fd]? = some pointer)
  assert channel.isNothingFocus
  let (epoller, channel) ← epoller.updateChannel pointer channel.disableAll
  assert (channel.fd ∈ epoller.channelMap)
  let erased := { epoller with channelMap := epoller.channelMap.erase channel.fd }
  let deleted := if channel.index = 1 then erased.update .del pointer channel else erased
  return (deleted, { channel with index := -1 })

end Epoller

end NutServer.Net
