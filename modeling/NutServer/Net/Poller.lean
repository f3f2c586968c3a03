import NutServer.Net.Channel

/-!
# The poll back end

`nut::Poller`. As for the epoll back end, a pointer to a channel is a value of
the type `κ`.
-/

set_option autoImplicit false

namespace NutServer.Net

/-- `struct pollfd`. An entry whose descriptor is negative is skipped by `poll`. -/
structure PollFd where
  fd : Int
  events : BitVec 16
  revents : BitVec 16
  deriving DecidableEq, Repr

structure Poller (κ : Type) where
  pollfds : List PollFd
  channels : Std.ExtTreeMap Nat κ

namespace Poller

variable {κ : Type}

def new : Poller κ where
  pollfds := []
  channels := ∅

/-- `-fd - 1`. -/
def ignoredFd (channel : Channel) : Int := -(channel.fd : Int) - 1

/-- A new one, added to `pollfds_`. -/
def addChannel (poller : Poller κ) (pointer : κ) (channel : Channel) : Outcome (Poller κ × Channel) := do
  assert (channel.fd ∉ poller.channels)
  let pfd : PollFd := { fd := channel.fd, events := channel.events.setWidth 16, revents := 0 }
  return ({ pollfds := poller.pollfds ++ [pfd], channels := poller.channels.insert channel.fd pointer },
    { channel with index := poller.pollfds.length })

/-- The entry of a channel after an update. -/
def refresh (channel : Channel) (pfd : PollFd) : PollFd where
  fd := if channel.isNothingFocus then ignoredFd channel else pfd.fd
  events := channel.events.setWidth 16
  revents := 0

variable [DecidableEq κ]

/-- Update the existing one. -/
def updateExisting (poller : Poller κ) (pointer : κ) (channel : Channel) : Outcome (Poller κ) := do
  assert (channel.fd ∈ poller.channels)
  assert (poller.channels[channel.fd]? = some pointer)
  match poller.pollfds[channel.index.toNat]? with
  | none => throw .assertion
  | some pfd =>
      assert (pfd.fd = channel.fd ∨ pfd.fd = ignoredFd channel)
      return { poller with pollfds := poller.pollfds.set channel.index.toNat (refresh channel pfd) }

def updateChannel (poller : Poller κ) (pointer : κ) (channel : Channel) : Outcome (Poller κ × Channel) :=
  if channel.index < 0 then poller.addChannel pointer channel
  else return (← poller.updateExisting pointer channel, channel)

end Poller

end NutServer.Net
