import NutServer.Library.Dense
import NutServer.Net.PollerProperties

/-!
# Removal from `pollfds_`

`Poller::removeChannel`, `fillActiveChannels` and `poll`. A process has fewer
than 2^31 descriptors, so that a place in `pollfds_` is an `int`.
-/

set_option autoImplicit false

namespace NutServer.Net

open Library

namespace Poller

variable {κ : Type}

/-- `channels_.find(fd)`: the keys of the map are not negative. -/
def find (channels : Std.ExtTreeMap Nat κ) (fd : Int) : Option κ :=
  if 0 ≤ fd then channels[fd.toNat]? else none

variable [DecidableEq κ]

/-- `channels` is what the pointers point to. -/
def removeChannel (poller : Poller κ) (channels : κ → Channel) (pointer : κ) :
    Outcome (Poller κ × (κ → Channel)) := do
  let channel := channels pointer
  assert (channel.fd ∈ poller.channels)
  assert (poller.channels[channel.fd]? = some pointer)
  let idx := channel.index.toNat
  assert (0 ≤ channel.index ∧ idx < poller.pollfds.length)
  let pfd ← demand poller.pollfds[idx]? .assertion
  assert (pfd.fd = ignoredFd channel ∧ pfd.events.signExtend 32 = channel.events)
  let remaining := poller.channels.erase channel.fd
  if idx = poller.pollfds.length - 1 then
    return ({ pollfds := poller.pollfds.dropLast, channels := remaining }, channels)
  else do
    let back ← demand poller.pollfds.getLast? .range
    let channelAtEnd := if back.fd < 0 then -back.fd - 1 else back.fd
    -- `channels_[channelAtEnd]` makes a null pointer where the key is not found.
    let moved ← demand (find remaining channelAtEnd) .dangling
    return ({ pollfds := (swapCells poller.pollfds idx (poller.pollfds.length - 1)).dropLast, channels := remaining },
      Function.update channels moved { channels moved with index := idx })

/-- The turns of the loop in `fillActiveChannels` from an entry on. -/
def fillFrom (poller : Poller κ) : List PollFd → Nat → (κ → Channel) → List κ → Outcome ((κ → Channel) × List κ)
  | [], _, channels, activeChannels => return (channels, activeChannels)
  | pfd :: rest, numEvents, channels, activeChannels =>
      if 0 < numEvents then
        if 0 < pfd.revents.toInt then do
          let channel ← demand (find poller.channels pfd.fd) .assertion
          assert ((channels channel).fd = pfd.fd)
          let stored := { channels channel with revents := pfd.revents.signExtend 32 }
          poller.fillFrom rest (numEvents - 1) (Function.update channels channel stored) (activeChannels ++ [channel])
        else poller.fillFrom rest numEvents channels activeChannels
      else return (channels, activeChannels)

def fillActiveChannels (poller : Poller κ) (numEvents : Nat) (channels : κ → Channel) (activeChannels : List κ) :
    Outcome ((κ → Channel) × List κ) :=
  poller.fillFrom poller.pollfds numEvents channels activeChannels

omit [DecidableEq κ] in
/-- `poll(2)`: `revents` is set in the entries that are not skipped. -/
def answered (poller : Poller κ) (answer : Nat → BitVec 16) : Poller κ :=
  { poller with
    pollfds := poller.pollfds.mapIdx fun slot pfd => if pfd.fd < 0 then pfd else { pfd with revents := answer slot } }

omit [DecidableEq κ] in
/-- The value that `poll(2)` returns. -/
def numEvents (poller : Poller κ) : Nat :=
  poller.pollfds.countP fun pfd => 0 ≤ pfd.fd ∧ pfd.revents ≠ 0

/-- `Poller::poll`, where `poll(2)` does not fail. -/
def poll (poller : Poller κ) (answer : Nat → BitVec 16) (channels : κ → Channel) (activeChannels : List κ) :
    Outcome (Poller κ × (κ → Channel) × List κ) := do
  let polled := poller.answered answer
  if 0 < polled.numEvents then
    return (polled, ← polled.fillActiveChannels polled.numEvents channels activeChannels)
  else return (polled, channels, activeChannels)

end Poller

/-- A call of the loop. Before `updateChannel` the channel's events are set. -/
inductive PollerCall (κ : Type) where
  | update (pointer : κ) (events : BitVec 32)
  | remove (pointer : κ)
  | poll (answer : Nat → BitVec 16)

/-- The poller, the channels and which of them have been removed. -/
structure PollerUse (κ : Type) where
  poller : Poller κ
  channels : κ → Channel
  removed : List κ

namespace PollerUse

variable {κ : Type}

def new (fds : κ → Nat) : PollerUse κ where
  poller := .new
  channels pointer := .new (fds pointer)
  removed := []

variable [DecidableEq κ]

def update (use : PollerUse κ) (pointer : κ) (events : BitVec 32) : Outcome (PollerUse κ) := do
  let updated ← use.poller.updateChannel pointer { use.channels pointer with events }
  return { use with poller := updated.1, channels := Function.update use.channels pointer updated.2 }

def remove (use : PollerUse κ) (pointer : κ) : Outcome (PollerUse κ) := do
  let left ← use.poller.removeChannel use.channels pointer
  return { poller := left.1, channels := left.2, removed := pointer :: use.removed }

def poll (use : PollerUse κ) (answer : Nat → BitVec 16) : Outcome (PollerUse κ) := do
  let polled ← use.poller.poll answer use.channels []
  return { use with poller := polled.1, channels := polled.2.1 }

def perform (use : PollerUse κ) : PollerCall κ → Outcome (PollerUse κ)
  | .update pointer events => use.update pointer events
  | .remove pointer => use.remove pointer
  | .poll answer => use.poll answer

def step (use : PollerUse κ) (call : PollerCall κ) : Option (PollerUse κ) := (use.perform call).toOption

/-- A channel that is new is added under a descriptor that is not in use, one
that is removed has its entry switched off, and is not updated again. -/
def Allowed (use : PollerUse κ) : PollerCall κ → Prop
  | .update pointer _ =>
      pointer ∉ use.removed ∧
        ((use.channels pointer).index < 0 → (use.channels pointer).fd ∉ use.poller.channels)
  | .remove pointer =>
      let channel := use.channels pointer
      use.poller.channels[channel.fd]? = some pointer ∧
        (use.poller.entryOf channel).any fun pfd =>
          pfd.fd = Poller.ignoredFd channel ∧ pfd.events.signExtend 32 = channel.events
  | .poll _ => True

instance decidableAllowed (use : PollerUse κ) : (call : PollerCall κ) → Decidable (use.Allowed call)
  | .update pointer _ =>
      inferInstanceAs (Decidable (pointer ∉ use.removed ∧
        ((use.channels pointer).index < 0 → (use.channels pointer).fd ∉ use.poller.channels)))
  | .remove pointer =>
      inferInstanceAs (Decidable (use.poller.channels[(use.channels pointer).fd]? = some pointer ∧
        (use.poller.entryOf (use.channels pointer)).any fun pfd =>
          pfd.fd = Poller.ignoredFd (use.channels pointer) ∧
            pfd.events.signExtend 32 = (use.channels pointer).events))
  | .poll _ => isTrue trivial

end PollerUse

end NutServer.Net
