import NutServer.Base.Outcome
import NutServer.Library.Machine

/-!
# The pool of I/O threads

`nut::EventLoopThreadPool` and the pointers it hands out. A loop belongs to the
thread that runs it, so a thread is named by its loop.
-/

set_option autoImplicit false

namespace NutServer.Net

open Library

/-- `EventLoop*`. -/
inductive LoopPtr where
  /-- The loop that the pool and the server were given. -/
  | base
  /-- The loop of the pool's thread with this number, which `startLoop()` returned. -/
  | io (index : Nat)
  deriving DecidableEq, Repr

def LoopPtr.assertInLoopThread (loop thread : LoopPtr) : Outcome Unit := assert (loop = thread)

structure EventLoopThreadPool where
  baseLoop : LoopPtr
  started : Bool
  numThreads : Int
  next : Nat
  loops : List LoopPtr
  deriving DecidableEq, Repr

namespace EventLoopThreadPool

def new (baseLoop : LoopPtr) : EventLoopThreadPool where
  baseLoop := baseLoop
  started := false
  numThreads := 0
  next := 0
  loops := []

def setThreadNum (pool : EventLoopThreadPool) (numThreads : Int) : EventLoopThreadPool :=
  { pool with numThreads }

def start (pool : EventLoopThreadPool) (thread : LoopPtr) : Outcome EventLoopThreadPool := do
  assert (!pool.started)
  pool.baseLoop.assertInLoopThread thread
  return { pool with
    started := true
    loops := pool.loops ++ (List.range pool.numThreads.toNat).map .io }

def getNextLoop (pool : EventLoopThreadPool) (thread : LoopPtr) :
    Outcome (LoopPtr × EventLoopThreadPool) := do
  pool.baseLoop.assertInLoopThread thread
  if pool.loops = [] then return (pool.baseLoop, pool)
  else
    match pool.loops[pool.next]? with
    | none => throw .range
    | some loop =>
        let next := pool.next + 1
        return (loop, { pool with next := if pool.loops.length ≤ next then 0 else next })

/-- So many loops have been handed out by a pool of so many threads. -/
structure Serving (threads given : Nat) (pool : EventLoopThreadPool) : Prop where
  base : pool.baseLoop = .base
  loops : pool.loops = (List.range threads).map .io
  cursor : pool.next = given % threads

variable {pool next : EventLoopThreadPool} {threads given : Nat}

theorem start_serving (numThreads : Int) :
    ∃ pool, ((new .base).setThreadNum numThreads).start .base = .ok pool ∧
      Serving numThreads.toNat 0 pool :=
  ⟨_, rfl, rfl, by simp [setThreadNum, new], by simp [setThreadNum, new]⟩

/-- The cursor walks round the threads. -/
theorem getNextLoop_serving (serving : Serving threads given pool) (some : 0 < threads) :
    ∃ next, pool.getNextLoop .base = .ok (.io (given % threads), next) ∧ Serving threads (given + 1) next := by
  have inside := Nat.mod_lt given some
  have size : pool.loops.length = threads := by simp [serving.loops]
  have nonempty : pool.loops ≠ [] := List.ne_nil_of_length_pos (by omega)
  have here : pool.loops[pool.next]? = Option.some (.io (given % threads)) := by
    rw [serving.cursor, serving.loops, List.getElem?_map, List.getElem?_range inside]
    rfl
  refine ⟨{ pool with next := if pool.loops.length ≤ pool.next + 1 then 0 else pool.next + 1 }, ?_,
    serving.base, serving.loops, ?_⟩
  · rw [getNextLoop, serving.base, LoopPtr.assertInLoopThread, assert_of rfl, Outcome.ok_bind,
      if_neg nonempty, here]
    rfl
  · have around : (given % threads + 1) % threads = (given + 1) % threads := Nat.mod_add_mod _ _ _
    simp only [size, serving.cursor]
    rw [← around]
    split_ifs with last
    · have whole : given % threads + 1 = threads := Nat.le_antisymm inside last
      rw [whole, Nat.mod_self]
    · exact (Nat.mod_eq_of_lt (by omega)).symm

theorem getNextLoop_unstarted (empty : pool.loops = []) (base : pool.baseLoop = .base) :
    pool.getNextLoop .base = .ok (.base, pool) := by
  rw [getNextLoop, base, LoopPtr.assertInLoopThread, assert_of rfl, Outcome.ok_bind, if_pos empty]
  rfl

/-- The loops that so many calls return. -/
def handOut (thread : LoopPtr) : Nat → EventLoopThreadPool → Outcome (List LoopPtr)
  | 0, _ => return []
  | count + 1, pool => do
      let (loop, pool) ← pool.getNextLoop thread
      return loop :: (← handOut thread count pool)

/-- A started pool hands its loops out in turn. -/
theorem handOut_serving (serving : Serving threads given pool) (some : 0 < threads) (count : Nat) :
    handOut .base count pool = .ok ((List.range' given count).map fun call => .io (call % threads)) := by
  induction count generalizing given pool with
  | zero => rfl
  | succ count ih =>
      obtain ⟨next, got, nextServing⟩ := getNextLoop_serving serving some
      simp only [handOut, got, Outcome.ok_bind, ih nextServing, List.range'_succ]
      rfl

end EventLoopThreadPool

end NutServer.Net
