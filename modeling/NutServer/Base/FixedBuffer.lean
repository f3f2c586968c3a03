import NutServer.Base.Outcome

/-!
# The log buffer

`nut::FixedBuffer<SIZE>`: an array that is filled from its start. The bytes
behind the cursor are never read, so they are left out.
-/

set_option autoImplicit false

namespace NutServer.Base

/-- The bytes in front of `cur_`, which lie inside the array. -/
structure FixedBuffer (SIZE : Nat) where
  data : Bytes
  fits : data.length ≤ SIZE
  deriving DecidableEq, Repr

def SmallBuffer : Nat := 4000

/-- `static_cast<int>` of a `size_t`. -/
def castInt (len : Nat) : Int := (BitVec.ofNat 32 len).toInt

theorem castInt_of_lt {len : Nat} (small : len < 2 ^ 31) : castInt len = len := by
  rw [castInt, BitVec.toInt_eq_toNat_bmod, BitVec.toNat_ofNat, Int.bmod_def]
  omega

namespace FixedBuffer

variable {SIZE : Nat}

def new : FixedBuffer SIZE := ⟨[], Nat.zero_le _⟩

def length (buffer : FixedBuffer SIZE) : Nat := buffer.data.length

def avail (buffer : FixedBuffer SIZE) : Int := SIZE - buffer.data.length

def reset (_ : FixedBuffer SIZE) : FixedBuffer SIZE := new

/-- A text that passes the room test but ends behind the array is a `range` fault. -/
def append (buffer : FixedBuffer SIZE) (buf : Bytes) : Outcome (FixedBuffer SIZE) :=
  if castInt buf.length < buffer.avail then
    if inside : (buffer.data ++ buf).length ≤ SIZE then .ok ⟨buffer.data ++ buf, inside⟩
    else .error .range
  else .ok buffer

theorem append_spec {buffer : FixedBuffer SIZE} {buf : Bytes} (small : buf.length < 2 ^ 31)
    (room : (buf.length : Int) < buffer.avail) :
    ∃ next, buffer.append buf = .ok next ∧ next.data = buffer.data ++ buf := by
  have inside : (buffer.data ++ buf).length ≤ SIZE := by
    rw [avail] at room
    rw [List.length_append]
    omega
  refine ⟨⟨buffer.data ++ buf, inside⟩, ?_, rfl⟩
  rw [append, castInt_of_lt small, if_pos room, dif_pos inside]

/-- A text whose length an `int` can hold is appended or dropped. -/
theorem append_total (buffer : FixedBuffer SIZE) {buf : Bytes} (small : buf.length < 2 ^ 31) :
    ∃ next, buffer.append buf = .ok next := by
  by_cases room : (buf.length : Int) < buffer.avail
  · obtain ⟨next, appended, _⟩ := append_spec small room
    exact ⟨next, appended⟩
  · refine ⟨buffer, ?_⟩
    rw [append, castInt_of_lt small, if_neg room]

/-- An empty buffer takes a text that is shorter than itself, and drops any other. -/
theorem append_empty {buffer next : FixedBuffer SIZE} {buf : Bytes} (narrow : SIZE < 2 ^ 31)
    (empty : buffer.data = []) (appended : buffer.append buf = .ok next) :
    next.data = if buf.length < SIZE then buf else [] := by
  have avail : buffer.avail = SIZE := by
    rw [FixedBuffer.avail, empty, List.length_nil]
    omega
  split_ifs with short
  · have room : (buf.length : Int) < buffer.avail := by omega
    obtain ⟨other, same, data⟩ := append_spec (short.trans narrow) room
    cases appended.symm.trans same
    rw [data, empty, List.nil_append]
  · unfold append at appended
    split_ifs at appended with admitted inside
    · rw [empty, List.nil_append] at inside
      have isInt : castInt buf.length = buf.length := castInt_of_lt (by omega)
      omega
    · cases appended
      exact empty

end FixedBuffer

end NutServer.Base
