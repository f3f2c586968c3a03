import NutServer.Net.Buffer
import NutServer.Library.Machine

/-! The buffer keeps its indices in order and shows the operations of a byte
queue: bytes enter at the back, or at the front by `prepend`, and leave at the
front. No assertion of the class fails while the preconditions are met. -/

set_option autoImplicit false

namespace NutServer.Net

open Library

namespace Buffer

/-- The index order that every operation relies on. The vector never loses the
room in front of the first byte. -/
structure Valid (buf : Buffer) : Prop where
  ordered : buf.readerIndex ≤ buf.writerIndex
  bounded : buf.writerIndex ≤ buf.buffer.length
  roomy : kCheapPrepend ≤ buf.buffer.length

def readable (buf : Buffer) : Bytes :=
  slice buf.buffer buf.readerIndex buf.writerIndex

theorem length_fresh : fresh.buffer.length = kCheapPrepend + kInitialSize := List.length_replicate

theorem fresh_valid : fresh.Valid :=
  ⟨Nat.le_refl _, length_fresh ▸ Nat.le_add_right _ _, length_fresh ▸ Nat.le_add_right _ _⟩

@[simp] theorem fresh_readable : fresh.readable = [] := slice_self

theorem new_eq_fresh : new = .ok fresh := by
  have empty : fresh.readableBytes = 0 := sizeSub_of_le (Nat.le_refl _)
  have writable : fresh.writableBytes = kInitialSize := by
    rw [writableBytes, length_fresh]
    rfl
  have front : fresh.prependableBytes = kCheapPrepend := rfl
  rw [new, assert_of empty, assert_of writable, assert_of front]
  rfl

variable {buf : Buffer}

namespace Valid

theorem readableBytes_eq (valid : buf.Valid) :
    buf.readableBytes = buf.writerIndex - buf.readerIndex := sizeSub_of_le valid.ordered

private theorem writableBytes_eq (valid : buf.Valid) :
    buf.writableBytes = buf.buffer.length - buf.writerIndex := sizeSub_of_le valid.bounded

@[simp] theorem length_readable (valid : buf.Valid) : buf.readable.length = buf.readableBytes := by
  have bounded := valid.bounded
  rw [valid.readableBytes_eq, readable, length_slice]
  omega

theorem readable_eq_nil_iff (valid : buf.Valid) : buf.readable = [] ↔ buf.readableBytes = 0 := by
  rw [← valid.length_readable, List.length_eq_zero_iff]

private theorem peek_add_readableBytes (valid : buf.Valid) :
    buf.peek + buf.readableBytes = buf.writerIndex := by
  have ordered := valid.ordered
  rw [valid.readableBytes_eq, peek]
  omega

end Valid

theorem store_spec {cells data : Bytes} {position : Nat} (fits : position + data.length ≤ cells.length) :
    store cells position data = .ok (overwrite cells position data) := if_pos fits

theorem bytesBetween_spec (valid : buf.Valid) :
    bytesBetween buf.buffer buf.peek (buf.peek + buf.readableBytes) = .ok buf.readable := by
  have ordered := valid.ordered
  have bounded := valid.bounded
  rw [valid.peek_add_readableBytes, bytesBetween, if_pos ⟨ordered, bounded⟩]
  rfl

private theorem resize_spec {cells : Bytes} {size : Nat} (grows : cells.length ≤ size) :
    resize cells size = cells ++ List.replicate (size - cells.length) 0 := by
  rw [resize, List.take_of_length_le grows]

/-- Growing and sliding both keep the readable bytes and make room for `len`.
The slide is taken only when the reader index lies behind the reserved front. -/
theorem makeSpace_spec (valid : buf.Valid) {len : Nat} (short : buf.writableBytes < len) :
    ∃ next, buf.makeSpace len = .ok next ∧ next.Valid ∧ next.readable = buf.readable ∧
      next.writerIndex + len ≤ next.buffer.length := by
  have ordered := valid.ordered
  have bounded := valid.bounded
  have roomy := valid.roomy
  have writable := valid.writableBytes_eq
  unfold makeSpace
  split_ifs with grow
  · have grows : buf.buffer.length ≤ buf.writerIndex + len := by omega
    have size : (resize buf.buffer (buf.writerIndex + len)).length = buf.writerIndex + len := by
      rw [resize_spec grows, List.length_append, List.length_replicate]
      omega
    refine ⟨_, rfl, ⟨ordered, ?_, ?_⟩, ?_, ?_⟩
    · simp only [size]
      omega
    · simp only [size]
      omega
    · simp only [readable, resize_spec grows]
      exact slice_append_right _ bounded
    · simp only [size, Nat.le_refl]
  · rw [prependableBytes] at grow
    have behind : kCheapPrepend < buf.readerIndex := by omega
    have whole : buf.readerIndex + (buf.writerIndex - buf.readerIndex) = buf.writerIndex := by omega
    have stored : (slice buf.buffer buf.readerIndex buf.writerIndex).length = buf.readableBytes := by
      simpa [readable] using valid.length_readable
    have slid := copyForward_eq_overwrite buf.buffer (buf.writerIndex - buf.readerIndex)
      behind.le (by omega)
    rw [whole] at slid
    have lengthKept : (overwrite buf.buffer kCheapPrepend
        (slice buf.buffer buf.readerIndex buf.writerIndex)).length = buf.buffer.length :=
      length_overwrite (by rw [stored, valid.readableBytes_eq]; omega)
    have readableEq := valid.readableBytes_eq
    refine ⟨{ buf with
      buffer := overwrite buf.buffer kCheapPrepend (slice buf.buffer buf.readerIndex buf.writerIndex)
      readerIndex := kCheapPrepend
      writerIndex := kCheapPrepend + buf.readableBytes }, ?_, ⟨?_, ?_, ?_⟩, ?_, ?_⟩
    · rw [assert_of behind, slid]
      simp [readableBytes, sizeSub, assert, pure, Except.pure]
    · simp
    · simp only [lengthKept]
      omega
    · simpa only [lengthKept] using roomy
    · simp only [readable]
      rw [← stored]
      exact slice_overwrite_self _ (by omega)
    · simp only [lengthKept]
      omega

theorem ensureWritableBytes_spec (valid : buf.Valid) (len : Nat) :
    ∃ next, buf.ensureWritableBytes len = .ok next ∧ next.Valid ∧ next.readable = buf.readable ∧
      next.writerIndex + len ≤ next.buffer.length := by
  unfold ensureWritableBytes
  split_ifs with short
  · obtain ⟨next, made, nextValid, kept, room⟩ := makeSpace_spec valid short
    have enough : len ≤ next.writableBytes := by
      rw [nextValid.writableBytes_eq]
      omega
    exact ⟨next, by simp [made, assert_of enough, pure, Except.pure], nextValid, kept, room⟩
  · have enough : len ≤ buf.writableBytes := Nat.le_of_not_lt short
    have bounded := valid.bounded
    refine ⟨buf, by simp [assert_of enough, pure, Except.pure], valid, rfl, ?_⟩
    rw [valid.writableBytes_eq] at enough
    omega

private theorem written_spec (valid : buf.Valid) {data : Bytes}
    (room : buf.writerIndex + data.length ≤ buf.buffer.length) :
    let next := { buf with
      buffer := overwrite buf.buffer buf.writerIndex data
      writerIndex := buf.writerIndex + data.length }
    next.Valid ∧ next.readable = buf.readable ++ data := by
  have ordered := valid.ordered
  have bounded := valid.bounded
  have size := length_overwrite room
  refine ⟨⟨?_, ?_, ?_⟩, ?_⟩
  · simp only
    omega
  · simpa only [size] using room
  · simpa only [size] using valid.roomy
  · simp only [readable]
    rw [← slice_append buf.writerIndex (by omega) (by omega),
      slice_overwrite_self _ bounded, slice_overwrite_frame _ bounded (Or.inl (Nat.le_refl _))]

theorem append_spec (valid : buf.Valid) (data : Bytes) :
    ∃ next, buf.append data = .ok next ∧ next.Valid ∧ next.readable = buf.readable ++ data := by
  obtain ⟨roomy, ensured, roomyValid, kept, room⟩ := ensureWritableBytes_spec valid data.length
  obtain ⟨nextValid, added⟩ := written_spec roomyValid room
  refine ⟨_, ?_, nextValid, by rw [added, kept]⟩
  simp [append, ensured, beginWrite, store_spec room, hasWritten, pure, Except.pure]

theorem prepend_spec (valid : buf.Valid) {data : Bytes} (room : data.length ≤ buf.prependableBytes) :
    ∃ next, buf.prepend data = .ok next ∧ next.Valid ∧ next.readable = data ++ buf.readable := by
  have ordered := valid.ordered
  have bounded := valid.bounded
  rw [prependableBytes] at room
  have inside : buf.readerIndex - data.length ≤ buf.buffer.length := by omega
  have fits : buf.readerIndex - data.length + data.length ≤ buf.buffer.length := by omega
  have size := length_overwrite fits
  refine ⟨{ buf with
    buffer := overwrite buf.buffer (buf.readerIndex - data.length) data
    readerIndex := buf.readerIndex - data.length }, ?_, ⟨?_, ?_, ?_⟩, ?_⟩
  · rw [prepend, assert_of (show data.length ≤ buf.prependableBytes from room)]
    simp [store_spec fits, pure, Except.pure]
  · simp only
    omega
  · simpa only [size] using bounded
  · simpa only [size] using valid.roomy
  · have front := slice_overwrite_self data inside
    have behind : buf.readerIndex - data.length + data.length ≤ buf.readerIndex := by omega
    have back : slice (overwrite buf.buffer (buf.readerIndex - data.length) data) buf.readerIndex
        buf.writerIndex = slice buf.buffer buf.readerIndex buf.writerIndex :=
      slice_overwrite_frame data inside (Or.inr behind)
    rw [Nat.sub_add_cancel room] at front
    simp only [readable]
    rw [← slice_append buf.readerIndex (by omega) ordered, front, back]

theorem retrieve_spec (valid : buf.Valid) {len : Nat} (available : len ≤ buf.readableBytes) :
    ∃ next, buf.retrieve len = .ok next ∧ next.Valid ∧ next.readable = buf.readable.drop len := by
  have ordered := valid.ordered
  have readableEq := valid.readableBytes_eq
  refine ⟨{ buf with readerIndex := buf.readerIndex + len }, ?_, ⟨?_, valid.bounded, valid.roomy⟩, ?_⟩
  · simp [retrieve, assert_of available, pure, Except.pure]
  · simp only
    omega
  · simp [readable, slice_drop]

theorem retrieveUntil_spec (valid : buf.Valid) {len : Nat} (available : len ≤ buf.readableBytes) :
    ∃ next, buf.retrieveUntil (buf.peek + len) = .ok next ∧ next.Valid ∧
      next.readable = buf.readable.drop len := by
  obtain ⟨next, retrieved, nextValid, dropped⟩ := retrieve_spec valid available
  have upTo : buf.peek + len ≤ buf.beginWrite := by
    have whole := valid.peek_add_readableBytes
    rw [beginWrite]
    omega
  refine ⟨next, ?_, nextValid, dropped⟩
  rw [retrieveUntil, assert_of (Nat.le_add_right _ _), assert_of upTo, Nat.add_sub_cancel_left]
  exact retrieved

theorem retrieveAll_spec (valid : buf.Valid) :
    buf.retrieveAll.Valid ∧ buf.retrieveAll.readable = [] :=
  ⟨⟨Nat.le_refl _, valid.roomy, valid.roomy⟩, slice_self⟩

theorem retrieveAsString_spec (valid : buf.Valid) :
    buf.retrieveAsString = .ok (buf.readable, buf.retrieveAll) := by
  simp [retrieveAsString, bytesBetween_spec valid, pure, Except.pure]

/-- However `readv` spreads the bytes over the tail and the stack buffer, they
arrive behind the readable bytes in order. -/
theorem readFd_spec (valid : buf.Valid) {bytes : Bytes}
    (fits : bytes.length ≤ buf.writableBytes + extrabufSize) :
    ∃ next, buf.readFd (.received bytes) = .ok (next, bytes.length) ∧ next.Valid ∧
      next.readable = buf.readable ++ bytes := by
  have bounded := valid.bounded
  have writable := valid.writableBytes_eq
  have headFits : buf.writerIndex + (bytes.take buf.writableBytes).length ≤ buf.buffer.length := by
    rw [List.length_take]
    omega
  obtain ⟨headValid, headAdded⟩ := written_spec valid headFits
  by_cases inside : bytes.length ≤ buf.writableBytes
  · rw [List.take_of_length_le inside] at headFits headValid headAdded
    refine ⟨_, ?_, headValid, headAdded⟩
    simp [readFd, List.take_of_length_le inside, store_spec headFits, inside, pure, Except.pure]
  · have full : (bytes.take buf.writableBytes).length = buf.writableBytes := by
      rw [List.length_take]
      omega
    have end_eq : buf.writerIndex + buf.writableBytes = buf.buffer.length := by omega
    rw [full, end_eq] at headValid headAdded
    obtain ⟨next, appended, nextValid, added⟩ := append_spec headValid (bytes.drop buf.writableBytes)
    refine ⟨next, ?_, nextValid, ?_⟩
    · simp [readFd, store_spec headFits, inside, show bytes.length - buf.writableBytes ≤ extrabufSize by omega,
        appended, pure, Except.pure]
    · rw [added, headAdded, List.append_assoc, List.take_append_drop]

end Buffer

end NutServer.Net
