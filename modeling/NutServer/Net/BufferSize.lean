import NutServer.Library.Peak
import NutServer.Net.ByteQueue

/-!
# The size of the vector

What the operations do to `buffer_.size()`. Growth is paid for by the bytes
that are readable afterwards, so a run never holds more than twice its largest
contents. `shrink` replaces the vector and leaves the indices where they were.
-/

set_option autoImplicit false

namespace NutServer.Net

open Library

namespace Buffer

variable {buf next : Buffer} {data cells stored : Bytes} {len position : Nat}

private theorem length_store (written : store cells position data = .ok stored) : stored.length = cells.length := by
  unfold store at written
  split_ifs at written with fits
  cases written
  exact length_overwrite fits

private theorem length_resize (size : Nat) : (resize cells size).length = size := by
  rw [resize, List.length_append, List.length_take, List.length_replicate]
  omega

/-- The vector grows only where a slide would not do. -/
theorem makeSpace_size (made : buf.makeSpace len = .ok next) :
    if buf.writableBytes + buf.prependableBytes < len + kCheapPrepend then
      next.buffer.length = buf.writerIndex + len
    else next.buffer.length = buf.buffer.length := by
  unfold makeSpace at made
  split_ifs at made ⊢ with grow
  · cases made
    exact length_resize _
  · obtain ⟨_, _, made⟩ := Outcome.bind_eq_ok_iff.mp made
    obtain ⟨_, _, made⟩ := Outcome.bind_eq_ok_iff.mp made
    cases made
    exact length_copyForward _ _ _ _

private theorem ensureWritableBytes_size (ensured : buf.ensureWritableBytes len = .ok next) :
    if buf.writableBytes < len ∧ buf.writableBytes + buf.prependableBytes < len + kCheapPrepend then
      next.buffer.length = buf.writerIndex + len
    else next.buffer.length = buf.buffer.length := by
  unfold ensureWritableBytes at ensured
  split_ifs at ensured with short
  · obtain ⟨roomy, made, ensured⟩ := Outcome.bind_eq_ok_iff.mp ensured
    obtain ⟨_, _, same⟩ := Outcome.bind_eq_ok_iff.mp ensured
    cases same
    simpa only [short, true_and] using makeSpace_size made
  · obtain ⟨roomy, made, ensured⟩ := Outcome.bind_eq_ok_iff.mp ensured
    cases made
    obtain ⟨_, _, same⟩ := Outcome.bind_eq_ok_iff.mp ensured
    cases same
    rw [if_neg fun grow => short grow.1]

private theorem append_size (appended : buf.append data = .ok next) :
    if buf.writableBytes < data.length ∧
        buf.writableBytes + buf.prependableBytes < data.length + kCheapPrepend then
      next.buffer.length = buf.writerIndex + data.length
    else next.buffer.length = buf.buffer.length := by
  obtain ⟨roomy, ensured, appended⟩ := Outcome.bind_eq_ok_iff.mp appended
  obtain ⟨cells, written, same⟩ := Outcome.bind_eq_ok_iff.mp appended
  cases same
  have size := ensureWritableBytes_size ensured
  rw [← length_store written] at size
  exact size

/-- Room that is writable, or that a slide makes writable, is used before the
vector grows. -/
theorem append_keeps_size (appended : buf.append data = .ok next)
    (room : (data.length : Int) ≤ buf.writableBytes + buf.prependableBytes - kCheapPrepend) :
    next.buffer.length = buf.buffer.length := by
  have size := append_size appended
  rwa [if_neg (by omega)] at size

/-- What an operation leaves of the size: that of before, or what the readable
bytes pay for. -/
def Paid (buf next : Buffer) : Prop :=
  next.buffer.length ≤ max buf.buffer.length (2 * next.readableBytes + kCheapPrepend)

private theorem paid_of_eq (same : next.buffer.length = buf.buffer.length) : Paid buf next := by
  rw [Paid, same]
  exact Nat.le_max_left _ _

/-- A growth keeps the consumed bytes in front, and these are fewer than the
bytes appended. -/
theorem append_paid (valid : buf.Valid) (appended : buf.append data = .ok next) : Paid buf next := by
  obtain ⟨other, same, nextValid, shown⟩ := append_spec valid data
  cases appended.symm.trans same
  have readable : next.readableBytes = buf.readableBytes + data.length := by
    rw [← nextValid.length_readable, shown, List.length_append, valid.length_readable]
  have ordered := valid.ordered
  have before := valid.readableBytes_eq
  have size := append_size appended
  split_ifs at size with grow
  · have front : buf.readerIndex < data.length + kCheapPrepend := by
      have short := grow.2
      rw [prependableBytes] at short
      omega
    rw [Paid, size]
    omega
  · exact paid_of_eq size

private theorem prepend_size (prepended : buf.prepend data = .ok next) : next.buffer.length = buf.buffer.length := by
  obtain ⟨_, _, prepended⟩ := Outcome.bind_eq_ok_iff.mp prepended
  obtain ⟨cells, written, same⟩ := Outcome.bind_eq_ok_iff.mp prepended
  cases same
  exact length_store written

private theorem retrieve_size (retrieved : buf.retrieve len = .ok next) : next.buffer = buf.buffer := by
  obtain ⟨_, _, same⟩ := Outcome.bind_eq_ok_iff.mp retrieved
  cases same
  rfl

private theorem retrieveUntil_size (retrieved : buf.retrieveUntil position = .ok next) : next.buffer = buf.buffer := by
  obtain ⟨_, _, retrieved⟩ := Outcome.bind_eq_ok_iff.mp retrieved
  obtain ⟨_, _, retrieved⟩ := Outcome.bind_eq_ok_iff.mp retrieved
  exact retrieve_size retrieved

private theorem readFd_paid (valid : buf.Valid) {result : ReadResult} {n : Int}
    (read : buf.readFd result = .ok (next, n)) : Paid buf next := by
  cases result with
  | failed =>
      cases read
      exact paid_of_eq rfl
  | received bytes =>
      obtain ⟨cells, written, read⟩ := Outcome.bind_eq_ok_iff.mp read
      have size := length_store written
      split_ifs at read with inside spilled
      · cases read
        exact paid_of_eq size
      · obtain ⟨extended, appended, same⟩ := Outcome.bind_eq_ok_iff.mp read
        cases same
        have filled : Valid { buf with buffer := cells, writerIndex := buf.buffer.length } :=
          ⟨valid.ordered.trans valid.bounded, by rw [size], by rw [size]; exact valid.roomy⟩
        have paid := append_paid filled appended
        simp only [Paid, size] at paid
        exact paid

def Op.reserves : Op → Bool
  | .ensureWritableBytes _ => true
  | _ => false

private theorem Session.step_paid {session after : Session} {op : Op} (valid : session.buffer.Valid)
    (moves : op.reserves = false) (stepped : session.step op = some after) :
    Paid session.buffer after.buffer := by
  have performed := Outcome.toOption_eq_some_iff.mp stepped
  cases op with
  | append data =>
      obtain ⟨buffer, appended, rfl⟩ := Outcome.bind_pure_eq_ok_iff.mp performed
      exact append_paid valid appended
  | prepend data =>
      obtain ⟨buffer, prepended, rfl⟩ := Outcome.bind_pure_eq_ok_iff.mp performed
      exact paid_of_eq (prepend_size prepended)
  | retrieve len =>
      obtain ⟨buffer, retrieved, rfl⟩ := Outcome.bind_pure_eq_ok_iff.mp performed
      exact paid_of_eq (congrArg List.length (retrieve_size retrieved))
  | retrieveUntil len =>
      obtain ⟨buffer, retrieved, rfl⟩ := Outcome.bind_pure_eq_ok_iff.mp performed
      exact paid_of_eq (congrArg List.length (retrieveUntil_size retrieved))
  | retrieveAll =>
      cases performed
      exact paid_of_eq rfl
  | retrieveAsString =>
      rw [perform, retrieveAsString_spec valid] at performed
      cases performed
      exact paid_of_eq rfl
  | ensureWritableBytes len => cases moves
  | readFd result =>
      obtain ⟨read, filled, same⟩ := Outcome.bind_eq_ok_iff.mp performed
      cases same
      exact readFd_paid valid filled

def contentsSize (session : Session) : Nat := session.buffer.readableBytes

/-- A run of operations that only move bytes never holds a vector of more than
its first size or twice the largest contents behind the reserved front, and
what fits without growing does not make it grow. -/
theorem size_bounded (ops : List Op)
    (allowed : Along Session.step (fun session op => op.Allowed session ∧ op.reserves = false)
      Session.fresh ops) :
    ∃ final, run (peakStep Session.step contentsSize) ⟨Session.fresh, 0⟩ ops = some final ∧
      final.state.buffer.buffer.length ≤
        max (kCheapPrepend + kInitialSize) (2 * final.peak + kCheapPrepend) ∧
      ∀ data : Bytes, (data.length : Int) ≤ final.state.buffer.writableBytes +
          final.state.buffer.prependableBytes - kCheapPrepend →
        ∃ next, final.state.buffer.append data = .ok next ∧
          next.buffer.length = final.state.buffer.buffer.length := by
  have twice : Monotone fun peak => 2 * peak + kCheapPrepend :=
    fun _ _ least => Nat.add_le_add_right (Nat.mul_le_mul_left 2 least) _
  have first : Session.fresh.buffer.buffer.length ≤
      max (kCheapPrepend + kInitialSize) (2 * 0 + kCheapPrepend) := by
    rw [Session.fresh, length_fresh]
    exact Nat.le_max_left _ _
  have progress : ∀ (session : Session) (op : Op), session.buffer.Valid →
      op.Allowed session ∧ op.reserves = false → ∃ after, session.step op = some after ∧
        after.buffer.Valid ∧ after.buffer.buffer.length ≤
          max session.buffer.buffer.length (2 * contentsSize after + kCheapPrepend) := by
    intro session op valid guarded
    obtain ⟨opAllowed, moves⟩ := guarded
    obtain ⟨after, stepped, afterValid, _⟩ := Session.step_refines session op valid opAllowed
    exact ⟨after, stepped, afterValid, Session.step_paid valid moves stepped⟩
  obtain ⟨final, ran, valid, bounded⟩ := run_peak_bound ⟨Session.fresh, 0⟩
    (fun session : Session => session.buffer.Valid) (fun session : Session => session.buffer.buffer.length)
    (kCheapPrepend + kInitialSize) (fun peak => 2 * peak + kCheapPrepend) twice fresh_valid first progress allowed
  refine ⟨final, ran, bounded, fun data room => ?_⟩
  obtain ⟨next, appended, _, _⟩ := append_spec valid data
  exact ⟨next, appended, append_keeps_size appended room⟩

theorem size_bounded_grown :
    let ops : List Op := [.append (ascii "ab"), .retrieve 1, .prepend (ascii "0"),
      .readFd (.received (List.replicate 1100 0)), .retrieveAsString, .readFd .failed, .retrieveAll]
    ∃ final, run (peakStep Session.step contentsSize) ⟨Session.fresh, 0⟩ ops = some final ∧
      final.state.buffer.buffer.length ≤ max (kCheapPrepend + kInitialSize) (2 * final.peak + kCheapPrepend) := by
  intro ops
  obtain ⟨final, ran, bounded, _⟩ := size_bounded ops (by decide +kernel)
  exact ⟨final, ran, bounded⟩

private theorem shrink_cases {next : Buffer} {reserve : Nat} (shrunk : buf.shrink reserve = .ok next) :
    ∃ cells, next = { buf with buffer := cells } ∧
      cells.length = sizeAdd (sizeAdd kCheapPrepend buf.readableBytes) reserve := by
  obtain ⟨data, _, shrunk⟩ := Outcome.bind_eq_ok_iff.mp shrunk
  obtain ⟨cells, stored, shrunk⟩ := Outcome.bind_eq_ok_iff.mp shrunk
  cases shrunk
  exact ⟨cells, rfl, (length_store stored).trans List.length_replicate⟩

/-- `shrink` copies the readable bytes behind a new front and keeps both indices. -/
theorem shrink_spec (valid : buf.Valid) {reserve : Nat}
    (fits : kCheapPrepend + buf.readableBytes + reserve < 2 ^ 64) :
    ∃ cells, buf.shrink reserve = .ok { buf with buffer := cells } ∧
      cells.length = kCheapPrepend + buf.readableBytes + reserve ∧
      slice cells kCheapPrepend (kCheapPrepend + buf.readableBytes) = buf.readable := by
  have size := valid.length_readable
  have front : sizeAdd kCheapPrepend buf.readableBytes = kCheapPrepend + buf.readableBytes :=
    sizeAdd_of_lt (by omega)
  let blank : Bytes := List.replicate (kCheapPrepend + buf.readableBytes + reserve) 0
  have blankSize : blank.length = kCheapPrepend + buf.readableBytes + reserve := List.length_replicate
  have inside : kCheapPrepend + buf.readable.length ≤ blank.length := by omega
  refine ⟨overwrite blank kCheapPrepend buf.readable, ?_, ?_, ?_⟩
  · simp only [shrink, front, sizeAdd_of_lt fits]
    rw [bytesBetween_spec valid, Outcome.ok_bind, store_spec inside]
    rfl
  · rw [length_overwrite inside, blankSize]
  · rw [← size]
    exact slice_overwrite_self _ (by omega)

/-- The contents are kept, the indices are in order, and `reserve` bytes can be
written. -/
def ShrinksWell (buf : Buffer) (reserve : Nat) : Prop :=
  ∃ next, buf.shrink reserve = .ok next ∧ next.readable = buf.readable ∧
    next.readerIndex ≤ next.writerIndex ∧ next.writerIndex ≤ next.buffer.length ∧
    next.writableBytes = reserve

/-- A vector whose size wrapped round is too small for the contents and `reserve`. -/
theorem shrinksWell_iff (valid : buf.Valid) (reserve : Nat) :
    buf.ShrinksWell reserve ↔
      buf.readerIndex = kCheapPrepend ∧ kCheapPrepend + buf.readableBytes + reserve < 2 ^ 64 := by
  have ordered := valid.ordered
  have readable := valid.readableBytes_eq
  constructor
  · intro shrinks
    obtain ⟨next, shrunk, _, _, inside, writable⟩ := shrinks
    obtain ⟨cells, rfl, size⟩ := shrink_cases shrunk
    rw [writableBytes, sizeSub_of_le inside] at writable
    simp only [sizeAdd, kCheapPrepend] at inside writable size ⊢
    omega
  · rintro ⟨front, fits⟩
    obtain ⟨cells, shrunk, size, kept⟩ := shrink_spec valid fits
    have last : kCheapPrepend + buf.readableBytes = buf.writerIndex := by omega
    have inside : buf.writerIndex ≤ cells.length := by omega
    refine ⟨_, shrunk, ?_, ordered, inside, ?_⟩
    · show slice cells buf.readerIndex buf.writerIndex = buf.readable
      rw [front, ← last, kept]
    · simp only [writableBytes]
      rw [sizeSub_of_le inside]
      omega

/-- What a caller has to respect is what the assertions check, and `readFd`
offers no more room than it has. -/
theorem Session.allowed_of_step {session after : Session} {op : Op} (stepped : session.step op = some after) :
    op.Allowed session := by
  have performed := Outcome.toOption_eq_some_iff.mp stepped
  cases op with
  | append _ | retrieveAll | retrieveAsString | ensureWritableBytes _ => trivial
  | prepend data =>
      obtain ⟨_, prepended, _⟩ := Outcome.bind_pure_eq_ok_iff.mp performed
      obtain ⟨_, checked, _⟩ := Outcome.bind_eq_ok_iff.mp prepended
      exact assert_ok_iff.mp checked
  | retrieve len =>
      obtain ⟨_, retrieved, _⟩ := Outcome.bind_pure_eq_ok_iff.mp performed
      obtain ⟨_, checked, _⟩ := Outcome.bind_eq_ok_iff.mp retrieved
      exact assert_ok_iff.mp checked
  | retrieveUntil len =>
      obtain ⟨_, retrieved, _⟩ := Outcome.bind_pure_eq_ok_iff.mp performed
      obtain ⟨_, _, retrieved⟩ := Outcome.bind_eq_ok_iff.mp retrieved
      obtain ⟨_, _, retrieved⟩ := Outcome.bind_eq_ok_iff.mp retrieved
      obtain ⟨_, checked, _⟩ := Outcome.bind_eq_ok_iff.mp retrieved
      have available := assert_ok_iff.mp checked
      rwa [Nat.add_sub_cancel_left] at available
  | readFd result =>
      cases result with
      | failed => trivial
      | received bytes =>
          obtain ⟨_, read, _⟩ := Outcome.bind_eq_ok_iff.mp performed
          obtain ⟨_, _, read⟩ := Outcome.bind_eq_ok_iff.mp read
          split_ifs at read with inside spilled
          · exact inside.trans (Nat.le_add_right _ _)
          · exact Nat.sub_le_iff_le_add'.mp spilled

theorem Session.run_valid {ops : List Op} {final : Session}
    (ran : run Session.step Session.fresh ops = some final) : final.buffer.Valid := by
  refine run_preserves (fun session => session.buffer.Valid) fresh_valid ?_ ran
  intro session op after valid stepped
  obtain ⟨other, same, otherValid, _⟩ := step_refines session op valid (allowed_of_step stepped)
  cases stepped.symm.trans same
  exact otherValid

/-- In every buffer that a run leaves, `shrink` does what it is for exactly when
the reader index is at the end of the reserved front and the size of the new
vector does not wrap round. -/
theorem shrinksWell_reachable_iff (ops : List Op) (reserve : Nat) {final : Session}
    (ran : run Session.step Session.fresh ops = some final) :
    final.buffer.ShrinksWell reserve ↔ final.buffer.prependableBytes = kCheapPrepend ∧
      kCheapPrepend + final.buffer.readableBytes + reserve < 2 ^ 64 :=
  shrinksWell_iff (Session.run_valid ran) reserve

theorem shrinksWell_reachable_unread :
    ∃ final, run Session.step Session.fresh [.append (ascii "ab")] = some final ∧ final.buffer.ShrinksWell 0 := by
  have ends : (run Session.step Session.fresh [.append (ascii "ab")]).any (fun final =>
      final.buffer.prependableBytes = kCheapPrepend ∧
        kCheapPrepend + final.buffer.readableBytes + 0 < 2 ^ 64) = true := by decide +kernel
  obtain ⟨final, ran, front⟩ := (Option.any_eq_true _ _).mp ends
  exact ⟨final, ran, (shrinksWell_reachable_iff [.append (ascii "ab")] 0 ran).mpr (of_decide_eq_true front)⟩

/-- Of `ab` with one byte read, `shrink(0)` keeps a vector of nine bytes, in
which the indices 9 and 10 hold nothing. -/
theorem shrink_after_retrieve :
    ∃ final, run Session.step Session.fresh [.append (ascii "ab"), .retrieve 1] = some final ∧
      ¬ final.buffer.ShrinksWell 0 := by
  have ends : (run Session.step Session.fresh [.append (ascii "ab"), .retrieve 1]).map
      (fun final => decide (final.buffer.readerIndex = kCheapPrepend)) = some false := by decide +kernel
  obtain ⟨final, ran, moved⟩ := Option.map_eq_some_iff.mp ends
  refine ⟨final, ran, ?_⟩
  rw [shrinksWell_iff (Session.run_valid ran)]
  exact fun shrinks => of_decide_eq_false moved shrinks.1

end Buffer

end NutServer.Net
