import Mathlib.Data.List.Basic

/-!
# Records with their length in front

A stream of records is cut into frames: the length of a record in a fixed number
of symbols and then the record.  A reader takes one frame after the other off the
front as long as one is there in full.

A code for lengths carries the proof that it can be read back.  What the reader
makes of frames that are written one after the other, with a frame that was
broken off behind them, is `records_frames`.
-/

namespace Records

variable {α : Type*}

/-- Lengths below `bound`, written with `width` symbols. -/
structure LengthCode (α : Type*) where
  width : Nat
  bound : Nat
  encode : Nat → List α
  decode : List α → Nat
  width_pos : 0 < width
  length_encode : ∀ n, (encode n).length = width
  decode_encode : ∀ n, n < bound → decode (encode n) = n

/-- A record with its length in front. -/
def frame (code : LengthCode α) (record : List α) : List α :=
  code.encode record.length ++ record

/-- No whole frame stands at the front. -/
def Incomplete (code : LengthCode α) (stream : List α) : Prop :=
  stream.length < code.width ∨
    stream.length < code.width + code.decode (stream.take code.width)

instance incompleteDecidable (code : LengthCode α) (stream : List α) :
    Decidable (Incomplete code stream) :=
  inferInstanceAs (Decidable (_ ∨ _))

/-- The records of a stream, and what is left behind the last whole frame. -/
def records (code : LengthCode α) (stream : List α) : List (List α) × List α :=
  if Incomplete code stream then ([], stream)
  else
    let n := code.decode (stream.take code.width)
    let later := records code (stream.drop (code.width + n))
    ((stream.drop code.width).take n :: later.1, later.2)
termination_by stream.length
decreasing_by
  rename_i hcomplete
  have hpos := code.width_pos
  have hwidth : ¬stream.length < code.width := fun h => hcomplete (.inl h)
  rw [List.length_drop]
  omega

variable {code : LengthCode α} {record rest : List α}

@[simp] theorem length_frame (code : LengthCode α) (record : List α) :
    (frame code record).length = code.width + record.length := by
  simp [frame, code.length_encode]

theorem take_width_frame : (frame code record ++ rest).take code.width =
    code.encode record.length := by
  rw [frame, List.append_assoc, ← code.length_encode record.length, List.take_left]

theorem drop_width_frame : (frame code record ++ rest).drop code.width = record ++ rest := by
  rw [frame, List.append_assoc, ← code.length_encode record.length, List.drop_left]

theorem records_incomplete {stream : List α} (h : Incomplete code stream) :
    records code stream = ([], stream) := by
  rw [records, if_pos h]

/-- The reader takes a whole frame off the front. -/
theorem records_frame_append (hbound : record.length < code.bound) :
    records code (frame code record ++ rest) =
      (record :: (records code rest).1, (records code rest).2) := by
  have hdecode : code.decode ((frame code record ++ rest).take code.width) = record.length := by
    rw [take_width_frame, code.decode_encode _ hbound]
  have hcomplete : ¬Incomplete code (frame code record ++ rest) := by
    unfold Incomplete
    rw [hdecode, List.length_append, length_frame]
    omega
  have hdrop : (frame code record ++ rest).drop (code.width + record.length) = rest := by
    rw [← length_frame, List.drop_left]
  rw [records, if_neg hcomplete]
  simp only [hdecode, hdrop, drop_width_frame, List.take_left]

/-- **Reading back.**  Whole frames give their records, whatever was broken off
behind them is left over. -/
theorem records_frames {sent : List (List α)} (hbound : ∀ record ∈ sent, record.length < code.bound)
    (hrest : Incomplete code rest) :
    records code ((sent.map (frame code)).flatten ++ rest) = (sent, rest) := by
  induction sent with
  | nil => exact records_incomplete hrest
  | cons record sent ih =>
      have hlater := ih (fun r hr => hbound r (List.mem_cons_of_mem record hr))
      rw [List.map_cons, List.flatten_cons, List.append_assoc,
        records_frame_append (hbound record List.mem_cons_self), hlater]

/-- A frame that was broken off is not complete. -/
theorem incomplete_take (hbound : record.length < code.bound) {k : Nat}
    (hk : k < (frame code record).length) : Incomplete code ((frame code record).take k) := by
  rw [length_frame] at hk
  have hlength : ((frame code record).take k).length = k := by
    rw [List.length_take, length_frame]
    omega
  unfold Incomplete
  rw [hlength]
  by_cases hwidth : k < code.width
  · exact .inl hwidth
  · right
    have htake : ((frame code record).take k).take code.width = code.encode record.length := by
      have h := @take_width_frame α code record []
      rw [List.append_nil] at h
      rw [List.take_take, Nat.min_eq_left (by omega), h]
    rw [htake, code.decode_encode _ hbound]
    exact hk

theorem incomplete_nil (code : LengthCode α) : Incomplete code [] :=
  .inl code.width_pos

end Records
