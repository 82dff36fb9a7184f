import Mathlib.Tactic.SplitIfs
import Rtk.Core.ByteMemory

/-!
# The cyclic buffer

`lib/cyclicbuffer.c`.  The storage is read from `buffer->data` on; an element is
`data_size` bytes, of which `CyclicBufferPush` copies the first to the byte offset
`insert_at`.
-/

namespace Rtk.Lib

open Rtk.ByteMemory

structure CyclicBuffer where
  size : ℕ
  dataSize : ℕ
  data : ℕ → Byte
  start : ℕ
  numEls : ℕ

def cyclicBufferLen (buffer : CyclicBuffer) : ℕ := buffer.numEls

def isCyclicBufferFull (buffer : CyclicBuffer) : Bool :=
  cyclicBufferLen buffer = buffer.size

def isCyclicBufferEmpty (buffer : CyclicBuffer) : Bool :=
  cyclicBufferLen buffer = 0

def cyclicBufferPush (buffer : CyclicBuffer) (data : ℕ → Byte) : ℤ × CyclicBuffer :=
  if isCyclicBufferFull buffer then (-1, buffer)
  else
    let insertAt := (buffer.start + buffer.numEls) % buffer.size
    (0, { buffer with
      data := fun i =>
        if insertAt ≤ i ∧ i < insertAt + buffer.dataSize then data (i - insertAt)
        else buffer.data i
      numEls := buffer.numEls + 1 })

/-- `CyclicBufferPop`, with the bytes that it copies to its destination. -/
def cyclicBufferPop (buffer : CyclicBuffer) : ℤ × Option (List Byte) × CyclicBuffer :=
  if isCyclicBufferEmpty buffer then (-1, none, buffer)
  else
    (0, some ((List.range buffer.dataSize).map fun i => buffer.data (buffer.start + i)),
      { buffer with
        start := (buffer.start + 1) % buffer.size
        numEls := buffer.numEls - 1 })

section Length

variable {buffer : CyclicBuffer}

theorem isCyclicBufferFull_iff : isCyclicBufferFull buffer = true ↔ buffer.numEls = buffer.size :=
  decide_eq_true_iff

theorem isCyclicBufferEmpty_iff : isCyclicBufferEmpty buffer = true ↔ buffer.numEls = 0 :=
  decide_eq_true_iff

@[simp]
theorem size_push (buffer : CyclicBuffer) (data : ℕ → Byte) :
    (cyclicBufferPush buffer data).2.size = buffer.size := by
  rw [cyclicBufferPush]
  split_ifs <;> rfl

@[simp]
theorem dataSize_push (buffer : CyclicBuffer) (data : ℕ → Byte) :
    (cyclicBufferPush buffer data).2.dataSize = buffer.dataSize := by
  rw [cyclicBufferPush]
  split_ifs <;> rfl

theorem numEls_push (buffer : CyclicBuffer) (data : ℕ → Byte) :
    (cyclicBufferPush buffer data).2.numEls =
      if buffer.numEls = buffer.size then buffer.numEls else buffer.numEls + 1 := by
  rw [cyclicBufferPush]
  by_cases hfull : buffer.numEls = buffer.size
  · rw [if_pos (isCyclicBufferFull_iff.mpr hfull), if_pos hfull]
  · rw [if_neg (fun h => hfull (isCyclicBufferFull_iff.mp h)), if_neg hfull]

@[simp]
theorem size_pop (buffer : CyclicBuffer) : (cyclicBufferPop buffer).2.2.size = buffer.size := by
  rw [cyclicBufferPop]
  split_ifs <;> rfl

@[simp]
theorem dataSize_pop (buffer : CyclicBuffer) :
    (cyclicBufferPop buffer).2.2.dataSize = buffer.dataSize := by
  rw [cyclicBufferPop]
  split_ifs <;> rfl

theorem numEls_pop (buffer : CyclicBuffer) :
    (cyclicBufferPop buffer).2.2.numEls = buffer.numEls - 1 := by
  rw [cyclicBufferPop]
  split_ifs with hempty
  · rw [isCyclicBufferEmpty_iff] at hempty
    simp [hempty]
  · rfl

end Length

/-! ## The content of a buffer of single bytes -/

section Contents

variable {buffer : CyclicBuffer}

/-- The byte `i` places after the first one. -/
def CyclicBuffer.element (buffer : CyclicBuffer) (i : ℕ) : Byte :=
  buffer.data ((buffer.start + i) % buffer.size)

/-- The bytes of the buffer, in the order in which they are popped. -/
def CyclicBuffer.contents (buffer : CyclicBuffer) : List Byte :=
  (List.range buffer.numEls).map buffer.element

/-- The elements are single bytes, and start and length are in range. -/
structure CyclicBuffer.Bytes (buffer : CyclicBuffer) : Prop where
  dataSize : buffer.dataSize = 1
  start : buffer.start < buffer.size
  numEls : buffer.numEls ≤ buffer.size

@[simp]
theorem length_contents (buffer : CyclicBuffer) : buffer.contents.length = buffer.numEls := by
  rw [CyclicBuffer.contents, List.length_map, List.length_range]

theorem contents_eq_nil_iff : buffer.contents = [] ↔ buffer.numEls = 0 := by
  rw [← length_contents, List.length_eq_zero_iff]

theorem cyclicBufferPush_of_full (hfull : buffer.numEls = buffer.size) (data : ℕ → Byte) :
    cyclicBufferPush buffer data = (-1, buffer) := by
  rw [cyclicBufferPush, if_pos (isCyclicBufferFull_iff.mpr hfull)]

theorem CyclicBuffer.Bytes.push (h : buffer.Bytes) (data : ℕ → Byte) :
    (cyclicBufferPush buffer data).2.Bytes := by
  by_cases hfull : buffer.numEls = buffer.size
  · rw [cyclicBufferPush_of_full hfull]
    exact h
  · have hnot : ¬isCyclicBufferFull buffer = true := fun hbool =>
      hfull (isCyclicBufferFull_iff.mp hbool)
    have hlt := Nat.lt_of_le_of_ne h.numEls hfull
    rw [cyclicBufferPush, if_neg hnot]
    exact ⟨h.dataSize, h.start, hlt⟩

theorem CyclicBuffer.Bytes.pop (h : buffer.Bytes) : (cyclicBufferPop buffer).2.2.Bytes := by
  rw [cyclicBufferPop]
  split_ifs
  · exact h
  · have hpositive : 0 < buffer.size := Nat.zero_lt_of_lt h.start
    have hle : buffer.numEls - 1 ≤ buffer.size := Nat.le_trans (Nat.sub_le _ _) h.numEls
    exact ⟨h.dataSize, Nat.mod_lt _ hpositive, hle⟩

/-- Two places less than a round apart are different. -/
theorem mod_ne_of_lt {size start i j : ℕ} (hij : i < j) (hj : j < size) :
    (start + i) % size ≠ (start + j) % size := by
  intro hsame
  have hzero := Nat.sub_mod_eq_zero_of_mod_eq hsame.symm
  have hgap : start + j - (start + i) = j - i := by omega
  rw [hgap, Nat.mod_eq_of_lt (by omega)] at hzero
  omega

/-- A push to a buffer with room appends its byte. -/
theorem contents_push (h : buffer.Bytes) (hroom : buffer.numEls ≠ buffer.size)
    (data : ℕ → Byte) :
    (cyclicBufferPush buffer data).2.contents = buffer.contents ++ [data 0] := by
  have hnot : ¬isCyclicBufferFull buffer = true := fun hfull =>
    hroom (isCyclicBufferFull_iff.mp hfull)
  have hlt := Nat.lt_of_le_of_ne h.numEls hroom
  rw [cyclicBufferPush, if_neg hnot, CyclicBuffer.contents, List.range_succ,
    List.map_append]
  refine congrArg₂ _ (List.map_congr_left fun i hi => ?_) ?_
  · -- the new byte is not among the earlier ones
    have hne := @mod_ne_of_lt _ buffer.start _ _ (List.mem_range.mp hi) hlt
    refine if_neg fun hplace => hne ?_
    rw [h.dataSize] at hplace
    exact Nat.le_antisymm (Nat.lt_succ_iff.mp hplace.2) hplace.1
  · have hplace : (buffer.start + buffer.numEls) % buffer.size <
        (buffer.start + buffer.numEls) % buffer.size + buffer.dataSize := by
      rw [h.dataSize]
      exact Nat.lt_succ_self _
    simp [CyclicBuffer.element, hplace]

/-- A pop of a nonempty buffer takes the first byte. -/
theorem contents_pop (h : buffer.Bytes) (hnonempty : buffer.numEls ≠ 0) :
    ∃ data, (cyclicBufferPop buffer).2.1 = some [data] ∧
      buffer.contents = data :: (cyclicBufferPop buffer).2.2.contents := by
  have hnot : ¬isCyclicBufferEmpty buffer = true := fun hempty =>
    hnonempty (isCyclicBufferEmpty_iff.mp hempty)
  obtain ⟨rest, hrest⟩ := Nat.exists_eq_succ_of_ne_zero hnonempty
  have hfirst : buffer.element 0 = buffer.data (buffer.start + 0) := by
    rw [CyclicBuffer.element, Nat.add_zero, Nat.mod_eq_of_lt h.start]
  refine ⟨buffer.element 0, ?_, ?_⟩
  · rw [cyclicBufferPop, if_neg hnot, h.dataSize, hfirst]
    rfl
  · rw [cyclicBufferPop, if_neg hnot, CyclicBuffer.contents, CyclicBuffer.contents, hrest,
      List.range_succ_eq_map, List.map_cons, List.map_map]
    refine congrArg _ (List.map_congr_left fun i _ => ?_)
    -- the places are counted from the next start
    simp only [Function.comp_apply, CyclicBuffer.element, Nat.mod_add_mod]
    rw [Nat.succ_eq_add_one, Nat.add_comm i 1, ← Nat.add_assoc]

end Contents

end Rtk.Lib
