import Rtk.Core.Transition
import Rtk.Lib.CyclicBuffer

/-!
# Elements of several bytes in a cyclic buffer

`CyclicBufferPush` counts its place in elements and uses it as a number of bytes, so that
neighbouring elements of several bytes overlap.
-/

namespace Rtk.Lib

open Rtk.ByteMemory
open Rtk.Transition

/-! ## The queue that the buffer is to be -/

def bytesOf (dataSize : ℕ) (data : ℕ → Byte) : List Byte := (List.range dataSize).map data

inductive BufferCall where
  | push (data : ℕ → Byte)
  | pop

/-- The elements that were pushed and not popped, after a call. -/
def BufferCall.elements (buffer : CyclicBuffer) (elements : List (List Byte)) :
    BufferCall → List (List Byte)
  | push data =>
      if elements.length = buffer.size then elements
      else elements ++ [bytesOf buffer.dataSize data]
  | pop => elements.tail

def BufferCall.buffer (buffer : CyclicBuffer) : BufferCall → CyclicBuffer
  | push data => (cyclicBufferPush buffer data).2
  | pop => (cyclicBufferPop buffer).2.2

def BufferCall.next (s : CyclicBuffer × List (List Byte)) (call : BufferCall) :
    CyclicBuffer × List (List Byte) :=
  (call.buffer s.1, call.elements s.1 s.2)

/-- What `count` calls of `CyclicBufferPop` copy to their destinations. -/
def popped (buffer : CyclicBuffer) : ℕ → List (Option (List Byte))
  | 0 => []
  | count + 1 => (cyclicBufferPop buffer).2.1 :: popped (cyclicBufferPop buffer).2.2 count

/-- The buffer is a queue of the elements: they are popped in order, a call fails only when
there is no room or no element and then changes nothing, and no byte behind the storage is
read or written. -/
structure Queues (buffer : CyclicBuffer) (elements : List (List Byte)) : Prop where
  pops : popped buffer elements.length = elements.map some
  full : ∀ data, (cyclicBufferPush buffer data).1 = -1 ↔ elements.length = buffer.size
  empty : (cyclicBufferPop buffer).1 = -1 ↔ elements = []
  pushFailed : ∀ data, (cyclicBufferPush buffer data).1 = -1 →
    (cyclicBufferPush buffer data).2 = buffer
  popFailed : (cyclicBufferPop buffer).1 = -1 → (cyclicBufferPop buffer).2 = (none, buffer)
  writes : ∀ data i, buffer.size * buffer.dataSize ≤ i →
    (cyclicBufferPush buffer data).2.data i = buffer.data i
  reads : ∀ storage : ℕ → Byte, (∀ i < buffer.size * buffer.dataSize, storage i = buffer.data i) →
    (cyclicBufferPop { buffer with data := storage }).2.1 = (cyclicBufferPop buffer).2.1

/-- A push writes no other value to a byte of an element in the buffer. -/
def Spares (s : CyclicBuffer × List (List Byte)) : BufferCall → Prop
  | .push data => s.1.numEls ≠ s.1.size →
      ∀ i < s.1.numEls, ∀ j < s.1.dataSize,
        let place := (s.1.start + i) % s.1.size + j
        let insertAt := (s.1.start + s.1.numEls) % s.1.size
        insertAt ≤ place → place < insertAt + s.1.dataSize →
          data (place - insertAt) = s.1.data place
  | .pop => True

instance (s : CyclicBuffer × List (List Byte)) (call : BufferCall) : Decidable (Spares s call) :=
  match call with
  | .push data =>
      inferInstanceAs (Decidable (_ → ∀ i < s.1.numEls, ∀ j < s.1.dataSize,
        _ ≤ (s.1.start + i) % s.1.size + j → _ < _ → data _ = _))
  | .pop => inferInstanceAs (Decidable True)

/-- The elements that the storage holds, from `start` on. -/
def CyclicBuffer.stored (buffer : CyclicBuffer) : List (List Byte) :=
  (List.range buffer.numEls).map fun i =>
    bytesOf buffer.dataSize fun j => buffer.data ((buffer.start + i) % buffer.size + j)

/-- Start and length are in range, and the length is that of the queue. -/
structure Sized (buffer : CyclicBuffer) (elements : List (List Byte)) : Prop where
  dataSize : 1 ≤ buffer.dataSize
  start : buffer.start < buffer.size
  numEls : buffer.numEls ≤ buffer.size
  length : elements.length = buffer.numEls

section Stored

variable {buffer : CyclicBuffer} {elements : List (List Byte)} {data : ℕ → Byte}

theorem not_full (hroom : buffer.numEls ≠ buffer.size) : ¬isCyclicBufferFull buffer = true :=
  fun hfull => hroom (isCyclicBufferFull_iff.mp hfull)

theorem not_empty (hsome : buffer.numEls ≠ 0) : ¬isCyclicBufferEmpty buffer = true :=
  fun hempty => hsome (isCyclicBufferEmpty_iff.mp hempty)

theorem cyclicBufferPop_of_empty (hempty : buffer.numEls = 0) :
    cyclicBufferPop buffer = (-1, none, buffer) := by
  rw [cyclicBufferPop, if_pos (isCyclicBufferEmpty_iff.mpr hempty)]

theorem Sized.next (h : Sized buffer elements) (call : BufferCall) :
    Sized (call.buffer buffer) (call.elements buffer elements) := by
  cases call with
  | push data =>
      rw [BufferCall.buffer, BufferCall.elements, h.length]
      by_cases hfull : buffer.numEls = buffer.size
      · rw [cyclicBufferPush_of_full hfull, if_pos hfull]
        exact h
      · have hlength : (elements ++ [bytesOf buffer.dataSize data]).length =
            buffer.numEls + 1 := by
          rw [List.length_append, List.length_singleton, h.length]
        rw [if_neg hfull, cyclicBufferPush, if_neg (not_full hfull)]
        exact ⟨h.dataSize, h.start, Nat.lt_of_le_of_ne h.numEls hfull, hlength⟩
  | pop =>
      rw [BufferCall.buffer, BufferCall.elements]
      by_cases hempty : buffer.numEls = 0
      · have hnil : elements = [] := by rw [← List.length_eq_zero_iff, h.length, hempty]
        rw [cyclicBufferPop_of_empty hempty, hnil, List.tail_nil, ← hnil]
        exact h
      · have hlength : elements.tail.length = buffer.numEls - 1 := by
          rw [List.length_tail, h.length]
        rw [cyclicBufferPop, if_neg (not_empty hempty)]
        exact ⟨h.dataSize, Nat.mod_lt _ (Nat.zero_lt_of_lt h.start),
          Nat.le_trans (Nat.sub_le _ _) h.numEls, hlength⟩

end Stored

/-! ## Runs -/

section Runs

variable {buffer : CyclicBuffer} {calls : List BufferCall}

/-- Single bytes, and a single element, are always spared. -/
theorem Sized.spares {elements : List (List Byte)} (h : Sized buffer elements)
    (hsingle : buffer.size = 1 ∨ buffer.dataSize = 1) (call : BufferCall) :
    Spares (buffer, elements) call := by
  cases call with
  | pop => trivial
  | push data =>
      simp only [Spares]
      intro hroom i hi j hj hle hlt
      have hnum := Nat.lt_of_le_of_ne h.numEls hroom
      cases hsingle with
      | inl hsize => omega
      | inr hbyte =>
          have hne := @mod_ne_of_lt _ buffer.start _ _ hi hnum
          omega

end Runs

end Rtk.Lib
