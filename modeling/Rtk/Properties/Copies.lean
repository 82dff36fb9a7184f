import Rtk.Invariant.Run
import Rtk.Invariant.Writes

/-!
# How many bytes a rendezvous and a reply copy

The lengths are `int`, their minimum is taken as `long`, and `memcpy` counts it as
`size_t`.  A negative length therefore copies far more than either side declared.
-/

namespace Rtk.Kernel

open Function
open Rtk.ByteMemory
open Rtk.Lib
open Rtk.Lib.QueueHeap
open Rtk.Transition

def Call.Exchanges : Call → Prop
  | .send _ _ _ _ _ => True
  | .receive _ _ _ => True
  | .reply _ _ _ => True
  | _ => False

/-- What the parties of an exchange declare: the size of the destination, from the
call that supplies it, and the length of the source. -/
def declared (s : State) : Call → Option (Word × Word)
  | .send tid _ msglen _ _ =>
      (lastWaiting s.log tid).map fun waiting => (waiting.2.2, msglen)
  | .receive _ _ msglen =>
      (s.msgQueues.queue s.current).first.bind fun oldest =>
        (lastSent s.log (s.node oldest).fromTid).map fun sent =>
          (msglen, sent.msgBufferSize)
  | .reply tid _ replylen =>
      (lastSent s.log tid).map fun sent => (sent.replyBufferSize, replylen)
  | _ => none

/-- `num` bytes fit both declarations, a negative one counting as zero. -/
def Within (num : ℕ) (size length : Word) : Prop :=
  (num : ℤ) ≤ max 0 size.toInt ∧ (num : ℤ) ≤ max 0 length.toInt

/-- Every copy from `s` to `s'` is within what the parties of the call declared. -/
def CopiesWithin (s : State) (call : Call) (s' : State) : Prop :=
  ∃ events, s'.log = s.log ++ events ∧
    ∀ dest src num, .copied dest src num ∈ events →
      ∃ size length, declared s call = some (size, length) ∧ Within num size length

/-- No copy is made, or both of its lengths are nonnegative and their minimum is no
more than the size of the destination. -/
def Fits (dest src : ℕ) (size length room : Word) : Prop :=
  dest = nullAddress ∨ src = nullAddress ∨
    0 ≤ size.toInt ∧ 0 ≤ length.toInt ∧
      Min.min size.toInt length.toInt ≤ max 0 room.toInt

/-- The condition on the lengths under which a call keeps within them.  A `Receive`
uses the size that the oldest node holds. -/
def Measured (s : State) : Call → Prop
  | .send tid msg msglen _ _ =>
      isTaskAlive s tid → (s.task (slot tid)).state = .sendBlocked →
        Fits (s.node (slot tid)).receiveBuffer msg (s.node (slot tid)).receiveBufferSize
          msglen (s.node (slot tid)).receiveBufferSize
  | .receive tid msg msglen =>
      ∀ oldest rest, Contents s.msgQueues s.current (oldest :: rest) →
        Fits (takenNode s oldest rest tid msg msglen).receiveBuffer
          (s.node oldest).msgBuffer
          (takenNode s oldest rest tid msg msglen).receiveBufferSize
          (s.node oldest).msgBufferSize msglen
  | .reply tid reply replylen =>
      Awaiting s tid →
        Fits (s.node (slot tid)).replyBuffer reply (s.node (slot tid)).replyBufferSize
          replylen (s.node (slot tid)).replyBufferSize
  | _ => True

/-- A minimum taken as `size_t` is within both lengths exactly when neither is
negative. -/
theorem within_min_iff (size length room : Word) :
    Within (min size length).toNat room length ↔
      0 ≤ size.toInt ∧ 0 ≤ length.toInt ∧
        Min.min size.toInt length.toInt ≤ max 0 room.toInt := by
  have hmin := toInt_min size length
  have hlength : length.toInt < 2 ^ 31 := BitVec.toInt_lt
  rw [Within]
  by_cases hneg : (min size length).toInt < 0
  · have hhuge := toNat_of_neg hneg
    constructor
    · rintro ⟨_, hle⟩
      omega
    · rintro ⟨hsize, hnonneg, _⟩
      omega
  · have hcount := toNat_of_nonneg (Int.not_lt.mp hneg)
    rw [hcount, hmin]
    constructor
    · rintro ⟨hroom, _⟩
      exact ⟨by omega, by omega, hroom⟩
    · rintro ⟨_, _, hroom⟩
      exact ⟨hroom, by omega⟩

/-- The copy of a minimum is within the declarations exactly when it fits. -/
theorem copyEvents_within_iff (dest src : ℕ) (size length room : Word) :
    (∀ start from' num,
        .copied start from' num ∈ copyEvents dest src (min size length).toNat →
          Within num room length) ↔ Fits dest src size length room := by
  rw [copyEvents, Fits, ← within_min_iff]
  split_ifs with hmade
  · simp only [hmade.1, hmade.2, false_or]
    constructor
    · exact fun hwithin => hwithin dest src _ (List.mem_singleton_self _)
    · intro hwithin start from' num hmem
      obtain ⟨_, _, rfl⟩ := Event.copied.inj (List.mem_singleton.mp hmem)
      exact hwithin
  · rw [not_and_or, not_not, not_not] at hmade
    rcases hmade with hdest | hsrc
    · simp [hdest]
    · simp [hsrc]

/-- The stores of return values copy nothing. -/
theorem not_copied_returnEvents (s : State) (tid ret : ℤ) (dest src num : ℕ) :
    .copied dest src num ∉ returnEvents s tid ret := by
  rw [returnEvents]
  split_ifs <;> simp

theorem copied_mem_completeEvents (s : State) (tid : ℤ) (n : MsgQueueNode)
    (dest src num : ℕ) :
    .copied dest src num ∈ completeEvents s tid n ↔
      .copied dest src num ∈ copyEvents n.receiveBuffer n.msgBuffer
        (min n.receiveBufferSize n.msgBufferSize).toNat := by
  simp [completeEvents, deliveryEvents, not_copied_returnEvents]

/-! ## The three calls -/

section Calls

variable {s s' : State} {l : Layout} {call : Call} {events : List Event}

theorem copiesWithin_of_no_copy (hlog : s'.log = s.log ++ events)
    (hnone : ∀ dest src num, .copied dest src num ∉ events) : CopiesWithin s call s' :=
  ⟨events, hlog, fun dest src num hmem => absurd hmem (hnone dest src num)⟩

/-- A call whose copies are those of one minimum, with its sizes declared. -/
theorem copiesWithin_iff {dest src : ℕ} {size length room : Word}
    (hlog : s'.log = s.log ++ events)
    (hcopied : ∀ start from' num, .copied start from' num ∈ events ↔
      .copied start from' num ∈ copyEvents dest src (min size length).toNat)
    (hdeclared : declared s call = some (room, length)) :
    CopiesWithin s call s' ↔ Fits dest src size length room := by
  rw [← copyEvents_within_iff]
  constructor
  · rintro ⟨events', hlog', hwithin⟩ start from' num hmem
    obtain rfl := List.append_cancel_left (hlog.symm.trans hlog')
    obtain ⟨size', length', hdeclared', hfits⟩ :=
      hwithin start from' num ((hcopied _ _ _).mpr hmem)
    rw [hdeclared, Option.some.injEq, Prod.mk.injEq] at hdeclared'
    obtain ⟨rfl, rfl⟩ := hdeclared'
    exact hfits
  · intro hwithin
    refine ⟨events, hlog, fun start from' num hmem => ?_⟩
    exact ⟨room, length, hdeclared, hwithin _ _ _ ((hcopied _ _ _).mp hmem)⟩

/-- A `Send` to a waiting task is measured against its last `Receive`. -/
theorem Coherent.copiesWithin_send (h : Coherent s l)
    (hunlinked : ∀ queue, l.current ∉ l.queues queue) (uninit : MsgQueueNode) (tid : ℤ)
    (msg : ℕ) (msglen : Word) (reply : ℕ) (replylen : Word) :
    CopiesWithin s (.send tid msg msglen reply replylen)
        (sendProxy s uninit tid msg msglen reply replylen).2 ↔
      Measured s (.send tid msg msglen reply replylen) := by
  have hrecords := @Coherent.records_sendProxy s l h tid (fun _ => hunlinked) uninit msg
    msglen reply replylen
  by_cases hexchanged : isTaskAlive s tid ∧ (s.task (slot tid)).state = .sendBlocked
  · obtain ⟨halive, hwaits⟩ := hexchanged
    obtain ⟨hnonneg, _, htid, _⟩ := isTaskAlive_iff.mp halive
    have hwaiting := (h.messages.sendBlocked (inTable_slot hnonneg) hwaits).2.2
    rw [htid] at hwaiting
    have hdeclared : declared s (.send tid msg msglen reply replylen) =
        some ((s.node (slot tid)).receiveBufferSize, msglen) := by
      rw [declared, hwaiting]
      rfl
    have hfits := copiesWithin_iff hrecords.log (by
      intro start from' num
      simp only [sendEvents, sendNode, halive, hwaits, if_true, List.mem_cons,
        reduceCtorEq, false_or, copied_mem_completeEvents]
      rfl) hdeclared
    exact ⟨fun hwithin _ _ => hfits.mp hwithin, fun hmeasured =>
      hfits.mpr (hmeasured halive hwaits)⟩
  · constructor
    · exact fun _ halive hwaits => absurd ⟨halive, hwaits⟩ hexchanged
    · intro _
      apply copiesWithin_of_no_copy hrecords.log
      intro dest src num
      by_cases halive : isTaskAlive s tid
      · have hbusy : (s.task (slot tid)).state ≠ .sendBlocked :=
          fun hwaits => hexchanged ⟨halive, hwaits⟩
        simp [sendEvents, sendNode, halive, hbusy]
      · simp [sendEvents, sendNode, halive]

/-- A `Receive` of a queued message is measured against the `Send` of the message. -/
theorem Coherent.copiesWithin_receive (h : Coherent s l)
    (haddressed : Addressed s l.queues) (hoccupied : Occupied s l.queues)
    (uninit : MsgQueueNode) (links : QueueNode ℤ) (tid msg : ℕ) (msglen : Word) :
    CopiesWithin s (.receive tid msg msglen)
        (receiveProxy s uninit links tid msg msglen).2 ↔
      Measured s (.receive tid msg msglen) := by
  have hcontents := h.messages.represents.contents l.current
  cases hqueue : l.queues l.current with
  | nil =>
      rw [hqueue] at hcontents
      constructor
      · intro _ oldest rest hother
        rw [h.dispatched.current_eq] at hother
        exact absurd (hcontents.unique hother) (by simp)
      · intro _
        rw [h.dispatched.receiveProxy_of_empty h.messages.represents hqueue]
        have hlog : (waitingReceive s l.current (uninit.withReceive tid msg msglen)
            links).log = s.log ++ [_] := rfl
        exact copiesWithin_of_no_copy hlog (by simp)
  | cons oldest rest =>
      rw [hqueue] at hcontents
      have hmem : oldest ∈ l.queues l.current := by simp [hqueue]
      have hindex := (h.messages.linked hmem).index_inTable
      have hblocked := h.messages.state_of_linked hmem (hoccupied.sender hmem)
        (haddressed.from_eq hmem)
      have hsent := (h.messages.receiveBlocked hindex hblocked).2.2
      rw [← haddressed.from_eq hmem] at hsent
      have hfirst : (s.msgQueues.queue s.current).first = some oldest := by
        rw [h.dispatched.current_eq, hcontents.first]
        rfl
      have hdeclared : declared s (.receive tid msg msglen) =
          some (msglen, (s.node oldest).msgBufferSize) := by
        rw [declared, hfirst, Option.bind_some, hsent]
        rfl
      have hrecords := h.records_receiveProxy hqueue uninit links tid msg msglen
      obtain ⟨_, _, hbuffer, hsize⟩ :=
        fields_of_message (message_takenNode s oldest rest tid msg msglen)
      have hfits := copiesWithin_iff hrecords.log (fun start from' num => by
        rw [copied_mem_completeEvents, hbuffer, hsize]) hdeclared
      rw [hfits]
      constructor
      · intro hmade oldest' rest' hother
        rw [h.dispatched.current_eq] at hother
        obtain ⟨rfl, rfl⟩ := List.cons.inj (hother.unique hcontents)
        exact hmade
      · intro hmeasured
        rw [← h.dispatched.current_eq] at hcontents
        exact hmeasured oldest rest hcontents

/-- A `Reply` is measured against the `Send` that it answers. -/
theorem Coherent.copiesWithin_reply (h : Coherent s l) (tid : ℤ) (reply : ℕ)
    (replylen : Word) :
    CopiesWithin s (.reply tid reply replylen) (replyProxy s tid reply replylen).2 ↔
      Measured s (.reply tid reply replylen) := by
  have hrecords := records_replyProxy s tid reply replylen
  by_cases hawaits : Awaiting s tid
  · obtain ⟨halive, hstate⟩ := hawaits
    obtain ⟨htid, hblocked⟩ := (getTaskState_eq_iff (by decide)).mp hstate
    have hslot := inTable_slot (nonneg_of_alive halive)
    have hsent := (h.messages.replyBlocked hslot hblocked).2.2
    rw [htid] at hsent
    have hdeclared : declared s (.reply tid reply replylen) =
        some ((s.node (slot tid)).replyBufferSize, replylen) := by
      rw [declared, hsent]
      rfl
    rw [if_pos ⟨halive, hstate⟩] at hrecords
    have hcopied : ∀ start from' num,
        .copied start from' num ∈ replyEvents s (s.node (slot tid)) reply replylen ↔
          .copied start from' num ∈ copyEvents (s.node (slot tid)).replyBuffer reply
            (min (s.node (slot tid)).replyBufferSize replylen).toNat := by
      simp [replyEvents, not_copied_returnEvents]
    have hfits := copiesWithin_iff hrecords.log hcopied hdeclared
    exact ⟨fun hwithin _ => hfits.mp hwithin, fun hmeasured =>
      hfits.mpr (hmeasured ⟨halive, hstate⟩)⟩
  · rw [if_neg hawaits] at hrecords
    exact ⟨fun _ hother => absurd hother hawaits, fun _ =>
      copiesWithin_of_no_copy hrecords.log (by simp)⟩

end Calls

/-- In every order of calls the copies stay within the declared lengths exactly when
the lengths that are used are nonnegative and the size used is the declared one. -/
theorem copiesWithin_iff_of_reachable {s s' : State}
    (hreachable : Reachable kernel NoDestroy s) (trap : Trap) {call : Call}
    (hcall : call.Exchanges) {fuel : ℕ} {result : ℤ}
    (hhandle : handle (entered s trap) fuel trap call = some (result, s')) :
    CopiesWithin (entered s trap) call s' ↔ Measured (entered s trap) call := by
  obtain ⟨l, h⟩ := undestroyed_of_reachable hreachable
  have hentered := h.toCoherent.enter trap
  have hquiet := (silent_entered s trap).quiet
  have haddressed := h.addressed.quiet hquiet
  cases call with
  | send tid msg msglen reply replylen =>
      rw [handle, Option.some.injEq] at hhandle
      obtain rfl := (Prod.ext_iff.mp hhandle).2
      exact hentered.copiesWithin_send (haddressed.unlinked hentered) _ _ _ _ _ _
  | receive tid msg msglen =>
      rw [handle, Option.some.injEq] at hhandle
      obtain rfl := (Prod.ext_iff.mp hhandle).2
      exact hentered.copiesWithin_receive haddressed (h.occupied.quiet hquiet) _ _ _ _ _
  | reply tid reply replylen =>
      rw [handle, Option.some.injEq] at hhandle
      obtain rfl := (Prod.ext_iff.mp hhandle).2
      exact hentered.copiesWithin_reply _ _ _
  | _ => exact hcall.elim

/-- The first task receives a message of the second one. -/
def sampleExchange : List Action :=
  [.call (.create 3 0x9000) (sampleTrap 0x103f00),
    .call (.send 1 0x200 5 0x300 6) (sampleTrap 0x105f00),
    .call (.receive 0x400 0x500 9) (sampleTrap 0x103f00)]

/-- A reply of nonnegative length fits. -/
theorem copiesWithin_sample :
    ∃ s, sampleRun sampleExchange = some s ∧
      CopiesWithin (entered s (sampleTrap 0x103f00)) (.reply 2 0x600 4)
        (replyProxy (entered s (sampleTrap 0x103f00)) 2 0x600 4).2 := by
  have hobserved : (sampleRun sampleExchange).map (fun s =>
      (s.node 2).replyBufferSize) = some 6 := by decide +kernel
  obtain ⟨s, hrun, hsize⟩ := Option.map_eq_some_iff.mp hobserved
  have hreachable : Reachable kernel NoDestroy s := by
    apply reachable_of_rounds hrun
    simp [sampleExchange, NoDestroy]
  have hhandle : handle (entered s (sampleTrap 0x103f00)) 0 (sampleTrap 0x103f00)
      (.reply 2 0x600 4) =
      some (replyProxy (entered s (sampleTrap 0x103f00)) 2 0x600 4) := rfl
  have hcall : Call.Exchanges (.reply 2 0x600 4) := trivial
  refine ⟨s, hrun, (copiesWithin_iff_of_reachable hreachable (sampleTrap 0x103f00) hcall
    hhandle).mpr fun _ => .inr (.inr ?_)⟩
  have hnode : ((entered s (sampleTrap 0x103f00)).node (slot 2)).replyBufferSize = 6 :=
    hsize
  rw [hnode]
  decide

def sampleWait : List Action :=
  [.call (.create 3 0x9000) (sampleTrap 0x103f00),
    .call .pass (sampleTrap 0x105f00),
    .call (.receive 0x400 0x500 9) (sampleTrap 0x103f00)]

/-- A `Send` of length -1 to a waiting task overflows its buffer. -/
theorem not_copiesWithin_of_reachable :
    ¬∀ (s s' : State) (trap : Trap) (call : Call) (fuel : ℕ) (result : ℤ),
      Reachable kernel NoDestroy s → call.Exchanges →
      handle (entered s trap) fuel trap call = some (result, s') →
      CopiesWithin (entered s trap) call s' := by
  intro hclaim
  have hobserved : (sampleRun sampleWait).map (fun s => (isTaskAlive s 1,
      decide ((s.task 1).state = .sendBlocked), (s.node 1).receiveBuffer)) =
      some (true, true, 0x500) := by decide +kernel
  obtain ⟨s, hrun, hvalues⟩ := Option.map_eq_some_iff.mp hobserved
  simp only [Prod.mk.injEq, decide_eq_true_eq] at hvalues
  obtain ⟨halive, hwaits, hbuffer⟩ := hvalues
  have hreachable : Reachable kernel NoDestroy s := by
    apply reachable_of_rounds hrun
    simp [sampleWait, NoDestroy]
  have hwithin := hclaim s _ (sampleTrap 0x105f00) (.send 1 0x200 (-1) 0x300 6) 0 _
    hreachable trivial rfl
  obtain ⟨l, h⟩ := undestroyed_of_reachable hreachable
  have hentered := h.toCoherent.enter (sampleTrap 0x105f00)
  have haddressed := h.addressed.quiet (silent_entered s (sampleTrap 0x105f00)).quiet
  have hmeasured := (hentered.copiesWithin_send (haddressed.unlinked hentered) _ _ _ _ _
    _).mp hwithin halive hwaits
  rcases hmeasured with hnull | hnull | ⟨_, hlength, _⟩
  · have hnode : ((entered s (sampleTrap 0x105f00)).node (slot 1)).receiveBuffer = 0x500 :=
      hbuffer
    rw [hnode] at hnull
    exact absurd hnull (by decide)
  · exact absurd hnull (by decide)
  · exact absurd hlength (by decide)

end Rtk.Kernel
