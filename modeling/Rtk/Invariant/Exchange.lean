import Rtk.Invariant.Messages

/-!
# `CompleteReceive`

The rendezvous takes the oldest node of a queue, copies its message, and moves
its sender to `REPLY_BLOCKED` and its receiver to `READY`.
-/

namespace Rtk.Kernel

open Function
open Rtk.ByteMemory
open Rtk.Lib
open Rtk.Lib.QueueHeap

/-- `s` once `CompleteReceive( tid )` has dequeued the node of `head`. -/
def received (s : State) (tid head : ℤ) : State :=
  { s with msgQueues := (s.msgQueues.dequeueQueue (slot tid)).2 }.emit
    (.taken tid (s.node head))

/-- What `CompleteReceive` writes for the receiver: the tid of the sender and the
message. -/
def deliver (s : State) (n : MsgQueueNode) : State :=
  let s := s.storeWord n.putTid (BitVec.ofInt 32 n.fromTid)
  if n.receiveBuffer ≠ nullAddress ∧ n.msgBuffer ≠ nullAddress then
    s.copy n.receiveBuffer n.msgBuffer
      (min n.receiveBufferSize n.msgBufferSize).toNat
  else s

theorem Silent.deliver (s : State) (n : MsgQueueNode) :
    Silent s (deliver s n) := by
  rw [Kernel.deliver]
  split_ifs
  · exact (Silent.storeWord s _ _).trans (.copy _ _ _ _)
  · exact .storeWord s _ _

theorem completeReceive_eq {s : State} {tid head : ℤ}
    (hdequeue : (s.msgQueues.dequeueQueue (slot tid)).1 = some head) :
    completeReceive s tid =
      ((s.node head).msgBufferSize.toInt,
        setTaskReturnValue
          (setTaskState
            (setTaskState (deliver (received s tid head) (s.node head))
              (s.node head).fromTid .replyBlocked)
            (s.node head).toTid .ready)
          (s.node head).toTid (s.node head).msgBufferSize.toInt) := by
  simp only [completeReceive, hdequeue, Option.getD_some]
  rfl

/-- The descriptors after `CompleteReceive` has handled the node `n`. -/
def exchanged (task : ℤ → Task) (n : MsgQueueNode) : ℤ → Task :=
  withState (withState task n.fromTid .replyBlocked) n.toTid .ready

section Exchanged

variable {task : ℤ → Task} {n : MsgQueueNode} {index : ℤ}

/-- A task that is neither the sender nor the receiver of the node is left as it
is. -/
theorem exchanged_of_ne
    (hfrom : index = slot n.fromTid → (task index).tid ≠ n.fromTid)
    (hto : index = slot n.toTid → (task index).tid ≠ n.toTid) :
    exchanged task n index = task index := by
  have hfirst : withState task n.fromTid .replyBlocked index = task index := by
    by_cases hindex : index = slot n.fromTid
    · rw [withState_of_tid_ne (hindex ▸ hfrom hindex)]
    · exact withState_of_ne hindex
  rw [exchanged]
  by_cases hindex : index = slot n.toTid
  · have htid : (withState task n.fromTid .replyBlocked (slot n.toTid)).tid ≠
        n.toTid := by
      rw [tid_withState, ← hindex]
      exact hto hindex
    rw [withState_of_tid_ne htid, hfirst]
  · rw [withState_of_ne hindex, hfirst]

theorem exchanged_receiver (hto : (task (slot n.toTid)).tid = n.toTid) :
    (exchanged task n (slot n.toTid)).state = .ready := by
  rw [exchanged, withState_slot (by rw [tid_withState, hto])]

theorem exchanged_sender (hfrom : (task (slot n.fromTid)).tid = n.fromTid)
    (hne : slot n.fromTid ≠ slot n.toTid) :
    (exchanged task n (slot n.fromTid)).state = .replyBlocked := by
  rw [exchanged, withState_of_ne hne, withState_slot hfrom]

end Exchanged

/-- What `CompleteReceive( tid )` of the node of `head` leads to. -/
structure Completed (s : State) (c tid head : ℤ) (s' : State) : Prop where
  handled : Handled s c s'
  task : s'.task = exchanged s.task (s.node head)
  node : s'.node = s.node
  msgQueues : s'.msgQueues = (s.msgQueues.dequeueQueue (slot tid)).2
  log : ∃ events, s'.log = s.log ++ .taken tid (s.node head) :: events ∧
    ∀ event ∈ events, ¬event.IsMessage

section CompleteReceive

variable {s : State} {c : ℤ} {lists : Lists TaskQueue ℤ} {tid head : ℤ}

/-- A task that may be moved by a handler of task `c`: it names a slot of the
table, is not destroyed, and is not ready unless it is running. -/
structure Movable (s : State) (c tid : ℤ) : Prop where
  inTable : InTable (slot tid)
  notDestroyed : NotDestroyed s tid
  not_ready : (s.task (slot tid)).tid = tid → slot tid ≠ c →
    (s.task (slot tid)).state ≠ .ready

/-- A task of a slot that is in use may be moved when it is blocked. -/
theorem Movable.of_state {index tid : ℤ} (hindex : InTable index)
    (hslot : slot tid = index) (halloc : Allocated s index)
    (hstate : (s.task index).state ≠ .ready) : Movable s c tid where
  inTable := by
    rw [hslot]
    exact hindex
  notDestroyed := by
    intro _
    rw [hslot]
    exact halloc
  not_ready := by
    intro _ _
    rw [hslot]
    exact hstate

theorem Movable.congr {s' : State} (h : Movable s c tid)
    (htask : s'.task = s.task) : Movable s' c tid where
  inTable := h.inTable
  notDestroyed := h.notDestroyed.congr (.of_task_eq htask)
  not_ready := by
    rw [htask]
    exact h.not_ready

/-- A task may still be moved after another one has, unless that one is ready. -/
theorem Movable.withState {other : ℤ} {state : TaskState} (h : Movable s c tid)
    (hother : NotDestroyed s other) (hvalue : 0 ≤ state.value) (hstate : state ≠ .ready)
    (queues : QueueHeap TaskQueue ℤ) :
    Movable (s.withTasks (withState s.task other state) queues) c tid where
  inTable := h.inTable
  notDestroyed := h.notDestroyed.congr (keeps_withState rfl hother hvalue)
  not_ready := by
    rw [State.withTasks_task, tid_withState]
    intro htid hne
    by_cases hsame : slot tid = slot other
    · by_cases hown : (s.task (slot other)).tid = other
      · rw [hsame, withState_slot hown]
        exact hstate
      · rw [withState_of_tid_ne hown]
        exact h.not_ready htid hne
    · rw [withState_of_ne hsame]
      exact h.not_ready htid hne

/-- The two moves of a rendezvous. -/
theorem InKernel.exists_exchange (h : InKernel s c lists) {n : MsgQueueNode}
    (hfrom : Movable s c n.fromTid) (hto : Movable s c n.toTid) :
    ∃ queues,
      setTaskState (setTaskState s n.fromTid .replyBlocked) n.toTid .ready =
        s.withTasks (exchanged s.task n) queues ∧
      Handled s c (s.withTasks (exchanged s.task n) queues) := by
  have hreply : (0 : ℤ) ≤ TaskState.replyBlocked.value := by decide
  have hready : (0 : ℤ) ≤ TaskState.ready.value := by decide
  obtain ⟨queues, heq, hkernel⟩ :=
    h.exists_setTaskState hfrom.inTable hfrom.notDestroyed hreply
  have hfirst := hkernel.handled_withState hfrom.notDestroyed hreply (by decide)
    hfrom.not_ready
  have hto' := hto.withState hfrom.notDestroyed hreply (by decide) queues
  obtain ⟨queues', heq', hkernel'⟩ :=
    hkernel.exists_setTaskState hto'.inTable hto'.notDestroyed hready
  have hsecond := hkernel'.handled_withState hto'.notDestroyed hready (by decide)
    hto'.not_ready
  refine ⟨queues', ?_, ?_⟩
  · rw [heq, heq']
    rfl
  · exact hfirst.bind fun _ _ => hsecond

/-- `CompleteReceive` of a node whose sender and receiver may be moved. -/
theorem InKernel.completed (h : InKernel s c lists)
    (hdequeue : (s.msgQueues.dequeueQueue (slot tid)).1 = some head)
    (hfrom : Movable s c (s.node head).fromTid)
    (hto : Movable s c (s.node head).toTid) :
    Completed s c tid head (completeReceive s tid).2 := by
  have hdelivered := Silent.deliver (received s tid head) (s.node head)
  have hkernel : InKernel (deliver (received s tid head) (s.node head)) c lists :=
    h.congr hdelivered.task hdelivered.currentTask hdelivered.taskQueues
  have hstart : Handled s c (deliver (received s tid head) (s.node head)) :=
    h.handled_of_task_eq hdelivered.task hdelivered.currentTask
      hdelivered.taskQueues hdelivered.siblings
  obtain ⟨queues, heq, hmoved⟩ :=
    hkernel.exists_exchange (hfrom.congr hdelivered.task) (hto.congr hdelivered.task)
  have hreturned := Silent.setTaskReturnValue
    ((deliver (received s tid head) (s.node head)).withTasks
      (exchanged (deliver (received s tid head) (s.node head)).task (s.node head))
      queues) (s.node head).toTid (s.node head).msgBufferSize.toInt
  obtain ⟨copies, hcopies, hcopiesQuiet⟩ := hdelivered.log
  obtain ⟨stores, hstores, hstoresQuiet⟩ := hreturned.log
  rw [completeReceive_eq hdequeue]
  simp only [heq]
  refine ⟨?_, ?_, hreturned.node.trans hdelivered.node,
    hreturned.msgQueues.trans hdelivered.msgQueues, copies ++ stores, ?_, ?_⟩
  · apply hstart.bind
    intro _ _
    apply hmoved.bind
    intro _ hlast
    exact (hlast.handled_of_silent hreturned).handled
  · rw [hreturned.task, State.withTasks_task, hdelivered.task]
    rfl
  · rw [hstores, State.withTasks_log, hcopies]
    simp [received, State.emit]
  · intro event hevent
    rcases List.mem_append.mp hevent with hevent | hevent
    · exact hcopiesQuiet event hevent
    · exact hstoresQuiet event hevent

end CompleteReceive

/-! ## The rendezvous keeps the messages -/

section Posted

variable {s s' : State} {c tid head : ℤ} {queues : Lists ℤ ℤ} {rest : List ℤ}

/-- Queries about sends and waiting receives do not see the message taken. -/
theorem Completed.lastSent_eq (h : Completed s c tid head s') (sender : ℤ) :
    lastSent s'.log sender = lastSent s.log sender := by
  obtain ⟨events, hlog, hquiet⟩ := h.log
  rw [lastSent, hlog, List.append_cons,
    filterMap_quiet (sentBy_quiet sender) hquiet, List.filterMap_append, lastSent]
  simp [Event.sentBy]

theorem Completed.lastWaiting_eq (h : Completed s c tid head s') (receiver : ℤ) :
    lastWaiting s'.log receiver = lastWaiting s.log receiver := by
  obtain ⟨events, hlog, hquiet⟩ := h.log
  rw [lastWaiting, hlog, List.append_cons,
    filterMap_quiet (waitingOf_quiet receiver) hquiet, List.filterMap_append,
    lastWaiting]
  simp [Event.waitingOf]

/-- The sender and the receiver of the node, as far as they are still the tasks
that it names, change their states; every other task stays as it is. -/
theorem Posted.completed_cases (h : Posted s queues)
    (hmem : head ∈ queues (slot tid))
    (hlive : NotDestroyed s (s.node head).fromTid)
    (hreceiver : (s.task (slot tid)).state ≠ .receiveBlocked)
    (hdone : Completed s c tid head s') (index : ℤ) :
    (index = head ∧ (s.task head).state = .receiveBlocked ∧
        (s'.task head).state = .replyBlocked) ∨
      (index = slot tid ∧ (s'.task (slot tid)).state = .ready) ∨
      s'.task index = s.task index ∧
        (index = head → (s.task head).tid ≠ (s.node head).fromTid) ∧
        (index = slot tid → (s.task (slot tid)).tid ≠ (s.node head).toTid) := by
  obtain ⟨_, _, _, _, hslotFrom, hslotTo, _⟩ := h.linked hmem
  by_cases hfrom : index = head ∧ (s.task head).tid = (s.node head).fromTid
  · obtain ⟨rfl, hown⟩ := hfrom
    have halloc : Allocated s index := by
      have hslot := hlive (by rw [hslotFrom, hown])
      rwa [hslotFrom] at hslot
    have hblocked := h.state_of_linked hmem halloc hown.symm
    -- the sender is blocked, so it is not the receiver
    have hne : index ≠ slot tid := by
      intro hsame
      rw [hsame] at hblocked
      exact hreceiver hblocked
    have hreply := @exchanged_sender s.task (s.node index)
      (by rw [hslotFrom, hown]) (by rw [hslotFrom, hslotTo]; exact hne)
    rw [hslotFrom, ← hdone.task] at hreply
    exact .inl ⟨rfl, hblocked, hreply⟩
  · by_cases hto : index = slot tid ∧
        (s.task (slot tid)).tid = (s.node head).toTid
    · obtain ⟨rfl, hnamed⟩ := hto
      have hready := @exchanged_receiver s.task (s.node head)
        (by rw [hslotTo, hnamed])
      rw [hslotTo, ← hdone.task] at hready
      exact .inr (.inl ⟨rfl, hready⟩)
    · have hnotFrom : index = head →
          (s.task head).tid ≠ (s.node head).fromTid :=
        fun hindex hown => hfrom ⟨hindex, hown⟩
      have hnotTo : index = slot tid →
          (s.task (slot tid)).tid ≠ (s.node head).toTid :=
        fun hindex hnamed => hto ⟨hindex, hnamed⟩
      refine .inr (.inr ⟨?_, hnotFrom, hnotTo⟩)
      rw [hdone.task]
      apply exchanged_of_ne
      · rw [hslotFrom]
        rintro rfl
        exact hnotFrom rfl
      · rw [hslotTo]
        rintro rfl
        exact hnotTo rfl

/-- The rendezvous: the sender's node leaves the queue and keeps its message for
the reply.  The receiver may be a task whose wait ends here. -/
theorem Posted.completed (h : Posted s queues)
    (hqueue : queues (slot tid) = head :: rest)
    (hlive : NotDestroyed s (s.node head).fromTid)
    (hreceiver : (s.task (slot tid)).state ≠ .receiveBlocked)
    (hwaiter : (s.task (slot tid)).state = .sendBlocked →
      (s.task (slot tid)).tid = (s.node head).toTid)
    (hawaits : ∀ index, InTable index → (s.task index).state = .sendBlocked →
      index ≠ slot tid → Awaits s queues index)
    (hdone : Completed s c tid head s') :
    Messages s' (queues.erase head) := by
  have hmem : head ∈ queues (slot tid) := by simp [hqueue]
  have htid : ∀ index, (s'.task index).tid = (s.task index).tid :=
    hdone.handled.keeps.tid
  have hcases := h.completed_cases hmem hlive hreceiver hdone
  have herase : ∀ {queue index}, index ∈ queues.erase head queue →
      index ∈ queues queue ∧ index ≠ head := fun hindex =>
    h.represents.mem_erase_iff.mp hindex
  refine ⟨⟨?_, ?_, ?_, ?_, ?_⟩, ?_⟩
  · rw [hdone.msgQueues]
    exact (h.represents.dequeueQueue hqueue).2
  · intro queue index hindex
    exact (h.linked (herase hindex).1).frame (by rw [hdone.node]) (by rw [hdone.node])
      (Int.le_of_eq (htid index).symm)
  · intro queue index hindex halloc hown
    obtain ⟨hlinked, hne⟩ := herase hindex
    rw [hdone.node, htid] at hown
    have hblocked := h.state_of_linked hlinked
      ((hdone.handled.keeps.allocated_iff index).mp halloc) hown
    rcases hcases index with ⟨rfl, _⟩ | ⟨rfl, _⟩ | ⟨hsame, _⟩
    · exact absurd rfl hne
    · exact absurd hblocked hreceiver
    · rw [hsame, hblocked]
  · intro index hindex hstate
    rcases hcases index with ⟨rfl, _, hreply⟩ | ⟨rfl, hready⟩ | ⟨hsame, hnot, _⟩
    · simp [hreply] at hstate
    · simp [hready] at hstate
    · rw [hsame] at hstate
      obtain ⟨⟨queue, hlinked⟩, hown, hlast⟩ := h.receiveBlocked hindex hstate
      have hne : index ≠ head := by
        rintro rfl
        exact hnot rfl hown.symm
      rw [hdone.node, htid, hdone.lastSent_eq]
      exact ⟨⟨queue, h.represents.mem_erase_iff.mpr ⟨hlinked, hne⟩⟩, hown, hlast⟩
  · intro index hindex hstate
    rw [hdone.node, htid, hdone.lastSent_eq]
    rcases hcases index with ⟨rfl, hblocked, _⟩ | ⟨rfl, hready⟩ | ⟨hsame, _⟩
    · obtain ⟨_, hown, hlast⟩ := h.receiveBlocked hindex hblocked
      exact ⟨fun queue hlinked => (herase hlinked).2 rfl, hown, hlast⟩
    · simp [hready] at hstate
    · rw [hsame] at hstate
      obtain ⟨hunlinked, hown, hlast⟩ := h.replyBlocked hindex hstate
      exact ⟨fun queue hlinked => hunlinked queue (herase hlinked).1, hown, hlast⟩
  · intro index hindex hstate
    rcases hcases index with ⟨rfl, _, hreply⟩ | ⟨rfl, hready⟩ | ⟨hsame, _, hnot⟩
    · simp [hreply] at hstate
    · simp [hready] at hstate
    · rw [hsame] at hstate
      have hne : index ≠ slot tid := by
        rintro rfl
        exact hnot rfl (hwaiter hstate)
      obtain ⟨hempty, hunlinked, hlast⟩ := hawaits index hindex hstate hne
      rw [Awaits, hdone.node, htid, hdone.lastWaiting_eq, Lists.erase, hempty]
      exact ⟨rfl, fun queue hlinked => hunlinked queue (herase hlinked).1, hlast⟩

end Posted

end Rtk.Kernel
