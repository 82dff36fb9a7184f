import Rtk.Invariant.Meeting

/-!
# The two orders of a rendezvous

A `Send` may come before the `Receive` that takes its message, or after it.  The two
orders run through different code: the receiver's pointers are put into the queued node,
or copied from the node of the waiting receiver, and the length of the message is what
`Receive` returns, or is stored in the frame of the waiting receiver.
-/

namespace Rtk.Kernel

open Rtk.ByteMemory
open Rtk.Lib
open Rtk.Lib.QueueHeap
open Rtk.Transition

/-! ## The first call -/

section First

variable {s s' : State} {l : Layout} {m : Meeting} {trap : Trap} {tid : ℤ}

/-- A `Send` that comes first queues the message. -/
theorem Meeting.Waits.send (h : m.Waits s []) (hdistinct : m.sender ≠ m.receiver)
    (hreceives : (s.task (slot m.receiver)).state.Running)
    (hruns : getCurrentTid s = m.sender) (hstep : Step s (.call m.send trap) s') :
    m.Waits s' [slot m.sender] ∧ (s'.task (slot m.sender)).state = .receiveBlocked ∧
      (∃ uninit, s'.node (slot m.sender) = sendNode uninit m.sender m.receiver m.msg m.msglen
        m.reply m.replylen) ∧
      ∀ index, index ≠ slot m.sender →
        Turns (s.task index).state (s'.task index).state := by
  obtain ⟨l, hundestroyed⟩ := undestroyed_of_reachable h.reachable
  have hno : NoDestroy s (.call m.send trap) := trivial
  have hentered := hundestroyed.toCoherent.enter trap
  have hcurrent := hundestroyed.current_of_runs hruns
  obtain ⟨_, _, _, hhandle, hresumed⟩ :=
    hundestroyed.toCoherent.exists_resumed_call (hundestroyed.safe hno) hstep
  have halive : isTaskAlive (entered s trap) m.receiver := h.receiver
  have hbusy : ((entered s trap).task (slot m.receiver)).state ≠ .sendBlocked :=
    not_sendBlocked_of_running hreceives
  have hne := slot_ne_of_alive h.sender h.receiver hdistinct
  simp only [Meeting.send, handle, Option.some.injEq, Prod.ext_iff,
    hentered.dispatched.sendProxy_eq halive, if_neg hbusy] at hhandle
  obtain ⟨_, rfl⟩ := hhandle
  have hfrom : ((entered s trap).task l.current).tid = m.sender := by
    rw [hcurrent]
    exact tid_of_alive h.sender
  rw [hfrom, hcurrent] at hresumed
  have hsends : Sends (entered s trap) l (sendNode trap.uninit m.sender m.receiver m.msg
      m.msglen m.reply m.replylen) :=
    ⟨hfrom.symm, halive, hundestroyed.addressed.unlinked hundestroyed.toCoherent⟩
  have hmessages := (Effect.send hsends hbusy).messages hentered
  rw [hcurrent] at hmessages
  obtain ⟨hblocked, hnode, hturns⟩ :=
    (blocks_queuedSend (entered s trap) (slot m.sender) _).resumed hresumed (by decide)
  have hreceives' := (hturns _ (Ne.symm hne)).running hreceives
  refine ⟨⟨h.reachable.step hno hstep, ?_, ?_, ?_, ?_, .inl hreceives'⟩, hblocked,
    ⟨trap.uninit, hnode⟩, hturns⟩
  · apply hundestroyed.alive hno hstep h.sender
    rw [hblocked]
    decide
  · exact hundestroyed.alive hno hstep h.receiver (value_of_running hreceives')
  · have hempty := h.contents.unique (hundestroyed.messages.represents.contents _)
    have hcontents := hmessages.represents.contents (slot m.receiver)
    rw [hresumed.quiet.msgQueues]
    rwa [show slot (sendNode _ _ m.receiver _ _ _ _).toTid = slot m.receiver from rfl,
      Lists.append_self, ← hempty] at hcontents
  · exact .inr ⟨hblocked, List.mem_singleton_self _⟩

/-- A `Receive` that comes first waits. -/
theorem Meeting.Waits.receive (h : m.Waits s []) (hdistinct : m.sender ≠ m.receiver)
    (hsends : (s.task (slot m.sender)).state.Running)
    (hruns : getCurrentTid s = m.receiver) (hstep : Step s (.call m.receive trap) s') :
    m.Waits s' [] ∧ (s'.task (slot m.receiver)).state = .sendBlocked ∧
      (s'.task (slot m.receiver)).sp = trap.sp ∧
      (∃ uninit : MsgQueueNode,
        s'.node (slot m.receiver) = uninit.withReceive m.putTid m.buffer m.size) ∧
      ∀ index, index ≠ slot m.receiver →
        Turns (s.task index).state (s'.task index).state := by
  obtain ⟨l, hundestroyed⟩ := undestroyed_of_reachable h.reachable
  have hno : NoDestroy s (.call m.receive trap) := trivial
  have hentered := hundestroyed.toCoherent.enter trap
  have hcurrent := hundestroyed.current_of_runs hruns
  have hempty : l.queues l.current = [] := by
    rw [hcurrent]
    exact (hundestroyed.messages.represents.contents _).unique h.contents
  obtain ⟨_, _, _, hhandle, hresumed⟩ :=
    hundestroyed.toCoherent.exists_resumed_call (hundestroyed.safe hno) hstep
  have hne := slot_ne_of_alive h.sender h.receiver hdistinct
  simp only [Meeting.receive, handle, Option.some.injEq, Prod.ext_iff,
    hentered.dispatched.receiveProxy_of_empty hentered.messages.represents hempty] at hhandle
  obtain ⟨_, rfl⟩ := hhandle
  have hmessages := (@Effect.wait _ _ trap.uninit trap.uninitLinks m.putTid m.buffer m.size
    hempty (hundestroyed.addressed.unlinked hundestroyed.toCoherent)).messages hentered
  have hsaved := hresumed.saved
  rw [hcurrent] at hresumed hmessages hsaved
  obtain ⟨hblocked, hnode, hturns⟩ :=
    (blocks_waitingReceive (entered s trap) (slot m.receiver) _ _).resumed hresumed (by decide)
  have hsends' := (hturns _ hne).running hsends
  refine ⟨⟨h.reachable.step hno hstep, ?_, ?_, ?_, .inl hsends', .inr hblocked⟩, hblocked,
    hsaved, ⟨trap.uninit, hnode⟩, hturns⟩
  · exact hundestroyed.alive hno hstep h.sender (value_of_running hsends')
  · apply hundestroyed.alive hno hstep h.receiver
    rw [hblocked]
    decide
  · have hcontents := hmessages.represents.contents l.current
    rw [hempty, hcurrent] at hcontents
    rwa [hresumed.quiet.msgQueues]

end First

/-! ## The second call -/

/-- The states after the handler of a call has returned `result`, and once the frame of the
running task is saved with it. -/
structure Returned (middle : State) (sp : ℕ) (result : ℤ) (final : State) : Prop where
  state : ∀ index, (final.task index).state = (middle.task index).state
  node : final.node = middle.node
  msgQueues : final.msgQueues = middle.msgQueues
  memory : final.memory = storeWord middle.memory sp (BitVec.ofInt 32 result)

/-- What the second call leaves, whichever it is. -/
structure Meeting.Met (m : Meeting) (s : State) (trap : Trap) (final : State) : Prop where
  sender : (final.task (slot m.sender)).state = .replyBlocked
  receiver : (final.task (slot m.receiver)).state = .ready
  empty : Contents final.msgQueues (slot m.receiver) []
  recorded : final.node (slot m.sender) = m.node
  others : ∀ index, index ≠ slot m.sender → index ≠ slot m.receiver →
    (final.task index).state = (s.task index).state
  memory : final.memory = storeWord
    (storeWord (m.delivered trap.memory) (s.task (slot m.receiver)).sp m.msglen) trap.sp
      m.msglen

section Second

variable {s s' middle final : State} {l : Layout} {m : Meeting} {trap : Trap} {tid : ℤ}
  {fuel : ℕ} {call : Call}

theorem Undestroyed.returned (h : Undestroyed s l) (hno : NoDestroy s (.call call trap))
    (hentry : svcEntry s fuel call trap = some final) :
    ∃ result middle,
      handle (entered s trap) fuel trap call = some (result, middle) ∧
        Returned middle trap.sp result final := by
  have hentered := h.toCoherent.enter trap
  obtain ⟨result, middle, hhandle, rfl⟩ := svcEntry_eq_some hentry
  have hsafe := (h.safe hno).enter
  obtain ⟨queues, heffect⟩ := hentered.effect_handle hsafe hhandle
  obtain ⟨lists, hkernel⟩ := heffect.inKernel hentered
  have hsaves := (hkernel.saves_saveTaskState trap.spsr trap.sp trap.pc trap.timer.entry
    trap.timer.wentOffAtSave).setCurrentTaskReturnValue result
  have hsaved := hkernel.savedAt_saveTaskState trap.spsr trap.sp trap.pc trap.timer.entry
    trap.timer.wentOffAtSave
  have hcurrent : (saveTaskState middle trap.spsr trap.sp trap.pc trap.timer.entry
      trap.timer.wentOffAtSave).current = l.current := hkernel.current_eq
  refine ⟨result, middle, hhandle, hsaves.state, hsaves.quietly.quiet.node,
    hsaves.quietly.quiet.msgQueues, ?_⟩
  rw [setCurrentTaskReturnValue, hcurrent, hsaved.sp]
  rfl

theorem Meeting.foldl_copyEvents (m : Meeting) (memory : Memory) :
    (copyEvents m.buffer m.msg m.length).foldl Event.replay memory =
      if m.Copies then memcpy memory m.buffer m.msg m.length else memory := by
  rw [copyEvents]
  by_cases hcopies : m.Copies
  · have hbuffers : m.buffer ≠ nullAddress ∧ m.msg ≠ nullAddress := hcopies
    rw [if_pos hbuffers, if_pos hcopies]
    rfl
  · have hbuffers : ¬(m.buffer ≠ nullAddress ∧ m.msg ≠ nullAddress) := hcopies
    rw [if_neg hbuffers, if_neg hcopies]
    rfl

/-- What `CompleteReceive` stores for the node of a meeting. -/
theorem Meeting.foldl_completeEvents (m : Meeting) (hmsglen : 0 ≤ m.msglen.toInt)
    (hsize : 0 ≤ m.size.toInt) (hnamed : IsNamed s m.receiver) (memory : Memory) :
    (completeEvents s tid m.node).foldl Event.replay memory =
      storeWord (m.delivered memory) (s.task (slot m.receiver)).sp m.msglen := by
  have hto : m.node.toTid = m.receiver := rfl
  have hlength : (min m.size m.msglen).toNat = m.length := toNat_min hsize hmsglen
  rw [completeEvents, hto, returnEvents, if_pos hnamed, deliveryEvents, List.foldl_cons,
    List.foldl_append, List.foldl_cons]
  simp only [Meeting.node, hlength]
  simp [Event.replay, m.foldl_copyEvents, Meeting.delivered]

/-- A rendezvous of the two tasks, once it is saved. -/
theorem Meeting.met_of_rendezvous {made events : List Event}
    (hmeet : Rendezvous (entered s trap) (slot m.sender) (slot m.receiver) m.node made middle)
    (hempty : Contents middle.msgQueues (slot m.receiver) [])
    (hrecords : Records (entered s trap) events middle)
    (hevents : events.foldl Event.replay trap.memory = storeWord (m.delivered trap.memory)
      (s.task (slot m.receiver)).sp m.msglen)
    (hreturned : Returned middle trap.sp m.msglen.toInt final) : m.Met s trap final where
  sender := by rw [hreturned.state, hmeet.blocked]
  receiver := by rw [hreturned.state, hmeet.woken]
  empty := by
    rw [hreturned.msgQueues]
    exact hempty
  recorded := by rw [hreturned.node, hmeet.kept]
  others index hsender hreceiver := by
    rw [hreturned.state, hmeet.others index hsender hreceiver]
    rfl
  memory := by
    have hmemory : middle.memory = events.foldl Event.replay trap.memory := hrecords.memory
    rw [hreturned.memory, hmemory, hevents, BitVec.ofInt_toInt]

theorem isNamed_of_alive (halive : isTaskAlive s tid) : IsNamed s tid := by
  obtain ⟨hnonneg, hle, htid, _⟩ := isTaskAlive_iff.mp halive
  exact ⟨hnonneg, hle, htid⟩

/-- A `Receive` that comes second takes the message. -/
theorem Meeting.Waits.met_receive (h : m.Waits s [slot m.sender])
    (hmsglen : 0 ≤ m.msglen.toInt) (hsize : 0 ≤ m.size.toInt) {uninit : MsgQueueNode}
    (hnode : s.node (slot m.sender) = sendNode uninit m.sender m.receiver m.msg m.msglen
      m.reply m.replylen)
    (hruns : getCurrentTid s = m.receiver)
    (hentry : svcEntry s fuel m.receive trap = some final) : m.Met s trap final := by
  obtain ⟨l, hundestroyed⟩ := undestroyed_of_reachable h.reachable
  have hentered := hundestroyed.toCoherent.enter trap
  have hcurrent := hundestroyed.current_of_runs hruns
  have hquiet := (silent_entered s trap).quiet
  have hqueue : l.queues l.current = [slot m.sender] := by
    rw [hcurrent]
    exact (hundestroyed.messages.represents.contents _).unique h.contents
  have hno : NoDestroy s (.call m.receive trap) := trivial
  obtain ⟨result, middle, hhandle, hreturned⟩ := hundestroyed.returned hno hentry
  have hresult := hentered.result_receiveProxy hqueue trap.uninit trap.uninitLinks m.putTid
    m.buffer m.size
  have hrecords := hentered.records_receiveProxy hqueue trap.uninit trap.uninitLinks m.putTid
    m.buffer m.size
  have htaken : takenNode (entered s trap) (slot m.sender) [] m.putTid m.buffer m.size =
      m.node := by
    rw [takenNode_of_nil, show (entered s trap).node = s.node from rfl, hnode]
    rfl
  simp only [Meeting.receive, handle, Option.some.injEq, Prod.ext_iff] at hhandle
  obtain ⟨rfl, rfl⟩ := hhandle
  rw [htaken] at hresult hrecords
  rw [hresult] at hreturned
  rw [hentered.dispatched.receiveProxy_of_cons hentered.messages.represents hqueue]
    at hreturned hrecords
  have hoccupied := hundestroyed.occupied.quiet hquiet
  have haddressed := hundestroyed.addressed.quiet hquiet
  have hmeet := hentered.rendezvous_take haddressed hoccupied hqueue
    ([slot m.sender].getLast (by simp)) m.putTid m.buffer m.size
  have hlive : NotDestroyed (entered s trap) ((entered s trap).node (slot m.sender)).fromTid := by
    intro _
    rw [(hentered.messages.linked (hqueue ▸ List.mem_singleton_self _)).slot_from]
    exact hoccupied.sender (hqueue ▸ List.mem_singleton_self _)
  have hmessages := hentered.messages_take hqueue (List.mem_singleton_self _) hlive
    (hentered.completed_take hqueue hlive _ m.putTid m.buffer m.size)
  have hempty := hmessages.represents.contents l.current
  rw [Lists.erase, hqueue, List.erase_cons_head, hcurrent] at hempty
  rw [hcurrent] at hmeet hreturned hrecords
  rw [takenNode] at htaken
  rw [htaken] at hmeet
  apply Meeting.met_of_rendezvous hmeet hempty hrecords _ hreturned
  exact m.foldl_completeEvents hmsglen hsize (isNamed_of_alive h.receiver) trap.memory

/-- A `Send` that comes second hands the message over. -/
theorem Meeting.Waits.met_send (h : m.Waits s []) (hmsglen : 0 ≤ m.msglen.toInt)
    (hsize : 0 ≤ m.size.toInt) (hblocked : (s.task (slot m.receiver)).state = .sendBlocked)
    {uninit : MsgQueueNode}
    (hnode : s.node (slot m.receiver) = uninit.withReceive m.putTid m.buffer m.size)
    (hruns : getCurrentTid s = m.sender)
    (hentry : svcEntry s fuel m.send trap = some final) : m.Met s trap final := by
  obtain ⟨l, hundestroyed⟩ := undestroyed_of_reachable h.reachable
  have hentered := hundestroyed.toCoherent.enter trap
  have hcurrent := hundestroyed.current_of_runs hruns
  have halive : isTaskAlive (entered s trap) m.receiver := h.receiver
  have hwaits : ((entered s trap).task (slot m.receiver)).state = .sendBlocked := hblocked
  have hno : NoDestroy s (.call m.send trap) := trivial
  obtain ⟨result, middle, hhandle, hreturned⟩ := hundestroyed.returned hno hentry
  have hfrom : ((entered s trap).task l.current).tid = m.sender := by
    rw [hcurrent]
    exact tid_of_alive h.sender
  generalize hn : sendNode trap.uninit m.sender m.receiver m.msg m.msglen m.reply m.replylen = n
  have hto : n.toTid = m.receiver := by rw [← hn, sendNode]
  have hsends : Sends (entered s trap) l n :=
    ⟨by rw [← hn, hfrom, sendNode], by rw [hto]; exact halive,
      hundestroyed.addressed.unlinked hundestroyed.toCoherent⟩
  have hhanded : handedNode (entered s trap) n = m.node := by
    rw [handedNode, hto, show (entered s trap).node = s.node from rfl, hnode, ← hn]
    rfl
  have hwaits' : ((entered s trap).task (slot n.toTid)).state = .sendBlocked := by
    rw [hto]
    exact hwaits
  have hresult := congrArg Prod.fst
    (completeReceive_eq (hentered.dequeued_handedOver hsends hwaits'))
  simp only [Meeting.send, handle, Option.some.injEq, Prod.ext_iff,
    hentered.dispatched.sendProxy_eq halive, if_pos hwaits, hfrom, hn] at hhandle
  have hcompleted : result = m.msglen.toInt ∧
      (completeReceive (handedOver (entered s trap) l.current n) n.toTid).2 = middle := by
    rw [node_handedOver_self, hhanded] at hresult
    rw [← hhandle.1, ← hhandle.2, ← hto]
    exact ⟨hresult, rfl⟩
  obtain ⟨rfl, rfl⟩ := hcompleted
  have hrecords := hentered.records_handOver hsends hwaits'
  have hmeet := hentered.rendezvous_handOver hsends hwaits'
  have hmessages := hentered.messages_handOver hsends hwaits'
    (hentered.completed_handOver hsends hwaits')
  have hempty := hmessages.represents.contents (slot m.receiver)
  rw [(hundestroyed.messages.represents.contents _).unique h.contents] at hempty
  rw [hhanded, hcurrent, hto] at hmeet hrecords
  rw [hcurrent, hto] at hempty hreturned
  apply Meeting.met_of_rendezvous hmeet hempty hrecords _ hreturned
  rw [List.foldl_cons]
  exact m.foldl_completeEvents hmsglen hsize (isNamed_of_alive h.receiver) trap.memory

end Second

/-! ## Both orders -/

section Orders

variable {s : State} {m : Meeting} {memory memory' : Memory} {address : ℕ}

/-- The receiver gets the same from memories with the same message. -/
theorem Meeting.delivered_congr (hmessage : ∀ index < m.msglen.toNat,
      memory (m.msg + index) = memory' (m.msg + index)) (hfills : m.Fills address) :
    m.delivered memory address = m.delivered memory' address := by
  have hput : ∀ target, memory target = memory' target ∨ InRange m.putTid 4 target →
      storeWord memory m.putTid (BitVec.ofInt 32 m.sender) target =
        storeWord memory' m.putTid (BitVec.ofInt 32 m.sender) target :=
    fun _ => storeWord_congr _
  rw [Meeting.delivered, Meeting.delivered]
  split_ifs with hcopies
  · apply memcpy_congr
    · intro index hindex
      apply hput
      left
      apply hmessage
      exact Nat.lt_of_lt_of_le hindex (Nat.min_le_right _ _)
    · refine hfills.imp (fun hrange => hput _ (.inr hrange)) And.right
  · apply hput
    exact .inr (hfills.resolve_right fun hcopied => hcopies hcopied.1)

/-- The tasks of a meeting that starts are where they may be before their calls. -/
theorem Meeting.Starts.waits (h : m.Starts s) : m.Waits s [] :=
  ⟨h.reachable, h.senderAlive, h.receiverAlive, h.empty, .inl h.senderRuns,
    .inl h.receiverRuns⟩

/-- What a `Send` and then a `Receive` leave. -/
theorem Meeting.Starts.sendFirst (h : m.Starts s) (p : m.SendFirst s) :
    m.Met p.last p.trap' p.final ∧
      ∀ index, index ≠ slot m.sender →
        Turns (p.first.task index).state (p.next.task index).state := by
  obtain ⟨hwaits, hsender, hreceiver⟩ := h.waits.path p.before
  have hreceives := hreceiver.state.running h.receiverRuns
  obtain ⟨hwaits', hblocked, ⟨uninit, hnode⟩, hturns⟩ :=
    hwaits.send h.distinct hreceives p.runs p.step
  obtain ⟨hwaits'', hsender', _⟩ := hwaits'.path p.between
  have hnode' := hsender'.node.trans hnode
  exact ⟨hwaits''.met_receive h.msglen_nonneg h.size_nonneg hnode' p.runs' p.entry, hturns⟩

/-- What a `Receive` and then a `Send` leave. -/
theorem Meeting.Starts.receiveFirst (h : m.Starts s) (q : m.ReceiveFirst s) :
    m.Met q.last q.trap' q.final ∧
      (q.last.task (slot m.receiver)).sp = q.trap.sp ∧
      ∀ index, index ≠ slot m.receiver →
        Turns (q.first.task index).state (q.next.task index).state := by
  obtain ⟨hwaits, hsender, hreceiver⟩ := h.waits.path q.before
  have hsends := hsender.state.running h.senderRuns
  obtain ⟨hwaits', hblocked, hsp, ⟨uninit, hnode⟩, hturns⟩ :=
    hwaits.receive h.distinct hsends q.runs q.step
  obtain ⟨hwaits'', _, hreceiver'⟩ := hwaits'.path q.between
  have hnode' := hreceiver'.node.trans hnode
  have hnot : ¬(q.next.task (slot m.receiver)).state.Running := by
    rw [hblocked]
    decide
  have hblocked' := (hreceiver'.state.eq_of_not_running hnot).trans hblocked
  refine ⟨?_, (hreceiver'.sp hnot).trans hsp, hturns⟩
  exact hwaits''.met_send h.msglen_nonneg h.size_nonneg hblocked' hnode' q.runs' q.entry

/-- The two orders of a rendezvous leave the same, if and only if the word at the stack
pointer that was saved at the receiver's last trap does not get into its buffers. -/
theorem Meeting.agrees_iff_spares (h : m.Starts s) (p : m.SendFirst s) (q : m.ReceiveFirst s)
    (hframed : m.Framed p q)
    (hmessage : ∀ index < m.msglen.toNat,
      p.trap'.memory (m.msg + index) = q.trap'.memory (m.msg + index)) :
    m.Agrees p q ↔ m.Spares p := by
  obtain ⟨hmet, hturns⟩ := h.sendFirst p
  obtain ⟨hmet', hsp, hturns'⟩ := h.receiveFirst q
  have hfirst : ∀ address, m.Fills address →
      p.final.memory address = storeWord (m.delivered p.trap'.memory)
        (p.last.task (slot m.receiver)).sp m.msglen address := by
    intro address hfills
    rw [hmet.memory, storeWord_of_not_inRange (hframed.receiver address hfills).1]
  constructor
  · intro hagrees address hfills hrange
    rw [← (hagrees.buffers address hfills).1, hfirst address hfills, storeWord, if_pos hrange]
  · intro hspares
    refine ⟨⟨hmet.sender, hmet'.sender⟩, ⟨hmet.receiver, hmet'.receiver⟩,
      ⟨hmet.empty, hmet'.empty⟩, ?_, ?_, ⟨hmet.recorded, hmet'.recorded⟩, ?_⟩
    · intro address hfills
      constructor
      · rw [hfirst address hfills, storeWord]
        split_ifs with hrange
        · exact hspares address hfills hrange
        · rfl
      · rw [hmet'.memory, storeWord_of_not_inRange (hframed.sender address (.inl hfills)), hsp,
          storeWord_of_not_inRange (hframed.receiver address hfills).2]
        exact (Meeting.delivered_congr hmessage hfills).symm
    · constructor
      · rw [hmet.memory, loadWord_storeWord]
      · rw [hmet'.memory, loadWord_storeWord_of_disjoint, hsp, loadWord_storeWord]
        exact fun target hrange => hframed.sender target (.inr hrange)
    · intro index hsender hreceiver
      exact ⟨⟨hturns index hsender, hmet.others index hsender hreceiver⟩,
        hturns' index hreceiver, hmet'.others index hsender hreceiver⟩

end Orders

/-! ## Computed orders -/

/-- A meeting of the first two tasks, with the receiver's buffer at `buffer`. -/
def sampleMeeting (buffer : ℕ) : Meeting where
  sender := 2
  receiver := 1
  msg := 0x105f80
  msglen := 4
  reply := 0x300
  replylen := 6
  putTid := 0x103e80
  buffer := buffer
  size := 4

/-- The states of the two orders: at the start, after the `Send` and after the `Receive`;
once the receiver is dispatched, after the `Receive` and after the `Send`. -/
def sampleOrders (m : Meeting) : Option (List State) :=
  (sampleRun [.call (.create 3 0x9000) (sampleTrap 0x103f00)]).bind fun s =>
    (step s 8 (.call m.send (sampleTrap 0x105f00))).bind fun next =>
      (svcEntry next 8 m.receive (sampleTrap 0x103e00)).bind fun final =>
        (step s 8 (.interrupt 0 (sampleTrap 0x105f00))).bind fun first =>
          (step first 8 (.call m.receive (sampleTrap 0x103e00))).bind fun next' =>
            (svcEntry next' 8 m.send (sampleTrap 0x105f00)).map fun final' =>
              [s, next, final, first, next', final']

def sampleObserved (s : State) : ℤ × ℕ × Byte :=
  (getCurrentTid s, (s.task 1).sp, s.memory 0x103f00)

theorem fills_sampleMeeting {buffer address : ℕ}
    (hfills : (sampleMeeting buffer).Fills address) :
    InRange 0x103e80 4 address ∨ InRange buffer 4 address :=
  hfills.imp_right And.right

/-- Computed orders of a meeting whose buffer is apart from the frames. -/
theorem exists_sampleOrders {buffer : ℕ} (hlower : 0x103e84 ≤ buffer)
    (hupper : buffer ≤ 0x105e00) {byte : Byte}
    (horders : (sampleOrders (sampleMeeting buffer)).map (fun states =>
      states.map sampleObserved) =
        some [(2, 0x103f00, 2), (1, 0x103f00, 0), (1, 0x103e00, byte), (1, 0x103f00, 0),
          (2, 0x103e00, 0), (2, 0x103e00, 0)]) :
    ∃ s, (sampleMeeting buffer).Starts s ∧
      ∃ (p : (sampleMeeting buffer).SendFirst s) (q : (sampleMeeting buffer).ReceiveFirst s),
        (sampleMeeting buffer).Framed p q ∧ p.trap' = sampleTrap 0x103e00 ∧
          q.trap' = sampleTrap 0x105f00 ∧ (p.last.task 1).sp = 0x103f00 ∧
          p.final.memory 0x103f00 = byte := by
  obtain ⟨states, hstates, hobserved⟩ := Option.map_eq_some_iff.mp horders
  simp only [sampleOrders, Option.bind_eq_some_iff, Option.map_eq_some_iff] at hstates
  obtain ⟨s, hrun, next, hstep, final, hfinal, first, hfirst, next', hstep', final', hfinal',
    rfl⟩ := hstates
  simp only [List.map_cons, List.map_nil, sampleObserved, List.cons.injEq,
    Prod.mk.injEq] at hobserved
  obtain ⟨⟨hs, _⟩, ⟨hnext, hsp, _⟩, ⟨_, _, hbyte⟩, ⟨hfirstTid, _⟩, ⟨hnext', _⟩, _⟩ := hobserved
  have hreachable : Reachable kernel NoDestroy s := by
    apply reachable_of_rounds hrun
    simp [NoDestroy]
  have hstart : (sampleRun [.call (.create 3 0x9000) (sampleTrap 0x103f00)]).map (fun s =>
      [isTaskAlive s 2, isTaskAlive s 1, (s.task 2).state = .active, (s.task 1).state = .ready,
        (s.msgQueues.queue 1).first = none]) = some [true, true, true, true, true] := by
    decide +kernel
  rw [hrun] at hstart
  simp only [Option.map_some, Option.some.injEq, List.cons.injEq, decide_eq_true_eq] at hstart
  obtain ⟨hsender, hreceiver, hactive, hready, hempty, _⟩ := hstart
  have hstarts : (sampleMeeting buffer).Starts s := by
    refine ⟨hreachable, by simp [sampleMeeting], hsender, hreceiver, .inr hactive, .inl hready,
      ?_, (by decide : (0 : ℤ) ≤ (4 : Word).toInt),
      (by decide : (0 : ℤ) ≤ (4 : Word).toInt)⟩
    obtain ⟨l, hundestroyed⟩ := undestroyed_of_reachable hreachable
    have hcontents := hundestroyed.messages.represents.contents 1
    rw [hcontents.first, List.head?_eq_none_iff] at hempty
    rwa [hempty] at hcontents
  have hleaves : (sampleMeeting buffer).Leaves s (.interrupt 0 (sampleTrap 0x105f00)) := trivial
  refine ⟨s, hstarts, ⟨s, sampleTrap 0x105f00, next, next, sampleTrap 0x103e00, 8, final,
    .refl s, hs, ⟨8, hstep⟩, .refl next, hnext, hfinal⟩,
    ⟨first, sampleTrap 0x103e00, next', next', sampleTrap 0x105f00, 8, final',
    .tail (.refl s) hleaves ⟨8, hfirst⟩, hfirstTid, ⟨8, hstep'⟩, .refl next', hnext', hfinal'⟩,
    ⟨?_, ?_⟩, rfl, rfl, hsp, hbyte⟩
  · intro address hfills
    have hrange := fills_sampleMeeting hfills
    simp only [sampleTrap, InRange] at hrange ⊢
    omega
  · intro address hrange
    have hrange' := hrange.imp_left fills_sampleMeeting
    simp only [sampleTrap, InRange] at hrange' ⊢
    omega

/-- The orders of a meeting that spares the word at the saved stack pointer. -/
theorem agrees_iff_spares_sample :
    ∃ s, (sampleMeeting 0x103ec0).Starts s ∧
      ∃ (p : (sampleMeeting 0x103ec0).SendFirst s) (q : (sampleMeeting 0x103ec0).ReceiveFirst s),
        (sampleMeeting 0x103ec0).Agrees p q := by
  obtain ⟨s, hstarts, p, q, hframed, htrap, htrap', hsp, _⟩ :=
    @exists_sampleOrders 0x103ec0 (by decide) (by decide) 4 (by decide +kernel)
  refine ⟨s, hstarts, p, q, (Meeting.agrees_iff_spares hstarts p q hframed ?_).mpr ?_⟩
  · intro index _
    rw [htrap, htrap']
    rfl
  · intro address hfills hrange
    have hfilled := fills_sampleMeeting hfills
    have hstale : InRange 0x103f00 4 address := hsp ▸ hrange
    simp only [InRange] at hfilled hstale
    omega

/-- The length of the message is stored over its first byte when the receiver's buffer lies
where its frame was at its last trap. -/
theorem not_agrees :
    ∃ s, (sampleMeeting 0x103f00).Starts s ∧
      ∃ (p : (sampleMeeting 0x103f00).SendFirst s) (q : (sampleMeeting 0x103f00).ReceiveFirst s),
        (sampleMeeting 0x103f00).Framed p q ∧
          (∀ address, p.trap'.memory address = q.trap'.memory address) ∧
          ¬(sampleMeeting 0x103f00).Agrees p q := by
  obtain ⟨s, hstarts, p, q, hframed, htrap, htrap', _, hbyte⟩ :=
    @exists_sampleOrders 0x103f00 (by decide) (by decide) 4 (by decide +kernel)
  refine ⟨s, hstarts, p, q, hframed, ?_, fun hagrees => ?_⟩
  · intro address
    rw [htrap, htrap']
    rfl
  · have hfills : (sampleMeeting 0x103f00).Fills 0x103f00 :=
      .inr ⟨⟨by decide, by decide⟩, by decide, by decide⟩
    have hdelivered := (hagrees.buffers 0x103f00 hfills).1
    have hzero : (sampleMeeting 0x103f00).delivered (sampleTrap 0x103e00).memory 0x103f00 = 0 := by
      decide +kernel
    rw [hbyte, htrap, hzero] at hdelivered
    exact absurd hdelivered (by decide)

end Rtk.Kernel
