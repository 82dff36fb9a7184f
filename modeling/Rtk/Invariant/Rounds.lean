import Rtk.Invariant.Waking

/-!
# Rounds

What a round does to the tasks that do not make its call, what it leaves alone, and how it
ends: quietly, with a new task, with a message that is queued or handed over, or with a
`Receive` that waits or takes a message.
-/

namespace Rtk.Kernel

open Function
open Rtk.ByteMemory
open Rtk.Lib

/-! ## Tasks between rounds -/

section Tasks

variable {s s' : State} {l : Layout} {index tid tid' : ℤ} {state : TaskState}

theorem value_of_running (hrunning : state.Running) : 0 < state.value := by
  rcases hrunning with hstate | hstate <;> rw [hstate] <;> decide

theorem not_sendBlocked_of_running (hrunning : state.Running) : state ≠ .sendBlocked := by
  rcases hrunning with hstate | hstate <;> rw [hstate] <;> decide

theorem alive_of_tid_eq (halive : isTaskAlive s tid)
    (htid : (s'.task (slot tid)).tid = (s.task (slot tid)).tid)
    (hvalue : 0 < (s'.task (slot tid)).state.value) : isTaskAlive s' tid := by
  obtain ⟨hnonneg, hle, hnamed, _⟩ := isTaskAlive_iff.mp halive
  exact isTaskAlive_iff.mpr ⟨hnonneg, hle, htid.trans hnamed, hvalue⟩

/-- Two tasks have two descriptors. -/
theorem slot_ne_of_alive (halive : isTaskAlive s tid) (halive' : isTaskAlive s tid')
    (hne : tid ≠ tid') : slot tid ≠ slot tid' := by
  intro hslot
  apply hne
  rw [← tid_of_alive halive, hslot, tid_of_alive halive']

theorem Undestroyed.current_of_runs (h : Undestroyed s l) (hruns : getCurrentTid s = tid) :
    l.current = slot tid := by
  rw [← hruns, h.dispatched.getCurrentTid_eq, h.dispatched.slot_tid]

/-- A task that does not run is not the current one. -/
theorem Undestroyed.ne_current (h : Undestroyed s l) (halive : isTaskAlive s tid)
    (hruns : getCurrentTid s ≠ tid) : slot tid ≠ l.current := by
  intro hslot
  apply hruns
  rw [h.dispatched.getCurrentTid_eq, ← hslot]
  exact tid_of_alive halive

/-- Only a task that waits for a receiver is in a queue. -/
theorem Undestroyed.state_of_mem (h : Undestroyed s l) {queue : ℤ}
    (hmem : index ∈ l.queues queue) : (s.task index).state = .receiveBlocked :=
  h.messages.state_of_linked hmem (h.occupied.sender hmem) (h.addressed.from_eq hmem)

/-- The task stays blocked, and the others may take turns. -/
theorem Blocks.resumed {middle : State} {c : ℤ} {n : MsgQueueNode} {sp : ℕ}
    (h : Blocks s c state n middle) (hresumed : Resumed middle c sp s')
    (hnot : ¬state.Running) :
    (s'.task c).state = state ∧ s'.node c = n ∧
      ∀ index, index ≠ c → Turns (s.task index).state (s'.task index).state := by
  refine ⟨hresumed.state_eq (by rw [h.task]) hnot, ?_, ?_⟩
  · rw [hresumed.quiet.node, h.node]
  · intro index hindex
    rw [← h.others index hindex]
    exact hresumed.turns index

end Tasks

/-! ## Rounds of other tasks -/

/-- The handler of the action leads from `s` to `middle`. -/
def Handles (s : State) : Action → State → Prop
  | .interrupt intrCode trap, middle =>
      ∃ fuel time, handleIrq (entered s trap) fuel intrCode trap.timer = some (time, middle)
  | .call call trap, middle =>
      ∃ fuel result, handle (entered s trap) fuel trap call = some (result, middle)

/-- What the handler of an action makes of the descriptor of a task that does not make
the call. -/
inductive Moved (s : State) (index : ℤ) : Action → Task → Prop
  | same (action : Action) : Moved s index action (s.task index)
  | woken {intrCode : ℤ} {trap : Trap} (hneg : intrCode < 0)
      (hstate : (s.task index).state = .eventBlocked)
      (hevent : (s.task index).awaitingEventId = (1 : Word) <<< (-intrCode).toNat) :
      Moved s index (.interrupt intrCode trap) { s.task index with state := .ready }
  | created {priority : ℤ} {code : Word} {trap : Trap} {task : Task}
      (hstate : (s.task index).state = .free) :
      Moved s index (.call (.create priority code) trap) task
  | received {tid : ℤ} {msg reply : ℕ} {msglen replylen : Word} {trap : Trap}
      (hstate : (s.task index).state = .sendBlocked) (htid : (s.task index).tid = tid) :
      Moved s index (.call (.send tid msg msglen reply replylen) trap)
        { s.task index with state := .ready }
  | taken {tid msg : ℕ} {msglen : Word} {trap : Trap}
      (hstate : (s.task index).state = .receiveBlocked)
      (hfirst : (s.msgQueues.queue s.current).first = some index) :
      Moved s index (.call (.receive tid msg msglen) trap)
        { s.task index with state := .replyBlocked }
  | answered {tid : ℤ} {reply : ℕ} {replylen : Word} {trap : Trap}
      (hstate : (s.task index).state = .replyBlocked) (htid : (s.task index).tid = tid) :
      Moved s index (.call (.reply tid reply replylen) trap)
        { s.task index with state := .ready }

section Moved

variable {s s' middle : State} {l : Layout} {action : Action} {index : ℤ}

theorem Undestroyed.exists_resumed (h : Undestroyed s l) (hno : NoDestroy s action)
    (hstep : Step s action s') :
    ∃ middle, Handles s action middle ∧ Resumed middle l.current action.trap.sp s' := by
  cases action with
  | interrupt intrCode trap =>
      obtain ⟨fuel, time, middle, hirq, hresumed⟩ :=
        h.toCoherent.exists_resumed_interrupt hstep
      exact ⟨middle, ⟨fuel, time, hirq⟩, hresumed⟩
  | call call trap =>
      obtain ⟨fuel, result, middle, hhandle, hresumed⟩ :=
        h.toCoherent.exists_resumed_call (h.safe hno) hstep
      exact ⟨middle, ⟨fuel, result, hhandle⟩, hresumed⟩

theorem Moved.of_eq {task : Task} (htask : task = s.task index) : Moved s index action task := by
  rw [htask]
  exact .same action

/-- A task that can run is not moved by others. -/
theorem Moved.eq_of_running {task : Task} (h : Moved s index action task)
    (hrunning : (s.task index).state.Running) : task = s.task index := by
  cases h with
  | same => rfl
  | woken _ hstate | created hstate | received hstate | taken hstate | answered hstate =>
      simp [TaskState.Running, hstate] at hrunning

theorem Coherent.moved_create (h : Coherent s l) {priority : ℤ} {code : Word} {trap : Trap} :
    Moved s index (.call (.create priority code) trap)
      ((createTaskSafe (entered s trap) priority code).2.task index) := by
  have hentered := h.enter trap
  rw [createTaskSafe]
  split_ifs
  · exact .same _
  · cases hqueue : l.lists .available with
    | nil =>
        rw [createTask_of_empty hentered.dispatched.partition hqueue]
        exact .same _
    | cons new rest =>
        rw [createTask_eq hentered.dispatched.partition hentered.family hqueue]
        by_cases hnew : index = new
        · subst index
          exact .created (h.free_of_available hqueue).2
        · exact .of_eq (task_created_of_ne _ _ hnew)

theorem Undestroyed.moved_send (h : Undestroyed s l) (hindex : index ≠ l.current) {tid : ℤ}
    {msg reply : ℕ} {msglen replylen : Word} {trap : Trap} :
    Moved s index (.call (.send tid msg msglen reply replylen) trap)
      ((sendProxy (entered s trap) trap.uninit tid msg msglen reply replylen).2.task
        index) := by
  have hentered := h.toCoherent.enter trap
  by_cases halive : isTaskAlive (entered s trap) tid
  · have hsends : Sends (entered s trap) l
        (sendNode trap.uninit (s.task l.current).tid tid msg msglen reply replylen) :=
      ⟨rfl, halive, h.addressed.unlinked h.toCoherent⟩
    rw [hentered.dispatched.sendProxy_eq halive]
    split_ifs with hwaits
    · have hmeet := hentered.rendezvous_handOver hsends hwaits
      by_cases hreceiver : index = slot tid
      · subst index
        refine hmeet.woken.symm ▸ .received hwaits (tid_of_alive halive)
      · exact .of_eq (hmeet.others index hindex hreceiver)
    · exact .of_eq (update_of_ne hindex _ _)
  · rw [sendProxy_of_not_alive halive]
    exact .same _

theorem Undestroyed.moved_receive (h : Undestroyed s l) (hindex : index ≠ l.current)
    {tid msg : ℕ} {msglen : Word} {trap : Trap} :
    Moved s index (.call (.receive tid msg msglen) trap)
      ((receiveProxy (entered s trap) trap.uninit trap.uninitLinks tid msg msglen).2.task
        index) := by
  have hentered := h.toCoherent.enter trap
  have hquiet := (silent_entered s trap).quiet
  cases hqueue : l.queues l.current with
  | nil =>
      rw [hentered.dispatched.receiveProxy_of_empty hentered.messages.represents hqueue]
      exact .of_eq (update_of_ne hindex _ _)
  | cons head rest =>
      rw [hentered.dispatched.receiveProxy_of_cons hentered.messages.represents hqueue]
      have hmeet := hentered.rendezvous_take (h.addressed.quiet hquiet)
        (h.occupied.quiet hquiet) hqueue ((head :: rest).getLast (by simp)) tid msg msglen
      by_cases hhead : index = head
      · subst index
        have hmem : head ∈ l.queues l.current := by simp [hqueue]
        have hblocked := h.messages.state_of_linked hmem (h.occupied.sender hmem)
          (h.addressed.from_eq hmem)
        have hfirst : (s.msgQueues.queue s.current).first = some head := by
          rw [h.dispatched.current_eq, (h.messages.represents.contents _).first, hqueue,
            List.head?_cons]
        exact hmeet.blocked.symm ▸ .taken hblocked hfirst
      · exact .of_eq (hmeet.others index hhead hindex)

theorem Coherent.moved_reply (h : Coherent s l) {tid : ℤ} {reply : ℕ} {replylen : Word}
    {trap : Trap} :
    Moved s index (.call (.reply tid reply replylen) trap)
      ((replyProxy (entered s trap) tid reply replylen).2.task index) := by
  by_cases hawaits : Awaiting (entered s trap) tid
  · obtain ⟨queues, heq⟩ := (h.enter trap).exists_replyProxy hawaits reply replylen
    obtain ⟨_, htid, hstate⟩ := awaiting_iff.mp hawaits
    rw [heq, (Silent.storeWord _ _ _).task, State.withTasks_task]
    by_cases hslot : index = slot tid
    · subst index
      rw [update_self]
      exact .answered hstate htid
    · rw [update_of_ne hslot]
      exact .same _
  · obtain ⟨error, _, hrefused⟩ := replyProxy_refused hawaits reply replylen
    rw [hrefused]
    exact .same _

/-- What `AwaitEvent` does. -/
theorem Coherent.awaits (h : Coherent s l) {trap : Trap} {event : Word}
    (hhandles : Handles s (.call (.awaitEvent event) trap) middle) :
    (middle.task l.current).state = .eventBlocked ∧
      (middle.task l.current).awaitingEventId = event := by
  obtain ⟨fuel, result, hhandle⟩ := hhandles
  have hcurrent := (h.enter trap).dispatched.current_eq
  obtain rfl := eq_of_handle hhandle
  rw [← hcurrent]
  have hself : (awaitEventHandler (entered s trap) event).2.task (entered s trap).current =
      { (entered s trap).task (entered s trap).current with
        awaitingEventId := event
        state := .eventBlocked } := by
    simp [awaitEventHandler, setCurrentTaskState, enableInterrupt, State.setTask, State.current]
  rw [hself]
  exact ⟨rfl, rfl⟩

/-- A task that does not make the call is moved only by what it waits for. -/
theorem Undestroyed.moved (h : Undestroyed s l) (hno : NoDestroy s action)
    (hhandles : Handles s action middle)
    (hindex : action.call? ≠ none → index ≠ l.current) :
    Moved s index action (middle.task index) := by
  have hcoherent := h.toCoherent
  cases action with
  | interrupt intrCode trap =>
      obtain ⟨fuel, time, hirq⟩ := hhandles
      rcases (hcoherent.enter trap).dispatched.toInKernel.task_handleIrq_cases hirq index with
        hsame | ⟨hneg, hstate, hevent, hwoken⟩
      · exact .of_eq hsame
      · exact hwoken.symm ▸ .woken hneg hstate hevent
  | call call trap =>
      have hother : index ≠ l.current := hindex (by simp [Action.call?])
      obtain ⟨fuel, result, hhandle⟩ := hhandles
      cases call with
      | destroy tid => exact hno.elim
      | create priority code =>
          obtain rfl := eq_of_handle hhandle
          exact hcoherent.moved_create
      | send tid msg msglen reply replylen =>
          obtain rfl := eq_of_handle hhandle
          exact h.moved_send hother
      | receive tid msg msglen =>
          obtain rfl := eq_of_handle hhandle
          exact h.moved_receive hother
      | reply tid reply replylen =>
          obtain rfl := eq_of_handle hhandle
          exact hcoherent.moved_reply
      | _ =>
          apply Moved.of_eq
          refine (hcoherent.enter trap).task_of_local ?_ hhandle hother
          trivial

end Moved

/-! ## What a round leaves alone -/

section Aside

variable {s s' middle : State} {l : Layout} {queues : Lists ℤ ℤ} {call : Option Call}
  {action : Action} {index : ℤ}

/-- A handler writes the node of the running task, and the nodes in its queue. -/
theorem Effect.node_eq (heffect : Effect s l call queues middle)
    (hother : call ≠ none → index ≠ l.current)
    (hqueue : call ≠ none → index ∉ l.queues l.current) :
    middle.node index = s.node index := by
  cases heffect with
  | quiet hquiet hrunning => rw [hquiet.quiet.node]
  | create hqueue => rfl
  | @destroy _ parent _ _ hreaped =>
      rw [hreaped.untouched.node, (Silent.useDescriptor s parent).node]
  | send hsends hbusy => exact update_of_ne (hother (by simp [MsgQueueNode.sendCall])) _ _
  | handOver hsends hwaits hdone =>
      have hne := hother (by simp [MsgQueueNode.sendCall])
      rw [hdone.node]
      exact (update_of_ne hne _ _).trans (update_of_ne hne _ _)
  | wait hempty hunlinked => exact update_of_ne (hother (by simp)) _ _
  | take htaken hindex hlive hdone =>
      rw [hdone.node]
      apply update_of_ne
      rintro rfl
      rw [← htaken] at hindex
      exact hqueue (by simp) hindex

/-- A handler changes the queue of the running task, and the one it sends to. -/
theorem Effect.queues_eq (h : Coherent s l) (heffect : Effect s l call queues middle)
    (hother : call ≠ none → index ≠ l.current)
    (hsend : ∀ n : MsgQueueNode, n.sendCall = call → isTaskAlive s n.toTid →
      slot n.toTid ≠ index) :
    queues index = l.queues index := by
  cases heffect with
  | quiet | create | destroy | handOver | wait => rfl
  | @send n hsends hbusy => exact Lists.append_of_ne _ _ (Ne.symm (hsend n rfl hsends.alive))
  | @take head _ _ _ _ _ _ hqueue hindex hlive hdone =>
      apply List.erase_of_not_mem
      intro hmem
      have hhead : head ∈ l.queues l.current := by simp [hqueue]
      exact hother (by simp) (h.messages.represents.disjoint hmem hhead)

/-- A round writes the node of the running task, and the nodes in its queue. -/
theorem Undestroyed.node_eq (h : Undestroyed s l) (hno : NoDestroy s action)
    (hstep : Step s action s') (hother : action.call? ≠ none → index ≠ l.current)
    (hqueue : action.call? ≠ none → index ∉ l.queues l.current) :
    s'.node index = s.node index := by
  obtain ⟨_, _, _, heffect, hsaved, hactivate⟩ := h.toCoherent.round (h.safe hno) hstep
  obtain ⟨hquiet, _⟩ := heffect.finish (h.toCoherent.enter action.trap) hsaved hactivate
  rw [hquiet.node, heffect.node_eq hother hqueue]
  rfl

/-- A round without `Destroy` leaves every task its descriptor. -/
theorem Undestroyed.lasting (h : Undestroyed s l) (hno : NoDestroy s action)
    (hstep : Step s action s') : Lasting s s' := by
  intro index hlive
  have hentered := h.toCoherent.enter action.trap
  obtain ⟨_, _, _, heffect, hsaved, hactivate⟩ := h.toCoherent.round (h.safe hno) hstep
  obtain ⟨hquiet, _⟩ := heffect.finish hentered hsaved hactivate
  obtain ⟨hallocated, htid⟩ := heffect.lasting hentered hno.call index hlive
  exact ⟨(hquiet.keeps.allocated_iff index).mpr hallocated, (hquiet.keeps.tid index).trans htid⟩

/-- A task is alive after the round unless it has ended. -/
theorem Undestroyed.alive (h : Undestroyed s l) (hno : NoDestroy s action)
    (hstep : Step s action s') {tid : ℤ} (halive : isTaskAlive s tid)
    (hvalue : 0 < (s'.task (slot tid)).state.value) : isTaskAlive s' tid :=
  alive_of_tid_eq halive (h.lasting hno hstep _ (allocated_of_alive halive)).2 hvalue

/-- A round changes the queue of the running task, and the one it sends to. -/
theorem Undestroyed.contents_eq (h : Undestroyed s l) (hno : NoDestroy s action)
    (hstep : Step s action s') (hother : action.call? ≠ none → index ≠ l.current)
    (hsend : ∀ n : MsgQueueNode, n.sendCall = action.call? → isTaskAlive s n.toTid →
      slot n.toTid ≠ index)
    {nodes : List ℤ} (hcontents : Contents s.msgQueues index nodes) :
    Contents s'.msgQueues index nodes := by
  have hentered := h.toCoherent.enter action.trap
  obtain ⟨_, _, _, heffect, hsaved, hactivate⟩ := h.toCoherent.round (h.safe hno) hstep
  obtain ⟨_, _, hcoherent, rfl⟩ := heffect.finish hentered hsaved hactivate
  rw [hcontents.unique (h.messages.represents.contents index),
    ← heffect.queues_eq hentered hother hsend]
  exact hcoherent.messages.represents.contents index

end Aside

/-! ## How a round ends -/

/-- The message that an event takes, and the task that takes it. -/
def Event.taking : Event → Option (ℤ × MsgQueueNode)
  | .taken tid node => some (tid, node)
  | _ => none

def Exchanges (s : State) : Action → Prop
  | .call (.send tid _ _ _ _) _ => isTaskAlive s tid
  | .call (.receive _ _ _) _ => True
  | _ => False

/-- The handler of the action ends in `middle`, and takes the given messages. -/
inductive Outcome (s : State) (l : Layout) :
    Action → List (ℤ × MsgQueueNode) → State → Prop
  | quiet {action : Action} {middle : State} (hnone : ¬Exchanges s action)
      (hquiet : Quiet (entered s action.trap) middle) : Outcome s l action [] middle
  | created {priority : ℤ} {code : Word} {trap : Trap} {index : ℤ}
      (hfree : (s.task index).state = .free) :
      Outcome s l (.call (.create priority code) trap) []
        (created (entered s trap) index (Priority.ofInt priority) code)
  | queued {tid : ℤ} {msg reply : ℕ} {msglen replylen : Word} {trap : Trap}
      (halive : isTaskAlive s tid) (hbusy : (s.task (slot tid)).state ≠ .sendBlocked) :
      Outcome s l (.call (.send tid msg msglen reply replylen) trap) []
        (queuedSend (entered s trap) l.current
          (sendNode trap.uninit (s.task l.current).tid tid msg msglen reply replylen))
  | handedOver {tid : ℤ} {msg reply : ℕ} {msglen replylen : Word} {trap : Trap}
      {node : MsgQueueNode} {middle : State} (halive : isTaskAlive s tid)
      (hwaits : (s.task (slot tid)).state = .sendBlocked)
      (hnode : node = handedNode s
        (sendNode trap.uninit (s.task l.current).tid tid msg msglen reply replylen))
      (hmeet : Rendezvous (entered s trap) l.current (slot tid) node
        [.sent (sendNode trap.uninit (s.task l.current).tid tid msg msglen reply replylen)]
        middle) :
      Outcome s l (.call (.send tid msg msglen reply replylen) trap) [(tid, node)] middle
  | waits {tid msg : ℕ} {msglen : Word} {trap : Trap} (hempty : l.queues l.current = []) :
      Outcome s l (.call (.receive tid msg msglen) trap) []
        (waitingReceive (entered s trap) l.current (trap.uninit.withReceive tid msg msglen)
          trap.uninitLinks)
  | takes {tid msg : ℕ} {msglen : Word} {trap : Trap} {head : ℤ} {rest : List ℤ}
      {node : MsgQueueNode} {middle : State} (hqueue : l.queues l.current = head :: rest)
      (hnode : node = takenNode s head rest tid msg msglen)
      (hmeet : Rendezvous (entered s trap) head l.current node [] middle) :
      Outcome s l (.call (.receive tid msg msglen) trap) [((s.task l.current).tid, node)]
        middle

section Outcome

variable {s s' middle : State} {l : Layout} {action : Action}

theorem filterMap_taking_quiet {events : List Event}
    (hquiet : ∀ event ∈ events, ¬event.IsMessage) : events.filterMap Event.taking = [] := by
  rw [List.filterMap_eq_nil_iff]
  intro event hevent
  have hnot := hquiet event hevent
  cases event <;> simp_all [Event.taking, Event.IsMessage]

theorem Undestroyed.outcome_create (h : Undestroyed s l) {priority : ℤ} {code : Word}
    {trap : Trap} :
    Outcome s l (.call (.create priority code) trap) []
      (createTaskSafe (entered s trap) priority code).2 := by
  have hentered := h.toCoherent.enter trap
  rw [createTaskSafe]
  split_ifs
  · exact .quiet id (.refl _)
  · cases hqueue : l.lists .available with
    | nil =>
        rw [createTask_of_empty hentered.dispatched.partition hqueue]
        exact .quiet id (.refl _)
    | cons index rest =>
        rw [createTask_eq hentered.dispatched.partition hentered.family hqueue]
        exact .created (h.free_of_available hqueue).2

theorem Undestroyed.outcome_send (h : Undestroyed s l) {tid : ℤ} {msg reply : ℕ}
    {msglen replylen : Word} {trap : Trap} :
    ∃ takings, Outcome s l (.call (.send tid msg msglen reply replylen) trap) takings
      (sendProxy (entered s trap) trap.uninit tid msg msglen reply replylen).2 := by
  have hentered := h.toCoherent.enter trap
  by_cases halive : isTaskAlive s tid
  · have halive' : isTaskAlive (entered s trap) tid := halive
    rw [hentered.dispatched.sendProxy_eq halive']
    split_ifs with hwaits
    · have hsends : Sends (entered s trap) l
          (sendNode trap.uninit (s.task l.current).tid tid msg msglen reply replylen) :=
        ⟨rfl, halive, h.addressed.unlinked h.toCoherent⟩
      exact ⟨_, .handedOver halive hwaits rfl (hentered.rendezvous_handOver hsends hwaits)⟩
    · exact ⟨[], .queued halive hwaits⟩
  · have halive' : ¬isTaskAlive (entered s trap) tid := halive
    rw [sendProxy_of_not_alive halive']
    exact ⟨[], .quiet halive (.refl _)⟩

theorem Undestroyed.outcome_receive (h : Undestroyed s l) {tid msg : ℕ} {msglen : Word}
    {trap : Trap} :
    ∃ takings, Outcome s l (.call (.receive tid msg msglen) trap) takings
      (receiveProxy (entered s trap) trap.uninit trap.uninitLinks tid msg msglen).2 := by
  have hentered := h.toCoherent.enter trap
  have hquiet := (silent_entered s trap).quiet
  cases hqueue : l.queues l.current with
  | nil =>
      rw [hentered.dispatched.receiveProxy_of_empty hentered.messages.represents hqueue]
      exact ⟨[], .waits hqueue⟩
  | cons head rest =>
      rw [hentered.dispatched.receiveProxy_of_cons hentered.messages.represents hqueue]
      exact ⟨_, .takes hqueue rfl (hentered.rendezvous_take (h.addressed.quiet hquiet)
        (h.occupied.quiet hquiet) hqueue ((head :: rest).getLast (by simp)) tid msg msglen)⟩

/-- How the handler of an action ends. -/
theorem Undestroyed.exists_outcome_of_handles (h : Undestroyed s l) (hno : NoDestroy s action)
    (hhandles : Handles s action middle) :
    ∃ takings, Outcome s l action takings middle := by
  have hcoherent := h.toCoherent
  cases action with
  | interrupt intrCode trap =>
      obtain ⟨fuel, time, hirq⟩ := hhandles
      have hkernel := (hcoherent.enter trap).dispatched.toInKernel
      exact ⟨[], .quiet id (hkernel.handled_handleIrq hirq).quiet⟩
  | call call trap =>
      have hentered := hcoherent.enter trap
      obtain ⟨fuel, result, hhandle⟩ := hhandles
      cases call with
      | destroy tid => exact hno.elim
      | create priority code =>
          obtain rfl := eq_of_handle hhandle
          exact ⟨[], h.outcome_create⟩
      | send tid msg msglen reply replylen =>
          obtain rfl := eq_of_handle hhandle
          exact h.outcome_send
      | receive tid msg msglen =>
          obtain rfl := eq_of_handle hhandle
          exact h.outcome_receive
      | reply tid reply replylen =>
          obtain rfl := eq_of_handle hhandle
          exact ⟨[], .quiet id (hentered.handled_replyProxy tid reply replylen).quiet⟩
      | _ =>
          refine ⟨[], .quiet id (hentered.handledQuietly_of_local ?_ hhandle).quiet⟩
          trivial

/-- The events that a handler records. -/
theorem Outcome.exists_log {takings : List (ℤ × MsgQueueNode)}
    (h : Outcome s l action takings middle) :
    ∃ events, middle.log = s.log ++ events ∧ events.filterMap Event.taking = takings := by
  cases h with
  | quiet _ hquiet =>
      obtain ⟨events, hlog, hnone⟩ := hquiet.log
      exact ⟨events, hlog, filterMap_taking_quiet hnone⟩
  | created hfree => exact ⟨[_], rfl, rfl⟩
  | queued halive hbusy => exact ⟨[_], rfl, rfl⟩
  | @handedOver tid _ _ _ _ trap node _ halive hwaits hnode hmeet =>
      obtain ⟨events, hlog, hnone⟩ := hmeet.log
      have htid : ((entered s trap).task (slot tid)).tid = tid :=
        (tid_of_alive halive)
      rw [List.append_assoc, htid] at hlog
      exact ⟨_, hlog, congrArg (List.cons (tid, node)) (filterMap_taking_quiet hnone)⟩
  | waits hempty => exact ⟨[_], rfl, rfl⟩
  | takes hqueue hnode hmeet =>
      obtain ⟨events, hlog, hnone⟩ := hmeet.log
      rw [List.append_nil] at hlog
      exact ⟨_, hlog, congrArg (List.cons _) (filterMap_taking_quiet hnone)⟩

/-- A message stays in the node of a task that does not make the call. -/
theorem Outcome.message_eq {takings : List (ℤ × MsgQueueNode)} {index : ℤ}
    (h : Outcome s l action takings middle)
    (hindex : action.call? ≠ none → index ≠ l.current) :
    (middle.node index).message = (s.node index).message := by
  cases h with
  | quiet _ hquiet => exact congrArg MsgQueueNode.message (congrFun hquiet.node index)
  | created hfree => rfl
  | queued halive hbusy =>
      have hne := hindex (by simp [Action.call?])
      exact congrArg MsgQueueNode.message ((blocks_queuedSend _ _ _).nodes index hne)
  | handedOver halive hwaits hnode hmeet =>
      exact hmeet.nodes index (hindex (by simp [Action.call?]))
  | waits hempty =>
      have hne := hindex (by simp [Action.call?])
      exact congrArg MsgQueueNode.message ((blocks_waitingReceive _ _ _ _).nodes index hne)
  | @takes _ _ _ _ head _ _ _ hqueue hnode hmeet =>
      by_cases hhead : index = head
      · subst index
        rw [hmeet.kept, hnode, message_takenNode]
      · exact hmeet.nodes index hhead

/-- How a round ends, with the messages that it takes. -/
theorem Undestroyed.exists_outcome (h : Undestroyed s l) (hno : NoDestroy s action)
    (hstep : Step s action s') :
    ∃ middle events,
      Handles s action middle ∧ Outcome s l action (events.filterMap Event.taking) middle ∧
        Resumed middle l.current action.trap.sp s' ∧ s'.log = s.log ++ events := by
  obtain ⟨middle, hhandles, hresumed⟩ := h.exists_resumed hno hstep
  obtain ⟨takings, houtcome⟩ := h.exists_outcome_of_handles hno hhandles
  obtain ⟨events, hlog, rfl⟩ := houtcome.exists_log
  obtain ⟨quiet, hquietLog, hnone⟩ := hresumed.quiet.log
  refine ⟨middle, events ++ quiet, hhandles, ?_, hresumed, ?_⟩
  · rw [List.filterMap_append, filterMap_taking_quiet hnone, List.append_nil]
    exact houtcome
  · rw [hquietLog, hlog, List.append_assoc]

end Outcome

end Rtk.Kernel
