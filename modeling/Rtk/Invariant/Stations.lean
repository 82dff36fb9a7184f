import Rtk.Usr.Clock

/-!
# The stations of a tick

What a round does to the notifier and to the server, and to the ticks that they have.  A tick
that leaves the notifier's message arrives at the server.
-/

namespace Rtk.ClockServer

open Function
open Rtk.ByteMemory
open Rtk.Kernel

/-! ## Where the two tasks are -/

section Stations

variable {clock : Clock} {s s' middle : Kernel.State} {l : Layout} {notifier : NotifierCall}
  {phase : Phase} {action : Kernel.Action} {takings : List (ℤ × MsgQueueNode)} {c : ℤ}
  {sp : ℕ}

theorem NotifierCall.ticks_of_running {state state' : TaskState} (hrunning : state.Running)
    (hrunning' : state'.Running) : notifier.ticks state = notifier.ticks state' := by
  rcases hrunning with rfl | rfl <;> rcases hrunning' with rfl | rfl <;> cases notifier <;> rfl

/-- The states of the notifier. -/
theorem NotifierCall.Fits.cases (h : notifier.Fits clock s) :
    (s.task (slot clock.notifier)).state.Running ∨
      notifier = send ∧ (s.task (slot clock.notifier)).state = .eventBlocked ∧
        (s.task (slot clock.notifier)).awaitingEventId = picTimer01 ∨
      notifier = awaitEvent ∧ (s.task (slot clock.notifier)).state = .receiveBlocked ∧
        (s.node (slot clock.notifier)).toTid = clock.server ∨
      notifier = awaitEvent ∧ (s.task (slot clock.notifier)).state = .replyBlocked := by
  cases notifier with
  | send => exact h.imp_right fun hevent => .inl ⟨rfl, hevent⟩
  | awaitEvent =>
      rcases h with hrunning | hqueued | hreply
      · exact .inl hrunning
      · exact .inr (.inr (.inl ⟨rfl, hqueued⟩))
      · exact .inr (.inr (.inr ⟨rfl, hreply⟩))

theorem NotifierCall.fits_of_running
    (hrunning : (s.task (slot clock.notifier)).state.Running) : notifier.Fits clock s := by
  cases notifier <;> exact .inl hrunning

theorem NotifierCall.Fits.value_pos (h : notifier.Fits clock s) :
    0 < (s.task (slot clock.notifier)).state.value := by
  rcases h.cases with hrunning | ⟨_, hstate, _⟩ | ⟨_, hstate, _⟩ | ⟨_, hstate⟩
  · exact value_of_running hrunning
  · simp [hstate, TaskState.value]
  · simp [hstate, TaskState.value]
  · simp [hstate, TaskState.value]

/-- The notifier is in use, and it never receives. -/
theorem NotifierCall.Fits.state_ne (h : notifier.Fits clock s) :
    (s.task (slot clock.notifier)).state ≠ .free ∧
      (s.task (slot clock.notifier)).state ≠ .sendBlocked := by
  rcases h.cases with hrunning | ⟨_, hstate, _⟩ | ⟨_, hstate, _⟩ | ⟨_, hstate⟩
  · rcases hrunning with hstate | hstate <;> simp [hstate]
  · simp [hstate]
  · simp [hstate]
  · simp [hstate]

theorem NotifierCall.Fits.of_eventBlocked (h : notifier.Fits clock s)
    (hstate : (s.task (slot clock.notifier)).state = .eventBlocked) :
    notifier = send ∧ (s.task (slot clock.notifier)).awaitingEventId = picTimer01 := by
  cases notifier with
  | send => exact ⟨rfl, (h.resolve_left (by simp [TaskState.Running, hstate])).2⟩
  | awaitEvent => simp [Fits, TaskState.Running, hstate] at h

theorem NotifierCall.Fits.of_receiveBlocked (h : notifier.Fits clock s)
    (hstate : (s.task (slot clock.notifier)).state = .receiveBlocked) :
    notifier = awaitEvent ∧ (s.node (slot clock.notifier)).toTid = clock.server := by
  cases notifier with
  | send => simp [Fits, TaskState.Running, hstate] at h
  | awaitEvent => exact ⟨rfl, by simpa [Fits, TaskState.Running, hstate] using h⟩

theorem NotifierCall.Fits.of_replyBlocked (h : notifier.Fits clock s)
    (hstate : (s.task (slot clock.notifier)).state = .replyBlocked) : notifier = awaitEvent := by
  cases notifier with
  | send => simp [Fits, TaskState.Running, hstate] at h
  | awaitEvent => rfl

/-- The notifier stays where it is. -/
theorem NotifierCall.Fits.congr (h : notifier.Fits clock s)
    (htask : middle.task (slot clock.notifier) = s.task (slot clock.notifier))
    (hmessage : (middle.node (slot clock.notifier)).message =
      (s.node (slot clock.notifier)).message) : notifier.Fits clock middle := by
  have hto := (fields_of_message hmessage).2.1
  cases notifier with
  | send => rwa [Fits, htask]
  | awaitEvent => rwa [Fits, htask, hto]

theorem NotifierCall.Fits.resumed (h : notifier.Fits clock middle)
    (hresumed : Resumed middle c sp s') :
    notifier.Fits clock s' ∧
      notifier.ticks (s'.task (slot clock.notifier)).state =
        notifier.ticks (middle.task (slot clock.notifier)).state := by
  rcases h.cases with hrunning | ⟨rfl, hstate, hevent⟩ | ⟨rfl, hstate, hto⟩ | ⟨rfl, hstate⟩
  · have hrunning' := (hresumed.turns (slot clock.notifier)).running hrunning
    exact ⟨fits_of_running hrunning', ticks_of_running hrunning' hrunning⟩
  · have hstate' := hresumed.state_eq hstate (by decide)
    refine ⟨.inr ⟨hstate', ?_⟩, by rw [hstate', hstate]⟩
    rw [hresumed.awaiting, hevent]
  · have hstate' := hresumed.state_eq hstate (by decide)
    refine ⟨.inr (.inl ⟨hstate', ?_⟩), by rw [hstate', hstate]⟩
    rw [hresumed.quiet.node, hto]
  · have hstate' := hresumed.state_eq hstate (by decide)
    exact ⟨.inr (.inr hstate'), by rw [hstate', hstate]⟩

/-- The server waits for a message, or it can run. -/
theorem Phase.Fits.cases (h : phase.Fits clock s) :
    phase = receiving none ∧ (s.task (slot clock.server)).state = .sendBlocked ∧
        Pointed clock (s.node (slot clock.server)) ∨
      phase ≠ receiving none ∧ (s.task (slot clock.server)).state.Running := by
  cases phase with
  | receiving node =>
      cases node with
      | none => exact .inl ⟨rfl, h⟩
      | some node => exact .inr ⟨by simp, h.1⟩
  | answering req replies next => exact .inr ⟨by simp, h⟩
  | releasing replies => exact .inr ⟨by simp, h⟩

theorem Phase.Fits.value_pos (h : phase.Fits clock s) :
    0 < (s.task (slot clock.server)).state.value := by
  rcases h.cases with ⟨_, hstate, _⟩ | ⟨_, hrunning⟩
  · simp [hstate, TaskState.value]
  · exact value_of_running hrunning

/-- The server still can run. -/
theorem Phase.Fits.of_running (h : phase.Fits clock s) (hphase : phase ≠ receiving none)
    (hrunning : (middle.task (slot clock.server)).state.Running) :
    phase.Fits clock middle := by
  cases phase with
  | receiving node =>
      cases node with
      | none => exact absurd rfl hphase
      | some node => exact ⟨hrunning, h.2⟩
  | answering req replies next => exact hrunning
  | releasing replies => exact hrunning

theorem Phase.Fits.resumed (h : phase.Fits clock middle)
    (hresumed : Resumed middle c sp s') : phase.Fits clock s' := by
  rcases h.cases with ⟨rfl, hstate, hpointed⟩ | ⟨hphase, hrunning⟩
  · refine ⟨hresumed.state_eq hstate (by decide), ?_⟩
    rw [hresumed.quiet.node]
    exact hpointed
  · exact h.of_running hphase ((hresumed.turns _).running hrunning)

def arrivals (clock : Clock) (takings : List (ℤ × MsgQueueNode)) : ℕ :=
  takings.countP fun taking => taking.1 = clock.server ∧ taking.2.fromTid = clock.notifier

theorem arrivals_singleton (taking : ℤ × MsgQueueNode) :
    arrivals clock [taking] =
      if taking.1 = clock.server ∧ taking.2.fromTid = clock.notifier then 1 else 0 := by
  simp [arrivals, List.countP_cons]

/-- What a task that makes no call may assume. -/
theorem ne_current_of_callOf {tid : ℤ} (h : Undestroyed s l) (halive : isTaskAlive s tid)
    (hnone : callOf s action tid = none) : action.call? ≠ none → slot tid ≠ l.current := by
  intro hcall
  apply h.ne_current halive
  intro hruns
  rw [callOf, if_pos hruns] at hnone
  exact hcall hnone

theorem exists_trap_of_callOf {tid : ℤ} {call : Call} (h : Undestroyed s l)
    (hsome : callOf s action tid = some call) :
    l.current = slot tid ∧ ∃ trap, action = .call call trap := by
  rw [callOf] at hsome
  split_ifs at hsome with hruns
  refine ⟨h.current_of_runs hruns, ?_⟩
  cases action with
  | interrupt intrCode trap => simp [Kernel.Action.call?] at hsome
  | call call' trap =>
      obtain rfl : call' = call := Option.some.inj hsome
      exact ⟨trap, rfl⟩

end Stations

/-! ## The notifier in a round -/

section Notifier

variable {clock : Clock} {s middle : Kernel.State} {l : Layout} {notifier : NotifierCall}
  {action : Kernel.Action} {takings : List (ℤ × MsgQueueNode)} {trap : Trap}

/-- The notifier sends its tick, which the server takes if it waits for a message. -/
theorem sends_tick {msg reply : ℕ} {msglen replylen : Word}
    (h : Outcome s l (.call (.send clock.server msg msglen reply replylen) trap) takings middle)
    (hcurrent : l.current = slot clock.notifier) (halive : isTaskAlive s clock.notifier)
    (hserver : isTaskAlive s clock.server) :
    NotifierCall.awaitEvent.Fits clock middle ∧
      NotifierCall.awaitEvent.ticks (middle.task (slot clock.notifier)).state +
        arrivals clock takings = 1 := by
  have htid : (s.task l.current).tid = clock.notifier := by
    rw [hcurrent]
    exact tid_of_alive halive
  cases h with
  | quiet hnone => exact absurd hserver hnone
  | queued _ hbusy =>
      have hblocks := blocks_queuedSend (entered s trap) l.current (sendNode trap.uninit
        (s.task l.current).tid clock.server msg msglen reply replylen)
      rw [NotifierCall.Fits, ← hcurrent, hblocks.task, hblocks.node]
      exact ⟨.inr (.inl ⟨rfl, rfl⟩), rfl⟩
  | handedOver _ hwaits hnode hmeet =>
      have hfrom : clock.server = clock.server ∧ _ = clock.notifier :=
        ⟨rfl, (congrArg MsgQueueNode.fromTid hnode).trans htid⟩
      rw [NotifierCall.Fits, arrivals_singleton, if_pos hfrom, ← hcurrent, hmeet.blocked]
      exact ⟨.inr (.inr rfl), rfl⟩

/-- The message that a `Receive` takes names its sender. -/
theorem fromTid_takenNode (h : Undestroyed s l) {queue head : ℤ}
    (hmem : head ∈ l.queues queue) (rest : List ℤ) (tid msg : ℕ) (msglen : Word) :
    (takenNode s head rest tid msg msglen).fromTid = (s.task head).tid :=
  (fields_of_message (message_takenNode s head rest tid msg msglen)).1.trans
    (h.addressed.from_eq hmem)

/-- The server takes no tick, unless from the queue. -/
theorem arrivals_eq_zero (h : Undestroyed s l) (houtcome : Outcome s l action takings middle)
    (hother : action.call? ≠ none → slot clock.notifier ≠ l.current)
    (hstays : (s.task (slot clock.notifier)).state = .receiveBlocked →
      (middle.task (slot clock.notifier)).state = .receiveBlocked) :
    arrivals clock takings = 0 := by
  cases houtcome with
  | quiet | created | queued | waits => rfl
  | handedOver _ hwaits hnode hmeet =>
      have hne := hother (by simp [Action.call?])
      rw [arrivals_singleton, if_neg]
      rintro ⟨_, hfrom⟩
      apply hne
      rw [← hfrom, hnode]
      exact h.dispatched.slot_tid
  | @takes _ _ _ _ head rest _ _ hqueue hnode hmeet =>
      have hmem : head ∈ l.queues l.current := by simp [hqueue]
      rw [arrivals_singleton, if_neg]
      rintro ⟨_, hfrom⟩
      have hhead : slot clock.notifier = head := by
        rw [← hfrom, hnode, fromTid_takenNode h hmem, ← h.addressed.from_eq hmem]
        exact (h.messages.linked hmem).slot_from
      rw [hhead] at hstays
      have hstate := hstays (h.state_of_mem hmem)
      rw [hmeet.blocked] at hstate
      simp at hstate

/-- The server takes the tick of the notifier. -/
theorem arrivals_taken (h : Undestroyed s l) (halive : isTaskAlive s clock.notifier)
    (hserver : isTaskAlive s clock.server) {tid msg : ℕ} {msglen : Word}
    (houtcome : Outcome s l (.call (.receive tid msg msglen) trap) takings middle)
    (hfirst : (s.msgQueues.queue s.current).first = some (slot clock.notifier))
    (hto : (s.node (slot clock.notifier)).toTid = clock.server) :
    arrivals clock takings = 1 := by
  rw [h.dispatched.current_eq, (h.messages.represents.contents _).first] at hfirst
  cases houtcome with
  | quiet hnone => exact absurd trivial hnone
  | waits hempty => simp [hempty] at hfirst
  | @takes _ _ _ _ head rest _ _ hqueue hnode hmeet =>
      rw [hqueue, List.head?_cons, Option.some.injEq] at hfirst
      subst hfirst
      have hmem : slot clock.notifier ∈ l.queues l.current := by simp [hqueue]
      have hcurrent := (h.messages.linked hmem).slot_to
      rw [hto] at hcurrent
      rw [arrivals_singleton, if_pos]
      constructor
      · rw [← hcurrent]
        exact tid_of_alive hserver
      · rw [hnode, fromTid_takenNode h hmem]
        exact tid_of_alive halive

/-- A round in which the notifier makes no call. -/
theorem NotifierCall.Fits.rests (h : notifier.Fits clock s) (hundestroyed : Undestroyed s l)
    (halive : isTaskAlive s clock.notifier) (hserver : isTaskAlive s clock.server)
    (houtcome : Outcome s l action takings middle)
    (hmoved : Moved s (slot clock.notifier) action (middle.task (slot clock.notifier)))
    (hother : action.call? ≠ none → slot clock.notifier ≠ l.current)
    (htick : IsTick action → (s.task (slot clock.notifier)).state = .eventBlocked ∧
      (middle.task (slot clock.notifier)).state = .ready) :
    notifier.Fits clock middle ∧
      notifier.ticks (middle.task (slot clock.notifier)).state + arrivals clock takings =
        notifier.ticks (s.task (slot clock.notifier)).state +
          if IsTick action then 1 else 0 := by
  have hmessage := houtcome.message_eq hother
  have hzero := arrivals_eq_zero hundestroyed houtcome hother
  generalize htask : middle.task (slot clock.notifier) = task at hmoved htick hzero
  cases hmoved with
  | same =>
      have hnot : ¬IsTick action := fun htimer => by
        have hready := (htick htimer).2
        rw [(htick htimer).1] at hready
        simp at hready
      rw [hzero id, if_neg hnot]
      exact ⟨h.congr htask hmessage, rfl⟩
  | @woken intrCode trap hneg hstate hevent =>
      obtain ⟨rfl, hwaits⟩ := h.of_eventBlocked hstate
      have htimer : IsTick (.interrupt intrCode trap) :=
        ⟨hneg, decide_eq_true (hevent.symm.trans hwaits)⟩
      rw [hzero fun hqueued => by simp [hstate] at hqueued, if_pos htimer, hstate]
      exact ⟨.inl (.inl (by rw [htask])), rfl⟩
  | created hstate => exact absurd hstate h.state_ne.1
  | received hstate => exact absurd hstate h.state_ne.2
  | taken hstate hfirst =>
      obtain ⟨rfl, hto⟩ := h.of_receiveBlocked hstate
      rw [arrivals_taken hundestroyed halive hserver houtcome hfirst hto, hstate]
      exact ⟨.inr (.inr (by rw [htask])), rfl⟩
  | answered hstate =>
      obtain rfl := h.of_replyBlocked hstate
      rw [hzero fun hqueued => by simp [hstate] at hqueued, hstate]
      exact ⟨.inl (.inl (by rw [htask])), rfl⟩

/-- A timer interrupt wakes the notifier. -/
theorem Notifies.wakes (h : Notifies clock s) (hundestroyed : Undestroyed s l)
    (hhandles : Handles s action middle) (htick : IsTick action) :
    (s.task (slot clock.notifier)).state = .eventBlocked ∧
      (middle.task (slot clock.notifier)).state = .ready := by
  obtain ⟨lists, hrepresents, hfirst⟩ := h
  have hkernel := hundestroyed.dispatched.toInKernel
  obtain rfl := hrepresents.unique hkernel.partition.represents
  cases action with
  | call call trap => exact htick.elim
  | interrupt intrCode trap =>
      obtain ⟨hneg, htimer⟩ := htick
      obtain ⟨fuel, time, hirq⟩ := hhandles
      have hintr : (1 : Word) <<< (-intrCode).toNat = picTimer01 := of_decide_eq_true htimer
      have hwoken := (hundestroyed.toCoherent.enter trap).dispatched.toInKernel.task_handleIrq_eq
        hirq
      have htask : (entered s trap).task = s.task := rfl
      rw [if_pos hneg, hintr, firstWaiting_congr htask, hfirst, awakened] at hwoken
      obtain ⟨_, _, hmem⟩ := exists_of_firstWaiting hfirst
      refine ⟨(hkernel.of_mem_states hmem).2.2.2.1, ?_⟩
      rw [hwoken, update_self]

/-- The notifier in a round. -/
theorem NotifierCall.Fits.round (h : notifier.Fits clock s) (hundestroyed : Undestroyed s l)
    (halive : isTaskAlive s clock.notifier) (hserver : isTaskAlive s clock.server)
    (hno : NoDestroy s action) (hhandles : Handles s action middle)
    (houtcome : Outcome s l action takings middle)
    (hcall : ∀ call, callOf s action clock.notifier = some call → notifier.call clock = call)
    (hnotifies : IsTick action → Notifies clock s) :
    let made := if (callOf s action clock.notifier).isSome then notifier.next else notifier
    made.Fits clock middle ∧
      made.ticks (middle.task (slot clock.notifier)).state + arrivals clock takings =
        notifier.ticks (s.task (slot clock.notifier)).state +
          if IsTick action then 1 else 0 := by
  cases hcalls : callOf s action clock.notifier with
  | none =>
      have hother := ne_current_of_callOf hundestroyed halive hcalls
      exact h.rests hundestroyed halive hserver houtcome (hundestroyed.moved hno hhandles hother)
        hother fun htick => (hnotifies htick).wakes hundestroyed hhandles htick
  | some call =>
      obtain ⟨hcurrent, trap, rfl⟩ := exists_trap_of_callOf hundestroyed hcalls
      obtain rfl := hcall call hcalls
      have hnot : ¬IsTick (.call (notifier.call clock) trap) := id
      have hactive := hundestroyed.dispatched.running
      rw [hcurrent] at hactive
      rw [if_neg hnot, hactive]
      cases notifier with
      | awaitEvent =>
          obtain ⟨hstate, hevent⟩ := hundestroyed.toCoherent.awaits hhandles
          rw [hcurrent] at hstate hevent
          cases houtcome with
          | quiet =>
              refine ⟨.inr ⟨hstate, hevent⟩, ?_⟩
              rw [hstate]
              rfl
      | send => exact sends_tick houtcome hcurrent halive hserver

end Notifier

/-! ## The server in a round -/

section Server

variable {clock : Clock} {s middle : Kernel.State} {l : Layout} {phase : Phase}
  {action : Kernel.Action} {takings : List (ℤ × MsgQueueNode)} {trap : Trap}

/-- A message for the server that another task's call hands over. -/
theorem handed_to_server (h : Undestroyed s l) (houtcome : Outcome s l action takings middle)
    (hother : action.call? ≠ none → slot clock.server ≠ l.current)
    {taking : ℤ × MsgQueueNode} (hmem : taking ∈ takings) (htid : taking.1 = clock.server) :
    takings = [taking] ∧ (s.task (slot clock.server)).state = .sendBlocked ∧
      (middle.task (slot clock.server)).state = .ready ∧
      (Pointed clock (s.node (slot clock.server)) → Pointed clock taking.2) := by
  cases houtcome with
  | quiet | created | queued | waits => simp at hmem
  | handedOver halive hwaits hnode hmeet =>
      rw [List.mem_singleton] at hmem
      subst hmem
      obtain rfl : _ = clock.server := htid
      refine ⟨rfl, hwaits, by rw [hmeet.woken], fun hpointed => ?_⟩
      rw [hnode]
      exact hpointed
  | takes hqueue hnode hmeet =>
      rw [List.mem_singleton] at hmem
      subst hmem
      apply absurd _ (hother (by simp [Action.call?]))
      rw [← htid]
      exact h.dispatched.slot_tid

/-- The messages are not for the server. -/
theorem Phase.foldl_took (hnone : ∀ taking ∈ takings, taking.1 ≠ clock.server)
    (phase : Phase) :
    takings.foldl (took clock) phase = phase ∧ arrivals clock takings = 0 := by
  constructor
  · induction takings with
    | nil => rfl
    | cons taking rest ih =>
        have htook : took clock phase taking = phase := by
          obtain ⟨tid, node⟩ := taking
          have hne : tid ≠ clock.server := hnone _ List.mem_cons_self
          cases phase with
          | receiving node =>
              cases node with
              | none => rw [took, if_neg hne]
              | some node => rfl
          | answering req replies next => rfl
          | releasing replies => rfl
        rw [List.foldl_cons, htook]
        exact ih fun taking hmem => hnone taking (List.mem_cons_of_mem _ hmem)
  · rw [arrivals, List.countP_eq_zero]
    intro taking hmem
    simp [hnone taking hmem]

/-- A `Send` to the waiting server hands its message over. -/
theorem exists_handed_to_server {tid : ℤ} {msg reply : ℕ} {msglen replylen : Word}
    (halive : isTaskAlive s tid) (hstate : (s.task (slot tid)).state = .sendBlocked)
    (houtcome : Outcome s l (.call (.send tid msg msglen reply replylen) trap) takings middle) :
    ∃ node, (tid, node) ∈ takings := by
  cases houtcome with
  | quiet hnone => exact absurd halive hnone
  | queued _ hbusy => exact absurd hstate hbusy
  | handedOver => exact ⟨_, List.mem_singleton_self _⟩

/-- A round in which the server makes no call. -/
theorem Phase.Fits.rests (h : phase.Fits clock s) (hundestroyed : Undestroyed s l)
    (hserver : isTaskAlive s clock.server) (houtcome : Outcome s l action takings middle)
    (hmoved : Moved s (slot clock.server) action (middle.task (slot clock.server)))
    (hother : action.call? ≠ none → slot clock.server ≠ l.current)
    (hnode : (s.task (slot clock.server)).state = .sendBlocked →
      middle.node (slot clock.server) = s.node (slot clock.server)) :
    (takings.foldl (took clock) phase).Fits clock middle ∧
      (takings.foldl (took clock) phase).ticks clock =
        phase.ticks clock + arrivals clock takings := by
  have htid := tid_of_alive hserver
  by_cases htaken : ∃ taking ∈ takings, taking.1 = clock.server
  · obtain ⟨taking, hmem, hto⟩ := htaken
    obtain ⟨rfl, hstate, hready, hpointed⟩ := handed_to_server hundestroyed houtcome hother hmem hto
    rcases h.cases with ⟨rfl, _, hwaits⟩ | ⟨_, hrunning⟩
    · have htook : [taking].foldl (took clock) (receiving none) = receiving (some taking.2) :=
        if_pos hto
      rw [htook, arrivals_singleton]
      refine ⟨⟨.inl hready, hpointed hwaits⟩, ?_⟩
      simp [Phase.ticks, hto]
    · simp [TaskState.Running, hstate] at hrunning
  · have hnone : ∀ taking ∈ takings, taking.1 ≠ clock.server := by
      intro taking hmem hto
      exact htaken ⟨taking, hmem, hto⟩
    obtain ⟨hsame, hzero⟩ := Phase.foldl_took hnone phase
    rw [hsame, hzero]
    refine ⟨?_, rfl⟩
    rcases h.cases with ⟨rfl, hstate, hwaits⟩ | ⟨hphase, hrunning⟩
    · generalize htask : middle.task (slot clock.server) = task at hmoved
      cases hmoved with
      | same =>
          refine ⟨by rw [htask, hstate], ?_⟩
          rw [hnode hstate]
          exact hwaits
      | received _ hsends =>
          rw [htid] at hsends
          subst hsends
          obtain ⟨node, hmem⟩ := exists_handed_to_server hserver hstate houtcome
          exact absurd rfl (hnone _ hmem)
      | woken _ hblocked | created hblocked | taken hblocked | answered hblocked =>
          simp [hstate] at hblocked
    · apply h.of_running hphase
      rw [hmoved.eq_of_running hrunning]
      exact hrunning

/-- The server replies, or it is back at `Receive`. -/
theorem Phase.call_cases {made : Call} (hcall : phase.call clock = some made) :
    phase = releasing [] ∧ made = .receive clock.senderTid clock.req requestSize ∨
      (∃ tid reply replylen, made = .reply tid reply replylen) ∧
        phase.called.ticks clock = phase.ticks clock ∧
        ∀ {s : Kernel.State}, (s.task (slot clock.server)).state.Running →
          phase.called.Fits clock s := by
  have hreply : ∀ reply : Reply, ∃ tid buffer length,
      reply.call clock = .reply tid buffer length := by
    intro reply
    rw [Reply.call]
    cases reply.ticks <;> exact ⟨_, _, _, rfl⟩
  cases phase with
  | receiving node => simp [call] at hcall
  | answering req replies next =>
      cases replies with
      | nil => simp [call] at hcall
      | cons reply replies =>
          obtain rfl : reply.call clock = _ := Option.some.inj hcall
          exact .inr ⟨hreply reply, rfl, id⟩
  | releasing replies =>
      cases replies with
      | nil =>
          obtain rfl : Call.receive clock.senderTid clock.req requestSize = _ :=
            Option.some.inj hcall
          exact .inl ⟨rfl, rfl⟩
      | cons reply replies =>
          obtain rfl : reply.call clock = _ := Option.some.inj hcall
          exact .inr ⟨hreply reply, rfl, id⟩

/-- The server waits for a message, or takes the only one in its queue. -/
theorem received_by_server (hcurrent : l.current = slot clock.server)
    (hserver : isTaskAlive s clock.server) (hshort : (l.queues l.current).length ≤ 1)
    (houtcome : Outcome s l (.call (.receive clock.senderTid clock.req requestSize) trap)
      takings middle) :
    (takings.foldl (Phase.took clock) (.receiving none)).Fits clock middle ∧
      (takings.foldl (Phase.took clock) (.receiving none)).ticks clock =
        arrivals clock takings := by
  cases houtcome with
  | quiet hnone => exact absurd trivial hnone
  | waits hempty =>
      refine ⟨?_, rfl⟩
      have hblocks := blocks_waitingReceive (entered s trap) l.current
        (trap.uninit.withReceive clock.senderTid clock.req requestSize) trap.uninitLinks
      rw [List.foldl_nil, Phase.Fits, ← hcurrent, hblocks.task, hblocks.node]
      exact ⟨rfl, rfl, rfl, rfl⟩
  | @takes _ _ _ _ head rest _ _ hqueue hnode hmeet =>
      rw [hqueue] at hshort
      obtain rfl : rest = [] := List.eq_nil_of_length_eq_zero (by simpa using hshort)
      have htid : (s.task l.current).tid = clock.server := by
        rw [hcurrent]
        exact tid_of_alive hserver
      rw [arrivals_singleton, List.foldl_cons, List.foldl_nil, Phase.took, if_pos htid]
      refine ⟨⟨?_, ?_⟩, ?_⟩
      · rw [← hcurrent, hmeet.woken]
        exact .inl rfl
      · rw [hnode, takenNode_of_nil]
        exact ⟨rfl, rfl, rfl⟩
      · simp [Phase.ticks, htid]

/-- The server in a round. -/
theorem Phase.Fits.round (h : phase.Fits clock s) (hundestroyed : Undestroyed s l)
    (hserver : isTaskAlive s clock.server) (hno : NoDestroy s action)
    (hhandles : Handles s action middle) (houtcome : Outcome s l action takings middle)
    (hnode : (action.call? ≠ none → slot clock.server ≠ l.current) →
      (action.call? ≠ none → slot clock.server ∉ l.queues l.current) →
        middle.node (slot clock.server) = s.node (slot clock.server))
    (hcall : ∀ call, callOf s action clock.server = some call →
      phase.call clock = some call)
    (hshort : ∀ tid msg msglen, callOf s action clock.server = some (.receive tid msg msglen) →
      (l.queues l.current).length ≤ 1) :
    let called := if (callOf s action clock.server).isSome then phase.called else phase
    (takings.foldl (took clock) called).Fits clock middle ∧
      (takings.foldl (took clock) called).ticks clock =
        phase.ticks clock + arrivals clock takings := by
  cases hcalls : callOf s action clock.server with
  | none =>
      have hother := ne_current_of_callOf hundestroyed hserver hcalls
      apply h.rests hundestroyed hserver houtcome (hundestroyed.moved hno hhandles hother) hother
      intro hstate
      apply hnode hother
      intro _ hmem
      rw [hundestroyed.state_of_mem hmem] at hstate
      simp at hstate
  | some call =>
      obtain ⟨hcurrent, trap, rfl⟩ := exists_trap_of_callOf hundestroyed hcalls
      rcases Phase.call_cases (hcall call hcalls) with
        ⟨rfl, rfl⟩ | ⟨⟨tid, reply, replylen, rfl⟩, hticks, hfits⟩
      · have hlength := hshort _ _ _ hcalls
        obtain ⟨hreceiving, hcount⟩ := received_by_server hcurrent hserver hlength houtcome
        exact ⟨hreceiving, hcount.trans (Nat.zero_add _).symm⟩
      · obtain ⟨fuel, result, hhandle⟩ := hhandles
        obtain rfl := eq_of_handle hhandle
        have hmoved := @Coherent.moved_reply s l (slot clock.server) hundestroyed.toCoherent tid
          reply replylen trap
        have hactive := hundestroyed.dispatched.running
        rw [hcurrent] at hactive
        have htask := hmoved.eq_of_running (.inr hactive)
        cases houtcome with
        | quiet =>
            refine ⟨hfits (.inr (by rw [htask, hactive])), ?_⟩
            rw [List.foldl_nil]
            exact hticks

end Server

end Rtk.ClockServer
