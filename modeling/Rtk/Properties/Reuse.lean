import Mathlib.Data.Int.Interval
import Rtk.Invariant.Waking
import Rtk.Properties.Delivery

/-!
# Messages and descriptors that are used again

Queues and nodes belong to slots, tids to tasks.  `Destroy` leaves both behind, so
that the next task of a slot finds the messages of the last one, unless the slot
takes part in no exchange when it is used again.
-/

namespace Rtk.Kernel

open Function
open Rtk.ByteMemory
open Rtk.Lib
open Rtk.Lib.QueueHeap
open Rtk.Transition

/-- Messages reach the tasks they name: every message taken names the task that took
it, and every other accepted message is still linked as it was sent. -/
structure Intact (s : State) : Prop where
  taken_by : ∀ tid n, .taken tid n ∈ s.log → n.toTid = tid
  pending : ∃ queues, Represents s.msgQueues queues ∧
    ∀ tid, sentMessages s.log tid =
      takenMessages s.log tid ++ pendingMessages s queues tid

theorem toTid_of_mem_sentMessages {log : List Event} {tid : ℤ} {message : MsgQueueNode}
    (hmem : message ∈ sentMessages log tid) : message.toTid = tid := by
  rw [sentMessages, List.mem_filterMap] at hmem
  obtain ⟨event, _, hsent⟩ := hmem
  cases event with
  | sent n =>
      simp only [Event.sentTo] at hsent
      split_ifs at hsent with hto
      rw [Option.some.injEq] at hsent
      rw [← hsent, toTid_message, hto]
  | _ => simp [Event.sentTo] at hsent

theorem Separated.intact {s : State} {l : Layout} (h : Separated s l) : Intact s where
  taken_by := by
    intro tid n htaken
    have hmem : n.message ∈ takenMessages s.log tid := by
      rw [takenMessages, List.mem_filterMap]
      exact ⟨_, htaken, by simp [Event.takenBy]⟩
    rw [← toTid_message]
    apply @toTid_of_mem_sentMessages s.log
    rw [h.delivered tid]
    exact List.mem_append_left _ hmem
  pending := ⟨l.queues, h.messages.represents, h.delivered⟩

/-- In runs in which no slot is used again while it takes part in an exchange,
messages reach the tasks they name. -/
theorem intact_of_reachable {s : State} (hreachable : Reachable kernel Separate s) :
    Intact s := by
  obtain ⟨l, h⟩ := separated_of_reachable hreachable
  exact h.intact

/-- Without `Destroy` no slot is used again. -/
theorem Undestroyed.separate {s : State} {l : Layout} (h : Undestroyed s l)
    {action : Action} (hno : NoDestroy s action) : Separate s action := by
  cases action with
  | interrupt intrCode trap => trivial
  | call call trap =>
      cases call with
      | destroy tid => exact hno.elim
      | receive tid msg msglen =>
          intro head hfirst _
          rw [h.dispatched.current_eq,
            (h.messages.represents.contents l.current).first] at hfirst
          have hmem := List.mem_of_head? hfirst
          rw [(h.messages.linked hmem).slot_from]
          exact h.occupied.sender hmem
      | create priority code =>
          intro index hfirst
          rw [(h.dispatched.partition.represents.contents _).first] at hfirst
          have hfree := h.dispatched.partition.state_free (List.mem_of_head? hfirst)
          have hnot := not_allocated_of_free hfree.2
          constructor
          · rw [(h.messages.represents.contents index).first, List.head?_eq_none_iff,
              List.eq_nil_iff_forall_not_mem]
            exact fun other hmem => hnot (h.occupied.receiver hmem)
          · intro queue
            rw [h.messages.inMsgQueue_iff]
            exact fun hmem => hnot (h.occupied.sender hmem)
      | _ => trivial

/-- A run without `Destroy` is one under any condition that its states imply. -/
theorem reachable_of_noDestroy {s : State} {allowed : State → Action → Prop}
    (hreachable : Reachable kernel NoDestroy s)
    (hallowed : ∀ {s l action}, Undestroyed s l → NoDestroy s action → allowed s action) :
    Reachable kernel allowed s := by
  apply @Reachable.mono _ _ _ _ _ _ (fun s => ∃ l, Undestroyed s l) hreachable
  · exact fun s hbooted => hbooted.undestroyed
  · rintro s action s' ⟨l, h⟩ hno hstep
    exact h.step hno hstep
  · rintro s action ⟨l, h⟩ hno
    exact hallowed h hno

theorem separate_of_noDestroy {s : State} (hreachable : Reachable kernel NoDestroy s) :
    Reachable kernel Separate s :=
  reachable_of_noDestroy hreachable fun h hno => h.separate hno

/-! ## A slot comes round again -/

/-- A round of `Create` in which the descriptor `index` is taken. -/
structure Creates (s : State) (index : ℤ) (s' : State) : Prop where
  node : s'.node = s.node
  msgQueues : s'.msgQueues = s.msgQueues
  tid : ∀ other, (s'.task other).tid =
    if other = index then (s.task other).tid + maxTasks else (s.task other).tid
  priority : ∀ other, other ≠ index → (s'.task other).priority = (s.task other).priority
  sendBlocked : ∀ other, (s.task other).state = .sendBlocked →
    (s'.task other).state = .sendBlocked
  allocated : ∀ other, Allocated s' other ↔ other = index ∨ Allocated s other
  log : ∃ events, s'.log = s.log ++ events

/-- Another task than `last` creates a task, while the message queues are as they were. -/
structure Refills (start : State) (last : ℤ) (s : State) (action : Action) : Prop where
  other : s.currentTask ≠ some last
  msgQueues : s.msgQueues = start.msgQueues
  creates : ∃ requested code trap, action = .call (.create requested code) trap

section Create

variable {s s' : State} {l : Layout} {index next : ℤ} {rest : List ℤ}

/-- The lists once a running task of highest priority has created a task and is back
in its queue. -/
def listsWith (l : Layout) (index : ℤ) (priority : Priority) : Lists TaskQueue ℤ :=
  ((l.lists.erase index).append (.states .ready priority) index).append
    (.states .ready .highest) l.current

theorem createTaskSafe_eq (s : State) {priority : Priority} (hpriority : priority ≠ .null)
    (code : Word) :
    createTaskSafe s priority.value code = createTask s priority code := by
  rw [createTaskSafe]
  cases priority with
  | null => exact absurd rfl hpriority
  | _ => rfl

/-- The round in which a task has been created changes nothing else of it or of the
others. -/
theorem creates_of_dispatch {trap : Trap} {priority : Priority} {code now : Word} {c result : ℤ}
    {lists : Lists TaskQueue ℤ}
    (h : InKernel (created (entered s trap) index priority code) c lists)
    (hfree : (s.task index).state = .free)
    (hactivate : scheduleAndActivate
      (savedCall (created (entered s trap) index priority code) trap result) now = some s')
    (hquiet : Quiet (created (entered s trap) index priority code) s') :
    Creates s index s' where
  node := hquiet.node
  msgQueues := hquiet.msgQueues
  tid := by
    intro other
    rw [hquiet.keeps.tid]
    split_ifs with hother
    · rw [hother, tid_created_self]
      rfl
    · rw [task_created_of_ne priority code hother]
      rfl
  priority := by
    intro other hother
    obtain ⟨next, links, _, rfl, _⟩ := (h.savedCall trap result).dispatch hactivate
    rw [priority_activatedState, (h.task_savedCall trap result other).2.1,
      task_created_of_ne priority code hother]
    rfl
  sendBlocked := by
    intro other hblocked
    have hother : other ≠ index := by
      rintro rfl
      exact absurd (hfree.symm.trans hblocked) (by decide)
    have hsame := (h.task_savedCall trap result other).1
    rw [task_created_of_ne priority code hother] at hsame
    have hbefore := hsame.trans hblocked
    rcases ((h.savedCall trap result).turns_dispatch hactivate other).1 with
      hkept | ⟨hrunning, _⟩
    · exact hkept.trans hbefore
    · rw [hbefore] at hrunning
      exact absurd hrunning (by decide)
  allocated := by
    intro other
    rw [hquiet.keeps.allocated_iff, allocated_created_iff]
    rfl
  log := by
    obtain ⟨events, hlog, _⟩ := hquiet.log
    exact ⟨_, hlog.trans (List.append_assoc _ _ _)⟩

/-- A task of highest priority creates one. -/
theorem Coherent.exists_create (h : Coherent s l) (htid : getCurrentTid s ≠ 0)
    (hhighest : (s.task l.current).priority = .highest)
    (hqueue : l.lists .available = index :: rest) {priority : Priority}
    (hpriority : priority ≠ .null) (code : Word) (trap : Trap)
    (hfirst : (listsWith l index priority (.states .ready .highest)).head? = some next) :
    ∃ s' children depth, Step s (.call (.create priority.value code) trap) s' ∧
      Coherent s' ⟨next, (listsWith l index priority).erase next, children, depth,
        l.queues⟩ ∧ Creates s index s' := by
  have hentered := h.enter trap
  have heffect : Effect (entered s trap) l (some (.create priority.value code)) l.queues
      (created (entered s trap) index priority code) := .create hqueue
  have hhandle : handle (entered s trap) 0 trap (.create priority.value code) =
      some ((s.task index).tid + maxTasks, created (entered s trap) index priority code) := by
    rw [handle, createTaskSafe_eq _ hpriority,
      createTask_eq hentered.dispatched.partition hentered.family hqueue]
    rfl
  have hcreated := hentered.dispatched.toInKernel.created hentered.dispatched.allocated
    hentered.numbered hqueue priority code
  have hfree := h.dispatched.partition.state_free (hqueue ▸ List.mem_cons_self)
  have hne : l.current ≠ index := by
    intro heq
    exact not_allocated_of_free hfree.2 (heq ▸ h.dispatched.allocated)
  have hrunning := @task_created_of_ne (entered s trap) index l.current priority code hne
  generalize hmiddle : created (entered s trap) index priority code = middle at *
  have hkernel := hcreated.savedCall trap ((s.task index).tid + maxTasks)
  have hsaved : Saves middle l.current
      (savedCall middle trap ((s.task index).tid + maxTasks)) :=
    (hcreated.saves_saveTaskState _ _ _ _ _).setCurrentTaskReturnValue _
  obtain ⟨hstate, hpriority', _⟩ :=
    hcreated.task_savedCall trap ((s.task index).tid + maxTasks) l.current
  rw [hrunning] at hstate hpriority'
  have hactive : ((savedCall middle trap ((s.task index).tid + maxTasks)).task
      l.current).state = .active := hstate.trans h.dispatched.running
  have hpriorityAgain : ((savedCall middle trap ((s.task index).tid + maxTasks)).task
      l.current).priority = .highest := hpriority'.trans hhighest
  have hrequeued : requeued (savedCall middle trap ((s.task index).tid + maxTasks))
      l.current ((l.lists.erase index).append (.states .ready priority) index) =
        listsWith l index priority := by
    rw [requeued, if_pos (allocated_of_state hactive (by decide)), preempted_self,
      if_pos hactive, hpriorityAgain]
    rfl
  obtain ⟨s', hactivate⟩ := hkernel.exists_dispatch_of_runnable h.dispatched.inTable
    (.inr ⟨rfl, hactive⟩) trap.timer.activation
  obtain ⟨next', links, children, depth, hnext, _, hcoherent, hquiet⟩ :=
    heffect.dispatched hentered hsaved hkernel hactivate
  rw [hrequeued] at hnext hcoherent
  have hsame : next' = next := by
    rw [Priority.all, firstOf, hfirst, Option.some_or, Option.some.injEq] at hnext
    exact hnext.symm
  subst next'
  refine ⟨s', children, depth, ⟨0, ?_⟩, hcoherent, ?_⟩
  · rw [Kernel.step, if_neg htid, svcEntry_of_handle hhandle, Option.bind_some]
    exact hactivate
  · subst hmiddle
    exact creates_of_dispatch hcreated hfree.2 hactivate hquiet

/-- The creator is back in no queue once it runs again. -/
theorem Coherent.erase_listsWith (h : Coherent s l)
    (hqueue : l.lists .available = index :: rest) (priority : Priority) :
    (listsWith l index priority).erase l.current =
      (l.lists.erase index).append (.states .ready priority) index := by
  have hunlinked := h.dispatched.partition.free_of_home_none
    (home_of_running h.dispatched.allocated)
  apply Lists.erase_append
  intro queue hmem
  rcases Lists.mem_append_iff.mp hmem with hmem | ⟨_, heq⟩
  · exact hunlinked queue (List.mem_of_mem_erase hmem)
  · exact hunlinked .available (by rw [hqueue, heq]; exact List.mem_cons_self)

/-- The running task is the only ready one of highest priority, and not the null
task. -/
structure Reigns (s : State) (l : Layout) : Prop extends Coherent s l where
  notNull : getCurrentTid s ≠ 0
  highest : (s.task l.current).priority = .highest
  alone : l.lists (.states .ready .highest) = []

/-- A task in use is not in the free list. -/
theorem Coherent.notMem_available (h : Coherent s l) (halloc : Allocated s index) :
    index ∉ l.lists .available := fun hmem =>
  not_allocated_of_free (h.dispatched.partition.state_free hmem).2 halloc

theorem Coherent.currentTask_ne_of_available (h : Coherent s l)
    (hmem : index ∈ l.lists .available) : s.currentTask ≠ some index := by
  rw [h.dispatched.current, ne_eq, Option.some.injEq]
  rintro rfl
  exact h.notMem_available h.dispatched.allocated hmem

/-- Message queues without a first node are empty. -/
theorem Coherent.queues_eq_nil (h : Coherent s l)
    (hfirst : ∀ {queue}, InTable queue → (s.msgQueues.queue queue).first = none)
    (queue : ℤ) : l.queues queue = [] := by
  rw [List.eq_nil_iff_forall_not_mem]
  intro index hmem
  have hnone := hfirst (h.messages.linked hmem).queue_inTable
  rw [(h.messages.represents.contents queue).first, List.head?_eq_none_iff] at hnone
  rw [hnone] at hmem
  exact List.not_mem_nil hmem

/-- A task that reigns uses up the free descriptors but the last; the induction is
on the descriptors before it. -/
theorem Reigns.exists_path {front : List ℤ} {last : ℤ} (h : Reigns s l)
    (havailable : l.lists .available = front ++ [last]) :
    ∃ s' l', Path kernel (Refills s last) s s' ∧ Reigns s' l' ∧
      l'.lists .available = [last] ∧ l'.current = l.current ∧ l'.queues = l.queues ∧
      s'.node = s.node ∧ s'.msgQueues = s.msgQueues ∧
      (∀ other ∉ front, (s'.task other).tid = (s.task other).tid) ∧
      (∀ other, Allocated s other → Allocated s' other) ∧
      (∀ other, (s.task other).state = .sendBlocked → (s'.task other).state = .sendBlocked) ∧
      ∃ events, s'.log = s.log ++ events := by
  induction front generalizing s l with
  | nil =>
      exact ⟨s, l, .refl s, h, havailable, rfl, rfl, rfl, rfl, fun _ _ => rfl, fun _ => id,
        fun _ => id, [], (List.append_nil _).symm⟩
  | cons index front ih =>
      have hfree := h.dispatched.partition.state_free
        (by rw [havailable]; exact List.mem_cons_self : index ∈ l.lists .available)
      have hne : l.current ≠ index := by
        intro heq
        exact not_allocated_of_free hfree.2 (heq ▸ h.dispatched.allocated)
      have hfirst : (listsWith l index .low (.states .ready .highest)).head? =
          some l.current := by
        simp [listsWith, Lists.erase, h.alone]
      obtain ⟨middle, children, depth, hstep, hcoherent, hcreates⟩ :=
        h.toCoherent.exists_create h.notNull h.highest havailable
          (by decide : Priority.low ≠ .null) 0 (sampleTrap 0) hfirst
      rw [h.toCoherent.erase_listsWith havailable] at hcoherent
      have hreigns : Reigns middle ⟨l.current,
          (l.lists.erase index).append (.states .ready .low) index, children, depth,
          l.queues⟩ := by
        refine ⟨hcoherent, ?_, ?_, ?_⟩
        · rw [hcoherent.dispatched.getCurrentTid_eq, hcreates.tid, if_neg hne,
            ← h.dispatched.getCurrentTid_eq]
          exact h.notNull
        · rw [hcreates.priority _ hne]
          exact h.highest
        · simp [Lists.erase, h.alone]
      have hrest : ((l.lists.erase index).append (.states .ready .low) index) .available =
          front ++ [last] := by
        simp [Lists.erase, havailable]
      obtain ⟨s', l', hpath, hend, hlast, hcurrent, hqueues, hnode, hmsgQueues, htid, halloc,
        hblocked, events, hlog⟩ := ih hreigns hrest
      have hrefills : Refills s last s (.call (.create Priority.low.value 0) (sampleTrap 0)) :=
        ⟨h.toCoherent.currentTask_ne_of_available (by simp [havailable]), rfl, _, _, _, rfl⟩
      have hpath' : Path kernel (Refills s last) s s' :=
        (Path.tail (.refl s) hrefills hstep).trans (hpath.mono fun hlater =>
          ⟨hlater.other, hlater.msgQueues.trans hcreates.msgQueues, hlater.creates⟩)
      obtain ⟨first, hfirstLog⟩ := hcreates.log
      refine ⟨s', l', hpath', hend, hlast, hcurrent, hqueues,
        hnode.trans hcreates.node, hmsgQueues.trans hcreates.msgQueues, ?_, ?_, ?_,
        first ++ events, by rw [hlog, hfirstLog, List.append_assoc]⟩
      · intro other hother
        rw [List.mem_cons, not_or] at hother
        rw [htid other hother.2, hcreates.tid, if_neg hother.1]
      · exact fun other hlive => halloc other ((hcreates.allocated other).mpr (.inr hlive))
      · exact fun other hwaits => hblocked other (hcreates.sendBlocked other hwaits)

/-- The last free descriptor goes to a task of highest priority, which runs next; until
then other tasks run. -/
theorem Reigns.exists_reuse {front : List ℤ} {last : ℤ} (h : Reigns s l)
    (havailable : l.lists .available = front ++ [last]) :
    ∃ s' l', Path kernel (Refills s last) s s' ∧ Coherent s' l' ∧ l'.current = last ∧
      l'.queues = l.queues ∧ s'.node = s.node ∧
      (s'.task last).tid = (s.task last).tid + maxTasks ∧
      (∀ other ≠ last, other ∉ front → (s'.task other).tid = (s.task other).tid) ∧
      (∀ other, Allocated s other → Allocated s' other) ∧
      (∀ other, (s.task other).state = .sendBlocked → (s'.task other).state = .sendBlocked) ∧
      (∃ events, s'.log = s.log ++ events) ∧
      l.current ≠ last ∧ InTable l.current ∧ (s'.task l.current).state = .ready := by
  obtain ⟨middle, l', hpath, hreigns, hlast, hsame, hqueues, hnode, hmsgQueues, htid, halloc,
    hblocked, events, hlog⟩ := h.exists_path havailable
  rw [← hsame]
  have hfirst : (listsWith l' last .highest (.states .ready .highest)).head? = some last := by
    simp [listsWith, Lists.erase, hreigns.alone]
  obtain ⟨s', children, depth, hstep, hcoherent, hcreates⟩ :=
    hreigns.toCoherent.exists_create hreigns.notNull hreigns.highest hlast
      (by decide : Priority.highest ≠ .null) 0 (sampleTrap 0) hfirst
  have hnodup := h.dispatched.partition.represents.nodup .available
  rw [havailable, List.nodup_append] at hnodup
  have hfresh : last ∉ front := fun hmem => hnodup.2.2 last hmem last (by simp) rfl
  have hothers : middle.currentTask ≠ some last :=
    hreigns.toCoherent.currentTask_ne_of_available (by simp [hlast])
  have hne : l'.current ≠ last := by
    rwa [hreigns.dispatched.current, ne_eq, Option.some.injEq] at hothers
  obtain ⟨final, hfinal⟩ := hcreates.log
  refine ⟨s', _, .tail hpath ⟨hothers, hmsgQueues, _, _, _, rfl⟩ hstep, hcoherent, rfl, hqueues,
    hcreates.node.trans hnode, ?_, ?_, ?_, ?_,
    ⟨events ++ final, by rw [hfinal, hlog, List.append_assoc]⟩, hne,
    hreigns.dispatched.inTable, ?_⟩
  · rw [hcreates.tid, if_pos rfl, htid last hfresh]
  · intro other hother hold
    rw [hcreates.tid, if_neg hother, htid other hold]
  · exact fun other hlive => (hcreates.allocated other).mpr (.inr (halloc other hlive))
  · exact fun other hwaits => hcreates.sendBlocked other (hblocked other hwaits)
  · have hmem : l'.current ∈ (listsWith l' last .highest).erase last
        (.states .ready .highest) := by
      simp [listsWith, Lists.erase, hreigns.alone]
    have hhome := (hcoherent.dispatched.partition.mem_iff.mp hmem).2
    exact (home_eq_states_iff.mp hhome).2.2.1

/-- The round of a call ends when another task is ready. -/
theorem Effect.exists_round {call : Call} {trap : Trap} {result : ℤ} {middle : State}
    {named : Option Call} {queues : Lists ℤ ℤ} (h : Coherent s l) (htid : getCurrentTid s ≠ 0)
    (hhandle : handle (entered s trap) 0 trap call = some (result, middle))
    (heffect : Effect (entered s trap) l named queues middle)
    (hnamed : ∀ tid, named ≠ some (.destroy tid)) {other : ℤ} (hne : other ≠ l.current)
    (hready : (s.task other).state = .ready) (hindex : InTable other) :
    ∃ s' events, Step s (.call call trap) s' ∧ s'.log = middle.log ++ events := by
  have hentered := h.enter trap
  have hspares := heffect.spares hentered hnamed
  obtain ⟨lists, hkernel⟩ := heffect.inKernel hentered
  have hsaved : Saves middle l.current (savedCall middle trap result) :=
    (hkernel.saves_saveTaskState _ _ _ _ _).setCurrentTaskReturnValue _
  have hrunnable : Runnable (savedCall middle trap result) l.current other := by
    left
    rw [(hkernel.task_savedCall trap result other).1, hspares other hne hready]
    exact hready
  obtain ⟨s', hactivate⟩ := (hkernel.savedCall trap result).exists_dispatch_of_runnable
    hindex hrunnable trap.timer.activation
  obtain ⟨events, hlog, _⟩ := (heffect.finish hentered hsaved hactivate).1.log
  refine ⟨s', events, ⟨0, ?_⟩, hlog⟩
  rw [Kernel.step, if_neg htid, svcEntry_of_handle hhandle, Option.bind_some]
  exact hactivate

/-- A `Receive` takes the oldest message in the queue of the slot, whoever it
names. -/
theorem Coherent.exists_receive (h : Coherent s l) (htid : getCurrentTid s ≠ 0)
    {head : ℤ} (hqueue : l.queues l.current = head :: rest)
    (hlive : NotDestroyed s (s.node head).fromTid) {other : ℤ} (hne : other ≠ l.current)
    (hready : (s.task other).state = .ready) (hindex : InTable other) (trap : Trap) :
    ∃ s' n, Step s (.call (.receive 0 0 0) trap) s' ∧
      .taken (s.task l.current).tid n ∈ s'.log ∧ n.toTid = (s.node head).toTid := by
  have hentered := h.enter trap
  obtain ⟨result, middle, hhandle, hmiddle⟩ : ∃ result middle,
      handle (entered s trap) 0 trap (.receive 0 0 0) = some (result, middle) ∧
        (receiveProxy (entered s trap) trap.uninit trap.uninitLinks 0 0 0).2 = middle :=
    ⟨_, _, rfl, rfl⟩
  have hsafe : Safe (entered s trap) (.call (.receive 0 0 0) trap) := by
    have hfirst : ((entered s trap).msgQueues.queue (entered s trap).current).first =
        some head := by
      rw [hentered.dispatched.current_eq,
        (hentered.messages.represents.contents l.current).first, hqueue]
      rfl
    rw [Safe, hfirst]
    exact hlive
  obtain ⟨queues, heffect⟩ := hentered.effect_handle hsafe hhandle
  have hrecords := hentered.records_receiveProxy hqueue trap.uninit trap.uninitLinks 0 0 0
  rw [hmiddle] at hrecords
  obtain ⟨s', events, hstep, hlog⟩ :=
    heffect.exists_round h htid hhandle (by simp) hne hready hindex
  refine ⟨s', takenNode (entered s trap) head rest 0 0 0, hstep, ?_, ?_⟩
  · rw [hlog, hrecords.log, completeEvents]
    simp [entered]
  · exact (fields_of_message (message_takenNode (entered s trap) head rest 0 0 0)).2.1

/-- A `Send` to a ready task queues the message. -/
theorem Coherent.exists_queue (h : Coherent s l) (htid : getCurrentTid s ≠ 0) {tid : ℤ}
    (halive : isTaskAlive s tid) (hne : slot tid ≠ l.current)
    (hready : (s.task (slot tid)).state = .ready)
    (hunlinked : ∀ queue, l.current ∉ l.queues queue) (trap : Trap) :
    ∃ s' n events, Step s (.call (.send tid 0 0 0 0) trap) s' ∧
      s'.log = s.log ++ .sent n :: events ∧ n.fromTid = (s.task l.current).tid ∧
      n.toTid = tid := by
  have hentered := h.enter trap
  have hsends : Sends (entered s trap) l
      (sendNode trap.uninit (s.task l.current).tid tid 0 0 0 0) :=
    ⟨rfl, halive, fun queue => hunlinked queue⟩
  have hbusy : ((entered s trap).task (slot tid)).state ≠ .sendBlocked := by
    rw [show (entered s trap).task = s.task from rfl, hready]
    decide
  have hhandle : handle (entered s trap) 0 trap (.send tid 0 0 0 0) =
      some (returnStatusOk, queuedSend (entered s trap) l.current
        (sendNode trap.uninit (s.task l.current).tid tid 0 0 0 0)) := by
    rw [handle, hentered.dispatched.sendProxy_eq halive, if_neg hbusy]
    rfl
  obtain ⟨s', events, hstep, hlog⟩ := (Effect.send hsends hbusy).exists_round h htid hhandle
    (by simp [MsgQueueNode.sendCall]) hne hready
    (inTable_slot (nonneg_of_alive halive))
  refine ⟨s', sendNode trap.uninit (s.task l.current).tid tid 0 0 0 0, events, hstep, ?_, rfl,
    rfl⟩
  rw [hlog]
  simp [queuedSend, entered]

end Create

/-- The third task sends a message to the second one, before the first raises its own
priority. -/
def sampleOrphan : List Action :=
  [.call (.create 3 0x9000) (sampleTrap 0x103f00),
    .call .pass (sampleTrap 0x105f00),
    .call (.create 3 0x9100) (sampleTrap 0x103f00),
    .call .pass (sampleTrap 0x105f00),
    .call (.send 2 0x200 5 0x300 6) (sampleTrap 0x107f00),
    .call (.setMyPriority 0) (sampleTrap 0x103f00)]

/-- The first task, alone of highest priority, has destroyed the second one, whose
descriptor is the last in the free list. -/
def FreedLast (s : State) : Prop :=
  s.currentTask = some 1 ∧ (s.task 1).tid = 1 ∧ (s.task 1).priority = .highest ∧
    (s.taskQueues.queue (.states .ready .highest)).first = none ∧
    (s.taskQueues.queue .available).last = some 2 ∧ (s.task 2).tid = 2

instance (s : State) : Decidable (FreedLast s) :=
  inferInstanceAs (Decidable (_ ∧ _ ∧ _ ∧ _ ∧ _ ∧ _))

theorem exists_reigns {actions : List Action} {s s' : State} {trap : Trap} {fuel : ℕ}
    (hrun : sampleRun actions = some s)
    (hno : ∀ action ∈ actions, ∀ s, NoDestroy s action)
    (hstep : step s fuel (.call (.destroy 2) trap) = some s') (hvictim : Allocated s 2)
    (hfreed : FreedLast s') :
    ∃ l front, Reachable kernel Separate s' ∧ Reigns s' l ∧
      l.lists .available = front ++ [2] := by
  obtain ⟨hcurrent, htid, hpriority, hready, hlast, _⟩ := hfreed
  have hbefore : Reachable kernel NoDestroy s := reachable_of_rounds hrun hno
  obtain ⟨l, h⟩ := undestroyed_of_reachable hbefore
  have hsafe : Safe s (.call (.destroy 2) trap) := fun _ _ => hvictim
  obtain ⟨l', h'⟩ := (h.toCoherent.step hsafe ⟨fuel, hstep⟩).1
  have hone : l'.current = 1 := by
    have hsame := h'.dispatched.current
    rw [hcurrent, Option.some.injEq] at hsame
    exact hsame.symm
  have hreigns : Reigns s' l' := by
    refine ⟨h', ?_, ?_, ?_⟩
    · rw [h'.dispatched.getCurrentTid_eq, hone, htid]
      decide
    · rw [hone, hpriority]
    · rwa [(h'.dispatched.partition.represents.contents _).first,
        List.head?_eq_none_iff] at hready
  rw [(h'.dispatched.partition.represents.contents _).last,
    List.getLast?_eq_some_iff] at hlast
  obtain ⟨front, havailable⟩ := hlast
  have hseparate : Separate s (.call (.destroy 2) trap) := fun _ _ => hvictim
  exact ⟨l', front, (separate_of_noDestroy hbefore).step hseparate ⟨fuel, hstep⟩, hreigns,
    havailable⟩

theorem exists_sampleOrphan :
    ∃ s l front, Reachable kernel Separate s ∧ Reigns s l ∧
      l.lists .available = front ++ [2] ∧ (s.task 2).tid = 2 ∧
      (s.task 2).numActivates = 2 ∧ Allocated s 3 ∧
      (s.msgQueues.queue 2).first = some 3 ∧ (s.node 3).toTid = 2 ∧
      (s.node 3).fromTid = 3 := by
  have hobserved : ((sampleRun sampleOrphan).bind fun s =>
      (step s 2 (.call (.destroy 2) (sampleTrap 0x103f00))).map fun s' =>
        (decide (Allocated s 2), decide (FreedLast s'),
          decide ((s'.task 2).numActivates = 2 ∧ Allocated s' 3 ∧
            (s'.msgQueues.queue 2).first = some 3 ∧ (s'.node 3).toTid = 2 ∧
            (s'.node 3).fromTid = 3))) = some (true, true, true) := by
    decide +kernel
  obtain ⟨s, s', hrun, hstep, hvalues⟩ := exists_observed hobserved
  simp only [Prod.mk.injEq, decide_eq_true_eq] at hvalues
  obtain ⟨hvictim, hfreed, hvalues⟩ := hvalues
  obtain ⟨l, front, hreachable, hreigns, havailable⟩ :=
    exists_reigns hrun (by simp [sampleOrphan, NoDestroy]) hstep hvictim hfreed
  exact ⟨s', l, front, hreachable, hreigns, havailable, hfreed.2.2.2.2.2, hvalues⟩

/-- The second task is destroyed and its slot used again; the next task of the slot
takes the message. -/
theorem not_intact_of_reachable :
    ¬∀ s : State, Reachable kernel (fun _ _ => True) s → Intact s := by
  intro hclaim
  obtain ⟨s, l, front, hreachable, hreigns, havailable, htwo, _, hthree, hfirst, hto, hfrom⟩ :=
    exists_sampleOrphan
  obtain ⟨t, lt, hpath, ht, hslot, hqueues, hnode, hnew, _, halloc, _, _, hne, hindex,
    hother⟩ := hreigns.exists_reuse havailable
  rw [htwo] at hnew
  rw [(hreigns.messages.represents.contents _).first, List.head?_eq_some_iff] at hfirst
  obtain ⟨rest, hqueue⟩ := hfirst
  have hreused : (t.task lt.current).tid = 2 + maxTasks := by rw [hslot, hnew]
  have hsender : NotDestroyed t (t.node 3).fromTid := by
    rw [hnode, hfrom]
    exact fun _ => halloc 3 hthree
  obtain ⟨t', n, hreceive, htaken, haddressee⟩ :=
    ht.exists_receive (by rw [ht.dispatched.getCurrentTid_eq, hreused]; decide)
      (by rw [hslot, hqueues, hqueue]) hsender (by rw [hslot]; exact hne) hother hindex
      (sampleTrap 0)
  have hend := (hreachable.weaken.path (hpath.mono fun _ => trivial)).step trivial hreceive
  have hwrong := (hclaim t' hend).taken_by _ _ htaken
  rw [haddressee, hnode, hto, hreused] at hwrong
  exact absurd hwrong (by decide)

/-- The second task has sent a message, which was answered, when the first raises its own
priority. -/
def sampleRetired : List Action :=
  [.call (.create 3 0x9000) (sampleTrap 0x103f00),
    .call (.send 1 0x200 5 0x300 6) (sampleTrap 0x105f00),
    .call (.receive 0x400 0x500 9) (sampleTrap 0x103f00),
    .call (.reply 2 0x600 4) (sampleTrap 0x103f00),
    .call .pass (sampleTrap 0x105f00),
    .call (.setMyPriority 0) (sampleTrap 0x103f00)]

/-- Without messages a slot may be used again. -/
theorem Refills.separate {start s : State} {last : ℤ} {action : Action} {queues : Lists ℤ ℤ}
    (h : Refills start last s action) (hrep : Represents start.msgQueues queues)
    (hempty : ∀ queue, queues queue = []) : Separate s action := by
  obtain ⟨requested, code, trap, rfl⟩ := h.creates
  have hcontents := fun queue => hrep.contents queue
  simp only [hempty, ← h.msgQueues] at hcontents
  intro index _
  refine ⟨(hcontents index).first, ?_⟩
  rintro queue ⟨nodes, hnodes, hmem⟩
  rw [hnodes.unique (hcontents queue)] at hmem
  simp at hmem

/-- The second task is destroyed and its slot used again; both tasks of the slot have sent a
message to the first task. -/
theorem intact_sample :
    ∃ s, Reachable kernel Separate s ∧ 2 ∈ takenSenders s.log 1 ∧
      2 + maxTasks ∈ sentSenders s.log 1 ∧ Intact s := by
  have hobserved : ((sampleRun sampleRetired).bind fun s =>
      (step s 2 (.call (.destroy 2) (sampleTrap 0x103f00))).map fun s' =>
        (decide (Allocated s 2), decide (FreedLast s'),
          decide (2 ∈ takenSenders s'.log 1 ∧ Allocated s' 1),
          decide (∀ index ∈ Finset.Ico (0 : ℤ) maxTasks,
            (s'.msgQueues.queue index).first = none))) = some (true, true, true, true) := by
    decide +kernel
  obtain ⟨s, s', hrun, hstep, hvalues⟩ := exists_observed hobserved
  simp only [Prod.mk.injEq, decide_eq_true_eq] at hvalues
  obtain ⟨hvictim, hfreed, ⟨htaken, hlive⟩, hempty⟩ := hvalues
  obtain ⟨l, front, hreachable, hreigns, havailable⟩ :=
    exists_reigns hrun (by simp [sampleRetired, NoDestroy]) hstep hvictim hfreed
  have hnone := hreigns.queues_eq_nil fun hqueue => hempty _ (Finset.mem_Ico.mpr hqueue)
  have hone : l.current = 1 :=
    Option.some.inj (hreigns.dispatched.current.symm.trans hfreed.1)
  have hkept : 1 ∉ front := fun hmem =>
    hreigns.notMem_available hlive (havailable ▸ List.mem_append_left _ hmem)
  have hrepresents := hreigns.messages.represents
  obtain ⟨t, lt, hpath, ht, hslot, hqueues, _, hnew, htid, halloc, _, ⟨events, hlog⟩, _, _,
    hready⟩ := hreigns.exists_reuse havailable
  rw [hfreed.2.2.2.2.2] at hnew
  rw [hone] at hready
  have hreused : Reachable kernel Separate t :=
    hreachable.path (hpath.mono fun hrefills => hrefills.separate hrepresents hnone)
  have hcurrent : (t.task lt.current).tid = 2 + maxTasks := by rw [hslot, hnew]
  -- the next task of the slot sends to the first task, which is ready
  have halive : isTaskAlive t 1 := by
    have hname : (t.task 1).tid = 1 :=
      (htid 1 (by decide) hkept).trans hfreed.2.1
    rw [isTaskAlive_iff]
    refine ⟨by decide, by decide, hname, ?_⟩
    rw [show slot 1 = 1 from rfl, hready]
    decide
  obtain ⟨t', n, later, hsend, hsent, hfrom, hto⟩ :=
    ht.exists_queue (by rw [ht.dispatched.getCurrentTid_eq, hcurrent]; decide) halive
      (by rw [hslot]; decide) hready (by simp [hqueues, hnone]) (sampleTrap 0)
  have hseparate : Separate t (.call (.send 1 0 0 0 0) (sampleTrap 0)) := trivial
  have hend := hreused.step hseparate hsend
  refine ⟨t', hend, ?_, ?_, intact_of_reachable hend⟩
  · rw [hsent, hlog]
    simp only [takenSenders, takenMessages, List.filterMap_append, List.map_append,
      List.mem_append]
    exact .inl (.inl htaken)
  · refine List.mem_map.mpr ⟨n.message, ?_, (fromTid_message n).trans (hfrom.trans hcurrent)⟩
    rw [hsent, sentMessages, List.mem_filterMap]
    exact ⟨.sent n, by simp, by simp [Event.sentTo, hto]⟩

end Rtk.Kernel
