import Rtk.Properties.Order

/-!
# Waking a task that waits for an event

A run of the kernel is observed together with the rounds in which tasks became
`EVENT_BLOCKED`.  The queues of these tasks are in that order, so the first one that
`UnblockTaskWaitingOnEvent` finds in a queue has waited for longest.
-/

namespace Rtk.Kernel

open Function
open Rtk.ByteMemory
open Rtk.Lib
open Rtk.Transition

/-- The number of rounds, and the round in which each task last became `EVENT_BLOCKED`. -/
structure WaitTimes where
  round : ℕ
  blockedAt : ℤ → ℕ

def WaitTimes.zero : WaitTimes := ⟨0, fun _ => 0⟩

def WaitTimes.next (waits : WaitTimes) (s s' : State) : WaitTimes where
  round := waits.round + 1
  blockedAt index :=
    if (s.task index).state ≠ .eventBlocked ∧ (s'.task index).state = .eventBlocked then
      waits.round
    else waits.blockedAt index

def waitingKernel : System (State × WaitTimes) Action :=
  kernel.recording (fun _ => .zero) fun s _ s' waits => waits.next s s'

def AwaitsEvent (s : State) (intr : Word) (index : ℤ) : Prop :=
  InTable index ∧ (s.task index).state = .eventBlocked ∧ (s.task index).awaitingEventId = intr

/-- Of the tasks that wait for the interrupt, `woken` is the most urgent one, and of those
with its priority it blocked first. -/
structure WaitsLongest (s : State) (blockedAt : ℤ → ℕ) (intr : Word) (woken : ℤ) : Prop where
  awaits : AwaitsEvent s intr woken
  before : ∀ {other}, AwaitsEvent s intr other → other ≠ woken →
    (s.task woken).priority.value < (s.task other).priority.value ∨
      (s.task woken).priority = (s.task other).priority ∧ blockedAt woken < blockedAt other

/-- From `s` to `s'` the task becomes `READY`, with the return value stored in its frame, and
goes to the end of the ready queue of its priority; nothing else changes. -/
structure Wakes (s : State) (woken : ℤ) (s' : State) : Prop where
  task : s'.task = update s.task woken { s.task woken with state := .ready }
  memory : s'.memory = ByteMemory.storeWord s.memory (s.task woken).sp
    (BitVec.ofInt 32 errCollectDataAndReenableInterrupts)
  queues : ∀ queue nodes, Contents s.taskQueues queue nodes → Contents s'.taskQueues queue
    (nodes.erase woken ++
      if queue = .states .ready (s.task woken).priority then [woken] else [])
  rest : s' = { s with
    task := s'.task, taskQueues := s'.taskQueues, memory := s'.memory, log := s'.log }

/-- `UnblockTaskWaitingOnEvent` ends.  It wakes the task that waits for longest, and changes
nothing when no task waits. -/
def Unblocks (s : State) (blockedAt : ℤ → ℕ) (intr : Word) : Prop :=
  ∃ s', (∃ fuel, unblockTaskWaitingOnEvent s fuel intr = some s') ∧
    (∀ fuel found, unblockTaskWaitingOnEvent s fuel intr = some found → found = s') ∧
    ((∃ woken, WaitsLongest s blockedAt intr woken ∧ Wakes s woken s') ∨
      (∀ index, ¬AwaitsEvent s intr index) ∧ s' = s)

/-! ## The order of the queues -/

/-- The queues of waiting tasks are in the order in which they blocked. -/
structure InBlockingOrder (lists : Lists TaskQueue ℤ) (waits : WaitTimes) : Prop where
  pairwise : ∀ priority, (lists (.states .eventBlocked priority)).Pairwise
    fun first second => waits.blockedAt first < waits.blockedAt second
  past : ∀ {priority index}, index ∈ lists (.states .eventBlocked priority) →
    waits.blockedAt index < waits.round

section Round

variable {s s' : State} {l : Layout} {action : Action} {waits : WaitTimes}

theorem WaitTimes.blockedAt_of_waited (waits : WaitTimes) {index : ℤ}
    (hwaited : (s.task index).state = .eventBlocked) :
    (waits.next s s').blockedAt index = waits.blockedAt index :=
  if_neg fun hblocks => hblocks.1 hwaited

theorem WaitTimes.blockedAt_of_blocks (waits : WaitTimes) {index : ℤ}
    (hbefore : (s.task index).state ≠ .eventBlocked)
    (hafter : (s'.task index).state = .eventBlocked) :
    (waits.next s s').blockedAt index = waits.round :=
  if_pos ⟨hbefore, hafter⟩

/-- In a round at most the current task joins a queue of waiting tasks, behind those that
stay. -/
theorem Undestroyed.exists_waiting_round (h : Undestroyed s l) (hno : NoDestroy s action)
    (hstep : Step s action s') :
    ∃ l', Undestroyed s' l' ∧ ∀ priority, ∃ kept joined,
      l'.lists (.states .eventBlocked priority) = kept ++ joined ∧
        kept.Sublist (l.lists (.states .eventBlocked priority)) ∧
        (joined = [] ∨ joined = [l.current]) := by
  obtain ⟨l', h'⟩ := h.step hno hstep
  refine ⟨l', h', ?_⟩
  obtain ⟨fuel, hround⟩ := hstep
  rw [step_eq, Option.bind_eq_some_iff] at hround
  obtain ⟨saved, hentry, hactivate⟩ := hround
  obtain ⟨⟨lists, hkernel⟩, hrelinks, _⟩ := h.exists_entry hno hentry
  obtain ⟨next, _, _, _, hnext, _⟩ := hkernel.dispatch hactivate
  have hlists : l'.lists = (requeued saved l.current lists).erase next :=
    h'.dispatched.partition.represents.unique hnext.partition.represents
  intro priority
  obtain ⟨left, hleft, hcontents⟩ := hrelinks.drains h.dispatched.toInKernel priority _
    (h.dispatched.partition.represents.contents _)
  obtain rfl := hcontents.unique (hkernel.partition.represents.contents _)
  obtain ⟨joined, hrequeued, hjoined⟩ :=
    exists_requeued saved l.current lists (.states .eventBlocked priority)
  rw [hlists]
  have hsublist : ((requeued saved l.current lists).erase next
      (.states .eventBlocked priority)).Sublist
        (lists (.states .eventBlocked priority) ++ joined) :=
    hrequeued ▸ List.erase_sublist
  obtain ⟨kept, last, heq, hkept, hlast⟩ := List.sublist_append_iff.mp hsublist
  refine ⟨kept, last, heq, hkept.trans hleft, ?_⟩
  obtain rfl | rfl := hjoined
  · exact .inl (List.sublist_nil.mp hlast)
  · exact List.sublist_singleton.mp hlast

/-- What is known between two rounds. -/
def WaitsInOrder (s : State) (waits : WaitTimes) : Prop :=
  ∃ l, Undestroyed s l ∧ InBlockingOrder l.lists waits

theorem WaitsInOrder.step (h : WaitsInOrder s waits) (hno : NoDestroy s action)
    (hstep : Step s action s') :
    WaitsInOrder s' (waits.next s s') := by
  obtain ⟨l, hundestroyed, horder⟩ := h
  obtain ⟨l', hundestroyed', hlists⟩ := hundestroyed.exists_waiting_round hno hstep
  have hold : ∀ {priority index}, index ∈ l.lists (.states .eventBlocked priority) →
      (s.task index).state = .eventBlocked := fun hmem =>
    (hundestroyed.dispatched.toInKernel.of_mem_states hmem).2.2.2.1
  have hnew : ∀ {priority index}, index ∈ l'.lists (.states .eventBlocked priority) →
      (s'.task index).state = .eventBlocked := fun hmem =>
    (hundestroyed'.dispatched.toInKernel.of_mem_states hmem).2.2.2.1
  -- Those that stay keep their rounds, and the current task gets the last one.
  have hcurrent : (s.task l.current).state ≠ .eventBlocked := by
    rw [hundestroyed.dispatched.running]
    decide
  have hjoins : ∀ {priority joined index}, joined = [] ∨ joined = [l.current] →
      joined ⊆ l'.lists (.states .eventBlocked priority) → index ∈ joined →
        (waits.next s s').blockedAt index = waits.round := by
    intro priority joined index hjoined hsubset hmem
    rcases hjoined with rfl | rfl
    · exact absurd hmem List.not_mem_nil
    · obtain rfl := List.mem_singleton.mp hmem
      exact waits.blockedAt_of_blocks hcurrent (hnew (hsubset hmem))
  refine ⟨l', hundestroyed', ?_, ?_⟩
  · intro priority
    obtain ⟨kept, joined, heq, hkept, hjoined⟩ := hlists priority
    rw [heq, List.pairwise_append]
    refine ⟨?_, ?_, ?_⟩
    · apply ((horder.pairwise priority).sublist hkept).imp_of_mem
      intro first second hfirst hsecond hlt
      rw [waits.blockedAt_of_waited (hold (hkept.subset hfirst)),
        waits.blockedAt_of_waited (hold (hkept.subset hsecond))]
      exact hlt
    · rcases hjoined with rfl | rfl
      · exact .nil
      · exact List.pairwise_singleton _ _
    · intro first hfirst second hsecond
      rw [waits.blockedAt_of_waited (hold (hkept.subset hfirst)),
        hjoins hjoined (heq ▸ List.subset_append_right _ _) hsecond]
      exact horder.past (hkept.subset hfirst)
  · intro priority index hmem
    obtain ⟨kept, joined, heq, hkept, hjoined⟩ := hlists priority
    rw [heq, List.mem_append] at hmem
    rcases hmem with hmem | hmem
    · rw [waits.blockedAt_of_waited (hold (hkept.subset hmem))]
      exact Nat.lt_succ_of_lt (horder.past (hkept.subset hmem))
    · rw [hjoins hjoined (heq ▸ List.subset_append_right _ _) hmem]
      exact Nat.lt_succ_self _

theorem queues_of_reachable
    (hreachable : Reachable waitingKernel (fun p => NoDestroy p.1) (s, waits)) :
    WaitsInOrder s waits := by
  apply @Reachable.recorded_invariant _ _ kernel NoDestroy _ _ _ WaitsInOrder s waits hreachable
  · intro s hbooted
    obtain ⟨l, hundestroyed⟩ := hbooted.undestroyed
    have hnone : ∀ priority, l.lists (.states .eventBlocked priority) = [] := by
      obtain ⟨depth, hcoherent⟩ := hbooted.coherent
      rw [hundestroyed.dispatched.partition.represents.unique
        hcoherent.dispatched.partition.represents]
      intro priority
      show launchedLists.erase 1 (.states .eventBlocked priority) = []
      cases priority <;> decide
    refine ⟨l, hundestroyed, ?_, ?_⟩
    · intro priority
      rw [hnone priority]
      exact .nil
    · intro priority index hmem
      rw [hnone priority] at hmem
      exact absurd hmem List.not_mem_nil
  · intro s action s' waits h hno hstep
    exact h.step hno hstep

end Round

/-! ## The task that is found -/

section Found

variable {s : State} {lists : Lists TaskQueue ℤ} {c woken : ℤ} {intr : Word}

/-- The task found is the first one in its queue that waits for the interrupt, and none in
the more urgent queues does. -/
theorem exists_found {priorities : List Priority}
    (hurgent : priorities.Pairwise fun left right => left.value < right.value)
    (hfirst : firstWaiting s lists intr priorities = some woken) :
    ∃ priority, (lists (.states .eventBlocked priority)).find? (waitsFor s intr) =
        some woken ∧
      ∀ other ∈ priorities, other.value < priority.value →
        (lists (.states .eventBlocked other)).find? (waitsFor s intr) = none := by
  induction priorities with
  | nil => exact absurd hfirst (by simp [firstWaiting])
  | cons priority priorities ih =>
      obtain ⟨hbefore, hlater⟩ := List.pairwise_cons.mp hurgent
      rw [firstWaiting] at hfirst
      cases hfind : (lists (.states .eventBlocked priority)).find? (waitsFor s intr) with
      | none =>
          rw [hfind, Option.none_or] at hfirst
          obtain ⟨found, hfound, hnone⟩ := ih hlater hfirst
          refine ⟨found, hfound, ?_⟩
          intro other hother hlt
          rcases List.mem_cons.mp hother with rfl | hother
          · exact hfind
          · exact hnone other hother hlt
      | some head =>
          rw [hfind, Option.some_or, Option.some.injEq] at hfirst
          subst woken
          refine ⟨priority, hfind, ?_⟩
          intro other hother hlt
          rcases List.mem_cons.mp hother with rfl | hother
          · exact absurd hlt (Int.lt_irrefl _)
          · exact absurd (Int.lt_trans hlt (hbefore other hother)) (Int.lt_irrefl _)

/-- A task that waits is in the queue of its priority. -/
theorem InKernel.mem_waiting (h : InKernel s c lists) (hrunning : (s.task c).state = .active)
    {index : ℤ} (hawaits : AwaitsEvent s intr index) :
    index ∈ lists (.states .eventBlocked (s.task index).priority) := by
  obtain ⟨hindex, hblocked, _⟩ := hawaits
  rw [h.partition.mem_iff, home_eq_states_iff, Allocated, hblocked]
  refine ⟨hindex, by decide, ?_, rfl, rfl⟩
  intro heq
  rw [Option.some.inj heq, hblocked] at hrunning
  exact absurd hrunning (by decide)

theorem InKernel.waitsLongest (h : InKernel s c lists)
    (hrunning : (s.task c).state = .active) {waits : WaitTimes}
    (horder : InBlockingOrder lists waits)
    (hfirst : firstWaiting s lists intr Priority.all = some woken) :
    WaitsLongest s waits.blockedAt intr woken := by
  obtain ⟨priority, hfind, hurgent⟩ := exists_found (by decide) hfirst
  obtain ⟨hindex, _, _, hblocked, hpriority⟩ :=
    h.of_mem_states (List.mem_of_find?_eq_some hfind)
  refine ⟨⟨hindex, hblocked, firstWaiting_waits hfirst⟩, ?_⟩
  intro other hother hne
  have hmem := h.mem_waiting hrunning hother
  have hwaits : waitsFor s intr other = true := decide_eq_true hother.2.2
  have hle : priority.value ≤ (s.task other).priority.value := by
    by_contra hlt
    have hnone := hurgent _ (Priority.mem_all _) (Int.not_le.mp hlt)
    exact List.find?_eq_none.mp hnone other hmem hwaits
  rw [hpriority]
  rcases Int.lt_or_eq_of_le hle with hlt | heq
  · exact .inl hlt
  · obtain rfl := Priority.eq_of_value heq
    refine .inr ⟨rfl, ?_⟩
    obtain ⟨_, before, after, hsplit, hnot⟩ := List.find?_eq_some_iff_append.mp hfind
    have hpairwise := horder.pairwise (s.task other).priority
    rw [hsplit] at hmem hpairwise
    have hafter : other ∈ after := by
      rcases List.mem_append.mp hmem with hbefore | hcons
      · exact absurd (hnot other hbefore) (by simp [hwaits])
      · exact (List.mem_cons.mp hcons).resolve_left hne
    exact (List.pairwise_cons.mp (List.pairwise_append.mp hpairwise).2.1).1 other hafter

theorem InKernel.wakes_unblocked (h : InKernel s c lists)
    (hfirst : firstWaiting s lists intr Priority.all = some woken) :
    Wakes s woken (unblocked s (some woken)) := by
  obtain ⟨_, _, hmem⟩ := exists_of_firstWaiting hfirst
  obtain ⟨hindex, halloc, hne, hblocked, _⟩ := h.of_mem_states hmem
  have hslot := h.named.slot_tid hindex halloc
  have hown : (s.task (slot (s.task woken).tid)).tid = (s.task woken).tid := by rw [hslot]
  obtain ⟨queues, heq, hkernel⟩ := @InKernel.exists_setTaskState s c lists (s.task woken).tid
    .ready h (by rw [hslot]; exact hindex) (by intro _; rw [hslot]; exact halloc) (by decide)
  have htask : withState s.task (s.task woken).tid .ready =
      update s.task woken { s.task woken with state := .ready } := by
    rw [withState, if_pos hown, hslot]
  have halive : isTaskAlive (s.withTasks (withState s.task (s.task woken).tid .ready) queues)
      (s.task woken).tid := by
    rw [isTaskAlive_iff, State.withTasks_task, htask, hslot, update_self]
    exact ⟨h.named.tid_nonneg hindex halloc, h.named.tid_le hindex halloc, rfl,
      (by decide : 0 < TaskState.ready.value)⟩
  rw [unblocked, heq, setTaskReturnValue, halive]
  simp only [Bool.not_true, Bool.false_eq_true, if_false, State.withTasks_task, htask, hslot,
    update_self]
  refine ⟨rfl, rfl, ?_, rfl⟩
  intro queue nodes hcontents
  have hlist := hkernel.partition.represents.contents queue
  rw [relinked, if_pos ⟨hown, by rw [hslot]; exact hne⟩, hslot] at hlist
  rw [hcontents.unique (h.partition.represents.contents queue)]
  split_ifs with hqueue
  · subst hqueue
    rw [Lists.append_self] at hlist
    exact hlist
  · rw [Lists.append_of_ne _ _ hqueue] at hlist
    rw [List.append_nil]
    exact hlist

theorem InKernel.unblocks (h : InKernel s c lists) (hrunning : (s.task c).state = .active)
    {waits : WaitTimes} (horder : InBlockingOrder lists waits) (intr : Word) :
    Unblocks s waits.blockedAt intr := by
  have hrep := h.partition.represents
  obtain ⟨fuel, s', hends⟩ := exists_unblockTaskWaitingOnEvent hrep intr
  obtain rfl := unblockTaskWaitingOnEventFrom_of_some hrep hends
  refine ⟨_, ⟨fuel, hends⟩, fun _ _ hfound =>
    unblockTaskWaitingOnEventFrom_of_some hrep hfound, ?_⟩
  cases hfirst : firstWaiting s lists intr Priority.all with
  | some woken =>
      exact .inl ⟨woken, h.waitsLongest hrunning horder hfirst, h.wakes_unblocked hfirst⟩
  | none =>
      refine .inr ⟨?_, rfl⟩
      intro index hawaits
      obtain ⟨head, hhead⟩ := exists_firstWaiting (Priority.mem_all _)
        (h.mem_waiting hrunning hawaits) hawaits.2.2
      rw [hfirst] at hhead
      exact Option.some_ne_none head hhead.symm

end Found

/-- Without `Destroy`, `UnblockTaskWaitingOnEvent` wakes the most urgent of the tasks that
wait for the interrupt, and of those with its priority the one that blocked first.  The
interrupted task may have changed its memory, and the interrupt may be acknowledged. -/
theorem unblocks_of_reachable {s : State} {waits : WaitTimes}
    (hreachable : Reachable waitingKernel (fun p => NoDestroy p.1) (s, waits)) (intr : Word)
    (memory : Memory) (enabled : Word) (log : List Event) :
    Unblocks { s with memory := memory, enabled := enabled, log := log } waits.blockedAt
      intr := by
  obtain ⟨l, hundestroyed, horder⟩ := queues_of_reachable hreachable
  have hkernel : InKernel { s with memory := memory, enabled := enabled, log := log }
      l.current l.lists := hundestroyed.dispatched.toInKernel.congr rfl rfl rfl
  exact hkernel.unblocks hundestroyed.dispatched.running horder intr

def twoWaiters : List Action :=
  [.call (.create 3 0x9000) (sampleTrap 0x103f00),
    .call (.awaitEvent 0x1000) (sampleTrap 0x105f00),
    .call (.create 3 0x9000) (sampleTrap 0x103f00),
    .call (.awaitEvent 0x1000) (sampleTrap 0x107f00)]

/-- Of two tasks that wait the one that blocked first is woken. -/
theorem unblocks_sample :
    ∃ (s : State) (waits : WaitTimes), sampleRun twoWaiters = some s ∧
      AwaitsEvent s 0x1000 2 ∧ AwaitsEvent s 0x1000 3 ∧
      ((unblockTaskWaitingOnEvent s 8 0x1000).map fun s' =>
        ((s'.task 2).state, (s'.task 3).state)) = some (.ready, .eventBlocked) ∧
      Unblocks s waits.blockedAt 0x1000 := by
  have hobserved : (sampleRun twoWaiters).map (fun s =>
      (decide ((s.task 2).state = .eventBlocked ∧ (s.task 2).awaitingEventId = 0x1000),
        decide ((s.task 3).state = .eventBlocked ∧ (s.task 3).awaitingEventId = 0x1000),
        (unblockTaskWaitingOnEvent s 8 0x1000).map fun s' =>
          ((s'.task 2).state, (s'.task 3).state))) =
      some (true, true, some (.ready, .eventBlocked)) := by
    decide +kernel
  obtain ⟨s, hrun, hvalues⟩ := Option.map_eq_some_iff.mp hobserved
  simp only [Prod.mk.injEq, decide_eq_true_eq] at hvalues
  obtain ⟨hsecond, hthird, hwoken⟩ := hvalues
  have hreachable : Reachable kernel NoDestroy s := by
    apply reachable_of_rounds hrun
    simp [twoWaiters, NoDestroy]
  obtain ⟨waits, hrecorded⟩ := hreachable.recording (fun _ => WaitTimes.zero)
    fun s _ s' waits => waits.next s s'
  exact ⟨s, waits, hrun, ⟨by decide, hsecond⟩, ⟨by decide, hthird⟩, hwoken,
    unblocks_of_reachable hrecorded 0x1000 s.memory s.enabled s.log⟩

end Rtk.Kernel
