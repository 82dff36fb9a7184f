import Mathlib.Data.List.Nodup
import Rtk.Invariant.Step

/-!
# Boot

`available_descriptors` starts with the address of the last descriptor as its
last one, so the first descriptor enters the free list behind it and keeps a
stale back link until it is taken.  Otherwise `InitTasks` builds the list of all
descriptors in order, and the first two of them become the null task and the
first user task.
-/

namespace Rtk.Kernel

open Function
open Rtk.ByteMemory
open Rtk.DoublyLinked
open Rtk.Lib
open Rtk.Lib.QueueHeap

/-! ## `InitTasks` -/

/-- `task_descriptors[index]` after `count` rounds of `InitTasks`. -/
def initialTask (image : Image) (count : ℕ) (index : ℤ) : Task :=
  if 0 ≤ index ∧ index < count then
    { Task.zero with
      tid := index - maxTasks
      stack := image.stackArray + index.toNat * stackSizeBytes
      state := .free }
  else Task.zero

/-- The links of the free list after `count` rounds of `InitTasks`, with the
given back link of the first descriptor. -/
def initialLinks (before : Option ℤ) (count : ℕ) : QueueHeap TaskQueue ℤ where
  queue
    | .available => ⟨some 0, some (count - 1)⟩
    | .states _ _ => Queue.null
  node index :=
    if 0 ≤ index ∧ index < count then
      ⟨if index + 1 < count then some (index + 1) else none,
        if index = 0 then before else some (index - 1)⟩
    else if index = maxTasks - 1 then ⟨some 0, none⟩
    else QueueNode.null

def initialState (image : Image) (memory : Memory) (before : Option ℤ)
    (count : ℕ) : State :=
  { staticState image memory with
    task := initialTask image count
    taskQueues := initialLinks before count
    enabled := picTimer01 }

theorem initialTask_succ (image : Image) (count : ℕ) :
    update (initialTask image count) count
      { Task.zero with
        tid := count - maxTasks
        stack := image.stackArray + count * stackSizeBytes
        state := .free } = initialTask image (count + 1) := by
  funext index
  by_cases hindex : index = count
  · subst index
    rw [update_self, initialTask, if_pos (by omega), Int.toNat_natCast]
  · have hrange : (0 ≤ index ∧ index < ((count + 1 : ℕ) : ℤ)) ↔
        0 ≤ index ∧ index < (count : ℤ) := by omega
    rw [update_of_ne hindex, initialTask, initialTask]
    simp only [hrange]

theorem initialLinks_one (image : Image) (memory : Memory) :
    (staticState image memory).taskQueues.enqueueQueue .available 0 =
      initialLinks (some (maxTasks - 1)) 1 := by
  apply QueueHeap.ext
  · funext queue
    rw [queue_enqueueQueue]
    cases queue with
    | available => simp [initialLinks, staticState]
    | states state priority => simp [initialLinks, staticState]
  · funext index
    rw [node_enqueueQueue]
    simp only [initialLinks, staticState, QueueNode.null, maxTasks,
      Option.some.injEq]
    grind

theorem initialLinks_succ {count : ℕ} (hcount : 0 < count) :
    (initialLinks (some (maxTasks - 1)) count).enqueueQueue .available count =
      initialLinks (some (maxTasks - 1)) (count + 1) := by
  apply QueueHeap.ext
  · funext queue
    rw [queue_enqueueQueue]
    cases queue with
    | available => simp [initialLinks]
    | states state priority => simp [initialLinks]
  · funext index
    rw [node_enqueueQueue]
    simp only [initialLinks, maxTasks, Option.some.injEq]
    grind

theorem initTask_static (image : Image) (memory : Memory) :
    initTask (enableInterrupt (staticState image memory) picTimer01) (0 : ℕ) =
      initialState image memory (some (maxTasks - 1)) 1 := by
  have htask : (staticState image memory).task = initialTask image 0 := by
    funext index
    rw [initialTask, if_neg (by omega)]
    rfl
  have henabled : (staticState image memory).enabled ||| picTimer01 = picTimer01 :=
    BitVec.zero_or
  have hlinks := initialLinks_one image memory
  rw [initialState, ← initialTask_succ, ← htask, ← hlinks]
  simp only [initTask, enableInterrupt, henabled, State.setTask, Int.toNat_natCast]
  rfl

theorem initTask_initialState (image : Image) (memory : Memory) {count : ℕ}
    (hcount : 0 < count) :
    initTask (initialState image memory (some (maxTasks - 1)) count) count =
      initialState image memory (some (maxTasks - 1)) (count + 1) := by
  have hzero : initialTask image count (count : ℤ) = Task.zero := by
    rw [initialTask, if_neg (by omega)]
  rw [initialState, initialState, ← initialTask_succ, ← initialLinks_succ hcount]
  simp only [initTask, State.setTask, hzero, Int.toNat_natCast]
  rfl

/-- The loop of `InitTasks`, round by round. -/
theorem foldl_initTask (image : Image) (memory : Memory) (count : ℕ) :
    (List.range (count + 1)).foldl (fun s (index : ℕ) => initTask s index)
        (enableInterrupt (staticState image memory) picTimer01) =
      initialState image memory (some (maxTasks - 1)) (count + 1) := by
  induction count with
  | zero => exact initTask_static image memory
  | succ count ih =>
      rw [List.range_succ, List.foldl_append, ih]
      exact initTask_initialState image memory (Nat.succ_pos count)

theorem initTasks_static (image : Image) (memory : Memory) :
    initTasks (enableInterrupt (staticState image memory) picTimer01) =
      initialState image memory (some (maxTasks - 1)) 1024 :=
  foldl_initTask image memory 1023

/-- The queues that `InitCommunication` clears are clear already. -/
theorem initCommunication_eq {s : State}
    (hnull : ∀ queue, s.msgQueues.queue queue = Queue.null) :
    initCommunication s = s := by
  have hround : ∀ index : ℤ,
      { s with msgQueues := s.msgQueues.setQueue index Queue.null } = s := by
    intro index
    rw [setQueue, ← hnull index, update_eq_self]
  rw [initCommunication]
  induction List.range maxTasks.toNat with
  | nil => rfl
  | cons index indices ih => rw [List.foldl_cons, hround, ih]

/-! ## The first two tasks -/

/-- `CreateTask` does not see the stale back link of the first descriptor. -/
theorem createTask_initialState (image : Image) (memory : Memory)
    (before : Option ℤ) (priority : Priority) (code : Word) :
    createTask (initialState image memory before 1024) priority code =
      createTask (initialState image memory none 1024) priority code := by
  have hdequeue : (initialLinks before 1024).dequeueQueue .available =
      (initialLinks none 1024).dequeueQueue .available := by
    apply Prod.ext
    · rw [fst_dequeueQueue, fst_dequeueQueue]
      rfl
    · apply QueueHeap.ext
      · funext queue
        rw [queue_dequeueQueue _ _ 0 rfl, queue_dequeueQueue _ _ 0 rfl]
        rfl
      · funext index
        have hnext : ∀ before, ((initialLinks before 1024).node 0).next = some 1 :=
          fun _ => rfl
        rw [node_dequeueQueue _ _ 0 _ rfl, node_dequeueQueue _ _ 0 _ rfl, hnext,
          hnext]
        by_cases hindex : index = 0
        · rw [if_pos hindex, if_pos hindex]
        · simp only [initialLinks, if_neg hindex]
  have hleft : (initialState image memory before 1024).taskQueues.dequeueQueue
      .available = (initialLinks none 1024).dequeueQueue .available := hdequeue
  have hright : (initialState image memory none 1024).taskQueues.dequeueQueue
      .available = (initialLinks none 1024).dequeueQueue .available := rfl
  rw [createTask, createTask, hleft, hright]
  rfl

def descriptors (start count : ℕ) : List ℤ :=
  (List.range' start count).map fun (index : ℕ) => (index : ℤ)

theorem descriptors_succ (start count : ℕ) :
    descriptors start (count + 1) = (start : ℤ) :: descriptors (start + 1) count := by
  rw [descriptors, List.range'_succ, List.map_cons]
  rfl

theorem mem_descriptors_iff {start count : ℕ} {index : ℤ} :
    index ∈ descriptors start count ↔ (start : ℤ) ≤ index ∧ index < start + count := by
  simp only [descriptors, List.mem_map, List.mem_range'_1]
  constructor
  · rintro ⟨position, hposition, rfl⟩
    omega
  · intro hindex
    exact ⟨index.toNat, by omega, by omega⟩

theorem descriptors_nodup (start count : ℕ) : (descriptors start count).Nodup := by
  apply List.Nodup.map
  · intro left right heq
    exact Int.ofNat.inj heq
  · exact List.nodup_range'

theorem getLast?_descriptors (start count : ℕ) :
    (descriptors start (count + 1)).getLast? = some (start + count : ℤ) := by
  rw [descriptors, List.getLast?_map, List.range'_concat, List.getLast?_concat]
  simp

/-- The links from a descriptor on spell out the rest of the free list. -/
theorem chained_initialLinks (total start count : ℕ) (hcount : start + count = total) :
    Chained (fun index => ((initialLinks none total).node index).next)
      (fun index => ((initialLinks none total).node index).prev)
      (if start = 0 then none else some (start - 1)) (descriptors start count) := by
  induction count generalizing start with
  | zero => trivial
  | succ count ih =>
      rw [descriptors_succ]
      have hrange : (0 : ℤ) ≤ start ∧ (start : ℤ) < total := by omega
      refine ⟨?_, ?_, ?_⟩
      · simp only [initialLinks, if_pos hrange]
        cases count with
        | zero =>
            rw [if_neg (by omega)]
            rfl
        | succ count =>
            rw [if_pos (by omega), descriptors_succ, List.head?_cons]
            norm_cast
      · simp only [initialLinks, if_pos hrange, Int.natCast_eq_zero]
      · have hrest := ih (start + 1) (by omega)
        rw [if_neg (by omega)] at hrest
        simpa using hrest

def initialLists : Lists TaskQueue ℤ
  | .available => descriptors 0 1024
  | .states _ _ => []

theorem represents_initialLinks :
    Represents (initialLinks none 1024) initialLists where
  contents queue := by
    cases queue with
    | available =>
        exact ⟨rfl, (getLast?_descriptors 0 1023).symm,
          chained_initialLinks 1024 0 1024 rfl, descriptors_nodup 0 1024⟩
    | states state priority => exact ⟨rfl, rfl, trivial, List.nodup_nil⟩
  disjoint := by
    intro left right node hleft hright
    cases left <;> cases right <;> simp_all [initialLists]

theorem tidy_initialLinks : Tidy (initialLinks none 1024) initialLists := by
  intro node hnode
  have hrange := hnode .available
  simp only [initialLists, mem_descriptors_iff] at hrange
  have hlast : node ≠ maxTasks - 1 := by
    rw [maxTasks]
    omega
  simp only [initialLinks]
  rw [if_neg (by omega), if_neg hlast]

section Launch

variable (image : Image) (memory : Memory)

/-- The state in which the first task is created, up to the stale back link. -/
def tableState : State := initialState image memory none 1024

theorem task_tableState {index : ℤ} (hindex : InTable index) :
    (tableState image memory).task index =
      { Task.zero with
        tid := index - maxTasks
        stack := image.stackArray + index.toNat * stackSizeBytes
        state := .free } := by
  have hrange : 0 ≤ index ∧ index < ((1024 : ℕ) : ℤ) := hindex
  simp only [tableState, initialState, initialTask, if_pos hrange]

theorem partition_tableState :
    Partition (tableState image memory) none initialLists where
  represents := represents_initialLinks
  tidy := tidy_initialLinks
  mem_iff := by
    intro queue index
    cases queue with
    | available =>
        rw [home_eq_available_iff, initialLists, mem_descriptors_iff]
        constructor
        · intro hindex
          have htable : InTable index := hindex
          exact ⟨htable, by rw [task_tableState image memory htable]⟩
        · exact fun hindex => hindex.1
    | states state priority =>
        rw [home_eq_states_iff, allocated_iff]
        simp only [initialLists, List.not_mem_nil, false_iff, not_and]
        rintro hindex ⟨hfree, _⟩
        exact absurd (by rw [task_tableState image memory hindex]) hfree

theorem not_allocated_tableState {index : ℤ} (hindex : InTable index) :
    ¬Allocated (tableState image memory) index := by
  apply not_allocated_of_free
  rw [task_tableState image memory hindex]

theorem numbered_tableState : Numbered (tableState image memory) := by
  constructor <;> intro index hindex <;>
    rw [task_tableState image memory hindex] <;>
    simp only [InTable, maxTasks, longMax] at hindex ⊢ <;> omega

theorem named_tableState : Named (tableState image memory) := by
  constructor <;> intro index hindex halloc <;>
    exact absurd halloc (not_allocated_tableState image memory hindex)

theorem represents_null {N : Type*} :
    Represents (⟨fun _ => Queue.null, fun _ => QueueNode.null⟩ : QueueHeap ℤ N)
      (fun _ => []) where
  contents _ := ⟨rfl, rfl, trivial, List.nodup_nil⟩
  disjoint := by simp

theorem family_tableState :
    Family (tableState image memory) Whole (fun _ => []) (fun _ => 0) := by
  have hnone : ∀ {child}, InTable child →
      ¬Allocated (tableState image memory) child :=
    not_allocated_tableState image memory
  refine ⟨?_, represents_null, fun _ _ => rfl, ?_⟩
  · constructor <;> intro child hchild halloc <;>
      exact absurd halloc (hnone hchild)
  · intro parent child
    simp only [List.not_mem_nil, false_iff, not_and]
    intro hchild halloc
    exact absurd halloc (hnone hchild)

theorem messages_tableState : Messages (tableState image memory) fun _ => [] := by
  have hfree : ∀ {index}, InTable index →
      ((tableState image memory).task index).state = .free := by
    intro index hindex
    rw [task_tableState image memory hindex]
  refine ⟨⟨represents_null, by simp, by simp, ?_, ?_⟩, ?_⟩ <;>
    intro index hindex hstate <;> simp [hfree hindex] at hstate

end Launch

/-- The kernel before the first activation. -/
structure Prepared (s : State) (lists : Lists TaskQueue ℤ) (depth : ℤ → ℕ) :
    Prop where
  partition : Partition s none lists
  named : Named s
  numbered : Numbered s
  family : Family s Whole (fun _ => []) depth
  messages : Messages s fun _ => []
  currentTask : s.currentTask = none
  log : ∀ event ∈ s.log, ¬event.IsMessage
  inactive : ∀ {index}, InTable index → (s.task index).state ≠ .active

theorem prepared_tableState (image : Image) (memory : Memory) :
    Prepared (tableState image memory) initialLists fun _ => 0 where
  partition := partition_tableState image memory
  named := named_tableState image memory
  numbered := numbered_tableState image memory
  family := family_tableState image memory
  messages := messages_tableState image memory
  currentTask := rfl
  log := by simp [tableState, initialState, staticState]
  inactive hindex := by
    rw [task_tableState image memory hindex]
    exact (by decide : TaskState.free ≠ .active)

section Prepared

variable {s : State} {lists : Lists TaskQueue ℤ} {depth : ℤ → ℕ} {index : ℤ}
  {rest : List ℤ}

/-- A task created at boot has no parent. -/
theorem Prepared.created (h : Prepared s lists depth)
    (hqueue : lists .available = index :: rest) (priority : Priority)
    (code : Word) :
    Prepared (created s index priority code)
      ((lists.erase index).append (.states .ready priority) index)
      (withDepth s depth index) := by
  obtain ⟨hindex, hfree⟩ := h.partition.state_free (hqueue ▸ List.mem_cons_self)
  have hcreator : ∀ c, s.currentTask = some c → Creator s c := by
    rw [h.currentTask]
    rintro c ⟨⟩
  have hfamily := h.family.created hindex hfree hcreator priority code
  simp only [withChild, h.currentTask] at hfamily
  refine ⟨h.partition.created (by rintro c ⟨⟩) hqueue priority code,
    h.named.created h.numbered hindex hfree priority code,
    h.numbered.created priority code, hfamily, h.messages.created index priority code,
    h.currentTask, ?_, ?_⟩
  · intro event hevent
    rcases List.mem_append.mp hevent with hold | hnew
    · exact h.log event hold
    · rw [List.mem_singleton.mp hnew]
      simp [Event.IsMessage]
  · intro other hother
    by_cases hne : other = index
    · subst other
      rw [task_created_self]
      simp [newTask]
    · rw [task_created_of_ne priority code hne]
      exact h.inactive hother

/-- The first activation dispatches the first ready task. -/
theorem Prepared.exists_dispatched (h : Prepared s lists depth) {next : ℤ}
    (hnext : firstOf lists .ready Priority.all = some next) (now : Word) :
    ∃ s', scheduleAndActivate s now = some s' ∧
      Coherent s' ⟨next, lists.erase next, fun _ => [], depth, fun _ => []⟩ ∧
      s'.log = s.log ∧ ∀ index, index ≠ next → s'.task index = s.task index := by
  have hidle : Idle s lists := ⟨h.partition, h.named⟩
  obtain ⟨queues, heq, hkernel⟩ := hidle.exists_activateNext now hnext
  obtain ⟨_, _, hmem⟩ := exists_of_firstOf hnext
  obtain ⟨_, hready⟩ := hidle.ready hmem
  have hquiet := quiet_activatedState now queues hready
  refine ⟨activatedState s next now queues, ?_, ⟨⟨hkernel, ?_, ?_⟩, ?_, ?_, ?_⟩, rfl,
    fun index hindex => activatedState_of_ne now queues hindex⟩
  · rw [scheduleAndActivate, scheduleCurrent, h.currentTask]
    exact heq
  · rw [activatedState_self]
    rfl
  · intro other hother hactive
    by_contra hne
    rw [activatedState_of_ne now queues hne] at hactive
    exact h.inactive hother hactive
  · exact h.numbered.congr hquiet.keeps
  · exact h.family.congr hquiet.keeps hquiet.siblings
  · exact h.messages.quiet hquiet

end Prepared

section Boot

variable (image : Image) (memory : Memory)

def nullState : State :=
  created (tableState image memory) 0 .null image.nullProcess

def launchedState : State :=
  created (nullState image memory) 1 .low image.init

def nullLists : Lists TaskQueue ℤ :=
  (initialLists.erase 0).append (.states .ready .null) 0

def launchedLists : Lists TaskQueue ℤ :=
  (nullLists.erase 1).append (.states .ready .low) 1

theorem available_initialLists :
    initialLists .available = 0 :: descriptors 1 1023 :=
  descriptors_succ 0 1023

theorem available_nullLists : nullLists .available = 1 :: descriptors 2 1022 := by
  have herase : nullLists .available = (initialLists .available).erase 0 :=
    Lists.append_of_ne _ _ (by decide)
  rw [herase, available_initialLists, List.erase_cons_head]
  exact descriptors_succ 1 1022

def launchedDepth : ℤ → ℕ :=
  withDepth (nullState image memory)
    (withDepth (tableState image memory) (fun _ => 0) 0) 1

theorem prepared_nullState :
    Prepared (nullState image memory) nullLists
      (withDepth (tableState image memory) (fun _ => 0) 0) :=
  (prepared_tableState image memory).created available_initialLists .null
    image.nullProcess

theorem prepared_launchedState :
    Prepared (launchedState image memory) launchedLists
      (launchedDepth image memory) :=
  (prepared_nullState image memory).created available_nullLists .low image.init

theorem createTask_nullProcess :
    (createTask (tableState image memory) .null image.nullProcess).2 =
      nullState image memory := by
  have hprepared := prepared_tableState image memory
  rw [createTask_eq hprepared.partition hprepared.family available_initialLists]
  rfl

theorem createTask_init :
    (createTask (nullState image memory) .low image.init).2 =
      launchedState image memory := by
  have hprepared := prepared_nullState image memory
  rw [createTask_eq hprepared.partition hprepared.family available_nullLists]
  rfl

/-- The loops of `RtkLaunch`. -/
theorem initCommunication_initTasks :
    initCommunication
        (initTasks (enableInterrupt (staticState image memory) picTimer01)) =
      initialState image memory (some (maxTasks - 1)) 1024 := by
  rw [initTasks_static]
  exact initCommunication_eq fun _ => rfl

theorem rtkLaunch_eq : rtkLaunch image memory = launchedState image memory := by
  calc
    rtkLaunch image memory =
        (createTask (createTask (initialState image memory (some (maxTasks - 1)) 1024)
          .null image.nullProcess).2 .low image.init).2 := by
      rw [rtkLaunch, initCommunication_initTasks]
    _ = (createTask (createTask (tableState image memory) .null
          image.nullProcess).2 .low image.init).2 := by
      rw [createTask_initialState, tableState]
    _ = (createTask (nullState image memory) .low image.init).2 := by
      rw [createTask_nullProcess]
    _ = launchedState image memory := createTask_init image memory

theorem firstOf_launchedLists :
    firstOf launchedLists .ready Priority.all = some 1 := by
  simp [firstOf, Priority.all, launchedLists, nullLists, initialLists, Lists.append,
    Lists.erase]

/-- The first activation. -/
theorem exists_activated (now : Word) :
    ∃ s, scheduleAndActivate (rtkLaunch image memory) now = some s ∧
      Coherent s
        ⟨1, launchedLists.erase 1, fun _ => [], launchedDepth image memory, fun _ => []⟩ ∧
      s.log = (launchedState image memory).log ∧
      ∀ index, index ≠ 1 → s.task index = (launchedState image memory).task index := by
  rw [rtkLaunch_eq]
  exact (prepared_launchedState image memory).exists_dispatched firstOf_launchedLists now

theorem task_launchedState_zero :
    ((launchedState image memory).task 0).tid = 0 ∧
      ((launchedState image memory).task 0).state = .ready := by
  have hzero : (launchedState image memory).task 0 = (nullState image memory).task 0 :=
    task_created_of_ne _ _ (by decide)
  rw [hzero, nullState, task_created_self, task_tableState image memory (by decide)]
  exact ⟨rfl, rfl⟩

end Boot

section Booted

variable {s : State}

theorem Booted.coherent (hbooted : Booted s) :
    ∃ depth, Coherent s ⟨1, launchedLists.erase 1, fun _ => [], depth, fun _ => []⟩ := by
  obtain ⟨image, memory, now, hactivate⟩ := hbooted
  obtain ⟨s', heq, hcoherent, _⟩ := exists_activated image memory now
  rw [heq, Option.some.injEq] at hactivate
  subst hactivate
  exact ⟨_, hcoherent⟩

/-- No message is exchanged before the first activation. -/
theorem Booted.log_quiet (hbooted : Booted s) :
    ∀ event ∈ s.log, ¬event.IsMessage := by
  obtain ⟨image, memory, now, hactivate⟩ := hbooted
  obtain ⟨s', heq, _, hlog, _⟩ := exists_activated image memory now
  rw [heq, Option.some.injEq] at hactivate
  subst hactivate
  rw [hlog]
  exact (prepared_launchedState image memory).log

/-- The null task is ready at the first activation. -/
theorem Booted.task_zero (hbooted : Booted s) :
    (s.task 0).tid = 0 ∧ (s.task 0).state = .ready := by
  obtain ⟨image, memory, now, hactivate⟩ := hbooted
  obtain ⟨s', heq, _, _, htask⟩ := exists_activated image memory now
  rw [heq, Option.some.injEq] at hactivate
  subst hactivate
  rw [htask 0 (by decide)]
  exact task_launchedState_zero image memory

/-- No other task but these two is in use at the first activation. -/
theorem Booted.state_free (hbooted : Booted s) {index : ℤ} (hindex : InTable index)
    (hzero : index ≠ 0) (hone : index ≠ 1) : (s.task index).state = .free := by
  obtain ⟨image, memory, now, hactivate⟩ := hbooted
  obtain ⟨s', heq, _, _, htask⟩ := exists_activated image memory now
  rw [heq, Option.some.injEq] at hactivate
  subst hactivate
  rw [htask index hone, launchedState, task_created_of_ne _ _ hone, nullState,
    task_created_of_ne _ _ hzero, task_tableState image memory hindex]

/-- At the first activation the first task runs, and no other but the null task is in use. -/
theorem Booted.state_cases (hbooted : Booted s) {index : ℤ} (hindex : InTable index) :
    (s.task index).state = .active ∨ (s.task index).state = .ready ∨
      (s.task index).state = .free := by
  by_cases hone : index = 1
  · subst index
    obtain ⟨depth, hcoherent⟩ := hbooted.coherent
    exact .inl hcoherent.dispatched.running
  by_cases hzero : index = 0
  · subst index
    exact .inr (.inl hbooted.task_zero.2)
  · exact .inr (.inr (hbooted.state_free hindex hzero hone))

end Booted

end Rtk.Kernel
