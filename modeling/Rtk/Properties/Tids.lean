import Rtk.Invariant.Bookings
import Rtk.Properties.Destruction

/-!
# Tids

A descriptor that is used again gets a tid one table length above its last one, and is
retired before its tids run out.  So no tid is given out twice.
-/

namespace Rtk.Kernel

open Function
open Rtk.ByteMemory
open Rtk.Lib
open Rtk.Lib.QueueHeap
open Rtk.Transition

/-! ## The tasks of a run -/

/-- The descriptors and tids of the tasks created so far, and the tids of the tasks
destroyed. -/
structure Census where
  created : List (ℤ × ℤ)
  destroyed : Set ℤ

/-- The tasks that `RtkLaunch` creates. -/
def launched : Census := ⟨[(0, 0), (1, 1)], ∅⟩

def Census.record (s : State) (action : Action) (s' : State) (census : Census) : Census where
  created := census.created ++ (createdBy s action).toList
  destroyed := census.destroyed ∪ {tid | Names s tid ∧ ¬Names s' tid}

def censused : System (State × Census) Action :=
  kernel.recording (fun _ => launched) Census.record

/-- No tid is used twice: the tids of all tasks created are distinct, name their
descriptors and are in range, as is the next one; and no destroyed tid is alive. -/
structure Fresh (s : State) (census : Census) : Prop where
  distinct : (census.created.map Prod.snd).Nodup
  range : ∀ entry ∈ census.created, 0 ≤ entry.2 ∧ entry.2 ≤ longMax
  descriptor : ∀ entry ∈ census.created, InTable entry.1 ∧ slot entry.2 = entry.1
  next : ∀ index, (s.taskQueues.queue .available).first = some index →
    (s.task index).tid + maxTasks ≤ longMax
  dead : ∀ tid ∈ census.destroyed, isTaskAlive s tid = false

/-- A `Create` that is not successful returns an error. -/
theorem error_of_createdBy_eq_none {s : State} {priority : ℤ} {code : Word} {trap : Trap}
    (hnone : createdBy s (.call (.create priority code) trap) = none) :
    (createTaskSafe (entered s trap) priority code).1 = errInvalidPriority ∨
      (createTaskSafe (entered s trap) priority code).1 = errUnavailableDescriptor := by
  rw [createdBy] at hnone
  rw [createTaskSafe]
  split_ifs at hnone ⊢
  · exact .inl rfl
  · rw [Option.map_eq_none_iff] at hnone
    right
    rw [createTask]
    have hfirst : ((entered s trap).taskQueues.queue .available).first = none := hnone
    rw [dequeueQueue_of_first_none _ _ hfirst]

/-- The tids that the calls of `CreateTask` in `RtkLaunch` return are those of the
census. -/
theorem created_rtkLaunch (image : Image) (memory : Memory) :
    let s := initCommunication (initTasks (enableInterrupt (staticState image memory) picTimer01))
    let null := createTask s .null image.nullProcess
    [null.1, (createTask null.2 .low image.init).1] = launched.created.map Prod.snd := by
  intro s null
  have hnull := prepared_tableState image memory
  have hinit := prepared_nullState image memory
  have hfirst : null = createTask (tableState image memory) .null image.nullProcess := by
    rw [tableState, ← createTask_initialState image memory (some (maxTasks - 1)),
      ← initCommunication_initTasks]
  have hone : (nullState image memory).task 1 = (tableState image memory).task 1 :=
    task_created_of_ne _ _ (by decide)
  rw [hfirst, createTask_nullProcess,
    createTask_eq hnull.partition hnull.family available_initialLists,
    createTask_eq hinit.partition hinit.family available_nullLists, hone,
    task_tableState image memory (by decide), task_tableState image memory (by decide)]
  rfl

/-- The invariant: no task has a tid above that of its descriptor. -/
structure Enrolled (s : State) (census : Census) : Prop where
  coherent : ∃ l, Coherent s l
  distinct : (census.created.map Prod.snd).Nodup
  range : ∀ entry ∈ census.created, 0 ≤ entry.2 ∧ entry.2 ≤ longMax
  descriptor : ∀ entry ∈ census.created, InTable entry.1 ∧ slot entry.2 = entry.1
  latest : ∀ entry ∈ census.created, entry.2 ≤ (s.task entry.1).tid
  gone : ∀ tid ∈ census.destroyed, Gone s tid

section Census

variable {s s' : State} {l : Layout} {census : Census} {action : Action}

/-- The next descriptor has room for another tid. -/
theorem Coherent.next_le (h : Coherent s l) {index : ℤ}
    (hfirst : (s.taskQueues.queue .available).first = some index) :
    (s.task index).tid + maxTasks ≤ longMax := by
  rw [(h.dispatched.partition.represents.contents _).first] at hfirst
  obtain ⟨hindex, hfree⟩ := h.dispatched.partition.state_free (List.mem_of_head? hfirst)
  have hlt := h.numbered.tid_free hindex hfree
  omega

theorem Enrolled.fresh (h : Enrolled s census) : Fresh s census := by
  obtain ⟨l, hcoherent⟩ := h.coherent
  exact ⟨h.distinct, h.range, h.descriptor, fun _ hfirst => hcoherent.next_le hfirst,
    fun tid hmem => (h.gone tid hmem).not_alive⟩

/-- A step that ends a task leaves its tid to nobody. -/
theorem Evolves.gone (hevolves : Evolves s s') (hcoherent : Coherent s l) {tid : ℤ}
    (hnames : Names s tid) (hnot : ¬Names s' tid) : Gone s' tid := by
  obtain ⟨index, hindex, halloc, rfl⟩ := hnames
  have hslot := hcoherent.dispatched.named.slot_tid hindex halloc
  rw [Gone, hslot]
  rcases hevolves index with ⟨htid, _⟩ | hlt
  · exact .inl ⟨htid, fun hlive => hnot ⟨index, hindex, hlive, htid⟩⟩
  · exact .inr hlt

/-- A successful `Create` takes the first free descriptor. -/
theorem exists_create_of_createdBy {index tid : ℤ}
    (hcreated : createdBy s action = some (index, tid)) :
    ∃ priority code trap, action = .call (.create priority code) trap ∧
      ¬(priority < Priority.highest.value ∨ Priority.low.value < priority) ∧
      (s.taskQueues.queue .available).first = some index ∧
      tid = (createTaskSafe (entered s trap) priority code).1 := by
  cases action with
  | interrupt intrCode trap => simp [createdBy] at hcreated
  | call call trap =>
      cases call with
      | create priority code =>
          rw [createdBy] at hcreated
          split_ifs at hcreated with hpriority
          rw [Option.map_eq_some_iff] at hcreated
          obtain ⟨first, hfirst, hpair⟩ := hcreated
          obtain ⟨rfl, rfl⟩ := Prod.mk.inj hpair
          exact ⟨priority, code, trap, rfl, hpriority, hfirst, rfl⟩
      | _ => simp [createdBy] at hcreated

/-- The descriptor of a new task has its tid. -/
theorem Coherent.tid_of_createdBy (h : Coherent s l) (hsafe : Safe s action)
    (hstep : Step s action s') {index tid : ℤ} (hcreated : createdBy s action = some (index, tid)) :
    InTable index ∧ tid = (s.task index).tid + maxTasks ∧ (s'.task index).tid = tid := by
  obtain ⟨priority, code, trap, rfl, hpriority, hfirst, rfl⟩ :=
    exists_create_of_createdBy hcreated
  rw [(h.dispatched.partition.represents.contents _).first, List.head?_eq_some_iff] at hfirst
  obtain ⟨rest, hqueue⟩ := hfirst
  have hentered := h.enter trap
  have hcreate : createTaskSafe (entered s trap) priority code =
      ((s.task index).tid + maxTasks,
        created (entered s trap) index (Priority.ofInt priority) code) := by
    rw [createTaskSafe, if_neg hpriority,
      createTask_eq hentered.dispatched.partition hentered.family hqueue]
    rfl
  obtain ⟨fuel, result, middle, queues, hhandle, heffect, hsaved, hactivate⟩ :=
    h.round_call hsafe hstep
  obtain rfl := eq_of_handle hhandle
  obtain ⟨hquiet, _⟩ := heffect.finish hentered hsaved hactivate
  refine ⟨(h.free_of_available hqueue).1, by rw [hcreate], ?_⟩
  rw [hquiet.keeps.tid, hcreate, tid_created_self]
  rfl

/-- A new tid names its descriptor and is in range. -/
theorem Coherent.range_of_createdBy (h : Coherent s l) (hsafe : Safe s action)
    (hstep : Step s action s') {index tid : ℤ} (hcreated : createdBy s action = some (index, tid)) :
    slot tid = index ∧ 0 ≤ tid ∧ tid ≤ longMax := by
  obtain ⟨hindex, htid, hnew⟩ := h.tid_of_createdBy hsafe hstep hcreated
  have hnonneg : 0 ≤ tid := by
    have hlower := h.numbered.tid_lower hindex
    omega
  obtain ⟨l', hcoherent⟩ := (h.step hsafe hstep).1
  have hemod := hcoherent.numbered.tid_emod hindex
  rw [hnew, ← Int.tmod_eq_emod_of_nonneg hnonneg] at hemod
  obtain ⟨priority, code, trap, rfl, _, hfirst, _⟩ := exists_create_of_createdBy hcreated
  refine ⟨hemod, hnonneg, ?_⟩
  rw [htid]
  exact h.next_le hfirst

/-- A tid above the last one of its descriptor is a new one. -/
theorem Enrolled.not_mem (h : Enrolled s census) {index tid : ℤ} (hslot : slot tid = index)
    (hlt : (s.task index).tid < tid) : tid ∉ census.created.map Prod.snd := by
  intro hmem
  obtain ⟨entry, hentry, rfl⟩ := List.mem_map.mp hmem
  have hsame : entry.1 = index := (h.descriptor entry hentry).2.symm.trans hslot
  have hlatest := h.latest entry hentry
  rw [hsame] at hlatest
  omega

theorem mem_created_record {entry : ℤ × ℤ} :
    entry ∈ (census.record s action s').created ↔
      entry ∈ census.created ∨ createdBy s action = some entry := by
  rw [Census.record, List.mem_append, Option.mem_toList]

theorem Enrolled.step (h : Enrolled s census) (hsafe : Safe s action) (hstep : Step s action s') :
    Enrolled s' (census.record s action s') := by
  obtain ⟨l, hcoherent⟩ := h.coherent
  obtain ⟨hnext, hevolves⟩ := hcoherent.step hsafe hstep
  have hmono : ∀ index, (s.task index).tid ≤ (s'.task index).tid := by
    intro index
    rcases hevolves index with ⟨htid, _⟩ | hlt
    · exact Int.le_of_eq htid.symm
    · exact Int.le_of_lt hlt
  refine ⟨hnext, ?_, ?_, ?_, ?_, ?_⟩
  · rw [Census.record]
    cases hcreated : createdBy s action with
    | none => simpa using h.distinct
    | some entry =>
        obtain ⟨hslot, _⟩ := hcoherent.range_of_createdBy hsafe hstep hcreated
        obtain ⟨_, htid, _⟩ := hcoherent.tid_of_createdBy hsafe hstep hcreated
        have hnew := h.not_mem hslot (by rw [htid, maxTasks]; omega)
        rw [List.map_append, List.nodup_append_comm]
        exact List.nodup_cons.mpr ⟨hnew, h.distinct⟩
  · intro entry hmem
    rcases mem_created_record.mp hmem with hold | hcreated
    · exact h.range entry hold
    · exact (hcoherent.range_of_createdBy hsafe hstep hcreated).2
  · intro entry hmem
    rcases mem_created_record.mp hmem with hold | hcreated
    · exact h.descriptor entry hold
    · exact ⟨(hcoherent.tid_of_createdBy hsafe hstep hcreated).1,
        (hcoherent.range_of_createdBy hsafe hstep hcreated).1⟩
  · intro entry hmem
    rcases mem_created_record.mp hmem with hold | hcreated
    · exact Int.le_trans (h.latest entry hold) (hmono _)
    · exact Int.le_of_eq (hcoherent.tid_of_createdBy hsafe hstep hcreated).2.2.symm
  · rintro tid (hold | ⟨hnames, hnot⟩)
    · exact (h.gone tid hold).evolves hevolves
    · exact hevolves.gone hcoherent hnames hnot

end Census

/-- The census at the first activation. -/
theorem Booted.enrolled {s : State} (hbooted : Booted s) : Enrolled s launched := by
  obtain ⟨depth, hcoherent⟩ := hbooted.coherent
  have hzero := hbooted.task_zero.1
  have hone : 1 ≤ (s.task 1).tid := by
    have halloc := hcoherent.dispatched.allocated
    have hemod := hcoherent.numbered.tid_emod (by decide : InTable 1)
    have hnonneg := hcoherent.dispatched.named.tid_nonneg (by decide : InTable 1) halloc
    rw [maxTasks] at hemod
    omega
  refine ⟨⟨_, hcoherent⟩, by decide, by decide, by decide, ?_, fun _ hmem => hmem.elim⟩
  intro entry hmem
  rcases List.mem_pair.mp hmem with rfl | rfl
  · exact Int.le_of_eq hzero.symm
  · exact hone

/-- In runs in which only tasks in use are destroyed, no tid is used twice. -/
theorem fresh_of_reachable {s : State} {census : Census}
    (hreachable : Reachable censused (fun p => Safe p.1) (s, census)) : Fresh s census := by
  have henrolled : Enrolled s census := hreachable.recorded_invariant
    (fun _ hbooted => Booted.enrolled hbooted) fun henrolled hsafe hstep =>
      henrolled.step hsafe hstep
  exact henrolled.fresh

/-- The second task yields and is destroyed by its parent. -/
theorem fresh_sample :
    ∃ s s' census, sampleRun [.call (.create 3 0x9000) (sampleTrap 0x103f00),
        .call .pass (sampleTrap 0x105f00)] = some s ∧
      Step s (.call (.destroy 2) (sampleTrap 0x103f00)) s' ∧
      Reachable censused (fun p => Safe p.1) (s', census) ∧ Fresh s' census := by
  have hobserved : ((sampleRun [.call (.create 3 0x9000) (sampleTrap 0x103f00),
      .call .pass (sampleTrap 0x105f00)]).bind fun s =>
        (step s 2 (.call (.destroy 2) (sampleTrap 0x103f00))).map fun _ =>
          decide (Allocated s (slot 2))) = some true := by
    decide +kernel
  obtain ⟨s, s', hrun, hstep, halloc⟩ := exists_observed hobserved
  rw [decide_eq_true_eq] at halloc
  have hbefore : Reachable kernel Safe s := by
    apply reachable_of_rounds hrun
    simp [Safe]
  have hallowed : Safe s (.call (.destroy 2) (sampleTrap 0x103f00)) := fun _ _ => halloc
  obtain ⟨census, hreachable⟩ :=
    (hbefore.step hallowed ⟨2, hstep⟩).recording (fun _ => launched) Census.record
  exact ⟨s, s', census, hrun, ⟨2, hstep⟩, hreachable, fresh_of_reachable hreachable⟩

end Rtk.Kernel
