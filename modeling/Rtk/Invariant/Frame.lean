import Mathlib.Tactic.Simps.Basic
import Rtk.Invariant.Partition

/-!
# What a handler leaves alone

Most handlers change neither which descriptors are in use nor anything that
message passing depends on.  `Keeps` says the first, and `Quiet` says both; the
invariants of the family tree and of message passing are preserved by them
without looking at the handler again.
-/

namespace Rtk.Kernel

open Function
open Rtk.ByteMemory
open Rtk.Lib

/-- `s` with other descriptors and other queues of descriptors. -/
@[simps -fullyApplied]
def State.withTasks (s : State) (task : ℤ → Task)
    (taskQueues : QueueHeap TaskQueue ℤ) : State :=
  { s with task := task, taskQueues := taskQueues }

/-- The tasks of `s'` are those of `s` up to states among the states in use and
up to fields that identify no task. -/
structure Keeps (s s' : State) : Prop where
  tid : ∀ index, (s'.task index).tid = (s.task index).tid
  parentTid : ∀ index, (s'.task index).parentTid = (s.task index).parentTid
  free : ∀ index, (s'.task index).state = .free ↔ (s.task index).state = .free
  destroyed : ∀ index,
    (s'.task index).state = .destroyed ↔ (s.task index).state = .destroyed

theorem Keeps.refl (s : State) : Keeps s s :=
  ⟨fun _ => rfl, fun _ => rfl, fun _ => Iff.rfl, fun _ => Iff.rfl⟩

theorem Keeps.trans {s s' s'' : State} (hleft : Keeps s s')
    (hright : Keeps s' s'') : Keeps s s'' where
  tid index := (hright.tid index).trans (hleft.tid index)
  parentTid index := (hright.parentTid index).trans (hleft.parentTid index)
  free index := (hright.free index).trans (hleft.free index)
  destroyed index := (hright.destroyed index).trans (hleft.destroyed index)

theorem Keeps.of_task_eq {s s' : State} (htask : s'.task = s.task) :
    Keeps s s' := by
  constructor <;> intro index <;> rw [htask]

theorem Keeps.allocated_iff {s s' : State} (hkeeps : Keeps s s') (index : ℤ) :
    Allocated s' index ↔ Allocated s index := by
  rw [Kernel.allocated_iff, Kernel.allocated_iff, ne_eq, ne_eq, ne_eq, ne_eq,
    hkeeps.free, hkeeps.destroyed]

/-- Rewriting a descriptor in use keeps the tasks when the tid and the parent
stay and the new state is one in use. -/
theorem Keeps.of_update {s s' : State} {index : ℤ} {task : Task}
    (htask : s'.task = update s.task index task)
    (halloc : Allocated s index) (hstate : 0 ≤ task.state.value)
    (htid : task.tid = (s.task index).tid)
    (hparent : task.parentTid = (s.task index).parentTid) : Keeps s s' := by
  have hnew : task.state ≠ .free ∧ task.state ≠ .destroyed := by
    cases hcase : task.state <;> simp [hcase, TaskState.value] at hstate ⊢
  obtain ⟨hfree, hdestroyed⟩ := Kernel.allocated_iff.mp halloc
  constructor <;> intro other <;> rw [htask] <;>
    by_cases hother : other = index
  all_goals first
    | (subst other; simp [htid, hparent, hnew, hfree, hdestroyed])
    | simp [hother]

/-- Rewriting a descriptor without its tid, parent and state keeps the tasks. -/
theorem Keeps.of_update_same {s s' : State} {index : ℤ} {task : Task}
    (htask : s'.task = update s.task index task)
    (hstate : task.state = (s.task index).state)
    (htid : task.tid = (s.task index).tid)
    (hparent : task.parentTid = (s.task index).parentTid) : Keeps s s' := by
  constructor <;> intro other <;> rw [htask] <;>
    by_cases hother : other = index
  all_goals first
    | (subst other; simp [htid, hparent, hstate])
    | simp [hother]

theorem Named.congr {s s' : State} (hnamed : Named s) (hkeeps : Keeps s s') :
    Named s' where
  tid_emod hindex halloc := by
    rw [hkeeps.tid]
    exact hnamed.tid_emod hindex ((hkeeps.allocated_iff _).mp halloc)
  tid_nonneg hindex halloc := by
    rw [hkeeps.tid]
    exact hnamed.tid_nonneg hindex ((hkeeps.allocated_iff _).mp halloc)
  tid_le hindex halloc := by
    rw [hkeeps.tid]
    exact hnamed.tid_le hindex ((hkeeps.allocated_iff _).mp halloc)

theorem Numbered.congr {s s' : State} (hnumbered : Numbered s)
    (hkeeps : Keeps s s') : Numbered s' where
  tid_emod hindex := by
    rw [hkeeps.tid]
    exact hnumbered.tid_emod hindex
  tid_lower hindex := by
    rw [hkeeps.tid]
    exact hnumbered.tid_lower hindex
  tid_free hindex hfree := by
    rw [hkeeps.tid]
    exact hnumbered.tid_free hindex ((hkeeps.free _).mp hfree)

/-- The states in which a task takes part in an exchange of messages. -/
def TaskState.Exchanging (state : TaskState) : Prop :=
  state = .sendBlocked ∨ state = .receiveBlocked ∨ state = .replyBlocked

instance (state : TaskState) : Decidable state.Exchanging :=
  inferInstanceAs (Decidable (_ ∨ _))

def Event.IsMessage : Event → Prop
  | .sent _ => True
  | .waiting _ _ _ _ => True
  | .taken _ _ => True
  | _ => False

/-- A task's state may change from `state` to `state'` without taking part in an
exchange: it stays, or it leaves `state` for one outside any exchange. -/
def Unaffected (state state' : TaskState) : Prop :=
  state' = state ∨ state ≠ .receiveBlocked ∧ ¬state'.Exchanging

theorem Unaffected.refl (state : TaskState) : Unaffected state state := .inl rfl

theorem Unaffected.trans {state state' state'' : TaskState}
    (hleft : Unaffected state state') (hright : Unaffected state' state'') :
    Unaffected state state'' := by
  rcases hright with rfl | ⟨hnot, hquiet⟩
  · exact hleft
  · rcases hleft with rfl | ⟨hnot', _⟩
    · exact .inr ⟨hnot, hquiet⟩
    · exact .inr ⟨hnot', hquiet⟩

/-- `s'` has the family tree and the messages of `s`. -/
structure Quiet (s s' : State) : Prop where
  keeps : Keeps s s'
  siblings : s'.siblings = s.siblings
  node : s'.node = s.node
  msgQueues : s'.msgQueues = s.msgQueues
  state : ∀ index, Unaffected (s.task index).state (s'.task index).state
  log : ∃ events, s'.log = s.log ++ events ∧ ∀ event ∈ events, ¬event.IsMessage

theorem Quiet.refl (s : State) : Quiet s s where
  keeps := .refl s
  siblings := rfl
  node := rfl
  msgQueues := rfl
  state _ := .refl _
  log := ⟨[], by simp⟩

/-- What records no message, followed by what records none. -/
theorem quiet_log_trans {log log' log'' : List Event}
    (hleft : ∃ events, log' = log ++ events ∧ ∀ event ∈ events, ¬event.IsMessage)
    (hright : ∃ events, log'' = log' ++ events ∧ ∀ event ∈ events, ¬event.IsMessage) :
    ∃ events, log'' = log ++ events ∧ ∀ event ∈ events, ¬event.IsMessage := by
  obtain ⟨front, hfront, hfrontQuiet⟩ := hleft
  obtain ⟨back, hback, hbackQuiet⟩ := hright
  refine ⟨front ++ back, by rw [hback, hfront, List.append_assoc], ?_⟩
  intro event hevent
  rcases List.mem_append.mp hevent with hevent | hevent
  · exact hfrontQuiet event hevent
  · exact hbackQuiet event hevent

theorem Quiet.trans {s s' s'' : State} (hleft : Quiet s s')
    (hright : Quiet s' s'') : Quiet s s'' where
  keeps := hleft.keeps.trans hright.keeps
  siblings := hright.siblings.trans hleft.siblings
  node := hright.node.trans hleft.node
  msgQueues := hright.msgQueues.trans hleft.msgQueues
  state index := (hleft.state index).trans (hright.state index)
  log := quiet_log_trans hleft.log hright.log

/-- A change of memory, interrupt enables and counters is quiet when it records
no message. -/
theorem Quiet.of_eq {s s' : State} (htask : s'.task = s.task)
    (hsiblings : s'.siblings = s.siblings) (hnode : s'.node = s.node)
    (hmsgQueues : s'.msgQueues = s.msgQueues)
    (hlog : ∃ events, s'.log = s.log ++ events ∧
      ∀ event ∈ events, ¬event.IsMessage) : Quiet s s' where
  keeps := .of_task_eq htask
  siblings := hsiblings
  node := hnode
  msgQueues := hmsgQueues
  state index := by
    rw [htask]
    exact .refl _
  log := hlog

/-- `s'` differs from `s` only in memory, interrupt enables, counters and
history, and records no message. -/
structure Silent (s s' : State) : Prop where
  task : s'.task = s.task
  currentTask : s'.currentTask = s.currentTask
  taskQueues : s'.taskQueues = s.taskQueues
  siblings : s'.siblings = s.siblings
  node : s'.node = s.node
  msgQueues : s'.msgQueues = s.msgQueues
  log : ∃ events, s'.log = s.log ++ events ∧ ∀ event ∈ events, ¬event.IsMessage

theorem Silent.refl (s : State) : Silent s s :=
  ⟨rfl, rfl, rfl, rfl, rfl, rfl, [], by simp⟩

theorem Silent.of_log_eq {s s' : State} (htask : s'.task = s.task)
    (hcurrent : s'.currentTask = s.currentTask)
    (hqueues : s'.taskQueues = s.taskQueues)
    (hsiblings : s'.siblings = s.siblings) (hnode : s'.node = s.node)
    (hmsgQueues : s'.msgQueues = s.msgQueues) (hlog : s'.log = s.log) :
    Silent s s' :=
  ⟨htask, hcurrent, hqueues, hsiblings, hnode, hmsgQueues, [], by simp [hlog]⟩

theorem Silent.trans {s s' s'' : State} (hleft : Silent s s')
    (hright : Silent s' s'') : Silent s s'' where
  task := hright.task.trans hleft.task
  currentTask := hright.currentTask.trans hleft.currentTask
  taskQueues := hright.taskQueues.trans hleft.taskQueues
  siblings := hright.siblings.trans hleft.siblings
  node := hright.node.trans hleft.node
  msgQueues := hright.msgQueues.trans hleft.msgQueues
  log := quiet_log_trans hleft.log hright.log

theorem Silent.emit (s : State) {event : Event} (hevent : ¬event.IsMessage) :
    Silent s (s.emit event) :=
  ⟨rfl, rfl, rfl, rfl, rfl, rfl, [event], rfl, by simp [hevent]⟩

theorem Silent.storeWord (s : State) (address : ℕ) (word : Word) :
    Silent s (s.storeWord address word) :=
  ⟨rfl, rfl, rfl, rfl, rfl, rfl, [.storedWord address word], rfl,
    by simp [Event.IsMessage]⟩

theorem Silent.copy (s : State) (dest src num : ℕ) :
    Silent s (s.copy dest src num) :=
  ⟨rfl, rfl, rfl, rfl, rfl, rfl, [.copied dest src num], rfl,
    by simp [Event.IsMessage]⟩

theorem Silent.storeTaskStats (s : State) (container : ℕ) (stats : TaskStats) :
    Silent s (s.storeTaskStats container stats) :=
  ⟨rfl, rfl, rfl, rfl, rfl, rfl, [.taskStats container stats], rfl, by simp [Event.IsMessage]⟩

theorem Silent.useDescriptor (s : State) (index : ℤ) :
    Silent s (s.useDescriptor index) := by
  rw [State.useDescriptor]
  split_ifs
  · exact .refl s
  · exact .of_log_eq rfl rfl rfl rfl rfl rfl rfl

theorem Silent.setTaskReturnValue (s : State) (tid ret : ℤ) :
    Silent s (setTaskReturnValue s tid ret) := by
  rw [Kernel.setTaskReturnValue]
  split_ifs
  · exact .refl s
  · exact .storeWord _ _ _

theorem Silent.quiet {s s' : State} (hsilent : Silent s s') : Quiet s s' :=
  .of_eq hsilent.task hsilent.siblings hsilent.node hsilent.msgQueues hsilent.log

/-- Rewriting one descriptor in use is quiet when it does not move it into or
out of an exchange. -/
theorem Quiet.of_update {s s' : State} (index : ℤ) (task : Task)
    (htask : s'.task = update s.task index task)
    (hsiblings : s'.siblings = s.siblings) (hnode : s'.node = s.node)
    (hmsgQueues : s'.msgQueues = s.msgQueues) (hlog : s'.log = s.log)
    (hkeeps : Keeps s s')
    (hstate : Unaffected (s.task index).state task.state) : Quiet s s' where
  keeps := hkeeps
  siblings := hsiblings
  node := hnode
  msgQueues := hmsgQueues
  state other := by
    rw [htask]
    by_cases hother : other = index
    · subst other
      rw [update_self]
      exact hstate
    · rw [update_of_ne hother]
      exact .refl _
  log := ⟨[], by simp [hlog]⟩

end Rtk.Kernel
