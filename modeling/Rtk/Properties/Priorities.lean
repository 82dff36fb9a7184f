import Rtk.Invariant.Run

/-!
# Changing a priority

No priority is both at least `LOW_PRIORITY` and at most `HIGHEST_PRIORITY`, so
`SetTaskPriority` refuses every one.
-/

namespace Rtk.Kernel

open Rtk.Lib
open Rtk.Transition

/-- `SetPriority` changes the priority of the task and of no other, links the task where its
state and its new priority say, and `GetPriority` finds the new priority. -/
structure SetsPriority (s : State) (tid priority : ℤ) : Prop where
  result : (setTaskPriority s tid priority).1 = returnStatusOk
  changed : ((setTaskPriority s tid priority).2.task (slot tid)).priority =
    Priority.ofInt priority
  unchanged : ∀ index ≠ slot tid,
    ((setTaskPriority s tid priority).2.task index).priority = (s.task index).priority
  linked : s.currentTask ≠ some (slot tid) → ∀ queue, ∃ nodes,
    Contents (setTaskPriority s tid priority).2.taskQueues queue nodes ∧
      nodes.count (slot tid) =
        if queue = .states (s.task (slot tid)).state (Priority.ofInt priority) then 1 else 0
  found : getTaskPriority (setTaskPriority s tid priority).2 tid = priority

/-- A refused `SetPriority` is not one that does what it is for. -/
theorem SetsPriority.accepts {s : State} {tid priority : ℤ} (h : SetsPriority s tid priority) :
    setTaskPriority s tid priority ≠ (errSetPriorityInvalidPriority, s) := by
  intro hrefused
  have hresult : errSetPriorityInvalidPriority = returnStatusOk := by
    rw [← h.result, hrefused]
  exact absurd hresult (by decide)

/-- In every state `SetPriority` refuses every priority for every tid and changes nothing. -/
theorem not_setsPriority (s : State) (tid priority : ℤ) :
    setTaskPriority s tid priority = (errSetPriorityInvalidPriority, s) ∧
      ¬SetsPriority s tid priority :=
  ⟨setTaskPriority_eq s tid priority, fun h => h.accepts (setTaskPriority_eq s tid priority)⟩

/-- The second task of a run, which waits for a reply, keeps its low priority. -/
theorem not_setsPriority_of_alive :
    ¬∀ (s : State) (tid priority : ℤ), Reachable kernel (fun _ _ => True) s →
      isTaskAlive s tid = true → Priority.highest.value ≤ priority →
        priority ≤ Priority.low.value → SetsPriority s tid priority := by
  intro hsets
  have hrun : (sampleRun (sampleActions.take 3)).map (fun s =>
      (isTaskAlive s 2, setTaskPriority s 2 1 |>.1)) = some (true, -1) := by decide +kernel
  obtain ⟨s, hsample, hvalues⟩ := Option.map_eq_some_iff.mp hrun
  obtain ⟨halive, hresult⟩ := Prod.mk.inj hvalues
  have hreachable : Reachable kernel (fun _ _ => True) s :=
    reachable_of_rounds hsample fun _ _ _ => trivial
  have h := hsets s 2 1 hreachable halive (by decide) (by decide)
  rw [h.result] at hresult
  exact absurd hresult (by decide)

end Rtk.Kernel
