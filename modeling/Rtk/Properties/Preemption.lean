import Rtk.Invariant.Rounds
import Rtk.Properties.Stack

/-!
# What a task finds when it runs again

Between two activations of a task its descriptor keeps the frame that was saved.  An
interrupted task finds its stack as it was; a task that made a call finds it so but for the
result and for what the call passed.
-/

namespace Rtk.Kernel

open Function
open Rtk.ByteMemory
open Rtk.Lib
open Rtk.Transition

/-! ## Saved frames -/

/-- What is saved of a task outside its stack. -/
structure Frame where
  sp : ℕ
  spsr : Word
  pc : Word
  deriving DecidableEq

def Task.frame (task : Task) : Frame := ⟨task.sp, task.spsr, task.pc⟩

def Trap.frame (trap : Trap) : Frame := ⟨trap.sp, trap.spsr, trap.pc⟩

section Frames

variable {s s' middle : State} {l : Layout} {c index : ℤ} {lists : Lists TaskQueue ℤ}
  {action : Action} {trap : Trap}

/-- What a handler moves keeps its frame, but for a task that it creates. -/
theorem Moved.frame {task : Task} (h : Moved s index action task) (halloc : Allocated s index) :
    task.frame = (s.task index).frame := by
  cases h with
  | created hfree => exact absurd halloc (not_allocated_of_free hfree)
  | same | woken | received | taken | answered => rfl

end Frames

/-! ## One round -/

/-- The bytes that a task passes with a trap: the result of a call, and its buffers. -/
def Action.Passes : Action → ℕ → Prop
  | .call made trap, address => InRange trap.sp 4 address ∨ made.Passes address
  | .interrupt _ _, _ => False

/-- What a round of task `c` does to memory and to the frames of all tasks. -/
structure Switches (s : State) (c : ℤ) (action : Action) (s' : State) : Prop where
  memory : ∀ address, ¬ReachesWaiting s action.call? address → ¬action.Passes address →
    s'.memory address = action.trap.memory address
  saved : (s'.task c).frame = action.trap.frame
  kept : ∀ index, index ≠ c → Allocated s index → (s'.task index).frame = (s.task index).frame
  running : ∀ index, index ≠ c → (s.task index).state.Running →
    (s'.task index).state.Running
  interrupted : action.call? = none → (s'.task c).state.Running

section Round

variable {s s' middle saved : State} {l : Layout} {c : ℤ} {lists : Lists TaskQueue ℤ}
  {action : Action}

end Round

/-! ## From a trap to the next activation -/

/-- Task `c` has not run since the trap of the action. -/
structure Stopped (s : State) (c : ℤ) (action : Action) : Prop where
  inTable : InTable c
  allocated : Allocated s c
  frame : (s.task c).frame = action.trap.frame
  running : action.call? = none → (s.task c).state.Running
  pending : ∀ made, pendingCall s c = some made → action.call? = some made
  memory : ∀ address, OnStack s c address → action.trap.sp ≤ address →
    ¬action.Passes address → s.memory address = action.trap.memory address

section Stopped

variable {s s' : State} {l : Layout} {c : ℤ} {action other : Action} {address : ℕ}

theorem not_awaits_of_running {state : TaskState} (hrunning : state.Running) :
    ¬state.Awaits := by
  rcases hrunning with rfl | rfl <;> simp [TaskState.Awaits]

/-- A round writes on the stack of a task in use only what it answers to that task, or what
it takes. -/
theorem Housed.not_reachesWaiting (h : Housed s) (hindex : InTable c) (halloc : Allocated s c)
    (hon : OnStack s c address)
    (hown : c ≠ s.current → (s.task c).state.Awaits → ¬Exposed s c address)
    (htaken : ¬Takes s action.call? address) : ¬ReachesWaiting s action.call? address := by
  rintro (⟨index, hother, hlive, hne, hawaits, hexposed⟩ | ⟨index, hother, hfree, hstack⟩ |
    htakes)
  · by_cases hsame : index = c
    · subst index
      exact hown hne hawaits hexposed
    · exact h.not_exposed hother hlive hindex (Ne.symm hsame) hon hexposed
  · obtain rfl := eq_of_onStack hindex hother hon (h.onStack_of_stack hother hstack)
    exact hfree halloc
  · exact htaken htakes

/-- A round of another task. -/
theorem Stopped.step (hstopped : Stopped s c action) (h : Housed s) (hkernel : Undestroyed s l)
    (horderly : Orderly s other) (hne : c ≠ s.current)
    (hrounds : Rounds s l.current other s') (hswitches : Switches s l.current other s') :
    Stopped s' c action := by
  have hother : c ≠ l.current := by
    rw [← hkernel.dispatched.current_eq]
    exact hne
  refine ⟨hstopped.inTable, hrounds.lasting c hstopped.allocated, ?_, ?_, ?_, ?_⟩
  · rw [hswitches.kept c hother hstopped.allocated, hstopped.frame]
  · exact fun hnone => hswitches.running c hother (hstopped.running hnone)
  · intro made hpending
    rcases hrounds.pending c made hpending with ⟨_, hbefore⟩ | ⟨rfl, _⟩
    · exact hstopped.pending made hbefore
    · exact absurd rfl hother
  · intro address hon habove hpasses
    rw [onStack_congr hrounds.image] at hon
    have hkept : s'.memory address = other.trap.memory address := by
      apply hswitches.memory address
      · apply h.not_reachesWaiting hstopped.inTable hstopped.allocated hon
        · -- what the kernel answers to the task is the result and the buffers of its call
          rintro - hawaits (hsp | ⟨made, hpending, hmade⟩)
          · cases action with
            | interrupt intrCode trap =>
                exact not_awaits_of_running (hstopped.running rfl) hawaits
            | call made trap =>
                have hframe : (s.task c).sp = trap.sp := congrArg Frame.sp hstopped.frame
                rw [hframe] at hsp
                exact hpasses (.inl hsp)
          · have hcall := hstopped.pending made hpending
            cases action with
            | interrupt intrCode trap => simp [Action.call?] at hcall
            | call waiting trap =>
                obtain rfl := Option.some.inj hcall
                exact hpasses (.inr hmade)
        · intro htakes
          cases hmade : other.call? with
          | none =>
              rw [hmade] at htakes
              exact htakes
          | some made =>
              rw [hmade] at htakes
              exact hne (horderly.taken made hmade address htakes c hstopped.inTable hon).1
      · cases other with
        | interrupt intrCode trap => exact id
        | call made trap =>
            rintro (hword | hmade)
            · have hown := horderly.frame address (inRange_frame hword)
              rw [hkernel.dispatched.current_eq] at hown
              exact hother
                (eq_of_onStack hstopped.inTable hkernel.dispatched.inTable hon hown)
            · exact horderly.passed made rfl c hstopped.inTable hne address hon hmade
    rw [hkept, horderly.memory c hstopped.inTable hne address hon]
    exact hstopped.memory address hon habove hpasses

end Stopped

/-- From `s` the running task makes the action and is next activated in `s'`, while every
step meets `allowed`. -/
structure Resumes (allowed : State → Action → Prop) (s : State) (action : Action)
    (s' : State) : Prop where
  made : allowed s action
  path : ∃ middle, Step s action middle ∧
    Path kernel (fun t other => allowed t other ∧ t.currentTask ≠ s.currentTask) middle s'
  activated : s'.currentTask = s.currentTask

end Rtk.Kernel
