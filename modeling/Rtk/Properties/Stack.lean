import Rtk.Properties.Footprint

/-!
# What a call leaves on the stack of its task

Each task runs on its own stack, so what the kernel writes for one task is nowhere on
the stack of another.  On its own stack a task that waits loses nothing but what its
call passed, unless it receives a queued message from deeper in its stack than it was
at its last trap.
-/

namespace Rtk.Kernel

open Function
open Rtk.ByteMemory
open Rtk.Lib
open Rtk.Lib.QueueHeap
open Rtk.Transition

/-- The bytes of `stacks[index]`. -/
def OnStack (s : State) (index : ℤ) (address : ℕ) : Prop :=
  InRange (s.image.stackArray + index.toNat * stackSizeBytes) stackSizeBytes address

instance (s : State) (index : ℤ) (address : ℕ) : Decidable (OnStack s index address) :=
  inferInstanceAs (Decidable (InRange _ _ _))

/-- The running task keeps to its own stack: its frame is there, and it neither writes
to the stack of another task nor passes a buffer or a record there. -/
structure Apart (s : State) (action : Action) : Prop where
  frame : ∀ address, InRange action.trap.sp (4 * numRegsPopped) address →
    OnStack s s.current address
  memory : ∀ index, InTable index → index ≠ s.current → ∀ address,
    OnStack s index address → action.trap.memory address = s.memory address
  passed : ∀ call, action.call? = some call → ∀ index, InTable index →
    index ≠ s.current → ∀ address, OnStack s index address → ¬call.Passes address

/-- The running task keeps to its own stack and destroys nothing, its lengths are
nonnegative, and a `Receive` of a queued message takes nothing from a stack but what
is its own: what it passed, and what is below the registers of its frame. -/
structure Orderly (s : State) (action : Action) : Prop extends Apart s action where
  noDestroy : NoDestroy s action
  counted : ∀ call, action.call? = some call → Counted s call
  taken : ∀ call, action.call? = some call → ∀ address, Takes s (some call) address →
    ∀ index, InTable index → OnStack s index address →
      index = s.current ∧ (action.trap.sp + 4 ≤ address → call.Passes address)

/-- Every task in use has its frame on its own stack, and waits in a call that passed
nothing on the stack of another. -/
structure Housed (s : State) : Prop where
  stack : ∀ {index}, InTable index →
    (s.task index).stack = s.image.stackArray + index.toNat * stackSizeBytes
  frame : ∀ {index}, InTable index → Allocated s index →
    ∀ address, InRange (s.task index).sp (4 * numRegsPopped) address →
      OnStack s index address
  pending : ∀ {index call}, pendingCall s index = some call → ∀ other, InTable other →
    other ≠ index → ∀ address, OnStack s other address → ¬call.Passes address

section Stacks

variable {s s' : State} {l : Layout} {index other : ℤ} {address : ℕ} {action : Action}

theorem eq_of_onStack (hindex : InTable index) (hother : InTable other)
    (hon : OnStack s index address) (honOther : OnStack s other address) :
    index = other := by
  simp only [OnStack, InRange, InTable, stackSizeBytes, maxTasks] at *
  omega

theorem onStack_congr (himage : s'.image = s.image) :
    OnStack s' index address ↔ OnStack s index address := by
  rw [OnStack, OnStack, himage]

/-- The first word of a frame is part of it. -/
theorem inRange_frame {sp : ℕ} (hword : InRange sp 4 address) :
    InRange sp (4 * numRegsPopped) address := by
  simp only [InRange, numRegsPopped] at *
  omega

/-- The initial frame is at the top of the stack. -/
theorem inRange_initial {stack : ℕ}
    (hframe : InRange (stack + (stackSizeBytes - 4 * numRegsPopped))
      (4 * numRegsPopped) address) : InRange stack stackSizeBytes address := by
  simp only [InRange, stackSizeBytes, numRegsPopped] at *
  omega

theorem Housed.onStack_of_stack (h : Housed s) (hindex : InTable index)
    (hstack : InRange (s.task index).stack stackSizeBytes address) :
    OnStack s index address := by
  rwa [h.stack hindex] at hstack

/-- What is exposed for one task is on the stack of no other. -/
theorem Housed.not_exposed (h : Housed s) (hindex : InTable index)
    (halloc : Allocated s index) (hother : InTable other) (hne : other ≠ index)
    (hon : OnStack s other address) : ¬Exposed s index address := by
  rintro (hsp | ⟨call, hpending, hpasses⟩)
  · have hown := h.frame hindex halloc address (inRange_frame hsp)
    exact hne (eq_of_onStack hother hindex hon hown)
  · exact h.pending hpending other hother hne address hon hpasses

/-- A round that takes nothing from a byte on the stack of a task in use, and is not
waited for there by the task itself, leaves it alone. -/
theorem Housed.not_reaches (h : Housed s) (hindex : InTable index)
    (halloc : Allocated s index) (hon : OnStack s index address)
    (hown : index ≠ s.current → ¬Exposed s index address)
    (htaken : ¬Takes s action.call? address) :
    ¬Reaches s action.call? address := by
  rintro (⟨other, hother, hlive, hne, hexposed⟩ | ⟨other, hother, hfree, hstack⟩ | htakes)
  · by_cases hsame : other = index
    · subst other
      exact hown hne hexposed
    · exact h.not_exposed hother hlive hindex (Ne.symm hsame) hon hexposed
  · obtain rfl := eq_of_onStack hindex hother hon (h.onStack_of_stack hother hstack)
    exact hfree halloc
  · exact htaken htakes

/-- A round in which the running task keeps to its own stack keeps every task on its
own. -/
theorem Housed.step (h : Housed s) (hcurrent : s.current = l.current)
    (hrounds : Rounds s l.current action s') (hapart : Apart s action) : Housed s' where
  stack hindex := by
    rw [hrounds.stack, hrounds.image]
    exact h.stack hindex
  frame := by
    intro index hindex hlive address hframe
    rw [onStack_congr hrounds.image]
    by_cases hne : index = l.current
    · subst index
      rw [hrounds.running] at hframe
      rw [← hcurrent]
      exact hapart.frame address hframe
    · by_cases hold : Allocated s index
      · rw [hrounds.waiting index hne hold] at hframe
        exact h.frame hindex hold address hframe
      · rw [hrounds.fresh index hne hold hlive] at hframe
        exact h.onStack_of_stack hindex (inRange_initial hframe)
  pending := by
    intro index call hpending other hother hne address hon
    rw [onStack_congr hrounds.image] at hon
    rcases hrounds.pending index call hpending with ⟨_, hbefore⟩ | ⟨rfl, hmade⟩
    · exact h.pending hbefore other hother hne address hon
    · rw [← hcurrent] at hne
      exact hapart.passed call hmade other hother hne address hon

end Stacks

/-! ## Boot -/

section Boot

variable {s s' : State} {within : ℕ → Prop}

theorem Housed.confined (h : Housed s) (hconfined : Confined s within s')
    (hpending : ∀ index call, pendingCall s' index = some call →
      pendingCall s index = some call) : Housed s' where
  stack hindex := by
    rw [hconfined.stack, hconfined.image]
    exact h.stack hindex
  frame := by
    intro index hindex hlive address hframe
    rw [onStack_congr hconfined.image]
    by_cases hold : Allocated s index
    · rw [hconfined.sp index hold] at hframe
      exact h.frame hindex hold address hframe
    · rw [hconfined.fresh index hold hlive] at hframe
      exact h.onStack_of_stack hindex (inRange_initial hframe)
  pending := by
    intro index call hbefore other hother hne address hon
    rw [onStack_congr hconfined.image] at hon
    exact h.pending (hpending index call hbefore) other hother hne address hon

theorem Housed.created (h : Housed s) {index : ℤ} (hindex : InTable index)
    (hfree : ¬Allocated s index) (priority : Priority) (code : Word) :
    Housed (created s index priority code) := by
  apply h.confined (confined_created hindex hfree none priority code)
  intro other call hpending
  by_cases hother : other = index
  · subst other
    rw [pendingCall_of_not_exchanging] at hpending
    · simp at hpending
    · rw [task_created_self]
      exact (by decide : ¬TaskState.ready.Exchanging)
  · rw [pendingCall_created_of_ne priority code hother] at hpending
    exact hpending

theorem housed_tableState (image : Image) (memory : Memory) :
    Housed (tableState image memory) where
  stack hindex := by
    rw [task_tableState image memory hindex]
    rfl
  frame hindex halloc := absurd halloc (not_allocated_tableState image memory hindex)
  pending := by
    intro index call hpending
    rw [pendingCall_of_not_exchanging] at hpending
    · simp at hpending
    · have htask : (tableState image memory).task index = initialTask image 1024 index := rfl
      rw [htask, initialTask]
      split_ifs <;> simp [Task.zero, TaskState.Exchanging]

theorem housed_launchedState (image : Image) (memory : Memory) :
    Housed (launchedState image memory) := by
  have hzero := (prepared_tableState image memory).partition.state_free
    (by rw [available_initialLists]; exact List.mem_cons_self : (0 : ℤ) ∈ _)
  have hone := (prepared_nullState image memory).partition.state_free
    (by rw [available_nullLists]; exact List.mem_cons_self : (1 : ℤ) ∈ _)
  apply Housed.created _ hone.1 (not_allocated_of_free hone.2)
  exact (housed_tableState image memory).created hzero.1 (not_allocated_of_free hzero.2) _ _

theorem Booted.housed (hbooted : Booted s) : Housed s := by
  obtain ⟨image, memory, now, hactivate⟩ := hbooted
  have hprepared := prepared_launchedState image memory
  have hidle : Idle (launchedState image memory) launchedLists :=
    ⟨hprepared.partition, hprepared.named⟩
  obtain ⟨queues, heq, _⟩ := hidle.exists_activateNext now firstOf_launchedLists
  rw [rtkLaunch_eq, scheduleAndActivate, scheduleCurrent, hprepared.currentTask, heq,
    Option.some.injEq] at hactivate
  subst hactivate
  obtain ⟨_, _, hmem⟩ := exists_of_firstOf firstOf_launchedLists
  have hquiet := quiet_activatedState now queues (hidle.ready hmem).2
  have hrecords : Records (launchedState image memory) []
      (activatedState (launchedState image memory) 1 now queues) :=
    .of_update rfl rfl rfl rfl rfl rfl
  have hconfined : Confined (launchedState image memory) (fun _ => False)
      (activatedState (launchedState image memory) 1 now queues) :=
    .of_records hrecords (by simp) fun index => (hquiet.keeps.allocated_iff index).mp
  exact (housed_launchedState image memory).confined hconfined
    fun index call => hquiet.pendingCall

end Boot

/-- The state between two rounds of a run in which every round is orderly. -/
theorem housed_of_reachable {s : State} (hreachable : Reachable kernel Orderly s) :
    (∃ l, Undestroyed s l) ∧ Housed s := by
  apply hreachable.invariant
  · exact fun s hbooted => ⟨hbooted.undestroyed, hbooted.housed⟩
  · rintro s action s' ⟨⟨l, h⟩, hhoused⟩ horderly hstep
    have hrounds := h.rounds horderly.noDestroy horderly.counted hstep
    exact ⟨h.step horderly.noDestroy hstep,
      hhoused.step h.dispatched.current_eq hrounds horderly.toApart⟩

/-! ## From a call to the next activation -/

/-- Task `c` waits for its call to return: the frame, what is above it and what the
call passed are as they were at the call. -/
structure Suspended (s : State) (c : ℤ) (call : Call) (trap : Trap) : Prop where
  inTable : InTable c
  allocated : Allocated s c
  sp : (s.task c).sp = trap.sp
  pending : ∀ made, pendingCall s c = some made → made = call
  memory : ∀ address, OnStack s c address → trap.sp + 4 ≤ address →
    ¬call.Passes address → s.memory address = trap.memory address

section Suspended

variable {s s' : State} {l : Layout} {call : Call} {trap : Trap} {action : Action} {c : ℤ}

/-- The round in which the call is made. -/
theorem Housed.suspended (h : Housed s) (hkernel : Undestroyed s l)
    (horderly : Orderly s (.call call trap))
    (hrounds : Rounds s l.current (.call call trap) s') :
    Suspended s' l.current call trap where
  inTable := hkernel.dispatched.inTable
  allocated := hrounds.lasting _ hkernel.dispatched.allocated
  sp := hrounds.running
  pending := by
    intro made hpending
    rcases hrounds.pending _ made hpending with ⟨hne, _⟩ | ⟨_, hmade⟩
    · exact absurd rfl hne
    · exact (Option.some.inj hmade).symm
  memory := by
    intro address hon habove hpasses
    rw [onStack_congr hrounds.image] at hon
    have hindex := hkernel.dispatched.inTable
    apply hrounds.memory address
    · apply h.not_reaches hindex hkernel.dispatched.allocated hon
      · exact fun hne => absurd hkernel.dispatched.current_eq.symm hne
      · intro htakes
        exact hpasses ((horderly.taken call rfl address htakes _ hindex hon).2 habove)
    · intro hword
      have hend : address < trap.sp + 4 := hword.2
      omega

/-- A round of another task. -/
theorem Suspended.step (hsuspended : Suspended s c call trap) (h : Housed s)
    (hkernel : Undestroyed s l) (horderly : Orderly s action) (hne : c ≠ s.current)
    (hrounds : Rounds s l.current action s') : Suspended s' c call trap := by
  have hother : c ≠ l.current := by
    rw [← hkernel.dispatched.current_eq]
    exact hne
  refine ⟨hsuspended.inTable, hrounds.lasting c hsuspended.allocated, ?_, ?_, ?_⟩
  · rw [hrounds.waiting c hother hsuspended.allocated, hsuspended.sp]
  · intro made hpending
    rcases hrounds.pending c made hpending with ⟨_, hbefore⟩ | ⟨rfl, _⟩
    · exact hsuspended.pending made hbefore
    · exact absurd rfl hother
  · intro address hon habove hpasses
    rw [onStack_congr hrounds.image] at hon
    have hkept : s'.memory address = action.trap.memory address := by
      apply hrounds.memory address
      · apply h.not_reaches hsuspended.inTable hsuspended.allocated hon
        · rintro - (hsp | ⟨made, hpending, hmade⟩)
          · rw [hsuspended.sp] at hsp
            have hend : address < trap.sp + 4 := hsp.2
            omega
          · rw [hsuspended.pending made hpending] at hmade
            exact hpasses hmade
        · intro htakes
          cases hmade : action.call? with
          | none =>
              rw [hmade] at htakes
              exact htakes
          | some made =>
              rw [hmade] at htakes
              exact hne (horderly.taken made hmade address htakes c hsuspended.inTable hon).1
      · intro hword
        have hown := horderly.frame address (inRange_frame hword)
        rw [hkernel.dispatched.current_eq] at hown
        exact hother (eq_of_onStack hsuspended.inTable hkernel.dispatched.inTable hon hown)
    rw [hkept, horderly.memory c hsuspended.inTable hne address hon]
    exact hsuspended.memory address hon habove hpasses

end Suspended

/-- The calls of message passing, and waiting for an event. -/
def Call.Suspends : Call → Prop
  | .send _ _ _ _ _ => True
  | .receive _ _ _ => True
  | .reply _ _ _ => True
  | .awaitEvent _ => True
  | _ => False

/-- From `s` the running task makes the call and is next activated in `s'`, while every
step meets `allowed`. -/
structure Returns (allowed : State → Action → Prop) (s : State) (call : Call)
    (trap : Trap) (s' : State) : Prop where
  suspends : call.Suspends
  made : allowed s (.call call trap)
  path : ∃ middle, Step s (.call call trap) middle ∧
    Path kernel (fun t action => allowed t action ∧ t.currentTask ≠ s.currentTask)
      middle s'
  activated : s'.currentTask = s.currentTask

/-- The frame of the call but for the return value, and the stack above it, are as they
were at the call, except for what the call passed. -/
structure Preserves (s : State) (call : Call) (trap : Trap) (s' : State) : Prop where
  sp : (s'.task s.current).sp = trap.sp
  memory : ∀ address, OnStack s s.current address → trap.sp + 4 ≤ address →
    ¬call.Passes address → s'.memory address = trap.memory address

/-- In runs in which every round is orderly, a task finds its stack as it left it. -/
theorem preserves_of_returns {s s' : State} {call : Call} {trap : Trap}
    (hreachable : Reachable kernel Orderly s)
    (hreturns : Returns Orderly s call trap s') : Preserves s call trap s' := by
  obtain ⟨⟨l, h⟩, hhoused⟩ := housed_of_reachable hreachable
  obtain ⟨middle, hstep, hpath⟩ := hreturns.path
  have horderly := hreturns.made
  have hrounds := h.rounds horderly.noDestroy horderly.counted hstep
  have hcurrent := h.dispatched.current_eq
  have hstart : (∃ l', Undestroyed middle l') ∧ Housed middle ∧
      Suspended middle l.current call trap ∧ middle.image = s.image :=
    ⟨h.step horderly.noDestroy hstep, hhoused.step hcurrent hrounds horderly.toApart,
      hhoused.suspended h horderly hrounds, hrounds.image⟩
  -- the induction is on the rounds of the other tasks
  have hend : (∃ l', Undestroyed s' l') ∧ Housed s' ∧
      Suspended s' l.current call trap ∧ s'.image = s.image := by
    apply hpath.preserves _ hstart
    rintro t action t' ⟨⟨l', h'⟩, hhoused', hsuspended, himage⟩ ⟨horderly', hother⟩ hstep'
    have hrounds' := h'.rounds horderly'.noDestroy horderly'.counted hstep'
    have hne : l.current ≠ t.current := by
      intro heq
      apply hother
      rw [h'.dispatched.current_eq] at heq
      rw [h'.dispatched.current, h.dispatched.current, heq]
    exact ⟨h'.step horderly'.noDestroy hstep',
      hhoused'.step h'.dispatched.current_eq hrounds' horderly'.toApart,
      hsuspended.step hhoused' h' horderly' hne hrounds', hrounds'.image.trans himage⟩
  obtain ⟨_, _, hsuspended, himage⟩ := hend
  rw [← hcurrent] at hsuspended
  refine ⟨hsuspended.sp, fun address hon => hsuspended.memory address ?_⟩
  rwa [onStack_congr himage]

/-! ## Computed runs -/

/-- The trap of a task that has left memory as the kernel did. -/
def Action.over (memory : Memory) : Action → Action
  | .call made trap => .call made { trap with memory := memory }
  | .interrupt intrCode trap => .interrupt intrCode { trap with memory := memory }

/-- What a call passes ends below `limit`. -/
def Call.below (limit : ℕ) : Call → Bool
  | .send _ _ _ buffer size => buffer + size.toInt.toNat ≤ limit
  | .receive tid msg msglen => tid + 4 ≤ limit && msg + msglen.toInt.toNat ≤ limit
  | .getTaskStats _ container => container + taskStatsSizeBytes ≤ limit
  | .getTasksStats container => container + tasksStatsSizeBytes ≤ limit
  | _ => true

/-- The frame of the running task is on its stack, and what it passes is below all
stacks. -/
def Settled (s : State) (action : Action) : Prop :=
  s.image.stackArray + s.current.toNat * stackSizeBytes ≤ action.trap.sp ∧
    action.trap.sp + 4 * numRegsPopped ≤
      s.image.stackArray + s.current.toNat * stackSizeBytes + stackSizeBytes ∧
    (action.call?.all fun call => call.below s.image.stackArray)

instance (s : State) (action : Action) : Decidable (Settled s action) :=
  inferInstanceAs (Decidable (_ ∧ _ ∧ _))

theorem not_passes_of_below {call : Call} {limit address : ℕ} (hbelow : call.below limit)
    (haddress : limit ≤ address) : ¬call.Passes address := by
  cases call with
  | send tid msg msglen reply replylen =>
      simp only [Call.below, decide_eq_true_eq] at hbelow
      simp only [Call.Passes, InBuffer, InRange]
      omega
  | receive tid msg msglen =>
      simp only [Call.below, Bool.and_eq_true, decide_eq_true_eq] at hbelow
      simp only [Call.Passes, InBuffer, InRange]
      omega
  | getTaskStats tid container =>
      simp only [Call.below, decide_eq_true_eq] at hbelow
      simp only [Call.Passes, InRange]
      omega
  | getTasksStats container =>
      simp only [Call.below, decide_eq_true_eq] at hbelow
      simp only [Call.Passes, InRange]
      omega
  | _ => exact id

theorem apart_of_settled {s : State} {action : Action} (hsettled : Settled s action) :
    Apart s (action.over s.memory) := by
  have htrap : (action.over s.memory).trap.sp = action.trap.sp := by
    cases action <;> rfl
  have hmemory : (action.over s.memory).trap.memory = s.memory := by
    cases action <;> rfl
  have hcall : (action.over s.memory).call? = action.call? := by
    cases action <;> rfl
  obtain ⟨hstart, hend, hbelow⟩ := hsettled
  refine ⟨?_, ?_, ?_⟩
  · intro address hframe
    rw [htrap] at hframe
    have hfirst := hframe.1
    have hlast := hframe.2
    constructor <;> omega
  · intro index _ _ address _
    rw [hmemory]
  · intro call hmade index _ _ address hon
    rw [hcall] at hmade
    rw [hmade, Option.all_some] at hbelow
    exact not_passes_of_below hbelow (Nat.le_trans (Nat.le_add_right _ _) hon.1)

/-- The rounds of settled actions in which the tasks leave memory alone. -/
def settledRounds (fuel : ℕ) (s : State) : List Action → Option State
  | [] => some s
  | action :: actions =>
      if Settled s action then
        (step s fuel (action.over s.memory)).bind fun s => settledRounds fuel s actions
      else none

/-- Each task keeps to its own stack, and none is destroyed. -/
def ApartNoDestroy (s : State) (action : Action) : Prop :=
  Apart s action ∧ NoDestroy s action

theorem path_of_settledRounds {fuel : ℕ} {s s' : State} {actions : List Action}
    (hrounds : settledRounds fuel s actions = some s')
    (hno : ∀ action ∈ actions, ∀ s, NoDestroy s action) :
    Path kernel ApartNoDestroy s s' := by
  induction actions generalizing s with
  | nil =>
      rw [settledRounds, Option.some.injEq] at hrounds
      subst hrounds
      exact .refl s
  | cons action actions ih =>
      rw [settledRounds] at hrounds
      split_ifs at hrounds with hsettled
      obtain ⟨middle, hstep, hrest⟩ := Option.bind_eq_some_iff.mp hrounds
      have hnoDestroy : NoDestroy s (action.over s.memory) := by
        have hfirst := hno action (by simp) s
        cases action with
        | interrupt intrCode trap => exact hfirst
        | call call trap => cases call <;> exact hfirst
      have hfirst : Path kernel ApartNoDestroy s middle :=
        .tail (.refl s) ⟨apart_of_settled hsettled, hnoDestroy⟩ ⟨fuel, hstep⟩
      exact hfirst.trans (ih hrest fun other hother => hno other (by simp [hother]))

/-- The first task waits for an event, and an interrupt of the null task wakes it. -/
theorem preserves_sample :
    ∃ s middle s', firstActivation sampleImage (fun _ => 0) 0 = some s ∧
      step s 8 ((Action.call (.awaitEvent 0x20) (sampleTrap 0x103f00)).over s.memory) =
        some middle ∧
      step middle 8 ((Action.interrupt (-5) (sampleTrap 0x101f00)).over middle.memory) =
        some s' ∧
      Preserves s (.awaitEvent 0x20) { sampleTrap 0x103f00 with memory := s.memory } s' := by
  have hobserved : (firstActivation sampleImage (fun _ => 0) 0).bind (fun s =>
      (step s 8 ((Action.call (.awaitEvent 0x20) (sampleTrap 0x103f00)).over s.memory)).bind
        fun middle =>
          (step middle 8 ((Action.interrupt (-5) (sampleTrap 0x101f00)).over
            middle.memory)).map fun s' =>
              decide (s.currentTask = some 1 ∧ middle.currentTask = some 0 ∧
                s'.currentTask = some 1 ∧
                Settled s (.call (.awaitEvent 0x20) (sampleTrap 0x103f00)) ∧
                Settled middle (.interrupt (-5) (sampleTrap 0x101f00)))) = some true := by
    decide +kernel
  obtain ⟨s, hfirst, hobserved⟩ := Option.bind_eq_some_iff.mp hobserved
  obtain ⟨middle, s', hcall, hwoken, hvalues⟩ := exists_observed hobserved
  rw [decide_eq_true_eq] at hvalues
  obtain ⟨hone, hzero, hagain, hsettled, hsettled'⟩ := hvalues
  have hreachable : Reachable kernel Orderly s :=
    .initial (booted_of_firstActivation hfirst)
  have hmade : Orderly s
      ((Action.call (.awaitEvent 0x20) (sampleTrap 0x103f00)).over s.memory) := by
    refine ⟨apart_of_settled hsettled, trivial, ?_, ?_⟩
    · rintro call ⟨⟩
      trivial
    · rintro call ⟨⟩ address htakes
      exact htakes.elim
  have hinterrupted : Orderly middle
      ((Action.interrupt (-5) (sampleTrap 0x101f00)).over middle.memory) :=
    ⟨apart_of_settled hsettled', trivial, nofun, nofun⟩
  have hreturns : Returns Orderly s (.awaitEvent 0x20)
      { sampleTrap 0x103f00 with memory := s.memory } s' := by
    have hother : middle.currentTask ≠ s.currentTask := by
      rw [hzero, hone]
      decide
    exact ⟨trivial, hmade,
      ⟨middle, ⟨8, hcall⟩, .tail (.refl middle) ⟨hinterrupted, hother⟩ ⟨8, hwoken⟩⟩,
      hagain.trans hone.symm⟩
  exact ⟨s, middle, s', hfirst, hcall, hwoken, preserves_of_returns hreachable hreturns⟩

/-- The first task creates a second one, which sends it a message. -/
def samplePosted : List Action :=
  [.call (.create 3 0x9000) (sampleTrap 0x103f00),
    .call (.send 1 0x200 5 0x300 6) (sampleTrap 0x105f00)]

/-- A `Receive` from deeper in the stack than the `Create` before it loses a word of the
stack between the two. -/
theorem not_preserves_of_returns :
    ¬∀ (s s' : State) (call : Call) (trap : Trap), Reachable kernel ApartNoDestroy s →
      Returns ApartNoDestroy s call trap s' → Preserves s call trap s' := by
  intro hclaim
  have hobserved : (firstActivation sampleImage (fun _ => 0) 0).bind (fun start =>
      (settledRounds 8 start samplePosted).bind fun s =>
        (step s 8 ((Action.call (.receive 0x400 0x500 9) (sampleTrap 0x103e00)).over
          s.memory)).map fun s' =>
            decide (s.currentTask = some 1 ∧ s'.currentTask = some 1 ∧
              Settled s (.call (.receive 0x400 0x500 9) (sampleTrap 0x103e00)) ∧
              OnStack s s.current 0x103f00 ∧
              s'.memory 0x103f00 ≠ s.memory 0x103f00)) = some true := by
    decide +kernel
  obtain ⟨start, hfirst, hobserved⟩ := Option.bind_eq_some_iff.mp hobserved
  obtain ⟨s, s', hrounds, hstep, hvalues⟩ := exists_observed hobserved
  rw [decide_eq_true_eq] at hvalues
  obtain ⟨hone, hagain, hsettled, hon, hlost⟩ := hvalues
  have hreachable : Reachable kernel ApartNoDestroy s := by
    refine ⟨start, booted_of_firstActivation hfirst, path_of_settledRounds hrounds ?_⟩
    simp [samplePosted, NoDestroy]
  have hreturns : Returns ApartNoDestroy s (.receive 0x400 0x500 9)
      { sampleTrap 0x103e00 with memory := s.memory } s' :=
    ⟨trivial, ⟨apart_of_settled hsettled, trivial⟩, ⟨s', ⟨8, hstep⟩, .refl s'⟩,
      hagain.trans hone.symm⟩
  have hpreserves := hclaim s s' _ _ hreachable hreturns
  apply hlost
  apply hpreserves.memory 0x103f00 hon
  · exact (by decide : 0x103e00 + 4 ≤ 0x103f00)
  · exact not_passes_of_below (by decide : Call.below 0x1000 _) (by decide)

end Rtk.Kernel
