import Rtk.Invariant.Waiting
import Rtk.Invariant.Waking
import Rtk.Properties.Copies
import Rtk.Properties.TasksStats

/-!
# Where a round writes

A round writes for the tasks that wait, on the stack of a task that it creates, and
into the frame of the running task.  A `Receive` of a queued message also writes what
it takes, with the stack pointer that was saved at the last trap, and the calls for
statistics fill the record of the caller.
-/

namespace Rtk.Kernel

open Function
open Rtk.ByteMemory
open Rtk.Lib
open Rtk.Lib.QueueHeap

/-! ## What a handler writes -/

/-- The bytes of a buffer; a negative size counts as zero. -/
def InBuffer (start : ℕ) (size : Word) (address : ℕ) : Prop :=
  start ≠ nullAddress ∧ InRange start size.toInt.toNat address

/-- The bytes that a call passes to be written. -/
def Call.Passes : Call → ℕ → Prop
  | .send _ _ _ buffer size, address => InBuffer buffer size address
  | .receive tid msg msglen, address => InRange tid 4 address ∨ InBuffer msg msglen address
  | .getTaskStats _ container, address => InRange container taskStatsSizeBytes address
  | .getTasksStats container, address => InRange container tasksStatsSizeBytes address
  | _, _ => False

/-- The bytes that the kernel may write for a task until it runs again: the word at
its saved stack pointer and what its pending call passed. -/
def Exposed (s : State) (index : ℤ) (address : ℕ) : Prop :=
  InRange (s.task index).sp 4 address ∨
    ∃ call, pendingCall s index = some call ∧ call.Passes address

/-- The bytes that a call writes for its own task.  A `Receive` of a queued message
writes the word at the stack pointer saved before it, and what the pointers in the oldest
node say; the calls for statistics write their record. -/
def Takes (s : State) : Option Call → ℕ → Prop
  | some (.receive tid msg msglen), address =>
      ∃ oldest rest, Contents s.msgQueues s.current (oldest :: rest) ∧
        (InRange (s.task s.current).sp 4 address ∨
          (takenNode s oldest rest tid msg msglen).receiveCall.Passes address)
  | some (.getTaskStats tid container), address => (Call.getTaskStats tid container).Passes address
  | some (.getTasksStats container), address => (Call.getTasksStats container).Passes address
  | _, _ => False

/-- Where the handler of a call or an interrupt may write: for a task that waits, on
the stack of a task that it creates, and what it takes. -/
def Reaches (s : State) (call : Option Call) (address : ℕ) : Prop :=
  (∃ index, InTable index ∧ Allocated s index ∧ index ≠ s.current ∧
      Exposed s index address) ∨
    (∃ index, InTable index ∧ ¬Allocated s index ∧
      InRange (s.task index).stack stackSizeBytes address) ∨
    Takes s call address

/-- The task waits for a message, for a reply or for an event. -/
def TaskState.Awaits (state : TaskState) : Prop :=
  state = .sendBlocked ∨ state = .replyBlocked ∨ state = .eventBlocked

/-- Where the handler of a call or an interrupt may write: of the tasks in use, only for one
that waits for more than to run. -/
def ReachesWaiting (s : State) (call : Option Call) (address : ℕ) : Prop :=
  (∃ index, InTable index ∧ Allocated s index ∧ index ≠ s.current ∧
      (s.task index).state.Awaits ∧ Exposed s index address) ∨
    (∃ index, InTable index ∧ ¬Allocated s index ∧
      InRange (s.task index).stack stackSizeBytes address) ∨
    Takes s call address

theorem ReachesWaiting.reaches {s : State} {call : Option Call} {address : ℕ}
    (h : ReachesWaiting s call address) : Reaches s call address := by
  rcases h with ⟨index, hindex, hlive, hne, _, hexposed⟩ | hrest
  · exact .inl ⟨index, hindex, hlive, hne, hexposed⟩
  · exact .inr hrest

/-- The lengths that a call uses are nonnegative, or it makes no copy. -/
def Counted (s : State) : Call → Prop
  | .receive tid msg msglen =>
      ∀ oldest rest, Contents s.msgQueues s.current (oldest :: rest) →
        Fits (takenNode s oldest rest tid msg msglen).receiveBuffer
          (s.node oldest).msgBuffer
          (takenNode s oldest rest tid msg msglen).receiveBufferSize
          (s.node oldest).msgBufferSize
          (takenNode s oldest rest tid msg msglen).receiveBufferSize
  | call => Measured s call

section Reaches

variable {s s' : State} {l : Layout} {address : ℕ} {event : Event}

theorem inBuffer_of_copied {dest src : ℕ} {size length : Word}
    (hfits : Fits dest src size length size)
    (hevent : event ∈ copyEvents dest src (min size length).toNat)
    (htouches : event.Touches address) : InBuffer dest size address := by
  have hwithin := (copyEvents_within_iff dest src size length size).mpr hfits
  rw [copyEvents] at hevent hwithin
  split_ifs at hevent with hmade
  · rw [if_pos hmade] at hwithin
    rw [List.mem_singleton] at hevent
    subst hevent
    obtain ⟨hsize, _⟩ := hwithin dest src _ (List.mem_singleton_self _)
    have hrange : InRange dest (min size length).toNat address := htouches
    refine ⟨hmade.1, hrange.1, ?_⟩
    have hlt := hrange.2
    omega
  · simp at hevent

theorem touches_returnEvents {tid ret : ℤ} (hevent : event ∈ returnEvents s tid ret)
    (htouches : event.Touches address) : InRange (s.task (slot tid)).sp 4 address := by
  rw [returnEvents] at hevent
  split_ifs at hevent
  · rw [List.mem_singleton] at hevent
    subst hevent
    exact htouches
  · simp at hevent

/-- The stores of a rendezvous go where the pointers in the node say, and to the
stack pointer of the receiver. -/
theorem touches_completeEvents {tid : ℤ} {n : MsgQueueNode}
    (hfits : Fits n.receiveBuffer n.msgBuffer n.receiveBufferSize n.msgBufferSize
      n.receiveBufferSize)
    (hevent : event ∈ completeEvents s tid n) (htouches : event.Touches address) :
    n.receiveCall.Passes address ∨ InRange (s.task (slot n.toTid)).sp 4 address := by
  rw [completeEvents, deliveryEvents, List.mem_cons, List.cons_append, List.mem_cons,
    List.mem_append] at hevent
  rcases hevent with rfl | rfl | hcopy | hreturn
  · exact htouches.elim
  · exact .inl (.inl htouches)
  · exact .inl (.inr (inBuffer_of_copied hfits hcopy htouches))
  · exact .inr (touches_returnEvents hreturn htouches)

/-- A `Send` writes for the task that waits for it. -/
theorem Coherent.reaches_send (h : Coherent s l)
    (hunlinked : ∀ queue, l.current ∉ l.queues queue) (uninit : MsgQueueNode) {tid : ℤ}
    {msg : ℕ} {msglen : Word} {reply : ℕ} {replylen : Word}
    (hcounted : Counted s (.send tid msg msglen reply replylen)) :
    ∃ events,
      Records s events (sendProxy s uninit tid msg msglen reply replylen).2 ∧
      ∀ event ∈ events, ∀ address, event.Touches address →
        ReachesWaiting s (some (.send tid msg msglen reply replylen)) address := by
  refine ⟨_, h.records_sendProxy (fun _ => hunlinked) uninit msg msglen reply replylen, ?_⟩
  intro event hevent address htouches
  have hto : (sendNode uninit (s.task l.current).tid tid msg msglen reply
      replylen).toTid = tid := rfl
  rw [sendEvents, hto] at hevent
  by_cases hwaits : isTaskAlive s tid ∧ (s.task (slot tid)).state = .sendBlocked
  · obtain ⟨halive, hwaits⟩ := hwaits
    rw [if_pos halive, if_pos hwaits, List.mem_cons] at hevent
    rcases hevent with rfl | hevent
    · exact htouches.elim
    · have hne := h.ne_current hwaits
      rw [← h.dispatched.current_eq] at hne
      have hslot := inTable_slot (nonneg_of_alive halive)
      have hpending : pendingCall s (slot tid) = some (s.node (slot tid)).receiveCall := by
        rw [pendingCall, hwaits]
      have hlive := allocated_of_alive halive
      have hawaits : (s.task (slot tid)).state.Awaits := .inl hwaits
      rcases touches_completeEvents (hcounted halive hwaits) hevent htouches with
        hpasses | hsp
      · exact .inl ⟨slot tid, hslot, hlive, hne, hawaits, .inr ⟨_, hpending, hpasses⟩⟩
      · exact .inl ⟨slot tid, hslot, hlive, hne, hawaits, .inl hsp⟩
  · have hnone : ¬event.Touches address := by
      split_ifs at hevent with halive hblocked
      · exact absurd ⟨halive, hblocked⟩ hwaits
      · rw [List.mem_singleton] at hevent
        subst hevent
        exact id
      · simp at hevent
    exact absurd htouches hnone

/-- A `Receive` of a queued message writes what it takes. -/
theorem Coherent.reaches_receive (h : Coherent s l) (uninit : MsgQueueNode)
    (links : QueueNode ℤ) {tid msg : ℕ} {msglen : Word}
    (hcounted : Counted s (.receive tid msg msglen)) :
    ∃ events, Records s events (receiveProxy s uninit links tid msg msglen).2 ∧
      ∀ event ∈ events, ∀ address, event.Touches address →
        ReachesWaiting s (some (.receive tid msg msglen)) address := by
  have hcontents := h.messages.represents.contents l.current
  cases hqueue : l.queues l.current with
  | nil =>
      rw [h.dispatched.receiveProxy_of_empty h.messages.represents hqueue]
      refine ⟨_, records_waitingReceive s l.current _ links, ?_⟩
      intro event hevent address htouches
      rw [List.mem_singleton] at hevent
      subst hevent
      exact htouches.elim
  | cons oldest rest =>
      rw [hqueue, ← h.dispatched.current_eq] at hcontents
      refine ⟨_, h.records_receiveProxy hqueue uninit links tid msg msglen, ?_⟩
      intro event hevent address htouches
      obtain ⟨_, hto, hbuffer, hsize⟩ :=
        fields_of_message (message_takenNode s oldest rest tid msg msglen)
      have hfits := hcounted oldest rest hcontents
      rw [← hbuffer, ← hsize] at hfits
      have hmem : oldest ∈ l.queues l.current := by simp [hqueue]
      right
      right
      refine ⟨oldest, rest, hcontents, ?_⟩
      rcases touches_completeEvents hfits hevent htouches with hpasses | hsp
      · exact .inr hpasses
      · rw [hto, (h.messages.linked hmem).slot_to, ← h.dispatched.current_eq] at hsp
        exact .inl hsp

/-- A `Reply` writes for the task that waits for it. -/
theorem Coherent.reaches_reply (h : Coherent s l) {tid : ℤ} {reply : ℕ}
    {replylen : Word} (hcounted : Counted s (.reply tid reply replylen)) :
    ∃ events, Records s events (replyProxy s tid reply replylen).2 ∧
      ∀ event ∈ events, ∀ address, event.Touches address →
        ReachesWaiting s (some (.reply tid reply replylen)) address := by
  refine ⟨_, records_replyProxy s tid reply replylen, ?_⟩
  intro event hevent address htouches
  split_ifs at hevent with hreplies
  · obtain ⟨halive, hstate⟩ := hreplies
    obtain ⟨htid, hblocked⟩ := (getTaskState_eq_iff (by decide)).mp hstate
    have hslot := inTable_slot (nonneg_of_alive halive)
    have hfrom := (h.messages.replyBlocked hslot hblocked).2.1
    have hpending : pendingCall s (slot tid) = (s.node (slot tid)).sendCall := by
      rw [pendingCall, hblocked]
    have hne : slot tid ≠ s.current := by
      rw [h.dispatched.current_eq]
      exact h.ne_current_of_pending hpending
    have hlive := allocated_of_alive halive
    have hawaits : (s.task (slot tid)).state.Awaits := .inr (.inl hblocked)
    rw [replyEvents, List.mem_append] at hevent
    rcases hevent with hcopy | hreturn
    · have hpasses := inBuffer_of_copied (hcounted ⟨halive, hstate⟩) hcopy htouches
      exact .inl ⟨slot tid, hslot, hlive, hne, hawaits, .inr ⟨_, hpending, hpasses⟩⟩
    · have hsp := touches_returnEvents hreturn htouches
      rw [hfrom, htid] at hsp
      exact .inl ⟨slot tid, hslot, hlive, hne, hawaits, .inl hsp⟩
  · simp at hevent

/-- The calls for statistics write their record. -/
theorem Coherent.reaches_tasksStats (h : Coherent s l) {fuel container : ℕ}
    (hstats : tasksStatsHandler s fuel container = some s') :
    ∃ events, Records s events s' ∧ ∀ event ∈ events, ∀ address, event.Touches address →
      ReachesWaiting s (some (.getTasksStats container)) address := by
  obtain ⟨stats, hcomplete, heq⟩ := h.dispatched.exists_storeTasksStats
  rw [heq hstats]
  refine ⟨[.tasksStats container stats], .of_task_eq rfl rfl rfl rfl, ?_⟩
  intro event hevent address htouches
  rw [List.mem_singleton] at hevent
  subst hevent
  obtain ⟨hstart, hend⟩ := htouches
  have hbounded := hcomplete.bounded
  refine .inr (.inr ⟨hstart, ?_⟩)
  rw [tasksStatsSizeBytes]
  simp only [taskStatsSizeBytes, maxTasks] at *
  omega

/-- Every other handler writes nothing, but for that of `Create`. -/
theorem Coherent.reaches_handle (h : Coherent s l)
    (hunlinked : ∀ queue, l.current ∉ l.queues queue) {call : Call}
    (hcounted : Counted s call) (hcreate : ∀ priority code, call ≠ .create priority code)
    (hdestroy : ∀ tid, call ≠ .destroy tid) {fuel : ℕ} {trap : Trap} {result : ℤ}
    (hhandle : handle s fuel trap call = some (result, s')) :
    ∃ events, Records s events s' ∧
      ∀ event ∈ events, ∀ address, event.Touches address →
        ReachesWaiting s (some call) address := by
  have hnothing : ∀ {events : List Event}, Records s events s' →
      (∀ event ∈ events, ∀ address, ¬event.Touches address) →
      ∃ events, Records s events s' ∧
        ∀ event ∈ events, ∀ address, event.Touches address →
        ReachesWaiting s (some call) address :=
    fun hrecords hnone => ⟨_, hrecords, fun event hevent address htouches =>
      absurd htouches (hnone event hevent address)⟩
  cases call with
  | create priority code => exact absurd rfl (hcreate priority code)
  | destroy tid => exact absurd rfl (hdestroy tid)
  | send tid msg msglen reply replylen =>
      obtain rfl := eq_of_handle hhandle
      exact h.reaches_send hunlinked _ hcounted
  | receive tid msg msglen =>
      obtain rfl := eq_of_handle hhandle
      exact h.reaches_receive _ _ hcounted
  | reply tid reply replylen =>
      obtain rfl := eq_of_handle hhandle
      exact h.reaches_reply hcounted
  | exit =>
      obtain rfl := eq_of_handle hhandle
      exact hnothing (records_exitTask s) (by simp)
  | awaitEvent eventid =>
      obtain rfl := eq_of_handle hhandle
      exact hnothing (records_awaitEventHandler s eventid) (by simp)
  | setPriority tid priority =>
      rw [eq_of_setPriority hhandle] at hnothing ⊢
      exact hnothing (.refl s) (by simp)
  | setMyPriority priority =>
      obtain rfl := eq_of_handle hhandle
      exact hnothing (records_setCurrentTaskPriority s priority) (by simp)
  | getTaskStats tid container =>
      obtain rfl := eq_of_handle hhandle
      refine ⟨_, records_taskStatsHandler s tid container, ?_⟩
      intro event hevent address htouches
      rw [List.mem_singleton] at hevent
      subst hevent
      exact .inr (.inr htouches)
  | getTasksStats container =>
      exact h.reaches_tasksStats (tasksStats_of_handle hhandle)
  | pass | myTid | myParentTid | getPriority | getMyPriority =>
      obtain rfl := eq_of_handle hhandle
      exact hnothing (.refl s) (by simp)

end Reaches

/-! ## One round -/

/-- From `s` to `s'` memory changes only `within` the given addresses, and the only
stack pointers that change are those of new tasks. -/
structure Confined (s : State) (within : ℕ → Prop) (s' : State) : Prop where
  memory : ∀ address, ¬within address → s'.memory address = s.memory address
  image : s'.image = s.image
  stack : ∀ index, (s'.task index).stack = (s.task index).stack
  sp : ∀ index, Allocated s index → (s'.task index).sp = (s.task index).sp
  fresh : ∀ index, ¬Allocated s index → Allocated s' index →
    (s'.task index).sp = (s.task index).stack + (stackSizeBytes - 4 * numRegsPopped)

section Round

variable {s s' middle saved : State} {l : Layout} {c : ℤ} {lists : Lists TaskQueue ℤ}
  {events : List Event} {within : ℕ → Prop} {trap : Trap} {action : Action}

theorem Confined.of_records (hrecords : Records s events s')
    (hwithin : ∀ event ∈ events, ∀ address, event.Touches address → within address)
    (halloc : ∀ index, Allocated s' index → Allocated s index) : Confined s within s' where
  memory address haddress := by
    apply hrecords.memory_of_not_touches
    exact fun event hevent htouches => haddress (hwithin event hevent address htouches)
  image := hrecords.image
  stack := hrecords.stack
  sp index _ := hrecords.sp index
  fresh index hnot hnew := absurd (halloc index hnew) hnot

theorem Confined.mono {more : ℕ → Prop} (h : Confined s within s')
    (hmore : ∀ address, within address → more address) : Confined s more s' :=
  ⟨fun address hnot => h.memory address fun hwithin => hnot (hmore address hwithin), h.image,
    h.stack, h.sp, h.fresh⟩

/-- A new task starts at the top of its stack. -/
theorem confined_created {index : ℤ} (hindex : InTable index) (hfree : ¬Allocated s index)
    (call : Option Call) (priority : Priority) (code : Word) :
    Confined s (ReachesWaiting s call) (created s index priority code) where
  memory address haddress := by
    have hmemory : (created s index priority code).memory = storeWord s.memory
        ((s.task index).stack + (stackSizeBytes - 4)) s.image.exit := rfl
    rw [hmemory]
    apply storeWord_of_not_inRange
    intro hexit
    have hstart := hexit.1
    have hend := hexit.2
    apply haddress
    refine .inr (.inl ⟨index, hindex, hfree, ?_, ?_⟩)
    · omega
    · simp only [stackSizeBytes] at hend ⊢
      omega
  image := rfl
  stack other := by
    by_cases hother : other = index
    · rw [hother, task_created_self]
      rfl
    · rw [task_created_of_ne priority code hother]
  sp other halloc := by
    have hne : other ≠ index := by
      rintro rfl
      exact hfree halloc
    rw [task_created_of_ne priority code hne]
  fresh other hnot hnew := by
    obtain rfl := ((allocated_created_iff priority code other).mp hnew).resolve_right hnot
    rw [task_created_self]
    rfl

/-- Only `Create` puts a descriptor into use. -/
theorem Effect.allocated {call : Option Call} {queues : Lists ℤ ℤ} (h : Coherent s l)
    (heffect : Effect s l call queues s')
    (hcreate : ∀ priority code, call ≠ some (.create priority code)) (index : ℤ)
    (halloc : Allocated s' index) : Allocated s index := by
  rcases heffect.cases_handled h with hhandled |
    ⟨_, _, _, _, _, hcall, _⟩ | ⟨_, parent, _, _, hreaped⟩
  · exact (hhandled.keeps.allocated_iff index).mp halloc
  · exact absurd hcall (hcreate _ _)
  · have hkept := ((allocated_reaped_iff hreaped.task index).mp halloc).1
    rwa [Allocated, (Silent.useDescriptor s parent).task] at hkept

theorem Coherent.confined_createTaskSafe (h : Coherent s l) (call : Option Call)
    (priority : ℤ) (code : Word) :
    Confined s (ReachesWaiting s call) (createTaskSafe s priority code).2 := by
  have hnothing : Confined s (ReachesWaiting s call) s :=
    .of_records (.refl s) (by simp) fun _ => id
  rw [createTaskSafe]
  split_ifs
  · exact hnothing
  · cases hqueue : l.lists .available with
    | nil =>
        rw [createTask_of_empty h.dispatched.partition hqueue]
        exact hnothing
    | cons index rest =>
        obtain ⟨hindex, hfree⟩ := h.free_of_available hqueue
        rw [createTask_eq h.dispatched.partition h.family hqueue]
        exact confined_created hindex (not_allocated_of_free hfree) call _ code

/-- What the handler of a call may write. -/
theorem Coherent.confined_handle (h : Coherent s l)
    (hunlinked : ∀ queue, l.current ∉ l.queues queue) {call : Call}
    (hcounted : Counted s call) (hdestroy : ∀ tid, call ≠ .destroy tid)
    {queues : Lists ℤ ℤ} (heffect : Effect s l (some call) queues s') {fuel : ℕ}
    {result : ℤ} (hhandle : handle s fuel trap call = some (result, s')) :
    Confined s (ReachesWaiting s (some call)) s' := by
  by_cases hcreate : ∃ priority code, call = .create priority code
  · obtain ⟨priority, code, rfl⟩ := hcreate
    obtain rfl := eq_of_handle hhandle
    exact h.confined_createTaskSafe _ priority code
  · have hother : ∀ priority code, call ≠ .create priority code :=
      fun priority code heq => hcreate ⟨priority, code, heq⟩
    obtain ⟨events, hrecords, hreaches⟩ :=
      h.reaches_handle hunlinked hcounted hother hdestroy hhandle
    apply Confined.of_records hrecords hreaches
    exact heffect.allocated h fun priority code heq =>
      hother priority code (Option.some.inj heq)

/-- What an interrupt may write. -/
theorem Coherent.confined_handleIrq (h : Coherent s l) {fuel : ℕ} {intrCode : ℤ}
    {timer : TimerReadings} {time : Word}
    (hirq : handleIrq s fuel intrCode timer = some (time, s')) :
    Confined s (ReachesWaiting s none) s' := by
  obtain ⟨events, hrecords, hwoken⟩ := h.dispatched.toInKernel.records_handleIrq hirq
  apply Confined.of_records hrecords
  · intro event hevent address htouches
    obtain ⟨index, hindex, hlive, hne, hblocked, hsp⟩ :=
      hwoken event hevent address htouches
    rw [← h.dispatched.current_eq] at hne
    exact .inl ⟨index, hindex, hlive, hne, .inr (.inr hblocked), .inl hsp⟩
  · exact (h.effect_handleIrq hirq).allocated h (by simp)

/-- What a round does to memory and to stack pointers. -/
structure Rounds (s : State) (c : ℤ) (action : Action) (s' : State) : Prop where
  memory : ∀ address, ¬Reaches s action.call? address →
    ¬InRange action.trap.sp 4 address →
      s'.memory address = action.trap.memory address
  image : s'.image = s.image
  stack : ∀ index, (s'.task index).stack = (s.task index).stack
  running : (s'.task c).sp = action.trap.sp
  waiting : ∀ index, index ≠ c → Allocated s index →
    (s'.task index).sp = (s.task index).sp
  fresh : ∀ index, index ≠ c → ¬Allocated s index → Allocated s' index →
    (s'.task index).sp = (s.task index).stack + (stackSizeBytes - 4 * numRegsPopped)
  lasting : ∀ index, Allocated s index → Allocated s' index
  pending : ∀ index made, pendingCall s' index = some made →
    index ≠ c ∧ pendingCall s index = some made ∨
      index = c ∧ action.call? = some made

theorem Confined.rounds {queues : Lists ℤ ℤ} (h : Coherent (entered s action.trap) l)
    (hcall : ∀ tid, action.call? ≠ some (.destroy tid))
    (hconfined : Confined (entered s action.trap) (Reaches s action.call?) middle)
    (heffect : Effect (entered s action.trap) l action.call? queues middle)
    (hsaved : SavedAt middle l.current action.trap.sp saved)
    (hlast : Records saved [] s') (hquiet : Quiet middle s') :
    Rounds s l.current action s' where
  memory address hreaches hsp := by
    rw [hlast.memory_of_not_touches (by simp), hsaved.memory address hsp]
    exact hconfined.memory address hreaches
  image := hlast.image.trans (hsaved.image.trans hconfined.image)
  stack index := (hlast.stack index).trans
    ((hsaved.stack index).trans (hconfined.stack index))
  running := (hlast.sp l.current).trans hsaved.sp
  waiting index hne hlive := by
    rw [hlast.sp, hsaved.others index hne]
    exact hconfined.sp index hlive
  fresh index hne hnot hnew := by
    rw [hlast.sp, hsaved.others index hne]
    exact hconfined.fresh index hnot ((hquiet.keeps.allocated_iff index).mp hnew)
  lasting index hlive :=
    (hquiet.keeps.allocated_iff index).mpr (heffect.lasting h hcall index hlive).1
  pending index made hpending := by
    have hcases := heffect.pendingCall h hcall (hquiet.pendingCall hpending)
    exact hcases

/-- A round of a run without `Destroy`. -/
theorem Undestroyed.rounds (h : Undestroyed s l) (hno : NoDestroy s action)
    (hcounted : ∀ call, action.call? = some call → Counted s call)
    (hstep : Step s action s') : Rounds s l.current action s' := by
  have hentered := h.toCoherent.enter action.trap
  have hunlinked := (h.addressed.quiet (silent_entered s action.trap).quiet).unlinked
    hentered
  cases action with
  | call call trap =>
      obtain ⟨fuel, result, middle, queues, hhandle, heffect, hsaves, hactivate⟩ :=
        h.toCoherent.round_call (h.safe hno) hstep
      obtain ⟨lists, hkernel⟩ := heffect.inKernel hentered
      have hcounted' : Counted (entered s trap) call := by
        have hmade := hcounted call rfl
        cases call <;> exact hmade
      have hconfined := hentered.confined_handle hunlinked hcounted'
        (fun tid heq => hno.call tid (congrArg some heq)) heffect hhandle
      apply Confined.rounds hentered hno.call _ heffect
        (hkernel.savedAt_savedCall trap result)
        ((hkernel.savedCall trap result).records_dispatch hactivate)
        (heffect.finish hentered hsaves hactivate).1
      exact hconfined.mono fun _ => ReachesWaiting.reaches
  | interrupt intrCode trap =>
      obtain ⟨fuel, time, middle, hirq, heffect, hsaves, hactivate⟩ :=
        h.toCoherent.round_interrupt hstep
      obtain ⟨lists, hkernel⟩ := heffect.inKernel hentered
      obtain ⟨_, hsavedKernel⟩ := hsaves.quietly.inKernel
      apply Confined.rounds hentered hno.call _ heffect
        (hkernel.savedAt_saveTaskState _ _ _ _ _)
        (hsavedKernel.records_dispatch hactivate)
        (heffect.finish hentered hsaves hactivate).1
      exact (hentered.confined_handleIrq hirq).mono fun _ => ReachesWaiting.reaches

end Round

end Rtk.Kernel
