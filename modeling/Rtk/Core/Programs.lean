import Rtk.Core.Messaging

/-!
# Programs of tasks that pass messages

The messages have contents, and the tasks have variables.  A program tells which call a task
makes next and what the return of the call does to the variables.  A task stays in its call
until it is answered.
-/

namespace Rtk.Messaging

open Function
open Rtk.Transition

variable {T E M V : Type*}

/-- An operation with the message that it passes, if it passes one. -/
structure Act (T E M : Type*) where
  op : Op T E
  msg : M

inductive Answer (T M : Type*) where
  | took (sender : T) (msg : M)
  | replied (msg : M)
  /-- The task that the call names is not there, or does not wait. -/
  | failed
  | done

/-- The tasks with the message of each one that sends, who took the message of each one that
awaits a reply, their variables, and the calls that were made. -/
structure Scene (T E M V : Type*) where
  tasks : World T E
  message : T → M
  taker : T → T
  vars : T → V
  log : List (T × Act T E M)

/-- What tasks do: the call that a task makes next, unless it may make any, and what the
return of the call does to its variables. -/
structure Program (T E M V : Type*) where
  call : V → Option (Act T E M)
  resumes : Answer T M → V → V → Prop

/-- The operation is a call of the running task. -/
def Op.Called : Op T E → Prop
  | .interrupt _ _ => False
  | _ => True

inductive Answered (s : Scene T E M V) (act : Act T E M) (task : T) : Answer T M → Prop
  /-- It takes the message of the first sender that waits. -/
  | took {sender : T} {rest : List T} (hrunning : task = s.tasks.running)
      (hop : act.op = .receive) (hmailbox : s.tasks.mailbox task = sender :: rest) :
      Answered s act task (.took sender (s.message sender))
  /-- It waits for a message, and one is sent. -/
  | handed (hop : act.op = .send task) (hstatus : s.tasks.status task = .receiving) :
      Answered s act task (.took s.tasks.running act.msg)
  | replied (hop : act.op = .reply task) (hstatus : s.tasks.status task = .awaitingReply) :
      Answered s act task (.replied act.msg)
  | unsent {receiver : T} (hrunning : task = s.tasks.running) (hop : act.op = .send receiver)
      (hstatus : s.tasks.status receiver = .unborn ∨ s.tasks.status receiver = .ended) :
      Answered s act task .failed
  | refused {sender : T} (hrunning : task = s.tasks.running) (hop : act.op = .reply sender)
      (hstatus : s.tasks.status sender ≠ .awaitingReply) : Answered s act task .failed
  | replies {sender : T} (hrunning : task = s.tasks.running) (hop : act.op = .reply sender)
      (hstatus : s.tasks.status sender = .awaitingReply) : Answered s act task .done
  | created {new : Option T} (hrunning : task = s.tasks.running)
      (hop : act.op = .create new) : Answered s act task .done
  | other (hrunning : task = s.tasks.running) (hop : act.op = .other) :
      Answered s act task .done
  | woken {event : E} (hop : act.op = .interrupt event (some task)) :
      Answered s act task .done

namespace Act

variable [DecidableEq T]

/-- The messages of the tasks that send, behind the operation. -/
def messages (act : Act T E M) (s : Scene T E M V) : T → M :=
  match act.op with
  | .send _ => update s.message s.tasks.running act.msg
  | _ => s.message

def takers [DecidableEq E] (act : Act T E M) (s : Scene T E M V) : T → T :=
  match act.op with
  | .send receiver =>
      if s.tasks.status receiver = .receiving then update s.taker s.tasks.running receiver
      else s.taker
  | .receive =>
      match s.tasks.mailbox s.tasks.running with
      | [] => s.taker
      | sender :: _ => update s.taker sender s.tasks.running
  | _ => s.taker

end Act

/-- The running task makes the call of its program. -/
def Program.Makes (p : Program T E M V) (s : Scene T E M V) (act : Act T E M) : Prop :=
  act.op.Called → ∀ call, p.call (s.vars s.tasks.running) = some call → act = call

structure Program.Step [DecidableEq T] [DecidableEq E] (p : Program T E M V)
    (s : Scene T E M V) (act : Act T E M) (s' : Scene T E M V) : Prop where
  tasks : Messaging.Step s.tasks act.op s'.tasks
  call : p.Makes s act
  message : s'.message = act.messages s
  taker : s'.taker = act.takers s
  resumes : ∀ {task answer}, Answered s act task answer →
    p.resumes answer (s.vars task) (s'.vars task)
  vars : ∀ {task}, (∀ answer, ¬Answered s act task answer) → s'.vars task = s.vars task
  log : s'.log = s.log ++ [(s.tasks.running, act)]

/-- The programs run on a system whose states show the tasks, as `views` tells, and whose
steps perform their operations. -/
def Program.on {S A : Type*} [DecidableEq T] [DecidableEq E] (p : Program T E M V)
    (system : System S A) (views : S → World T E → Prop) (performs : S → A → Op T E → Prop) :
    System (S × Scene T E M V) (A × Act T E M) where
  initial q := system.initial q.1 ∧ views q.1 q.2.tasks
  step q label q' := system.step q.1 label.1 q'.1 ∧ performs q.1 label.1 label.2.op ∧
    views q'.1 q'.2.tasks ∧ p.Step q.2 label.2 q'.2

/-- A task replies only to those whose messages it took. -/
def Honest (s : Scene T E M V) (act : Act T E M) : Prop :=
  ∀ sender, act.op = .reply sender → s.tasks.status sender = .awaitingReply →
    s.taker sender = s.tasks.running

/-- The task is about to make the call, or the call has not returned. -/
def Within (s : Scene T E M V) (task : T) (act : Act T E M) : Prop :=
  s.tasks.status task = .ready ∨
    match act.op with
    | .send receiver =>
        (s.tasks.status task = .sending receiver ∧ s.message task = act.msg) ∨
          (s.tasks.status task = .awaitingReply ∧ s.taker task = receiver)
    | .receive => s.tasks.status task = .receiving
    | .await event => s.tasks.status task = .awaiting event
    | _ => False

/-- The message of the sender is taken, and it awaits the reply of the task. -/
def Held (s : Scene T E M V) (sender task : T) : Prop :=
  s.tasks.status sender = .awaitingReply ∧ s.taker sender = task

/-- The messages that wait for the task, with their senders. -/
def Scene.queue (s : Scene T E M V) (task : T) : List (T × M) :=
  (s.tasks.mailbox task).map fun sender => (sender, s.message sender)

def Act.sent [DecidableEq T] [DecidableEq E] (act : Act T E M) (sender task : T) :
    List (T × M) :=
  if act.op = .send task then [(sender, act.msg)] else []

def Scene.sent [DecidableEq T] [DecidableEq E] (s : Scene T E M V) (task : T) :
    List (T × M) :=
  s.log.flatMap fun entry => entry.2.sent entry.1 task

/-- The message of the sender waits for the task, or is sent by the operation. -/
def Sends (s : Scene T E M V) (act : Act T E M) (sender task : T) (msg : M) : Prop :=
  (s.tasks.status sender = .sending task ∧ s.message sender = msg) ∨
    (sender = s.tasks.running ∧ act.op = .send task ∧ act.msg = msg)

theorem Within.alive {s : Scene T E M V} {task : T} {call : Act T E M}
    (h : Within s task call) :
    ¬(s.tasks.status task = .unborn ∨ s.tasks.status task = .ended) := by
  rintro (hstatus | hstatus) <;>
  · rw [Within, hstatus] at h
    generalize call.op = op at h
    cases op <;> simp at h

/-! ## Answers -/

section Answers

variable [DecidableEq T] [DecidableEq E] {s s' : Scene T E M V} {act call : Act T E M}
  {p : Program T E M V} {task : T} {answer answer' : Answer T M}

omit [DecidableEq T] [DecidableEq E] in
/-- A task that is not answered makes no reply. -/
theorem not_reply_of_not_answered (hnone : ∀ answer, ¬Answered s act task answer)
    (hrunning : task = s.tasks.running) (sender : T) : act.op ≠ .reply sender := by
  intro hop
  by_cases hwaits : s.tasks.status sender = .awaitingReply
  · exact hnone _ (.replies hrunning hop hwaits)
  · exact hnone _ (.refused hrunning hop hwaits)

omit [DecidableEq T] [DecidableEq E] in
/-- A task that sends does not await a reply. -/
theorem not_held_of_sends {sender : T} {msg : M} (hsound : Sound s.tasks)
    (h : Sends s act sender task msg) (other : T) : ¬Held s sender other := by
  rintro ⟨hawaits, _⟩
  rcases h with ⟨hstatus, _⟩ | ⟨rfl, _⟩
  · simp [hstatus] at hawaits
  · simp [hsound.running] at hawaits

omit [DecidableEq T] [DecidableEq E] in
/-- A task that takes a message does not await a reply. -/
theorem not_held_of_took {sender : T} {msg : M} (hsound : Sound s.tasks)
    (h : Answered s act task (.took sender msg)) (other : T) : ¬Held s task other := by
  rintro ⟨hawaits, _⟩
  cases h with
  | took hrunning => simp [hrunning, hsound.running] at hawaits
  | handed _ hstatus => simp [hstatus] at hawaits

/-- A task that is answered has something to do. -/
theorem Program.Step.ready_of_answered (h : p.Step s act s') (hsound : Sound s.tasks)
    (hanswered : Answered s act task answer) : s'.tasks.status task = .ready := by
  obtain ⟨henabled, next, _, htasks⟩ := h.tasks
  have hready := hsound.running
  rw [htasks]
  cases hanswered with
  | @took sender rest hrunning hop hmailbox =>
      subst hrunning
      have hsends := hsound.sending_of_mailbox hmailbox
      rw [hop, Op.apply_receive_of_cons hmailbox]
      simp only [status_move]
      split_ifs with hsame
      · rw [← hsame, hready] at hsends
        simp at hsends
      · exact hready
  | handed hop hstatus =>
      have hborn : ¬(s.tasks.status task = .unborn ∨ s.tasks.status task = .ended) := by
        simp [hstatus]
      rw [hop, Op.apply, if_neg hborn, if_pos hstatus]
      simp
  | replied hop hstatus =>
      rw [hop, Op.apply, if_pos hstatus]
      simp
  | unsent hrunning hop hstatus =>
      subst hrunning
      rw [hop, Op.apply, if_pos hstatus]
      exact hready
  | refused hrunning hop hstatus =>
      subst hrunning
      rw [hop, Op.apply, if_neg hstatus]
      exact hready
  | replies hrunning hop hstatus =>
      subst hrunning
      rw [hop, Op.apply, if_pos hstatus]
      simp [hready]
  | @created new hrunning hop =>
      subst hrunning
      rw [hop]
      cases new with
      | none => exact hready
      | some new => simp [Op.apply, hready]
  | other hrunning hop =>
      subst hrunning
      rw [hop]
      exact hready
  | woken hop =>
      rw [hop, Op.apply]
      simp

/-- The task that makes a call and is not answered is in the call. -/
theorem Program.Step.within_running (h : p.Step s act s') (hsound : Sound s.tasks)
    (hcalled : act.op.Called) (hexit : act.op ≠ .exit)
    (hnone : ∀ answer, ¬Answered s act s.tasks.running answer) :
    Within s' s.tasks.running act := by
  obtain ⟨_, next, _, htasks⟩ := h.tasks
  obtain ⟨op, msg⟩ := act
  rw [Within, htasks, h.message, h.taker]
  cases op with
  | create new => exact absurd (.created rfl rfl) (hnone .done)
  | exit => exact absurd rfl hexit
  | send receiver =>
      have hborn : ¬(s.tasks.status receiver = .unborn ∨ s.tasks.status receiver = .ended) :=
        fun hnobody => hnone .failed (.unsent rfl rfl hnobody)
      by_cases hreceives : s.tasks.status receiver = .receiving
      · have hne : s.tasks.running ≠ receiver := by
          rintro heq
          rw [← heq, hsound.running] at hreceives
          exact absurd hreceives (by simp)
        refine .inr (.inr ?_)
        simp [Op.apply, Act.takers, hreceives, hne]
      · refine .inr (.inl ?_)
        simp [Op.apply, Act.messages, hborn, hreceives]
  | receive =>
      cases hmailbox : s.tasks.mailbox s.tasks.running with
      | nil =>
          right
          rw [Op.apply_receive_of_nil hmailbox]
          simp
      | cons sender rest => exact absurd (.took rfl rfl hmailbox) (hnone _)
  | reply sender =>
      by_cases hwaits : s.tasks.status sender = .awaitingReply
      · exact absurd (.replies rfl rfl hwaits) (hnone .done)
      · exact absurd (.refused rfl rfl hwaits) (hnone .failed)
  | await event =>
      right
      simp [Op.apply]
  | interrupt event woken => exact absurd hcalled (by simp [Op.Called])
  | other => exact absurd (.other rfl rfl) (hnone .done)

omit [DecidableEq E] in
theorem messages_of_ne (act : Act T E M) (hne : task ≠ s.tasks.running) :
    act.messages s task = s.message task := by
  obtain ⟨op, msg⟩ := act
  cases op with
  | send receiver => exact update_of_ne hne _ _
  | _ => rfl

/-- Who took a message changes for the sender of a message that is taken. -/
theorem takers_of_ne (act : Act T E M) (hne : task ≠ s.tasks.running)
    (hnot : act.op = .receive → (s.tasks.mailbox s.tasks.running).head? ≠ some task) :
    act.takers s task = s.taker task := by
  obtain ⟨op, msg⟩ := act
  cases op with
  | send receiver =>
      simp only [Act.takers]
      split_ifs
      · exact update_of_ne hne _ _
      · rfl
  | receive =>
      have hhead := hnot rfl
      rw [Act.takers]
      cases hmailbox : s.tasks.mailbox s.tasks.running with
      | nil => rfl
      | cons sender rest =>
          rw [hmailbox, List.head?_cons, ne_eq, Option.some.injEq] at hhead
          exact update_of_ne (Ne.symm hhead) _ _
  | _ => rfl

/-- A sender whose message is taken awaits the reply of the one that took it. -/
theorem Program.Step.held_of_taken (h : p.Step s act s') (hop : act.op = .receive)
    {sender : T} {rest : List T} (hmailbox : s.tasks.mailbox s.tasks.running = sender :: rest) :
    s'.tasks.status sender = .awaitingReply ∧ s'.taker sender = s.tasks.running := by
  obtain ⟨_, next, _, htasks⟩ := h.tasks
  rw [htasks, h.taker, Act.takers, hop, Op.apply_receive_of_cons hmailbox]
  simp [hmailbox]

/-- A sender whose message is taken was the first of the mailbox. -/
theorem Program.Step.exists_mailbox (h : p.Step s act s') (hsound : Sound s.tasks)
    (hop : act.op = .receive) (hsends : s.tasks.status task = .sending s.tasks.running)
    (hchanges : s'.tasks.status task ≠ s.tasks.status task) :
    ∃ rest, s.tasks.mailbox s.tasks.running = task :: rest := by
  obtain ⟨_, next, _, htasks⟩ := h.tasks
  have hmem := (hsound.mem_mailbox _ _).mpr hsends
  cases hmailbox : s.tasks.mailbox s.tasks.running with
  | nil =>
      rw [hmailbox] at hmem
      exact absurd hmem List.not_mem_nil
  | cons sender rest =>
      refine ⟨rest, ?_⟩
      by_cases hsender : task = sender
      · rw [hsender]
      · rw [htasks, hop, Op.apply_receive_of_cons hmailbox] at hchanges
        simp [hsender] at hchanges

/-- A task that makes no call and is not answered keeps its status, unless its message is
taken or it is created. -/
theorem Program.Step.status_idle (h : p.Step s act s') (hsound : Sound s.tasks)
    (hidle : act.op.Called → task ≠ s.tasks.running)
    (hnone : ∀ answer, ¬Answered s act task answer) :
    s'.tasks.status task = s.tasks.status task ∨
      (act.op = .receive ∧ ∃ rest, s.tasks.mailbox s.tasks.running = task :: rest) ∨
      (act.op = .create (some task) ∧ s.tasks.status task = .unborn) := by
  by_cases hstatus : s'.tasks.status task = s.tasks.status task
  · exact .inl hstatus
  by_cases hrunning : task = s.tasks.running
  · -- an interrupt of the task
    subst hrunning
    obtain ⟨_, next, _, htasks⟩ := h.tasks
    have hready := hsound.running
    rw [htasks] at hstatus
    obtain ⟨op, msg⟩ := act
    cases op with
    | interrupt event woken =>
        cases woken with
        | none => exact absurd rfl hstatus
        | some woken => simp [Op.apply, hready] at hstatus
    | _ => exact absurd rfl (hidle trivial)
  have hreleased := hsound.released h.tasks hrunning hstatus
  generalize hop : act.op = op at hreleased
  cases hreleased with
  | created hunborn => exact .inr (.inr ⟨rfl, hunborn⟩)
  | received hreceives => exact absurd (.handed hop hreceives) (hnone _)
  | taken hsends => exact .inr (.inl ⟨rfl, h.exists_mailbox hsound hop hsends hstatus⟩)
  | answered hawaits => exact absurd (.replied hop hawaits) (hnone _)
  | woken hwaits => exact absurd (.woken hop) (hnone _)

/-- A created task is ready. -/
theorem Program.Step.ready_of_created (h : p.Step s act s') (hop : act.op = .create (some task)) :
    s'.tasks.status task = .ready := by
  obtain ⟨_, next, _, htasks⟩ := h.tasks
  rw [htasks, hop]
  simp [Op.apply]

/-- A task that makes no call and is not answered stays in its call. -/
theorem Program.Step.within_idle (h : p.Step s act s') (hsound : Sound s.tasks)
    (hidle : act.op.Called → task ≠ s.tasks.running)
    (hnone : ∀ answer, ¬Answered s act task answer) (hwithin : Within s task call) :
    Within s' task call := by
  rcases h.status_idle hsound hidle hnone with hstatus | ⟨hop, rest, hmailbox⟩ | ⟨hop, _⟩
  · by_cases hrunning : task = s.tasks.running
    · left
      rw [hstatus, hrunning, hsound.running]
    have hmessage : s'.message task = s.message task := by
      rw [h.message, messages_of_ne act hrunning]
    have htaker : s'.taker task = s.taker task := by
      rw [h.taker]
      apply takers_of_ne act hrunning
      intro hop hhead
      -- the first sender of the mailbox does not keep its status
      obtain ⟨rest, hmailbox⟩ := List.head?_eq_some_iff.mp hhead
      rw [(h.held_of_taken hop hmailbox).1, hsound.sending_of_mailbox hmailbox] at hstatus
      exact absurd hstatus (by simp)
    rw [Within, hstatus, hmessage, htaker]
    exact hwithin
  · obtain ⟨hawaits, htaker⟩ := h.held_of_taken hop hmailbox
    rw [Within, hsound.sending_of_mailbox hmailbox] at hwithin
    rw [Within, hawaits, htaker]
    generalize call.op = op at hwithin ⊢
    cases op <;> simp_all
  · exact .inl (h.ready_of_created hop)

/-- A task that waits for a message and is sent one has it, and the sender awaits its reply. -/
theorem Program.Step.held_of_handed (h : p.Step s act s') (hsound : Sound s.tasks)
    (hop : act.op = .send task) (hstatus : s.tasks.status task = .receiving) :
    Held s' s.tasks.running task := by
  obtain ⟨_, next, _, htasks⟩ := h.tasks
  have hne : s.tasks.running ≠ task := by
    rintro heq
    rw [← heq, hsound.running] at hstatus
    exact absurd hstatus (by simp)
  rw [Held, htasks, h.taker, Act.takers, hop]
  simp [Op.apply, hstatus, hne]

/-- A task that awaits a reply does so until someone replies. -/
theorem Program.Step.held_of_held (h : p.Step s act s') (hsound : Sound s.tasks) {sender : T}
    (hheld : Held s sender task) (hop : act.op ≠ .reply sender) : Held s' sender task := by
  obtain ⟨hawaits, htaker⟩ := hheld
  have hrunning : sender ≠ s.tasks.running := by
    rintro rfl
    rw [hsound.running] at hawaits
    exact absurd hawaits (by simp)
  have hstatus : s'.tasks.status sender = s.tasks.status sender := by
    by_contra hchanges
    have hreleased := hsound.released h.tasks hrunning hchanges
    generalize act.op = op at hreleased hop
    cases hreleased <;> simp_all
  refine ⟨hstatus.trans hawaits, ?_⟩
  rw [h.taker, takers_of_ne act hrunning fun _ => hsound.head_ne (by simp [hawaits]), htaker]

/-- A task that begins to wait for the receiver of its message makes the call that sends. -/
theorem Program.Step.send_of_running (h : p.Step s act s') (hsound : Sound s.tasks)
    (hcalled : act.op.Called) (hnone : ∀ answer, ¬Answered s act s.tasks.running answer) :
    (s'.tasks.status s.tasks.running = .sending task →
      act.op = .send task ∧ s'.message s.tasks.running = act.msg) ∧
    (Held s' s.tasks.running task →
      act.op = .send task ∧ s.tasks.status task = .receiving) := by
  by_cases hexit : act.op = .exit
  · obtain ⟨_, next, _, htasks⟩ := h.tasks
    rw [Held, htasks, hexit]
    simp [Op.apply]
  have hwithin := h.within_running hsound hcalled hexit hnone
  constructor
  · intro hsends
    rw [Within, hsends] at hwithin
    generalize act.op = op at hwithin
    cases op <;> simp_all
  · rintro ⟨hawaits, htaker⟩
    have hop : act.op = .send task := by
      rw [Within, hawaits, htaker] at hwithin
      generalize act.op = op at hwithin
      cases op <;> simp_all
    refine ⟨hop, ?_⟩
    by_contra hbusy
    have hborn : ¬(s.tasks.status task = .unborn ∨ s.tasks.status task = .ended) :=
      fun hnobody => hnone .failed (.unsent rfl hop hnobody)
    obtain ⟨_, next, _, htasks⟩ := h.tasks
    rw [htasks, hop] at hawaits
    simp [Op.apply, hborn, hbusy] at hawaits

/-- A sender awaits the reply of a task that has just taken its message, or did so before. -/
theorem Program.Step.held_iff (h : p.Step s act s') (hsound : Sound s.tasks) {sender : T} :
    Held s' sender task ↔
      (∃ msg, Answered s act task (.took sender msg)) ∨
        (Held s sender task ∧ act.op ≠ .reply sender) := by
  constructor
  · rintro ⟨hawaits, htaker⟩
    have hnone : ∀ answer, ¬Answered s act sender answer := by
      intro answer hanswered
      rw [h.ready_of_answered hsound hanswered] at hawaits
      exact absurd hawaits (by simp)
    by_cases hidle : act.op.Called → sender ≠ s.tasks.running
    · rcases h.status_idle hsound hidle hnone with hstatus | ⟨hop, rest, hmailbox⟩ | ⟨hop, _⟩
      · right
        rw [hstatus] at hawaits
        have hne : sender ≠ s.tasks.running := by
          rintro rfl
          rw [hsound.running] at hawaits
          exact absurd hawaits (by simp)
        refine ⟨⟨hawaits, ?_⟩, fun hop => hnone _ (.replied hop hawaits)⟩
        rw [← htaker, h.taker]
        exact (takers_of_ne act hne fun _ => hsound.head_ne (by simp [hawaits])).symm
      · left
        rw [(h.held_of_taken hop hmailbox).2] at htaker
        subst htaker
        exact ⟨_, .took rfl hop hmailbox⟩
      · rw [h.ready_of_created hop] at hawaits
        exact absurd hawaits (by simp)
    · rw [Classical.not_imp, not_not] at hidle
      obtain ⟨hcalled, rfl⟩ := hidle
      obtain ⟨hop, hreceives⟩ := (h.send_of_running hsound hcalled hnone).2 ⟨hawaits, htaker⟩
      exact .inl ⟨_, .handed hop hreceives⟩
  · rintro (⟨msg, hanswered⟩ | ⟨hheld, hop⟩)
    · cases hanswered with
      | took hrunning hop hmailbox =>
          subst hrunning
          exact h.held_of_taken hop hmailbox
      | handed hop hstatus => exact h.held_of_handed hsound hop hstatus
    · exact h.held_of_held hsound hheld hop

/-- A task that comes to wait for another makes the call that sends. -/
theorem Program.Step.sending_cases (h : p.Step s act s') (hsound : Sound s.tasks) {sender : T}
    (hsends : s'.tasks.status sender = .sending task) :
    (s.tasks.status sender = .sending task ∧ s'.message sender = s.message sender) ∨
      (sender = s.tasks.running ∧ act.op = .send task ∧ s'.message sender = act.msg) := by
  have hnone : ∀ answer, ¬Answered s act sender answer := by
    intro answer hanswered
    rw [h.ready_of_answered hsound hanswered] at hsends
    exact absurd hsends (by simp)
  by_cases hidle : act.op.Called → sender ≠ s.tasks.running
  · rcases h.status_idle hsound hidle hnone with hstatus | ⟨hop, rest, hmailbox⟩ | ⟨hop, _⟩
    · left
      rw [hstatus] at hsends
      have hne : sender ≠ s.tasks.running := by
        rintro rfl
        rw [hsound.running] at hsends
        exact absurd hsends (by simp)
      rw [h.message]
      exact ⟨hsends, messages_of_ne act hne⟩
    · rw [(h.held_of_taken hop hmailbox).1] at hsends
      exact absurd hsends (by simp)
    · rw [h.ready_of_created hop] at hsends
      exact absurd hsends (by simp)
  · rw [Classical.not_imp, not_not] at hidle
    obtain ⟨hcalled, rfl⟩ := hidle
    exact .inr ⟨rfl, (h.send_of_running hsound hcalled hnone).1 hsends⟩

/-- The senders of a mailbox keep their messages. -/
theorem Program.Step.map_message (h : p.Step s act s') (hsound : Sound s.tasks)
    {senders : List T} (hsenders : ∀ sender ∈ senders, sender ∈ s.tasks.mailbox task) :
    senders.map (fun sender => (sender, s'.message sender)) =
      senders.map fun sender => (sender, s.message sender) := by
  apply List.map_congr_left
  intro sender hmem
  have hne : sender ≠ s.tasks.running := by
    rintro rfl
    have hsends := (hsound.mem_mailbox _ _).mp (hsenders _ hmem)
    rw [hsound.running] at hsends
    exact absurd hsends (by simp)
  rw [h.message, messages_of_ne act hne]

/-- A task that takes a message takes the first one. -/
theorem Program.Step.queue_took (h : p.Step s act s') (hsound : Sound s.tasks) {sender : T}
    {msg : M} (htook : Answered s act task (.took sender msg)) :
    s.queue task ++ act.sent s.tasks.running task = (sender, msg) :: s'.queue task := by
  obtain ⟨_, next, _, htasks⟩ := h.tasks
  cases htook with
  | @took _ rest hrunning hop hmailbox =>
      have hsent : act.sent s.tasks.running task = [] := if_neg (by simp [hop])
      have hrest : s'.tasks.mailbox task = rest := by
        subst hrunning
        rw [htasks, hop, Op.apply_receive_of_cons hmailbox]
        exact update_self _ _ _
      rw [Scene.queue, Scene.queue, hsent, hrest, hmailbox, List.map_cons, List.append_nil,
        h.map_message hsound fun sender hmem => hmailbox ▸ List.mem_cons_of_mem _ hmem]
  | handed hop hstatus =>
      have hsent : act.sent s.tasks.running task = [(s.tasks.running, act.msg)] := if_pos hop
      have hempty := hsound.empty task hstatus
      have hrest : s'.tasks.mailbox task = [] := by
        rw [htasks, hop, ← hempty]
        simp [Op.apply, hstatus]
      rw [Scene.queue, Scene.queue, hsent, hrest, hempty]
      rfl

/-- Otherwise what is sent to a task waits behind what was sent before. -/
theorem Program.Step.queue_eq (h : p.Step s act s') (hsound : Sound s.tasks)
    (hborn : ¬(s.tasks.status task = .unborn ∨ s.tasks.status task = .ended))
    (hnone : ∀ sender msg, ¬Answered s act task (.took sender msg)) :
    s'.queue task = s.queue task ++ act.sent s.tasks.running task := by
  obtain ⟨_, next, _, htasks⟩ := h.tasks
  have hkept := h.map_message hsound (fun sender (hmem : sender ∈ s.tasks.mailbox task) => hmem)
  by_cases hop : act.op = .send task
  · have hbusy : s.tasks.status task ≠ .receiving := fun hreceives =>
      hnone _ _ (.handed hop hreceives)
    have hsent : act.sent s.tasks.running task = [(s.tasks.running, act.msg)] := if_pos hop
    have hmailbox : s'.tasks.mailbox task = s.tasks.mailbox task ++ [s.tasks.running] := by
      rw [htasks, hop]
      simp [Op.apply, hborn, hbusy]
    have hmessage : s'.message s.tasks.running = act.msg := by
      rw [h.message, Act.messages, hop]
      exact update_self _ _ _
    rw [Scene.queue, Scene.queue, hsent, hmailbox, List.map_append, hkept, List.map_singleton,
      hmessage]
  · have hsent : act.sent s.tasks.running task = [] := if_neg hop
    have hmailbox : s'.tasks.mailbox task = s.tasks.mailbox task := by
      rw [htasks]
      apply Op.mailbox_apply hop
      intro hreceive hrunning
      cases hmailbox : s.tasks.mailbox task with
      | nil => rfl
      | cons sender rest => exact absurd (.took hrunning hreceive hmailbox) (hnone _ _)
    rw [Scene.queue, Scene.queue, hsent, hmailbox, hkept, List.append_nil]

theorem Program.Step.sent_eq (h : p.Step s act s') (task : T) :
    s'.sent task = s.sent task ++ act.sent s.tasks.running task := by
  rw [Scene.sent, h.log, List.flatMap_append, List.flatMap_singleton]
  rfl

omit [DecidableEq T] [DecidableEq E] in
/-- A call returns once. -/
theorem Answered.unique {answer' : Answer T M} (h : Answered s act task answer)
    (h' : Answered s act task answer') (hsound : Sound s.tasks) : answer = answer' := by
  have hready := hsound.running
  cases h <;> cases h' <;> simp_all

omit [DecidableEq T] [DecidableEq E] in
/-- When a task takes a message, no other task is answered. -/
theorem Answered.eq_of_took {sender other : T} {msg : M} (hsound : Sound s.tasks)
    (h : Answered s act task (.took sender msg)) (h' : Answered s act other answer) :
    other = task := by
  have hready := hsound.running
  cases h <;> cases h' <;> simp_all

/-- While a task takes no message and makes no reply, the same senders await its reply. -/
theorem Program.Step.held_idle (h : p.Step s act s') (hsound : Sound s.tasks)
    (hhonest : Honest s act) (htook : ∀ sender msg, ¬Answered s act task (.took sender msg))
    (hreply : task = s.tasks.running → ∀ sender, act.op ≠ .reply sender) {sender : T} :
    Held s' sender task ↔ Held s sender task := by
  rw [h.held_iff hsound]
  constructor
  · rintro (⟨msg, hanswered⟩ | ⟨hheld, _⟩)
    · exact absurd hanswered (htook sender msg)
    · exact hheld
  · intro hheld
    refine .inr ⟨hheld, fun hop => hreply ?_ sender hop⟩
    exact hheld.2.symm.trans (hhonest sender hop hheld.1)

theorem Program.Step.held_took (h : p.Step s act s') (hsound : Sound s.tasks) {client : T}
    {msg : M} (htook : Answered s act task (.took client msg)) {sender : T} :
    Held s' sender task ↔ sender = client ∨ Held s sender task := by
  rw [h.held_iff hsound]
  have hop : act.op ≠ .reply sender := by
    cases htook with
    | took _ hop => simp [hop]
    | handed hop => simp [hop]
  constructor
  · rintro (⟨msg', hanswered⟩ | ⟨hheld, _⟩)
    · cases hanswered.unique htook hsound
      exact .inl rfl
    · exact .inr hheld
  · rintro (rfl | hheld)
    · exact .inl ⟨msg, htook⟩
    · exact .inr ⟨hheld, hop⟩

theorem Program.Step.held_reply (h : p.Step s act s') (hsound : Sound s.tasks) {client : T}
    (hop : act.op = .reply client) {sender : T} :
    Held s' sender task ↔ Held s sender task ∧ sender ≠ client := by
  rw [h.held_iff hsound, hop, ne_eq, Op.reply.injEq, or_iff_right]
  · exact and_congr_right fun _ => ne_comm
  · rintro ⟨msg, hanswered⟩
    cases hanswered with
    | took _ hop' => simp [hop] at hop'
    | handed hop' => simp [hop] at hop'

end Answers

/-! ## Programs -/

/-- The answers that a call can return with. -/
def Answer.Fits : Answer T M → Op T E → Prop
  | .took _ _, op => op = .receive
  | .replied _, op => ∃ receiver, op = .send receiver
  | .failed, op => (∃ receiver, op = .send receiver) ∨ ∃ sender, op = .reply sender
  | .done, op => (∀ receiver, op ≠ .send receiver) ∧ op ≠ .receive

/-- The tasks whose programs are known are in the calls that they make. -/
def Abides (p : Program T E M V) (s : Scene T E M V) : Prop :=
  ∀ task call, p.call (s.vars task) = some call → Within s task call

section Programs

variable [DecidableEq T] [DecidableEq E] {s s' : Scene T E M V} {act call : Act T E M}
  {p : Program T E M V} {task sender : T} {answer : Answer T M}

/-- Programs that never exit stay in their calls. -/
theorem Abides.step (h : Abides p s) (hsound : Sound s.tasks) (hstep : p.Step s act s')
    (hexit : ∀ vars call, p.call vars = some call → call.op ≠ .exit) : Abides p s' := by
  intro task call hcall
  by_cases hanswered : ∃ answer, Answered s act task answer
  · obtain ⟨answer, hanswered⟩ := hanswered
    exact .inl (hstep.ready_of_answered hsound hanswered)
  rw [not_exists] at hanswered
  rw [hstep.vars hanswered] at hcall
  by_cases hidle : act.op.Called → task ≠ s.tasks.running
  · exact hstep.within_idle hsound hidle hanswered (h task call hcall)
  · rw [Classical.not_imp, not_not] at hidle
    obtain ⟨hcalled, rfl⟩ := hidle
    obtain rfl := hstep.call hcalled call hcall
    exact hstep.within_running hsound hcalled (hexit _ _ hcall) hanswered

omit [DecidableEq T] [DecidableEq E] in
/-- A task is answered as its call allows. -/
theorem Abides.fits (h : Abides p s) (henabled : act.op.Enabled s.tasks) (hmakes : p.Makes s act)
    (hcall : p.call (s.vars task) = some call) (hanswered : Answered s act task answer) :
    answer.Fits call.op := by
  have hwithin := h task call hcall
  have hmade : task = s.tasks.running → act.op.Called → act.op = call.op := by
    rintro rfl hcalled
    rw [hmakes hcalled call hcall]
  cases hanswered with
  | took hrunning hop =>
      rw [Answer.Fits, ← hmade hrunning (by simp [hop, Op.Called]), hop]
  | handed hop hstatus =>
      rw [Within, hstatus] at hwithin
      rw [Answer.Fits]
      generalize call.op = op at hwithin
      cases op <;> simp_all
  | replied hop hstatus =>
      rw [Within, hstatus] at hwithin
      rw [Answer.Fits]
      generalize call.op = op at hwithin
      cases op <;> simp_all
  | unsent hrunning hop =>
      rw [Answer.Fits, ← hmade hrunning (by simp [hop, Op.Called]), hop]
      exact .inl ⟨_, rfl⟩
  | refused hrunning hop =>
      rw [Answer.Fits, ← hmade hrunning (by simp [hop, Op.Called]), hop]
      exact .inr ⟨_, rfl⟩
  | replies hrunning hop =>
      rw [Answer.Fits, ← hmade hrunning (by simp [hop, Op.Called]), hop]
      simp
  | created hrunning hop =>
      rw [Answer.Fits, ← hmade hrunning (by simp [hop, Op.Called]), hop]
      simp
  | other hrunning hop =>
      rw [Answer.Fits, ← hmade hrunning (by simp [hop, Op.Called]), hop]
      simp
  | @woken event hop =>
      rw [hop] at henabled
      have hawaits : s.tasks.status task = .awaiting event := henabled
      rw [Within, hawaits] at hwithin
      rw [Answer.Fits]
      generalize call.op = op at hwithin
      cases op <;> simp_all

/-- Only `receive` takes a message. -/
theorem Abides.not_took (h : Abides p s) (hstep : p.Step s act s')
    (hcall : p.call (s.vars task) = some call) (hop : call.op ≠ .receive) (sender : T) (msg : M) :
    ¬Answered s act task (.took sender msg) :=
  fun hanswered => hop (h.fits hstep.tasks.1 hstep.call hcall hanswered)

/-- A task replies when its program says so. -/
theorem Program.Step.not_reply (h : p.Step s act s') (hcall : p.call (s.vars task) = some call)
    (hop : ∀ sender, call.op ≠ .reply sender) (hrunning : task = s.tasks.running) (sender : T) :
    act.op ≠ .reply sender := by
  rintro hreply
  subst hrunning
  rw [h.call (by simp [hreply, Op.Called]) call hcall] at hreply
  exact hop sender hreply

omit [DecidableEq T] [DecidableEq E] in
/-- What a task takes was sent to it. -/
theorem sends_of_took {msg : M} (hsound : Sound s.tasks)
    (htook : Answered s act task (.took sender msg)) : Sends s act sender task msg := by
  cases htook with
  | took hrunning hop hmailbox => exact .inl ⟨hsound.sending_of_mailbox hmailbox, rfl⟩
  | handed hop hstatus => exact .inr ⟨rfl, hop, rfl⟩

/-- A task whose program is known sends what its program says. -/
theorem Abides.sends {msg : M} (h : Abides p s) (hstep : p.Step s act s')
    (hcall : p.call (s.vars sender) = some call) (hsends : Sends s act sender task msg) :
    call.op = .send task ∧ call.msg = msg := by
  rcases hsends with ⟨hstatus, hmessage⟩ | ⟨rfl, hop, hmsg⟩
  · have hwithin := h sender call hcall
    rw [Within, hstatus] at hwithin
    generalize hop : call.op = op at hwithin
    cases op <;> simp_all
  · rw [← hstep.call (by simp [hop, Op.Called]) call hcall]
    exact ⟨hop, hmsg⟩

/-- A reply is answered at once. -/
theorem Abides.reply_answered (h : Abides p s) (hstep : p.Step s act s')
    (hcall : p.call (s.vars task) = some call) (hop : call.op = .reply sender)
    (hanswered : Answered s act task answer) : task = s.tasks.running ∧ act = call := by
  have hready : s.tasks.status task = .ready := by
    have hwithin := h task call hcall
    rw [Within, hop] at hwithin
    simpa using hwithin
  have hmade : ∀ made : act.op.Called, task = s.tasks.running →
      task = s.tasks.running ∧ act = call := by
    rintro hcalled rfl
    exact ⟨rfl, hstep.call hcalled call hcall⟩
  cases hanswered with
  | took hrunning hop => exact hmade (by simp [hop, Op.Called]) hrunning
  | handed _ hstatus => simp [hready] at hstatus
  | replied _ hstatus => simp [hready] at hstatus
  | unsent hrunning hop => exact hmade (by simp [hop, Op.Called]) hrunning
  | refused hrunning hop => exact hmade (by simp [hop, Op.Called]) hrunning
  | replies hrunning hop => exact hmade (by simp [hop, Op.Called]) hrunning
  | created hrunning hop => exact hmade (by simp [hop, Op.Called]) hrunning
  | other hrunning hop => exact hmade (by simp [hop, Op.Called]) hrunning
  | woken hop =>
      obtain ⟨henabled, _⟩ := hstep.tasks
      rw [hop] at henabled
      simp [Op.Enabled, hready] at henabled

def Program.Total (p : Program T E M V) : Prop :=
  ∀ vars (answer : Answer T M), (∀ call, p.call vars = some call → answer.Fits call.op) →
    ∃ vars', p.resumes answer vars vars'

/-- A step in which the running task makes the call of its program is one of the programs. -/
theorem Abides.exists_step (h : Abides p s) (htotal : p.Total) (hsound : Sound s.tasks)
    (hmakes : p.Makes s act) {w : World T E} (hstep : Messaging.Step s.tasks act.op w) :
    ∃ s', p.Step s act s' ∧ s'.tasks = w := by
  have hresume : ∀ task, ∃ vars',
      (∀ answer, Answered s act task answer → p.resumes answer (s.vars task) vars') ∧
        ((∀ answer, ¬Answered s act task answer) → vars' = s.vars task) := by
    intro task
    by_cases hanswered : ∃ answer, Answered s act task answer
    · obtain ⟨answer, hanswered⟩ := hanswered
      obtain ⟨vars', hresumes⟩ :=
        htotal _ _ fun call hcall => h.fits hstep.1 hmakes hcall hanswered
      refine ⟨vars', fun answer' hanswered' => ?_, fun hnone => absurd hanswered (hnone _)⟩
      rw [hanswered'.unique hanswered hsound]
      exact hresumes
    · rw [not_exists] at hanswered
      exact ⟨s.vars task, fun answer hanswer => absurd hanswer (hanswered answer), fun _ => rfl⟩
  choose vars hresumes hsame using hresume
  exact ⟨⟨w, act.messages s, act.takers s, vars, s.log ++ [(s.tasks.running, act)]⟩,
    ⟨hstep, hmakes, rfl, rfl, hresumes _ _, hsame _, rfl⟩, rfl⟩

end Programs

end Rtk.Messaging
