import Mathlib.Data.List.Nodup
import Mathlib.Data.Set.Defs
import Rtk.Core.Transition

/-!
# Synchronous message passing

Tasks send, receive and reply.  A send waits until the receiver takes the message, and then
until anyone replies; a receive takes the sender that has waited longest.  Which ready task
runs next is left open, as is what a creation and an interrupt choose.
-/

namespace Rtk.Messaging

open Function
open Rtk.Transition

variable {T E : Type*}

inductive Status (T E : Type*) where
  | unborn
  | ready
  /-- It waits for a message. -/
  | receiving
  /-- It waits for the task to take its message. -/
  | sending (receiver : T)
  /-- Its message is taken, and it waits for a reply. -/
  | awaitingReply
  | awaiting (event : E)
  | ended
  deriving DecidableEq

/-- The tasks, the senders that wait for each one, in their order, and the task that runs. -/
structure World (T E : Type*) where
  status : T → Status T E
  mailbox : T → List T
  running : T

inductive Op (T E : Type*) where
  | create (new : Option T)
  | exit
  | send (receiver : T)
  | receive
  | reply (sender : T)
  | await (event : E)
  | interrupt (event : E) (woken : Option T)
  | other
  deriving DecidableEq

def World.move [DecidableEq T] (w : World T E) (task : T) (status : Status T E) : World T E :=
  { w with status := update w.status task status }

namespace Op

variable [DecidableEq T] [DecidableEq E]

/-- The world behind the operation, before the next task is chosen. -/
def apply (w : World T E) : Op T E → World T E
  | .create none => w
  | .create (some new) => w.move new .ready
  | .exit => w.move w.running .ended
  | .send receiver =>
      if w.status receiver = .unborn ∨ w.status receiver = .ended then w
      else if w.status receiver = .receiving then
        (w.move w.running .awaitingReply).move receiver .ready
      else
        { w.move w.running (.sending receiver) with
          mailbox := update w.mailbox receiver (w.mailbox receiver ++ [w.running]) }
  | .receive =>
      match w.mailbox w.running with
      | [] => w.move w.running .receiving
      | sender :: rest =>
          { w.move sender .awaitingReply with
            mailbox := update w.mailbox w.running rest }
  | .reply sender => if w.status sender = .awaitingReply then w.move sender .ready else w
  | .await event => w.move w.running (.awaiting event)
  | .interrupt _ none => w
  | .interrupt _ (some woken) => w.move woken .ready
  | .other => w

theorem apply_receive_of_nil {w : World T E} (hmailbox : w.mailbox w.running = []) :
    receive.apply w = w.move w.running .receiving := by
  rw [apply, hmailbox]

theorem apply_receive_of_cons {w : World T E} {sender : T} {rest : List T}
    (hmailbox : w.mailbox w.running = sender :: rest) :
    receive.apply w =
      { w.move sender .awaitingReply with mailbox := update w.mailbox w.running rest } := by
  rw [apply, hmailbox]

end Op

/-- What the choices of an operation must meet: a new task was never there before, and an
interrupt wakes a task that waits for it if there is one. -/
def Op.Enabled (w : World T E) : Op T E → Prop
  | .create (some new) => w.status new = .unborn
  | .interrupt event none => ∀ task, w.status task ≠ .awaiting event
  | .interrupt event (some woken) => w.status woken = .awaiting event
  | _ => True

/-- The operation, and then some ready task runs. -/
def Step [DecidableEq T] [DecidableEq E] (w : World T E) (op : Op T E) (w' : World T E) : Prop :=
  op.Enabled w ∧ ∃ next, (op.apply w).status next = .ready ∧
    w' = { op.apply w with running := next }

structure Initial (w : World T E) : Prop where
  status : ∀ task, w.status task = .unborn ∨ w.status task = .ready
  mailbox : ∀ task, w.mailbox task = []
  running : w.status w.running = .ready

def system (T E : Type*) [DecidableEq T] [DecidableEq E] : System (World T E) (Op T E) where
  initial := Initial
  step := Step

/-! ## The invariant -/

/-- The mailboxes hold the tasks that send, each one once, and a task that waits for a message
has none. -/
structure Settled (w : World T E) : Prop where
  mem_mailbox : ∀ sender receiver,
    sender ∈ w.mailbox receiver ↔ w.status sender = .sending receiver
  nodup : ∀ receiver, (w.mailbox receiver).Nodup
  empty : ∀ receiver, w.status receiver = .receiving → w.mailbox receiver = []

/-- Besides, the running task is ready. -/
structure Sound (w : World T E) : Prop extends Settled w where
  running : w.status w.running = .ready

theorem Initial.sound {w : World T E} (h : Initial w) : Sound w where
  mem_mailbox sender receiver := by
    rw [h.mailbox]
    rcases h.status sender with hstatus | hstatus <;> simp [hstatus]
  nodup receiver := by
    rw [h.mailbox]
    exact List.nodup_nil
  empty receiver _ := h.mailbox receiver
  running := h.running

theorem Settled.sending_of_mailbox {w : World T E} {sender receiver : T} {rest : List T}
    (h : Settled w) (hmailbox : w.mailbox receiver = sender :: rest) :
    w.status sender = .sending receiver := by
  rw [← h.mem_mailbox, hmailbox]
  exact List.mem_cons_self

theorem Settled.head_ne {w : World T E} {sender receiver : T} (h : Settled w)
    (hnot : w.status sender ≠ .sending receiver) :
    (w.mailbox receiver).head? ≠ some sender := by
  intro hhead
  obtain ⟨rest, hmailbox⟩ := List.head?_eq_some_iff.mp hhead
  exact hnot (h.sending_of_mailbox hmailbox)

section Settled

variable [DecidableEq T] {w : World T E}

@[simp]
theorem status_move (w : World T E) (task other : T) (status : Status T E) :
    (w.move task status).status other = if other = task then status else w.status other :=
  update_apply _ _ _ _

@[simp]
theorem mailbox_move (w : World T E) (task : T) (status : Status T E) :
    (w.move task status).mailbox = w.mailbox := rfl

/-- A task that sends neither before nor after moves. -/
theorem Settled.move {task : T} {status : Status T E} (h : Settled w)
    (hbefore : ∀ receiver, w.status task ≠ .sending receiver)
    (hafter : ∀ receiver, status ≠ .sending receiver)
    (hempty : status = .receiving → w.mailbox task = []) : Settled (w.move task status) where
  mem_mailbox sender receiver := by
    rw [status_move]
    by_cases hsender : sender = task
    · subst hsender
      rw [if_pos rfl]
      exact iff_of_false (fun hmem => hbefore receiver ((h.mem_mailbox _ _).mp hmem))
        (hafter receiver)
    · rw [if_neg hsender]
      exact h.mem_mailbox sender receiver
  nodup := h.nodup
  empty receiver := by
    rw [status_move]
    by_cases hreceiver : receiver = task
    · subst hreceiver
      rw [if_pos rfl]
      exact hempty
    · rw [if_neg hreceiver]
      exact h.empty receiver

/-- A ready task comes to wait in a mailbox. -/
theorem Settled.post {sender receiver : T} (h : Settled w) (hsender : w.status sender = .ready)
    (hreceiver : w.status receiver ≠ .receiving) :
    Settled { w.move sender (.sending receiver) with
      mailbox := update w.mailbox receiver (w.mailbox receiver ++ [sender]) } := by
  have hnot : ∀ other, sender ∉ w.mailbox other := by
    intro other hmem
    rw [h.mem_mailbox, hsender] at hmem
    simp at hmem
  refine ⟨?_, ?_, ?_⟩
  · intro task other
    simp only [status_move, update_apply]
    by_cases htask : task = sender
    · subst htask
      rw [if_pos rfl]
      split_ifs with hother
      · simp [hother]
      · simp [hnot other, Ne.symm hother]
    · rw [if_neg htask, ← h.mem_mailbox]
      split_ifs with hother
      · simp [htask, hother]
      · rfl
  · intro other
    simp only [update_apply]
    split_ifs
    · rw [List.nodup_append_comm, List.singleton_append, List.nodup_cons]
      exact ⟨hnot receiver, h.nodup receiver⟩
    · exact h.nodup other
  · intro other
    simp only [status_move, update_apply]
    split_ifs with hsame hother hother
    · simp
    · simp
    · intro hreceives
      rw [hother] at hreceives
      exact absurd hreceives hreceiver
    · exact h.empty other

/-- The first of a mailbox is taken. -/
theorem Settled.take {sender receiver : T} {rest : List T} (h : Settled w)
    (hmailbox : w.mailbox receiver = sender :: rest) :
    Settled { w.move sender .awaitingReply with mailbox := update w.mailbox receiver rest } := by
  have hnodup := h.nodup receiver
  rw [hmailbox, List.nodup_cons] at hnodup
  have hsends := h.sending_of_mailbox hmailbox
  refine ⟨?_, ?_, ?_⟩
  · intro task other
    have hmem := h.mem_mailbox task other
    simp only [status_move, update_apply]
    by_cases htask : task = sender
    · subst htask
      rw [hsends, Status.sending.injEq] at hmem
      rw [if_pos rfl]
      split_ifs with hother
      · simpa using hnodup.1
      · simpa [hmem] using Ne.symm hother
    · rw [if_neg htask, ← hmem]
      split_ifs with hother
      · rw [hother, hmailbox, List.mem_cons]
        exact (or_iff_right htask).symm
      · rfl
  · intro other
    simp only [update_apply]
    split_ifs
    · exact hnodup.2
    · exact h.nodup other
  · intro other
    simp only [status_move, update_apply]
    split_ifs with hsame hother hother
    · simp
    · simp
    · intro hreceives
      have hnone := h.empty other hreceives
      rw [hother, hmailbox] at hnone
      simp at hnone
    · exact h.empty other

/-- A mailbox changes when a message is sent to its task and when the task takes one. -/
theorem Op.mailbox_apply [DecidableEq E] {op : Op T E} {task : T} (hsend : op ≠ .send task)
    (hreceive : op = .receive → task = w.running → w.mailbox task = []) :
    (op.apply w).mailbox task = w.mailbox task := by
  cases op with
  | send receiver =>
      have hne : task ≠ receiver := fun heq => hsend (heq ▸ rfl)
      rw [apply]
      split_ifs
      · rfl
      · rfl
      · exact update_of_ne hne _ _
  | receive =>
      cases hmailbox : w.mailbox w.running with
      | nil =>
          rw [apply_receive_of_nil hmailbox]
          rfl
      | cons sender rest =>
          rw [apply_receive_of_cons hmailbox]
          refine update_of_ne (fun hrunning => ?_) _ _
          have hnone := hreceive rfl hrunning
          rw [hrunning, hmailbox] at hnone
          exact absurd hnone (List.cons_ne_nil _ _)
  | create new => cases new <;> rfl
  | interrupt event woken => cases woken <;> rfl
  | reply sender =>
      rw [apply]
      split_ifs <;> rfl
  | _ => rfl

end Settled

section Step

variable [DecidableEq T] [DecidableEq E] {w w' : World T E} {op : Op T E}

/-- What an operation does keeps the mailboxes right. -/
theorem Sound.settled_apply (h : Sound w) (hop : op.Enabled w) : Settled (op.apply w) := by
  have hrunning : ∀ receiver, w.status w.running ≠ .sending receiver := by
    simp [h.running]
  cases op with
  | create new =>
      cases new with
      | none => exact h.toSettled
      | some new =>
          have hunborn : w.status new = .unborn := hop
          exact h.move (by simp [hunborn]) (by simp) (by simp)
  | exit => exact h.move hrunning (by simp) (by simp)
  | send receiver =>
      rw [Op.apply]
      split_ifs with hnobody hreceives
      · exact h.toSettled
      · have hsender : Settled (w.move w.running .awaitingReply) :=
          h.move hrunning (by simp) (by simp)
        have hne : receiver ≠ w.running := by
          rintro rfl
          rw [h.running] at hreceives
          simp at hreceives
        refine hsender.move ?_ (by simp) (by simp)
        simp [hne, hreceives]
      · exact h.post h.running hreceives
  | receive =>
      rw [Op.apply]
      split
      next hempty => exact h.move hrunning (by simp) fun _ => hempty
      next sender rest hmailbox => exact h.take hmailbox
  | reply sender =>
      rw [Op.apply]
      split_ifs with hwaits
      · exact h.move (by simp [hwaits]) (by simp) (by simp)
      · exact h.toSettled
  | await event => exact h.move hrunning (by simp) (by simp)
  | interrupt event woken =>
      cases woken with
      | none => exact h.toSettled
      | some woken =>
          have hwaits : w.status woken = .awaiting event := hop
          exact h.move (by simp [hwaits]) (by simp) (by simp)
  | other => exact h.toSettled

theorem Sound.step (h : Sound w) (hstep : Step w op w') : Sound w' := by
  obtain ⟨hop, next, hnext, rfl⟩ := hstep
  exact ⟨⟨(h.settled_apply hop).mem_mailbox, (h.settled_apply hop).nodup,
    (h.settled_apply hop).empty⟩, hnext⟩

theorem sound_of_reachable {allowed : World T E → Op T E → Prop}
    (hreachable : Reachable (system T E) allowed w) : Sound w :=
  hreachable.invariant (fun _ => Initial.sound) fun h _ hstep => h.step hstep

end Step

/-! ## What a task waits for -/

section Waits

variable [DecidableEq T] [DecidableEq E] {w w' : World T E} {op : Op T E} {task : T}

/-- A task that does not run keeps what it does, or the operation is what it waits for. -/
inductive Released (w : World T E) (task : T) : Op T E → Prop
  | created (hstatus : w.status task = .unborn) : Released w task (.create (some task))
  | received (hstatus : w.status task = .receiving) : Released w task (.send task)
  | taken (hstatus : w.status task = .sending w.running) : Released w task .receive
  | answered (hstatus : w.status task = .awaitingReply) : Released w task (.reply task)
  | woken {event : E} (hstatus : w.status task = .awaiting event) :
      Released w task (.interrupt event (some task))

/-- Only what a task waits for changes what it does. -/
theorem Sound.released (h : Sound w) (hstep : Step w op w') (htask : task ≠ w.running)
    (hchanges : w'.status task ≠ w.status task) : Released w task op := by
  obtain ⟨hop, next, _, rfl⟩ := hstep
  have hmoves : ∀ other status, ((w.move other status).status task ≠ w.status task) →
      task = other := by
    intro other status hmoves
    by_contra hother
    exact hmoves (by simp [hother])
  cases op with
  | create new =>
      cases new with
      | none => exact absurd rfl hchanges
      | some new =>
          obtain rfl := hmoves _ _ hchanges
          exact .created hop
  | exit => exact absurd (hmoves _ _ hchanges) htask
  | send receiver =>
      simp only [Op.apply] at hchanges
      split_ifs at hchanges with hnobody hreceives
      · exact absurd rfl hchanges
      · by_cases hreceiver : task = receiver
        · subst hreceiver
          exact .received hreceives
        · simp [hreceiver, htask] at hchanges
      · exact absurd (hmoves _ _ hchanges) htask
  | receive =>
      simp only [Op.apply] at hchanges
      split at hchanges
      next hempty => exact absurd (hmoves _ _ hchanges) htask
      next sender rest hmailbox =>
        obtain rfl := hmoves _ _ hchanges
        refine .taken ?_
        rw [← h.mem_mailbox, hmailbox]
        exact List.mem_cons_self
  | reply sender =>
      simp only [Op.apply] at hchanges
      split_ifs at hchanges with hwaits
      · obtain rfl := hmoves _ _ hchanges
        exact .answered hwaits
      · exact absurd rfl hchanges
  | await event => exact absurd (hmoves _ _ hchanges) htask
  | interrupt event woken =>
      cases woken with
      | none => exact absurd rfl hchanges
      | some woken =>
          obtain rfl := hmoves _ _ hchanges
          exact .woken hop
  | other => exact absurd rfl hchanges

end Waits

/-! ## Tasks that wait for each other -/

/-- Every task of the set has ended, or sends to one of the set. -/
def Stuck (w : World T E) (tasks : Set T) : Prop :=
  ∀ task ∈ tasks, w.status task = .ended ∨ ∃ receiver ∈ tasks, w.status task = .sending receiver

theorem Stuck.not_running {w : World T E} {tasks : Set T} (h : Stuck w tasks) (hsound : Sound w) :
    w.running ∉ tasks := by
  intro hmem
  rcases h w.running hmem with hended | ⟨receiver, _, hsends⟩
  · rw [hsound.running] at hended
    simp at hended
  · rw [hsound.running] at hsends
    simp at hsends

section Stuck

variable [DecidableEq T] [DecidableEq E] {w w' : World T E} {op : Op T E} {task : T}

/-- No step moves a task of such a set. -/
theorem Stuck.status_eq {tasks : Set T} (h : Stuck w tasks) (hsound : Sound w)
    (hstep : Step w op w') (htask : task ∈ tasks) : w'.status task = w.status task := by
  have hrunning := h.not_running hsound
  by_contra hchanges
  have hne : task ≠ w.running := fun heq => hrunning (heq ▸ htask)
  have hreleased := hsound.released hstep hne hchanges
  rcases h task htask with hended | ⟨receiver, hmem, hsends⟩
  · cases hreleased <;> simp_all
  · cases hreleased with
    | taken hstatus =>
        rw [hsends, Status.sending.injEq] at hstatus
        exact hrunning (hstatus ▸ hmem)
    | _ => simp_all

theorem Stuck.step {tasks : Set T} (h : Stuck w tasks) (hsound : Sound w)
    (hstep : Step w op w') : Stuck w' tasks := by
  intro task htask
  rw [h.status_eq hsound hstep htask]
  exact h task htask

/-- Such a set stays as it is in every run. -/
theorem Stuck.path {tasks : Set T} {allowed : World T E → Op T E → Prop} (h : Stuck w tasks)
    (hsound : Sound w) (hpath : Path (system T E) allowed w w') :
    Sound w' ∧ Stuck w' tasks ∧ ∀ task ∈ tasks, w'.status task = w.status task := by
  apply hpath.preserves _ ⟨hsound, h, fun _ _ => rfl⟩
  rintro v op v' ⟨hsound, hstuck, hsame⟩ _ hstep
  refine ⟨hsound.step hstep, hstuck.step hsound hstep, fun task htask => ?_⟩
  rw [hstuck.status_eq hsound hstep htask, hsame task htask]

end Stuck

end Rtk.Messaging
