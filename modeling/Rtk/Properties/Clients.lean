import Mathlib.Data.Int.Interval
import Mathlib.Order.Interval.Finset.Basic
import Rtk.Properties.Reuse
import Rtk.Properties.Tids
import Rtk.Usr.ClockServer
import Rtk.Usr.RpsServer
import Rtk.Usr.SemaphoreServer

/-!
# Records of clients

The servers keep a record for each client in an array of `MAX_TASKS` elements, at the tid of
the client.  Tids name descriptors only modulo `MAX_TASKS`: the first task of a descriptor
has a record in the array, and no later one has.
-/

namespace Rtk.Kernel

open Function
open Rtk.Lib
open Rtk.Lib.QueueHeap
open Rtk.Transition

/-! ## The records that requests use -/

/-- A request to one of the three servers, and the semaphores as the request finds them. -/
inductive ClientRequest (Q : Type*) where
  | clock (req : ClockServer.ClockRequest)
  | semaphore (server : SemaphoreServer.State Q) (req : SemaphoreServer.SemReq Q)
  | rps (req : RpsServer.RpsRequest)

/-- The element of `nodes` or `games` that the server uses for a request. -/
def ClientRequest.element {Q : Type*} (senderTid : ℤ) : ClientRequest Q → Option ℤ
  | clock req => ClockServer.State.element senderTid req
  | semaphore server req => server.element senderTid req
  | rps req => RpsServer.State.element senderTid req

def Census.firstIn (census : Census) (index : ℤ) : Option (ℤ × ℤ) :=
  census.created.find? fun entry => entry.1 = index

section Elements

variable {Q : Type*} {senderTid : ℤ}

/-- `ClockServer` writes to the element of the request. -/
theorem tid_answer {s s' : ClockServer.State} {fuel : ℕ} {req : ClockServer.ClockRequest}
    {replies : List ClockServer.Reply}
    (hanswer : s.answer fuel senderTid req = some (replies, s')) :
    s'.tid = match ClockServer.State.element senderTid req with
      | some index => update s.tid index senderTid
      | none => s.tid := by
  have hdelay : ∀ {priority s'}, s.delay fuel senderTid priority = some s' →
      s'.tid = update s.tid senderTid senderTid := by
    intro priority s' hdelay
    rw [ClockServer.State.delay, Option.map_eq_some_iff] at hdelay
    obtain ⟨queue, _, rfl⟩ := hdelay
    rfl
  have huses : ∀ {priority : ByteMemory.Word},
      (s.delay fuel senderTid priority).map (fun s => ([], s)) = some (replies, s') →
      s'.tid = update s.tid senderTid senderTid := by
    intro priority hmap
    rw [Option.map_eq_some_iff] at hmap
    obtain ⟨_, hinsert, heq⟩ := hmap
    rw [← (Prod.mk.inj heq).2]
    exact hdelay hinsert
  rw [ClockServer.State.answer] at hanswer
  by_cases hdelays : req.type = ClockServer.csDelay ∨ req.type = ClockServer.csDelayUntil
  · rw [ClockServer.State.element, if_pos hdelays]
    rcases hdelays with htype | htype
    · rw [if_neg (by rw [htype]; decide), if_pos htype] at hanswer
      exact huses hanswer
    · rw [if_neg (by rw [htype]; decide), if_neg (by rw [htype]; decide), if_pos htype]
        at hanswer
      exact huses hanswer
  · rw [ClockServer.State.element, if_neg hdelays]
    rw [not_or] at hdelays
    rw [if_neg hdelays.1, if_neg hdelays.2] at hanswer
    split_ifs at hanswer
    · obtain ⟨_, rfl⟩ := Prod.mk.inj (Option.some.inj hanswer)
      rfl
    · obtain ⟨_, rfl⟩ := Prod.mk.inj (Option.some.inj hanswer)
      rfl
    · obtain ⟨_, rfl⟩ := Prod.mk.inj (Option.some.inj hanswer)
      rfl

/-- `SemaphoreServer` writes to the element of the request. -/
theorem tid_serve [DecidableEq Q] (s : SemaphoreServer.State Q)
    (req : SemaphoreServer.SemReq Q) :
    (s.serve senderTid req).2.tid = match s.element senderTid req with
      | some index => update s.tid index senderTid
      | none => s.tid := by
  rw [SemaphoreServer.State.serve, SemaphoreServer.State.element]
  by_cases hacquires : req.type = SemaphoreServer.semV
  · rw [if_pos hacquires, SemaphoreServer.State.acquire]
    simp only [hacquires, true_and, update_self]
    split_ifs <;> rfl
  · have hnone : ¬(req.type = SemaphoreServer.semV ∧ (s.counter req.sem - 1).toInt < 0) :=
      fun h => hacquires h.1
    rw [if_neg hacquires, if_neg hnone]
    split_ifs
    · rw [SemaphoreServer.State.release]
      split_ifs <;> rfl
    · rfl

/-- `RpsServer` does nothing for a request that uses no element. -/
theorem serve_of_element_eq_none {s : RpsServer.State} {req : RpsServer.RpsRequest}
    (hnone : RpsServer.State.element senderTid req = none) : s.serve senderTid req = ([], s) := by
  rw [RpsServer.State.element] at hnone
  split_ifs at hnone with huses
  rw [not_or, not_or] at huses
  rw [RpsServer.State.serve, if_neg huses.1, if_neg huses.2.1, if_neg huses.2.2]

end Elements

/-! ## The first task of a descriptor -/

/-- What every run keeps: the tasks in use and the senders of messages are in the census,
and the first task of a descriptor has its index as tid. -/
structure Introduced (s : State) (census : Census) : Prop where
  enrolled : Enrolled s census
  tabled : Tabled s
  allocated : ∀ {index}, InTable index → Allocated s index →
    (index, (s.task index).tid) ∈ census.created
  unused : ∀ {index}, InTable index → census.firstIn index = none →
    (s.task index).tid = index - maxTasks
  first : ∀ {index entry}, census.firstIn index = some entry → entry = (index, index)
  linked : ∃ l, Coherent s l ∧ ∀ {queue index}, index ∈ l.queues queue →
    (index, (s.node index).fromTid) ∈ census.created
  taken : ∀ {tid n}, .taken tid n ∈ s.log → (slot n.fromTid, n.fromTid) ∈ census.created

section Introduced

variable {s s' : State} {l : Layout} {census : Census} {action : Action}

/-- A round gives a descriptor the tid of the task that is created in it, and leaves the
others theirs. -/
theorem Coherent.tid_cases (h : Coherent s l) (htabled : Tabled s) (hsafe : Safe s action)
    (hstep : Step s action s') (index : ℤ) :
    createdBy s action = some (index, (s'.task index).tid) ∧
        (s'.task index).tid = (s.task index).tid + maxTasks ∨
      (s'.task index).tid = (s.task index).tid ∧
        ∀ tid, createdBy s action ≠ some (index, tid) := by
  have hrunning : s.currentTask = some s.current := by
    rw [h.dispatched.current, h.dispatched.current_eq]
  obtain ⟨haccounts, _⟩ := htabled.accounts_step hrunning hstep
  have htid : (s'.task index).tid = (openedAccounts s action index).tid := by
    have hbooked := congrArg Account.tid (congrFun haccounts index)
    rwa [tid_bookedAccounts] at hbooked
  cases hcreated : createdBy s action with
  | none =>
      rw [openedAccounts_of_none hcreated] at htid
      exact .inr ⟨htid, nofun⟩
  | some entry =>
      obtain ⟨new, tid⟩ := entry
      by_cases hindex : index = new
      · subst new
        obtain ⟨_, hmore, hnew⟩ := h.tid_of_createdBy hsafe hstep hcreated
        rw [hnew]
        exact .inl ⟨rfl, hmore⟩
      · rw [openedAccounts_of_some hcreated, update_of_ne hindex] at htid
        refine .inr ⟨htid, ?_⟩
        intro tid heq
        exact hindex (Prod.mk.inj (Option.some.inj heq)).1.symm

theorem firstIn_record (census : Census) (s : State) (action : Action) (s' : State)
    (index : ℤ) :
    (census.record s action s').firstIn index =
      (census.firstIn index).or ((createdBy s action).filter fun entry => entry.1 = index) := by
  rw [Census.firstIn, Census.record, List.find?_append, Census.firstIn]
  congr 1
  cases createdBy s action with
  | none => rfl
  | some entry => simp [Option.filter]

theorem Introduced.step (h : Introduced s census) (hsafe : Safe s action)
    (hstep : Step s action s') : Introduced s' (census.record s action s') := by
  obtain ⟨l, hcoherent, hlinked⟩ := h.linked
  have hrunning : s.currentTask = some s.current := by
    rw [hcoherent.dispatched.current, hcoherent.dispatched.current_eq]
  have htids := hcoherent.tid_cases h.tabled hsafe hstep
  have hmono : ∀ {entry}, entry ∈ census.created →
      entry ∈ (census.record s action s').created :=
    fun hmem => mem_created_record.mpr (.inl hmem)
  -- who sends is in use
  have hslot := hcoherent.dispatched.slot_tid
  have hsender := hmono (h.allocated hcoherent.dispatched.inTable hcoherent.dispatched.allocated)
  obtain ⟨queues, middle, saved, heffect, hsaved, hactivate⟩ := hcoherent.round hsafe hstep
  have hentered := hcoherent.enter action.trap
  obtain ⟨hquiet, l', hcoherent', rfl⟩ := heffect.finish hentered hsaved hactivate
  refine ⟨h.enrolled.step hsafe hstep, (h.tabled.accounts_step hrunning hstep).2.2,
    ?_, ?_, ?_, ⟨l', hcoherent', ?_⟩, ?_⟩
  · intro index hindex halloc
    rcases htids index with ⟨hcreated, _⟩ | ⟨hsame, _⟩
    · exact mem_created_record.mpr (.inr hcreated)
    · have hold : Allocated s index := by
        rcases (hcoherent.step hsafe hstep).2 index with ⟨_, hold⟩ | hlt
        · exact hold halloc
        · rw [hsame] at hlt
          exact absurd hlt (Int.lt_irrefl _)
      rw [hsame]
      exact hmono (h.allocated hindex hold)
  · intro index hindex hnone
    rw [firstIn_record, Option.or_eq_none_iff] at hnone
    rcases htids index with ⟨hcreated, _⟩ | ⟨hsame, _⟩
    · simp [hcreated] at hnone
    · rw [hsame]
      exact h.unused hindex hnone.1
  · intro index entry hfirst
    rw [firstIn_record, Option.or_eq_some_iff] at hfirst
    rcases hfirst with hold | ⟨hnone, hnew⟩
    · exact h.first hold
    · obtain ⟨hcreated, hindex⟩ := Option.filter_eq_some_iff.mp hnew
      obtain ⟨other, tid⟩ := entry
      obtain rfl : other = index := of_decide_eq_true hindex
      obtain ⟨htable, htid, _⟩ := hcoherent.tid_of_createdBy hsafe hstep hcreated
      rw [htid, h.unused htable hnone, Int.sub_add_cancel]
  · intro queue index hmem
    rw [hquiet.node]
    rcases heffect.linked_cases hentered hmem with ⟨hold, hfrom, _⟩ | ⟨rfl, _, hfrom, _⟩
    · rw [hfrom]
      exact hmono (hlinked hold)
    · rw [hfrom]
      exact hsender
  · intro tid n htaken
    rcases heffect.taken_cases (taken_of_log_quiet hquiet.log htaken) with
      hold | hfrom | ⟨queue, index, hmem, hfrom⟩
    · exact hmono (h.taken hold)
    · have hown : n.fromTid = (s.task l.current).tid := hfrom
      rw [hown, hslot]
      exact hsender
    · have hnode : n.fromTid = (s.node index).fromTid := hfrom
      rw [hnode, (hcoherent.messages.linked hmem).slot_from]
      exact hmono (hlinked hmem)

end Introduced

end Rtk.Kernel
