import Rtk.Invariant.Stations

/-!
# Ticks

Every timer interrupt should be counted in `num_ticks` once the tick has travelled from the
notifier to the server.  `HandleIrq` clears the timer whether or not the notifier waits for
it, so a tick is counted only if the interrupt finds the notifier waiting.
-/

namespace Rtk.ClockServer

open Rtk.ByteMemory
open Rtk.Kernel
open Rtk.Transition

/-! ## Counting -/

section Counting

variable {clock : Clock} {t t' : Ticks} {action : Kernel.Action}

/-- The kernel has the two tasks where they are, and every timer interrupt is counted or in
flight. -/
structure Ticks.Kept (clock : Clock) (t : Ticks) : Prop where
  reachable : Reachable Kernel.kernel NoDestroy t.kernel
  notifierAlive : isTaskAlive t.kernel clock.notifier
  serverAlive : isTaskAlive t.kernel clock.server
  notifies : t.notifier.Fits clock t.kernel
  serves : t.phase.Fits clock t.kernel
  follows : t.phase.Follows t.server
  bounded : t.interrupts < 2 ^ 31
  counted : t.Counted clock

theorem Ticks.Starts.kept (h : t.Starts clock) : t.Kept clock where
  reachable := h.reachable
  notifierAlive := h.notifierAlive
  serverAlive := h.serverAlive
  notifies := by
    rw [h.notifier]
    exact .inr ⟨h.blocked, h.event⟩
  serves := h.fits
  follows := h.follows
  bounded := by
    rw [h.interrupts]
    decide
  counted := by
    rw [Counted, inFlight, h.notifier, h.blocked, h.uncounted, h.numTicks, h.interrupts]
    rfl

theorem Phase.Follows.called {phase : Phase} {server : State} (h : phase.Follows server) :
    phase.called.Follows server := by
  cases phase with
  | receiving node => trivial
  | answering req replies next => exact h
  | releasing replies => cases replies <;> trivial

theorem Phase.Follows.took {phase : Phase} {server : State} (h : phase.Follows server)
    (takings : List (ℤ × MsgQueueNode)) :
    (takings.foldl (took clock) phase).Follows server := by
  induction takings generalizing phase with
  | nil => exact h
  | cons taking rest ih =>
      apply ih
      obtain ⟨tid, node⟩ := taking
      cases phase with
      | receiving waiting =>
          cases waiting with
          | none =>
              rw [Phase.took]
              split_ifs <;> trivial
          | some waiting => trivial
      | answering req replies next => exact h
      | releasing replies => trivial

/-- What a round preserves. -/
theorem Ticks.Kept.round (h : t.Kept clock) (hspaced : t.Spaced clock (.round action))
    (hround : t.Round clock action t') : t'.Kept clock := by
  obtain ⟨hno, hspace, hshort⟩ := hspaced
  obtain ⟨l, hundestroyed⟩ := undestroyed_of_reachable h.reachable
  obtain ⟨middle, events, hhandles, houtcome, hresumed, hlog⟩ :=
    hundestroyed.exists_outcome hno hround.step
  obtain ⟨events', hlog', hphase⟩ := hround.phase
  obtain rfl : events' = events := List.append_cancel_left (hlog'.symm.trans hlog)
  have hnode : (action.call? ≠ none → slot clock.server ≠ l.current) →
      (action.call? ≠ none → slot clock.server ∉ l.queues l.current) →
        middle.node (slot clock.server) = t.kernel.node (slot clock.server) := by
    intro hother hqueue
    rw [← hundestroyed.node_eq hno hround.step hother hqueue, hresumed.quiet.node]
  have hlength : ∀ tid msg msglen,
      callOf t.kernel action clock.server = some (.receive tid msg msglen) →
        (l.queues l.current).length ≤ 1 := by
    intro tid msg msglen hcall
    obtain ⟨nodes, hcontents, hle⟩ := hshort tid msg msglen hcall
    rw [(exists_trap_of_callOf hundestroyed hcall).1,
      (hundestroyed.messages.represents.contents _).unique hcontents]
    exact hle
  obtain ⟨hnotifies, hmoved⟩ := h.notifies.round hundestroyed h.notifierAlive h.serverAlive hno
    hhandles houtcome hround.notifierCall fun htick => (hspace htick).1
  obtain ⟨hserves, htaken⟩ := h.serves.round hundestroyed h.serverAlive hno hhandles houtcome
    hnode hround.serverCall hlength
  obtain ⟨hnotifies', hkept⟩ := hnotifies.resumed hresumed
  have hserves' := hserves.resumed hresumed
  rw [← hround.notifier] at hnotifies' hkept hmoved
  rw [← hphase] at hserves' htaken
  refine ⟨h.reachable.step hno hround.step, ?_, ?_, hnotifies', hserves', ?_, ?_, ?_⟩
  · exact hundestroyed.alive hno hround.step h.notifierAlive hnotifies'.value_pos
  · exact hundestroyed.alive hno hround.step h.serverAlive hserves'.value_pos
  · rw [hround.server, hphase]
    apply Phase.Follows.took
    split_ifs
    · exact h.follows.called
    · exact h.follows
  · rw [hround.interrupts]
    split_ifs with htick
    · exact (hspace htick).2
    · exact h.bounded
  · have hflight : inFlight clock t'.kernel t'.notifier t'.phase =
        inFlight clock t.kernel t.notifier t.phase + if IsTick action then 1 else 0 := by
      rw [inFlight, inFlight, hkept, htaken]
      omega
    have hcounted : (t.interrupts : ℤ) = _ := h.counted
    calc
      (t'.interrupts : ℤ) = (t.interrupts : ℤ) + (if IsTick action then 1 else 0 : ℕ) := by
        rw [hround.interrupts, Int.natCast_add]
      _ = t.server.numTicks.toInt + (inFlight clock t.kernel t.notifier t.phase +
          if IsTick action then 1 else 0 : ℕ) := by
        rw [hcounted, Int.natCast_add, Int.add_assoc]
      _ = t'.server.numTicks.toInt + inFlight clock t'.kernel t'.notifier t'.phase := by
        rw [hround.server, hflight]

/-- The `switch` counts a tick. -/
theorem State.numTicks_answer {server next : State} {fuel : ℕ} {senderTid : ℤ}
    {req : ClockRequest} {replies : List Reply}
    (hanswer : server.answer fuel senderTid req = some (replies, next)) :
    next.numTicks = server.numTicks + if req.type = csTick then 1 else 0 := by
  have hdelays : ∀ {priority : Word}, req.type ≠ csTick →
      (server.delay fuel senderTid priority).map (fun s => ([], s)) = some (replies, next) →
        next.numTicks = server.numTicks + if req.type = csTick then 1 else 0 := by
    intro priority hne hdelay
    rw [State.delay, Option.map_map, Option.map_eq_some_iff] at hdelay
    obtain ⟨queue, _, heq⟩ := hdelay
    rw [← (Prod.mk.inj heq).2, if_neg hne]
    exact (BitVec.add_zero _).symm
  rw [State.answer] at hanswer
  split_ifs at hanswer with htime hdelay huntil htick
  · rw [← (Prod.mk.inj (Option.some.inj hanswer)).2, htime]
    exact (BitVec.add_zero _).symm
  · exact hdelays (by rw [hdelay]; decide) hanswer
  · exact hdelays (by rw [huntil]; decide) hanswer
  · rw [← (Prod.mk.inj (Option.some.inj hanswer)).2, if_pos htick]
  · rw [← (Prod.mk.inj (Option.some.inj hanswer)).2, if_neg htick]
    exact (BitVec.add_zero _).symm

/-- What the server preserves when it reads a request. -/
theorem Ticks.Kept.read (h : t.Kept clock) {senderTid : ℤ} {req : ClockRequest}
    (hspaced : t.Spaced clock (.read senderTid req)) (hread : t.Read clock senderTid req t') :
    t'.Kept clock := by
  obtain ⟨_, node, fuel, replies, next, hphase, hreads, hanswer, rfl⟩ := hread
  have hserves := h.serves
  rw [hphase] at hserves
  obtain ⟨hfrom, htick⟩ := hreads hserves.2
  have hcounted := h.counted
  rw [Counted, inFlight, hphase] at hcounted
  refine ⟨h.reachable, h.notifierAlive, h.serverAlive, h.notifies, hserves.1,
    State.numTicks_answer hanswer, h.bounded, ?_⟩
  have hsame : (Phase.receiving (some node)).ticks clock =
      (Phase.answering req replies next).ticks clock := by
    apply if_congr _ rfl rfl
    exact ⟨htick, fun htype => by
      by_contra hne
      exact hspaced (hfrom ▸ hne) htype⟩
  rw [hsame] at hcounted
  exact hcounted

/-- What the server preserves when it leaves the `switch`. -/
theorem Ticks.Kept.settle (h : t.Kept clock) (hsettle : t.Settle clock t') :
    t'.Kept clock := by
  obtain ⟨_, req, fuel, replies, next, head, hphase, hrelease, rfl⟩ := hsettle
  have hserves := h.serves
  have hfollows := h.follows
  have hcounted := h.counted
  rw [hphase] at hserves hfollows
  rw [Counted, inFlight, hphase] at hcounted
  refine ⟨h.reachable, h.notifierAlive, h.serverAlive, h.notifies, hserves, trivial, h.bounded,
    ?_⟩
  have hbounded := h.bounded
  have hnext : next.numTicks.toInt = t.server.numTicks.toInt +
      (Phase.answering req [] next).ticks clock := by
    rw [show next.numTicks = _ from hfollows, Phase.ticks]
    rw [Phase.ticks] at hcounted
    split_ifs with htick
    · rw [if_pos htick] at hcounted
      rw [toInt_add_one]
      · rfl
      · omega
    · have hsame : t.server.numTicks + (0 : Word) = t.server.numTicks := BitVec.add_zero _
      rw [hsame]
      omega
  calc
    (t.interrupts : ℤ) = t.server.numTicks.toInt +
        (t.notifier.ticks (t.kernel.task (slot clock.notifier)).state +
          (Phase.answering req [] next).ticks clock : ℕ) := hcounted
    _ = next.numTicks.toInt + (t.notifier.ticks (t.kernel.task (slot clock.notifier)).state : ℕ)
        := by
      rw [hnext]
      omega

/-- What holds in every run in which each timer interrupt finds the notifier waiting. -/
theorem Ticks.kept_of_reachable (hreachable : Reachable (ticks clock) (Spaced clock) t) :
    t.Kept clock := by
  apply hreachable.invariant
  · exact fun _ hstarts => hstarts.kept
  · intro t action t' h hspaced hstep
    cases action with
    | round action => exact h.round hspaced hstep
    | read senderTid req => exact h.read hspaced hstep
    | settle => exact h.settle hstep

/-- Every timer interrupt is counted in `num_ticks` or in flight, in every run in which each
one finds the notifier waiting. -/
theorem Ticks.counted_of_reachable (hreachable : Reachable (ticks clock) (Spaced clock) t) :
    t.Counted clock :=
  (kept_of_reachable hreachable).counted

end Counting

/-! ## Computed runs -/

section Rounds

variable {clock : Clock} {t t' : Ticks} {s' : Kernel.State} {action : Kernel.Action}

/-- The clock after a round of the kernel that ends in `s'`. -/
def Ticks.after (clock : Clock) (t : Ticks) (action : Kernel.Action) (s' : Kernel.State) :
    Ticks where
  kernel := s'
  notifier :=
    if (callOf t.kernel action clock.notifier).isSome then t.notifier.next else t.notifier
  phase := ((s'.log.drop t.kernel.log.length).filterMap Event.taking).foldl (Phase.took clock)
    (if (callOf t.kernel action clock.server).isSome then t.phase.called else t.phase)
  server := t.server
  interrupts := t.interrupts + if IsTick action then 1 else 0

/-- The calls of the two tasks are those of their loops. -/
def Ticks.Loops (clock : Clock) (t : Ticks) (action : Kernel.Action) : Prop :=
  (∀ call ∈ callOf t.kernel action clock.notifier, t.notifier.call clock = call) ∧
    ∀ call ∈ callOf t.kernel action clock.server, t.phase.call clock = some call

instance (t : Ticks) : Decidable (t.Loops clock action) :=
  inferInstanceAs (Decidable (_ ∧ _))

/-- The server finds at most one message. -/
def Ticks.Single (clock : Clock) (t : Ticks) : Prop :=
  (t.kernel.msgQueues.queue (slot clock.server)).first =
    (t.kernel.msgQueues.queue (slot clock.server)).last

instance (t : Ticks) : Decidable (t.Single clock) :=
  inferInstanceAs (Decidable (_ = _))

theorem Ticks.round_after (hreachable : Reachable Kernel.kernel NoDestroy t.kernel)
    (hno : NoDestroy t.kernel action) (hloops : t.Loops clock action)
    (hstep : Kernel.Step t.kernel action s') :
    t.Round clock action (t.after clock action s') := by
  obtain ⟨l, hundestroyed⟩ := undestroyed_of_reachable hreachable
  obtain ⟨middle, events, _, _, _, hlog⟩ := hundestroyed.exists_outcome hno hstep
  refine ⟨hstep, hloops.1, hloops.2, rfl, ⟨events, hlog, ?_⟩, rfl, rfl⟩
  rw [after, hlog, List.drop_left]

theorem length_le_one_of_nodup {nodes : List ℤ} (hnodup : nodes.Nodup)
    (hends : nodes.head? = nodes.getLast?) : nodes.length ≤ 1 := by
  cases nodes with
  | nil => simp
  | cons head rest =>
      rcases List.eq_nil_or_concat rest with rfl | ⟨front, last, rfl⟩
      · simp
      · simp only [List.concat_eq_append] at hnodup hends
        rw [List.head?_cons, ← List.cons_append, List.getLast?_concat,
          Option.some.injEq] at hends
        simp [hends] at hnodup

/-- A round without a timer interrupt meets the condition. -/
theorem Ticks.Single.spaced (hreachable : Reachable Kernel.kernel NoDestroy t.kernel)
    (hsingle : t.Single clock) (hno : NoDestroy t.kernel action) (hquiet : ¬IsTick action) :
    t.Spaced clock (.round action) := by
  refine ⟨hno, fun htick => absurd htick hquiet, fun _ _ _ _ => ?_⟩
  obtain ⟨l, hundestroyed⟩ := undestroyed_of_reachable hreachable
  have hcontents := hundestroyed.messages.represents.contents (slot clock.server)
  refine ⟨_, hcontents, length_le_one_of_nodup hcontents.nodup ?_⟩
  rw [← hcontents.first, ← hcontents.last]
  exact hsingle

/-- Rounds of the kernel in which the two tasks make the calls of their loops. -/
def Ticks.rounds (clock : Clock) (fuel : ℕ) (t : Ticks) : List Kernel.Action → Option Ticks
  | [] => some t
  | action :: actions =>
      if t.Loops clock action ∧ t.Single clock then
        (Kernel.step t.kernel fuel action).bind fun s' =>
          (t.after clock action s').rounds clock fuel actions
      else none

theorem Ticks.reachable_of_rounds {fuel : ℕ} {actions : List Kernel.Action}
    (hreachable : Reachable (ticks clock) (Spaced clock) t)
    (hrounds : t.rounds clock fuel actions = some t')
    (hquiet : ∀ action ∈ actions, ∀ s, NoDestroy s action ∧ ¬IsTick action) :
    Reachable (ticks clock) (Spaced clock) t' := by
  induction actions generalizing t with
  | nil =>
      rw [rounds, Option.some.injEq] at hrounds
      exact hrounds ▸ hreachable
  | cons action actions ih =>
      rw [rounds] at hrounds
      split_ifs at hrounds with hchecks
      obtain ⟨s', hstep, hrest⟩ := Option.bind_eq_some_iff.mp hrounds
      have hkernel := (kept_of_reachable hreachable).reachable
      obtain ⟨hno, htick⟩ := hquiet action List.mem_cons_self t.kernel
      have hround : (ticks clock).step t (.round action) (t.after clock action s') :=
        round_after hkernel hno hchecks.1 ⟨fuel, hstep⟩
      exact ih (hreachable.step (hchecks.2.spaced hkernel hno htick) hround) hrest
        fun action hmem => hquiet action (List.mem_cons_of_mem _ hmem)

end Rounds

section Sample

/-- The server stays in its loop behind the `switch`. -/
theorem Phase.took_releasing {clock : Clock} (replies : List Reply)
    (takings : List (ℤ × MsgQueueNode)) :
    takings.foldl (took clock) (releasing replies) = releasing replies := by
  induction takings with
  | nil => rfl
  | cons taking rest ih => exact ih

/-- The two tasks have at most one tick while the server is behind the `switch`. -/
theorem Ticks.not_counted_of_releasing {clock : Clock} {t : Ticks} {replies : List Reply}
    (hphase : t.phase = .releasing replies)
    (hlost : t.server.numTicks.toInt + 1 < t.interrupts) : ¬t.Counted clock := by
  have hle : inFlight clock t.kernel t.notifier t.phase ≤ 1 := by
    have hnone : t.phase.ticks clock = 0 := by
      rw [hphase]
      rfl
    rw [inFlight, hnone, Nat.add_zero]
    generalize (t.kernel.task (slot clock.notifier)).state = state
    cases t.notifier <;> cases state <;> decide
  rw [Counted]
  omega

/-- The notifier and the server of a computed run. -/
def sampleClock : Clock where
  notifier := 4
  server := 3
  tick := 0x109e80
  senderTid := 0x107e80
  req := 0x107e90
  numTicks := 0x107ea0

/-- The first task creates the name server and the clock server, which registers and creates
the notifier; the notifier waits for the timer. -/
def sampleStart : List Kernel.Action :=
  [.call (.create 1 0x9000) (sampleTrap 0x103f00),
    .call .myTid (sampleTrap 0x105f00),
    .call (.receive 0x105e80 0x105e90 36) (sampleTrap 0x105f00),
    .call (.create 1 0x9100) (sampleTrap 0x103f00),
    .call (.send 2 0x107e80 36 0x107eb0 4) (sampleTrap 0x107f00),
    .call (.reply 3 0x105ed0 4) (sampleTrap 0x105f00),
    .call (.create 0 0x9200) (sampleTrap 0x107f00),
    .call .myParentTid (sampleTrap 0x109f00),
    .call (.awaitEvent picTimer01) (sampleTrap 0x109f00)]

def sampleTick (sp : ℕ) : Kernel.Action := .interrupt (-4) (sampleTrap sp)

/-- The clock at its start, with the server on its way to its first `Receive`. -/
def sampleTicks (s : Kernel.State) : Ticks where
  kernel := s
  notifier := .send
  phase := .releasing []
  server := { delayedQueue := ⟨none, fun _ => ⟨none, 0⟩⟩, tid := id, numTicks := 0 }
  interrupts := 0

/-- An interrupt is no call. -/
@[simp]
theorem callOf_sampleTick (s : Kernel.State) (sp : ℕ) (tid : ℤ) :
    callOf s (sampleTick sp) tid = none := by
  rw [callOf, sampleTick, Kernel.Action.call?, ite_self]

theorem Ticks.loops_interrupt (t : Ticks) (sp : ℕ) : t.Loops sampleClock (sampleTick sp) := by
  constructor <;> simp

theorem Ticks.phase_interrupt {t : Ticks} {replies : List Reply}
    (hphase : t.phase = .releasing replies) (sp : ℕ) (s' : Kernel.State) :
    (t.after sampleClock (sampleTick sp) s').phase = .releasing replies := by
  simp only [after, callOf_sampleTick, hphase]
  exact Phase.took_releasing replies _

def sampleSend : List Kernel.Action :=
  [.call (.send 3 0x109e80 8 nullAddress 0) (sampleTrap 0x109f00),
    .call (.receive 0x107e80 0x107e90 8) (sampleTrap 0x107f00),
    .call .pass (sampleTrap 0x105f00)]

/-- The server answers, and the notifier waits for the next interrupt. -/
def sampleReply : List Kernel.Action :=
  [.call (.reply 4 nullAddress 0) (sampleTrap 0x107f00),
    .call (.awaitEvent picTimer01) (sampleTrap 0x109f00),
    .call .pass (sampleTrap 0x105f00)]

/-- The server in the `switch`, once it has counted the tick. -/
def Ticks.counting (t : Ticks) : Ticks :=
  { t with phase := .answering ⟨csTick, 0⟩ [⟨4, none⟩]
             { t.server with numTicks := t.server.numTicks + 1 } }

/-- The sender of the message that the server has taken. -/
def Phase.sender? : Phase → Option ℤ
  | receiving (some node) => some node.fromTid
  | _ => none

theorem Phase.exists_of_sender {phase : Phase} {tid : ℤ} (hsender : phase.sender? = some tid) :
    ∃ node, phase = receiving (some node) ∧ node.fromTid = tid := by
  cases phase with
  | receiving node =>
      cases node with
      | none => simp [sender?] at hsender
      | some node => exact ⟨node, rfl, Option.some.inj hsender⟩
  | answering req replies next => simp [sender?] at hsender
  | releasing replies => simp [sender?] at hsender

/-- The variables behind the `switch`, once its replies are made. -/
def Phase.answered? : Phase → Option State
  | answering _ [] next => some next
  | _ => none

theorem Phase.exists_of_answered {phase : Phase} {next : State}
    (hanswered : phase.answered? = some next) : ∃ req, phase = answering req [] next := by
  cases phase with
  | receiving node => simp [answered?] at hanswered
  | answering req replies next' =>
      cases replies with
      | nil =>
          rw [answered?, Option.some.injEq] at hanswered
          exact ⟨req, by rw [hanswered]⟩
      | cons reply replies => simp [answered?] at hanswered
  | releasing replies => simp [answered?] at hanswered

/-- The notifier waits for the timer after the start. -/
theorem exists_sampleStart :
    ∃ s, Kernel.sampleRun sampleStart = some s ∧ (sampleTicks s).Starts sampleClock ∧
      Notifies sampleClock s := by
  have hruns : (Kernel.sampleRun sampleStart).map (fun s =>
      ((isTaskAlive s 4, isTaskAlive s 3), (s.task 4).state, (s.task 4).awaitingEventId,
        (s.task 3).state, (s.taskQueues.queue (.states .eventBlocked .highest)).first)) =
      some ((true, true), .eventBlocked, picTimer01, .ready, some 4) := by decide +kernel
  simp only [Option.map_eq_some_iff, Prod.mk.injEq] at hruns
  obtain ⟨s, hrun, ⟨hnotifier, hserver⟩, hblocked, hevent, hready, hhead⟩ := hruns
  have hreachable : Reachable Kernel.kernel NoDestroy s := by
    apply Kernel.reachable_of_rounds hrun
    simp [sampleStart, NoDestroy]
  refine ⟨s, hrun, ⟨hreachable, hnotifier, hserver, hblocked, hevent, rfl,
    .inl hready, trivial, rfl, rfl, rfl⟩, ?_⟩
  obtain ⟨l, hundestroyed⟩ := undestroyed_of_reachable hreachable
  have hrepresents := hundestroyed.dispatched.partition.represents
  refine ⟨l.lists, hrepresents, ?_⟩
  rw [(hrepresents.contents _).first, List.head?_eq_some_iff] at hhead
  obtain ⟨rest, hlist⟩ := hhead
  have hwaits : waitsFor s picTimer01 4 := decide_eq_true hevent
  rw [Priority.all, firstWaiting, hlist, List.find?_cons_of_pos hwaits, Option.some_or]
  rfl

/-- The tick of a timer interrupt is counted, and the notifier waits again. -/
theorem Ticks.counted_of_reachable_sample :
    ∃ t, Reachable (ticks sampleClock) (Spaced sampleClock) t ∧ t.interrupts = 1 ∧
      t.server.numTicks = 1 ∧ t.Counted sampleClock := by
  obtain ⟨s, hrun, hstarts, hnotifies⟩ := exists_sampleStart
  have hobserved : ((Kernel.sampleRun sampleStart).bind fun s =>
      (Kernel.step s 8 (sampleTick 0x105f00)).bind fun s' =>
        (((sampleTicks s).after sampleClock (sampleTick 0x105f00) s').rounds sampleClock 8
          sampleSend).bind fun t =>
        (t.counting.rounds sampleClock 8 sampleReply).map fun u =>
          (t.phase.sender?,
            u.phase.answered?.map fun next => (next.delayedQueue.first, next.numTicks),
            u.interrupts, decide (getCurrentTid t.kernel = 3 ∧ getCurrentTid u.kernel = 3))) =
      some (some 4, some (none, 1), 1, true) := by
    decide +kernel
  rw [hrun, Option.bind_some] at hobserved
  simp only [Option.bind_eq_some_iff, Option.map_eq_some_iff, Prod.mk.injEq,
    decide_eq_true_eq] at hobserved
  obtain ⟨s', hfirst, t, hsend, u, hreply, hsender, ⟨next, hanswered, hnone, hone⟩,
    hinterrupts, hreads, hsettles⟩ := hobserved
  have hwoken : (ticks sampleClock).step (sampleTicks s) (.round (sampleTick 0x105f00)) _ :=
    round_after hstarts.reachable trivial (loops_interrupt _ _) ⟨8, hfirst⟩
  have hspaced : (sampleTicks s).Spaced sampleClock (.round (sampleTick 0x105f00)) := by
    refine ⟨trivial, fun _ => ⟨hnotifies, (by decide : 0 + 1 < 2 ^ 31)⟩, ?_⟩
    intro tid msg msglen hcall
    simp at hcall
  have htaken : Reachable (ticks sampleClock) (Spaced sampleClock) t :=
    reachable_of_rounds ((Reachable.initial hstarts).step hspaced hwoken) hsend
      (by simp [sampleSend, NoDestroy, IsTick])
  -- the server reads the tick and counts it
  obtain ⟨node, htook, hfour⟩ := Phase.exists_of_sender hsender
  have hread : (ticks sampleClock).step t (.read 4 ⟨csTick, 0⟩) t.counting :=
    ⟨hreads, node, 0, _, _, htook, fun _ => ⟨hfour.symm, fun _ => rfl⟩, rfl, rfl⟩
  have hfrom : t.Spaced sampleClock (.read 4 ⟨csTick, 0⟩) := fun hother => absurd rfl hother
  have hcounted := reachable_of_rounds (htaken.step hfrom hread) hreply
    (by simp [sampleReply, NoDestroy, IsTick])
  -- behind the `switch` no delay is over
  obtain ⟨req, hphase⟩ := Phase.exists_of_answered hanswered
  have hsettle : (ticks sampleClock).step u .settle _ :=
    ⟨hsettles, req, 0, [], next, none, hphase, by rw [hnone]; rfl, rfl⟩
  have hfree : u.Spaced sampleClock .settle := trivial
  have hend := hcounted.step hfree hsettle
  exact ⟨_, hend, hinterrupts, hone, counted_of_reachable hend⟩

/-- The second timer interrupt before the notifier's next `AwaitEvent` is lost. -/
theorem Ticks.not_counted :
    ∃ t, Reachable (ticks sampleClock)
        (fun _ action => ∃ sp, action = .round (sampleTick sp)) t ∧
      t.interrupts = 2 ∧ ¬t.Counted sampleClock := by
  obtain ⟨s, hrun, hstarts, _⟩ := exists_sampleStart
  have hobserved : ((Kernel.sampleRun sampleStart).bind fun s =>
      (Kernel.step s 8 (sampleTick 0x105f00)).bind fun s' =>
        Kernel.step s' 8 (sampleTick 0x109f00)).isSome := by
    decide +kernel
  rw [hrun, Option.bind_some, Option.isSome_iff_exists] at hobserved
  obtain ⟨s'', hobserved⟩ := hobserved
  obtain ⟨s', hfirst, hsecond⟩ := Option.bind_eq_some_iff.mp hobserved
  have hno : NoDestroy s (sampleTick 0x105f00) := trivial
  have hround : (ticks sampleClock).step (sampleTicks s) (.round (sampleTick 0x105f00)) _ :=
    round_after hstarts.reachable hno (loops_interrupt _ _) ⟨8, hfirst⟩
  have hreachable : Reachable Kernel.kernel NoDestroy s' :=
    hstarts.reachable.step hno ⟨8, hfirst⟩
  have hround' : (ticks sampleClock).step
      ((sampleTicks s).after sampleClock (sampleTick 0x105f00) s')
      (.round (sampleTick 0x109f00)) _ :=
    round_after hreachable trivial (loops_interrupt _ _) ⟨8, hsecond⟩
  refine ⟨_, ((Reachable.initial hstarts).step ⟨_, rfl⟩ hround).step ⟨_, rfl⟩ hround', rfl, ?_⟩
  apply not_counted_of_releasing (phase_interrupt (phase_interrupt rfl _ _) _ _)
  exact (by decide : (0 : ℤ) + 1 < 2)

end Sample

end Rtk.ClockServer
