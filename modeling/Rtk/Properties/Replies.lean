import Rtk.Invariant.Settles

/-!
# Replies

In runs without `Destroy` the sender is blocked as long as its `Send` is outstanding, the
first `Reply` after its message was taken ends it, and every other `Reply` is refused.
-/

namespace Rtk.Kernel

open Function
open Rtk.ByteMemory
open Rtk.Lib
open Rtk.Transition

/-! ## Runs -/

/-- No `Send` is outstanding at the first activation. -/
theorem Booted.owed_eq {s : State} (hbooted : Booted s) : owed s = fun _ => none := by
  funext tid
  by_cases hvalid : isValidTid tid
  · have hindex := inTable_slot (isValidTid_iff.mp hvalid).1
    apply owed_of_not_sending
    rcases hbooted.state_cases hindex with hstate | hstate | hstate <;> rw [hstate] <;> decide
  · exact owed_of_not_valid hvalid

/-- The ledger of a run is what the states of the senders say. -/
theorem outstanding_of_reachable {g : Ledger} (hreachable : Reachable ledger LedgerNoDestroy g) :
    Reachable kernel NoDestroy g.state ∧ g.outstanding = owed g.state := by
  apply hreachable.invariant
  · rintro g ⟨hbooted, hnone⟩
    exact ⟨.initial hbooted, hnone.trans hbooted.owed_eq.symm⟩
  · rintro g action g' ⟨hkernel, howed⟩ hno ⟨hstep, events, hlog, heq⟩
    obtain ⟨l, hundestroyed⟩ := undestroyed_of_reachable hkernel
    obtain ⟨events', hlog', howed'⟩ := hundestroyed.settles_step hno hstep
    obtain rfl := List.append_cancel_left (hlog.symm.trans hlog')
    refine ⟨hkernel.step hno hstep, ?_⟩
    rw [heq, howed', howed]

/-- Every run of the kernel is the run of a ledger. -/
theorem exists_ledger {s : State} (hreachable : Reachable kernel NoDestroy s) :
    ∃ g, Reachable ledger LedgerNoDestroy g ∧ g.state = s := by
  apply hreachable.invariant
  · intro s hbooted
    exact ⟨⟨s, fun _ => none⟩, .initial ⟨hbooted, rfl⟩, rfl⟩
  · rintro s action s' ⟨g, hledger, rfl⟩ hno hstep
    obtain ⟨hkernel, howed⟩ := outstanding_of_reachable hledger
    obtain ⟨l, hundestroyed⟩ := undestroyed_of_reachable hkernel
    obtain ⟨events, hlog, howed'⟩ := hundestroyed.settles_step hno hstep
    rw [← howed] at howed'
    exact ⟨⟨s', owed s'⟩, hledger.step hno ⟨hstep, events, hlog, howed'⟩, rfl⟩

/-! ## Answers -/

/-- What a `Reply` of `replylen` bytes to the `Send` of the task does: it copies what fits
into the reply buffer, returns the length to the sender and wakes it, and no other task. -/
structure Answers (s : State) (tid : ℤ) (send : Outstanding) (reply : ℕ) (replylen : Word)
    (returned : ℤ) (s' : State) : Prop where
  result : returned =
    if send.replylen.toInt < replylen.toInt then errBufferTooSmall else returnStatusOk
  memory : s'.memory = storeWord
    (if send.reply ≠ nullAddress ∧ reply ≠ nullAddress then
      memcpy s.memory send.reply reply (Min.min send.replylen.toNat replylen.toNat)
    else s.memory) send.sp replylen
  woken : s'.task (slot tid) = { s.task (slot tid) with state := .ready }
  others : ∀ index, index ≠ slot tid → s'.task index = s.task index

/-- Every outstanding `Send` blocks its task until the first `Reply` after its message was
taken; that one answers it, and any other is refused and changes nothing. -/
structure AnswersOnce (g : Ledger) : Prop where
  blocked : ∀ {tid send}, g.outstanding tid = some send →
    (g.state.task (slot tid)).tid = tid ∧
      (g.state.task (slot tid)).state =
        if send.taken then .replyBlocked else .receiveBlocked
  woken : ∀ {tid send action g'}, g.outstanding tid = some send →
    LedgerNoDestroy g action → ledger.step g action g' →
      (g'.state.task (slot tid)).state.Running →
        send.taken ∧ ∃ reply replylen trap, action = .call (.reply tid reply replylen) trap
  answers : ∀ {tid send} (trap : Trap) (fuel reply : ℕ) {replylen : Word},
    g.outstanding tid = some send → send.taken → 0 ≤ send.replylen.toInt →
      0 ≤ replylen.toInt →
        ∃ returned s',
          handle (entered g.state trap) fuel trap (.reply tid reply replylen) =
            some (returned, s') ∧
          Answers (entered g.state trap) tid send reply replylen returned s'
  refuses : ∀ {tid} (trap : Trap) (fuel reply : ℕ) (replylen : Word),
    ¬(g.outstanding tid).any Outstanding.taken →
      ∃ error, error < 0 ∧
        handle (entered g.state trap) fuel trap (.reply tid reply replylen) =
          some (error, entered g.state trap)

section Answers

variable {s s' : State} {l : Layout} {trap : Trap} {tid : ℤ} {send : Outstanding}

/-- The `Reply` to a task whose message was taken. -/
theorem Coherent.answers (h : Coherent s l) (howed : owed s tid = some send)
    (htaken : send.taken) (reply : ℕ) {replylen : Word} (hsize : 0 ≤ send.replylen.toInt)
    (hlength : 0 ≤ replylen.toInt) :
    Answers s tid send reply replylen (replyProxy s tid reply replylen).1
      (replyProxy s tid reply replylen).2 := by
  have hawaits : Awaiting s tid := by
    rw [awaiting_iff_taken, howed, Option.any_some]
    exact htaken
  obtain ⟨_, _, _, hreply, hreplylen, hsp⟩ := owed_eq_some howed
  obtain ⟨queues, heq⟩ := h.exists_replyProxy hawaits reply replylen
  rw [heq]
  rw [hreplylen] at hsize
  refine ⟨?_, ?_, update_self _ _ _, fun index hindex => update_of_ne hindex _ _⟩
  · rw [hreplylen, BitVec.slt_eq_decide]
    simp
  · have hmemory : (replied s (s.node (slot tid)) reply replylen).memory =
        if send.reply ≠ nullAddress ∧ reply ≠ nullAddress then
          memcpy s.memory send.reply reply (Min.min send.replylen.toNat replylen.toNat)
        else s.memory := by
      rw [replied, hreply, hreplylen, toNat_min hsize hlength]
      split_ifs <;> rfl
    rw [← hmemory, hsp, BitVec.ofInt_toInt]
    rfl

/-- Taking a message ends no `Send`. -/
theorem foldl_recorded_eq_none {outstanding : ℤ → Option Outstanding} {events : List Event}
    (hnone : events.foldl recorded outstanding tid = none) : outstanding tid = none := by
  induction events generalizing outstanding with
  | nil => exact hnone
  | cons event events ih =>
      have hrecorded : recorded outstanding event tid = none := ih hnone
      cases event with
      | taken _ node =>
          by_cases hfrom : tid = node.fromTid
          · subst tid
            rwa [recorded, update_self, Option.map_eq_none_iff] at hrecorded
          · rwa [recorded, update_of_ne hfrom] at hrecorded
      | _ => exact hrecorded

/-- Only a `Reply` after its message was taken ends a `Send`. -/
theorem noted_eq_none {outstanding : ℤ → Option Outstanding} {action : Action}
    (hsend : outstanding tid = some send) (hnoted : noted s outstanding action tid = none) :
    send.taken ∧ ∃ reply replylen trap, action = .call (.reply tid reply replylen) trap := by
  cases action with
  | interrupt intrCode trap => simp [noted, hsend] at hnoted
  | call call trap =>
      cases call with
      | send other msg msglen reply replylen =>
          rw [noted] at hnoted
          split_ifs at hnoted
          · by_cases hcurrent : tid = getCurrentTid s
            · simp [hcurrent] at hnoted
            · simp [update_of_ne hcurrent, hsend] at hnoted
          · simp [hsend] at hnoted
      | reply other reply replylen =>
          rw [noted] at hnoted
          split_ifs at hnoted with htaken
          · by_cases hother : tid = other
            · subst other
              rw [hsend, Option.any_some] at htaken
              exact ⟨htaken, reply, replylen, trap, rfl⟩
            · simp [update_of_ne hother, hsend] at hnoted
          · simp [hsend] at hnoted
      | _ => simp [noted, hsend] at hnoted

end Answers

/-- In runs without `Destroy` each `Send` is answered by the first `Reply` after its message
was taken, and by no other. -/
theorem answersOnce_of_reachable {g : Ledger}
    (hreachable : Reachable ledger LedgerNoDestroy g) : AnswersOnce g := by
  obtain ⟨hkernel, howed⟩ := outstanding_of_reachable hreachable
  obtain ⟨l, hundestroyed⟩ := undestroyed_of_reachable hkernel
  refine ⟨?_, ?_, ?_, ?_⟩
  · intro tid send hsend
    rw [howed] at hsend
    obtain ⟨_, htid, hstate, _⟩ := owed_eq_some hsend
    exact ⟨htid, hstate⟩
  · rintro tid send action g' hsend hno ⟨hstep, events, hlog, hnew⟩ hrunning
    have hledger : ledger.step g action g' := ⟨hstep, events, hlog, hnew⟩
    obtain ⟨_, howed'⟩ := outstanding_of_reachable (hreachable.step hno hledger)
    have hnone : g'.outstanding tid = none := by
      rw [howed']
      exact owed_of_not_sending (not_sending_of_running hrunning)
    rw [hnew] at hnone
    exact noted_eq_none hsend (foldl_recorded_eq_none hnone)
  · intro tid send trap fuel reply replylen hsend htaken hsize hlength
    rw [howed] at hsend
    exact ⟨_, _, rfl, (hundestroyed.toCoherent.enter trap).answers hsend htaken reply hsize
      hlength⟩
  · intro tid trap fuel reply replylen htaken
    rw [howed, ← awaiting_iff_taken] at htaken
    have hawaits : ¬Awaiting (entered g.state trap) tid := htaken
    obtain ⟨error, hneg, hrefused⟩ := replyProxy_refused hawaits reply replylen
    exact ⟨error, hneg, congrArg some hrefused⟩

/-- The theorem at a `Send` whose message was taken, and its first `Reply`. -/
theorem answersOnce_sample :
    ∃ g, sampleRun (sampleActions.take 4) = some g.state ∧ AnswersOnce g ∧
      g.outstanding 2 = some ⟨0x300, 6, 0x105f00, true⟩ := by
  have howes : (sampleRun (sampleActions.take 4)).map (fun s => owed s 2) =
      some (some ⟨0x300, 6, 0x105f00, true⟩) := by decide +kernel
  obtain ⟨s, hrun, howed⟩ := Option.map_eq_some_iff.mp howes
  have hreachable : Reachable kernel NoDestroy s := by
    apply reachable_of_rounds hrun
    simp [sampleActions, NoDestroy]
  obtain ⟨g, hledger, rfl⟩ := exists_ledger hreachable
  refine ⟨g, hrun, answersOnce_of_reachable hledger, ?_⟩
  rw [(outstanding_of_reachable hledger).2, howed]

end Rtk.Kernel
