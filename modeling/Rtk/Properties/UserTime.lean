import Rtk.Invariant.Bookings
import Rtk.Invariant.Run
import Rtk.Kernel.Timer

/-!
# User time

Wherever the timer wraps between its readings, `SaveTaskState` sees either a flag or a value
that is not above the one of the activation.  So a task is never charged more than the
activation allowed it.
-/

namespace Rtk.Kernel

open Function
open Rtk.ByteMemory
open Rtk.Transition

/-- The kernel with its timer as of the last activation, at which it reads the timer. -/
def timed : System (State × Timer) Action where
  initial p := ∃ image memory before, (timersInit before).Elapses p.2 ∧
    scheduleAndActivate (rtkLaunch image memory) (getTimerTime p.2) = some p.1
  step p action p' := Step p.1 action p'.1 ∧ Reads p.2 action p'.2

/-- What `SaveTaskState` subtracts from `last_activate_at` is not above it. -/
def NoUnderflow (s : State) : Action → Prop
  | .call call trap => ∀ fuel result s',
      handle (entered s trap) fuel trap call = some (result, s') →
        (if trap.timer.wentOffAtSave then 0 else trap.timer.entry) ≤
          (s'.task s'.current).lastActivateAt
  | .interrupt intrCode trap => ∀ fuel timer s',
      handleIrq (entered s trap) fuel intrCode trap.timer = some (timer, s') →
        (if trap.timer.wentOffAtSave then 0 else timer) ≤ (s'.task s'.current).lastActivateAt

/-! ## Exact sums -/

/-- The used and the allowed time of the present task of a descriptor, as exact sums. -/
structure Totals where
  used : ℕ
  allowed : ℕ

/-- How the totals are kept: as `CreateTask` does it, the used time starts afresh with every
task, and the allowed time does not. -/
def totalling : Bookkeeping Totals where
  opened total := { total with used := 0 }
  charged total charge := { total with used := total.used + charge.toNat }
  activated total now := { total with allowed := total.allowed + (now / 100).toNat }

def beginTotals (p : State × Timer) : ℤ → Totals :=
  update (fun _ => ⟨0, 0⟩) p.1.current (totalling.activated ⟨0, 0⟩ (getTimerTime p.2))

def measured : System ((State × Timer) × (ℤ → Totals)) Action :=
  timed.recording beginTotals fun p action p' => totalling.record p.1 action p'.1

/-- The fields hold the totals, and no task has used more than it was allowed. -/
structure WithinAllowance (s : State) (totals : ℤ → Totals) : Prop where
  usedUserTime : ∀ index, (s.task index).usedUserTime = (totals index).used
  allowedUserTime : ∀ index, (s.task index).allowedUserTime = (totals index).allowed
  used_le_allowed : ∀ index, (totals index).used ≤ (totals index).allowed

/-! ## The readings of one round -/

section Readings

variable {timer next : Timer} {action : Action}

theorem toNat_getTimerTime (timer : Timer) : (getTimerTime timer).toNat = timer.value := by
  have hle : timer.value ≤ 10000 := timer.value_le
  rw [getTimerTime, BitVec.natCast_eq_ofNat, BitVec.toNat_ofNat]
  omega

/-- A reading is not above an earlier one if the flag is not set after it. -/
theorem getTimerTime_le {later latest : Timer} (h : timer.Elapses later)
    (h' : later.Elapses latest) (hunset : timerWentOff latest = false) :
    getTimerTime later ≤ getTimerTime timer := by
  rw [BitVec.le_def, toNat_getTimerTime, toNat_getTimerTime]
  exact h.value_le (h'.not_wentOff hunset)

/-- `SaveTaskState` is given no time above that of the activation. -/
theorem Reads.savedTime_le (h : Reads timer action next) :
    action.savedTime ≤ getTimerTime timer := by
  cases h with
  | call hentry hsave _ entry wentOffAtSave _ =>
      rw [Action.savedTime, wentOffAtSave, entry]
      split_ifs with hflag
      · exact BitVec.le_def.mpr (Nat.zero_le _)
      · exact getTimerTime_le hentry hsave (Bool.eq_false_iff.mpr hflag)
  | interrupt hentry hirq _ _ _ _ entry wentOffAtIrq _ wentOffAtSave _ =>
      rw [Action.savedTime, wentOffAtSave, wentOffAtIrq, entry]
      split_ifs with hsaved hflag
      · exact BitVec.le_def.mpr (Nat.zero_le _)
      · exact BitVec.le_def.mpr (Nat.zero_le _)
      · exact getTimerTime_le hentry hirq (Bool.eq_false_iff.mpr hflag)

theorem Reads.activation_eq (h : Reads timer action next) :
    action.trap.timer.activation = getTimerTime next := by
  cases h with
  | call _ _ _ _ _ activation => exact activation
  | interrupt _ _ _ _ _ _ _ _ _ _ activation => exact activation

end Readings

/-! ## Every run -/

/-- The fields of one descriptor hold its totals, and what is allowed covers what is used
and what is still to be charged. -/
structure Covers (pending : ℕ) (account : Account) (total : Totals) : Prop where
  usedUserTime : account.usedUserTime = total.used
  allowedUserTime : account.allowedUserTime = total.allowed
  covered : total.used + pending ≤ total.allowed

section Covers

variable {pending : ℕ} {account : Account} {total : Totals}

theorem natCast_add_toNat (sum : ℕ) (word : Word) :
    ((sum + word.toNat : ℕ) : Word) = (sum : Word) + word := by
  rw [BitVec.natCast_eq_ofNat, BitVec.natCast_eq_ofNat, BitVec.ofNat_add,
    BitVec.ofNat_toNat, BitVec.setWidth_eq]

theorem Covers.opened (h : Covers pending account total) :
    Covers pending account.opened (totalling.opened total) where
  usedUserTime := rfl
  allowedUserTime := h.allowedUserTime
  covered := by
    have hcovered := h.covered
    show 0 + pending ≤ total.allowed
    omega

/-- A charge is not above what is still to be charged. -/
theorem Covers.charged (h : Covers pending account total) {timer : Word}
    (hle : timer ≤ account.lastActivateAt)
    (hpending : (account.lastActivateAt / 100).toNat = pending) :
    Covers 0 (account.charged timer)
      (totalling.charged total ((account.lastActivateAt - timer) / 100)) where
  usedUserTime := by
    show account.usedUserTime + _ = ((total.used + BitVec.toNat _ : ℕ) : Word)
    rw [natCast_add_toNat, h.usedUserTime]
  allowedUserTime := h.allowedUserTime
  covered := by
    have hcharge : ((account.lastActivateAt - timer) / 100).toNat ≤ pending := by
      calc
        ((account.lastActivateAt - timer) / 100).toNat =
            (account.lastActivateAt.toNat - timer.toNat) / 100 := by
          rw [BitVec.toNat_udiv, BitVec.toNat_sub_of_le hle]
          rfl
        _ ≤ account.lastActivateAt.toNat / 100 := Nat.div_le_div_right (Nat.sub_le _ _)
        _ = pending := by
          rw [← hpending, BitVec.toNat_udiv]
          rfl
    calc
      total.used + ((account.lastActivateAt - timer) / 100).toNat + 0 ≤
          total.used + pending := Nat.add_le_add_left hcharge _
      _ ≤ total.allowed := h.covered

theorem Covers.activated (h : Covers 0 account total) (now : Word) :
    Covers (now / 100).toNat (account.activated now) (totalling.activated total now) where
  usedUserTime := h.usedUserTime
  allowedUserTime := by
    show account.allowedUserTime + _ = ((total.allowed + BitVec.toNat _ : ℕ) : Word)
    rw [natCast_add_toNat, h.allowedUserTime]
  covered := Nat.add_le_add_right h.covered _

end Covers

/-- What the task that runs is still to be charged at most. -/
def pendingOf (s : State) (index : ℤ) : ℕ :=
  if index = s.current then ((s.task s.current).lastActivateAt / 100).toNat else 0

/-- The kernel with its timer and the totals, in every run. -/
structure Reckoned (p : State × Timer) (totals : ℤ → Totals) : Prop where
  running : p.1.currentTask = some p.1.current
  tabled : Tabled p.1
  lastActivateAt : (p.1.task p.1.current).lastActivateAt = getTimerTime p.2
  covers : ∀ index, Covers (pendingOf p.1 index) (p.1.accounts index) (totals index)

section Reckoned

variable {p p' : State × Timer} {totals : ℤ → Totals} {action : Action}

/-- Only the task that has just been activated is still to be charged. -/
theorem covers_pendingOf {s : State} {accounts : ℤ → Account} {books : ℤ → Totals} {now : Word}
    (haccounts : s.accounts = update accounts s.current ((accounts s.current).activated now))
    (h : ∀ index, Covers 0 (accounts index) (books index)) :
    (s.task s.current).lastActivateAt = now ∧
      ∀ index, Covers (pendingOf s index) (s.accounts index)
        (update books s.current (totalling.activated (books s.current) now) index) := by
  have hlast : (s.task s.current).lastActivateAt = now := by
    have hself := congrArg Account.lastActivateAt (congrFun haccounts s.current)
    rwa [update_self] at hself
  refine ⟨hlast, ?_⟩
  intro index
  rw [haccounts, pendingOf, hlast]
  by_cases hindex : index = s.current
  · rw [if_pos hindex, hindex, update_self, update_self]
    exact (h s.current).activated now
  · rw [if_neg hindex, update_of_ne hindex, update_of_ne hindex]
    exact h index

theorem reckoned_initial (hinitial : timed.initial p) : Reckoned p (beginTotals p) := by
  obtain ⟨image, memory, _, _, hactivate⟩ := hinitial
  obtain ⟨haccounts, hrunning, htabled⟩ := accounts_of_launch hactivate
  have hblank : ∀ index, Covers 0 ((launchedState image memory).accounts index) ⟨0, 0⟩ := by
    intro index
    obtain ⟨tid, hblank, _⟩ := accounts_launchedState image memory index
    rw [hblank]
    exact ⟨rfl, rfl, Nat.le_refl 0⟩
  obtain ⟨hlast, hcovers⟩ := covers_pendingOf haccounts hblank
  exact ⟨hrunning, htabled, hlast, hcovers⟩

theorem Reckoned.step (h : Reckoned p totals) (hstep : timed.step p action p') :
    Reckoned p' (totalling.record p.1 action p'.1 totals) := by
  obtain ⟨hkernel, hreads⟩ := hstep
  obtain ⟨haccounts, hrunning, htabled⟩ := h.tabled.accounts_step h.running hkernel
  have hopened := @related_openedBooks _ totalling _ action _
    (fun index => Covers (pendingOf p.1 index)) h.covers Covers.opened
  have hle : action.savedTime ≤ (openedAccounts p.1 action p.1.current).lastActivateAt := by
    rw [lastActivateAt_openedAccounts, h.lastActivateAt]
    exact hreads.savedTime_le
  have hcharged : Covers 0 ((openedAccounts p.1 action p.1.current).charged action.savedTime)
      (totalling.charged (totalling.openedBooks p.1 action totals p.1.current)
        (chargeOf p.1 action)) := by
    have hcurrent := (hopened p.1.current).charged hle
      (by rw [lastActivateAt_openedAccounts, pendingOf, if_pos rfl])
    rwa [lastActivateAt_openedAccounts] at hcurrent
  have hsettled : ∀ index, Covers 0
      (update (openedAccounts p.1 action) p.1.current
        ((openedAccounts p.1 action p.1.current).charged action.savedTime) index)
      (update (totalling.openedBooks p.1 action totals) p.1.current
        (totalling.charged (totalling.openedBooks p.1 action totals p.1.current)
          (chargeOf p.1 action)) index) := by
    intro index
    by_cases hindex : index = p.1.current
    · rw [hindex, update_self, update_self]
      exact hcharged
    · have hkept := hopened index
      rw [pendingOf, if_neg hindex] at hkept
      rw [update_of_ne hindex, update_of_ne hindex]
      exact hkept
  obtain ⟨hlast, hcovers⟩ := covers_pendingOf haccounts hsettled
  exact ⟨hrunning, htabled, hlast.trans hreads.activation_eq, hcovers⟩

theorem Reckoned.withinAllowance (h : Reckoned p totals) : WithinAllowance p.1 totals where
  usedUserTime index := (h.covers index).usedUserTime
  allowedUserTime index := (h.covers index).allowedUserTime
  used_le_allowed index := Nat.le_trans (Nat.le_add_right _ _) (h.covers index).covered

/-- No handler changes what the charge is reckoned from. -/
theorem Reckoned.noUnderflow (h : Reckoned p totals) {next : Timer}
    (hreads : Reads p.2 action next) : NoUnderflow p.1 action := by
  have hle := hreads.savedTime_le
  have hkept : ∀ {accounts : ℤ → Account} {s' : State}, Books p.1 accounts s' →
      (accounts p.1.current).lastActivateAt = (p.1.task p.1.current).lastActivateAt →
      (s'.task s'.current).lastActivateAt = getTimerTime p.2 := by
    intro accounts s' hbooks hsame
    have hcurrent : s'.current = p.1.current := by
      rw [State.current, State.current, hbooks.currentTask]
    calc
      (s'.task s'.current).lastActivateAt = (s'.accounts p.1.current).lastActivateAt := by
        rw [hcurrent]
        rfl
      _ = (accounts p.1.current).lastActivateAt := by rw [hbooks.accounts]
      _ = getTimerTime p.2 := hsame.trans h.lastActivateAt
  cases action with
  | call call trap =>
      intro fuel result s' hhandle
      rw [hkept (h.tabled.books_handle h.running hhandle) (lastActivateAt_openedAccounts _ _ _)]
      exact hle
  | interrupt intrCode trap =>
      intro fuel timer s' hirq
      obtain ⟨hbooks, rfl⟩ := h.tabled.books_handleIrq hirq
      rw [hkept hbooks rfl]
      exact hle

end Reckoned

/-- In every run, wherever the timer wraps, `SaveTaskState` never subtracts more than the
task was activated with, and no task uses more than it was allowed. -/
theorem withinAllowance_of_reachable {p : State × Timer} {totals : ℤ → Totals}
    (hreachable : Reachable measured (fun _ _ => True) (p, totals)) :
    WithinAllowance p.1 totals ∧
      ∀ action next, Reads p.2 action next → NoUnderflow p.1 action := by
  have hreckoned : Reckoned p totals := by
    apply @Reachable.recorded_invariant _ _ timed (fun _ _ => True) _ _ _ Reckoned _ _ hreachable
    · exact fun p hinitial => reckoned_initial hinitial
    · exact fun h _ hstep => h.step hstep
  exact ⟨hreckoned.withinAllowance, fun _ _ hreads => hreckoned.noUnderflow hreads⟩

/-- The first task passes; the timer wraps while the kernel runs. -/
def sampleWrap : Action :=
  .call .pass { sampleTrap 0x103f00 with timer := ⟨3, false, false, true, 9998⟩ }

/-- The first task is charged all that it was allowed, and goes on with the flag set. -/
theorem withinAllowance_sample :
    ∃ (p : State × Timer) (totals : ℤ → Totals), timerWentOff p.2 = true ∧
      (p.1.task 1).usedUserTime = 100 ∧ (p.1.task 1).allowedUserTime = 199 ∧
      WithinAllowance p.1 totals ∧
      ∀ action next, Reads p.2 action next → NoUnderflow p.1 action := by
  have hobserved : ((firstActivation sampleImage (fun _ => 0) 10000).bind fun s =>
      (step s 0 sampleWrap).map fun s' =>
        ((s'.task 1).usedUserTime, (s'.task 1).allowedUserTime)) = some (100, 199) := by
    decide +kernel
  obtain ⟨s, s', hfirst, hstep, hvalues⟩ := exists_observed hobserved
  obtain ⟨hused, hallowed⟩ := Prod.mk.inj hvalues
  have hbooted : scheduleAndActivate (rtkLaunch sampleImage fun _ => 0) 10000 = some s := by
    rw [rtkLaunch_eq, scheduleAndActivate, scheduleCurrent,
      (prepared_launchedState sampleImage _).currentTask]
    exact hfirst
  let start : Timer := timersInit ⟨0, false, by decide⟩
  let atEntry : Timer := ⟨3, false, by decide⟩
  let atSave : Timer := ⟨9999, true, by decide⟩
  let next : Timer := ⟨9998, true, by decide⟩
  have hreads : Reads start sampleWrap next :=
    .call (Countdown.elapses_down 3 false _ 9997 _ : start.Elapses atEntry)
      (⟨5, rfl⟩ : atEntry.Elapses atSave) ⟨1, rfl⟩ rfl rfl rfl
  have hinitial : timed.initial (s, start) := ⟨_, _, _, .refl _, hbooted⟩
  have hreachable : Reachable timed (fun _ _ => True) (s', next) :=
    (Reachable.initial hinitial).step trivial ⟨⟨0, hstep⟩, hreads⟩
  obtain ⟨totals, hmeasured⟩ := hreachable.recording beginTotals
    fun p action p' => totalling.record p.1 action p'.1
  exact ⟨(s', next), totals, rfl, hused, hallowed, withinAllowance_of_reachable hmeasured⟩

end Rtk.Kernel
