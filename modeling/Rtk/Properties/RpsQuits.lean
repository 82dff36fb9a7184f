import Rtk.Invariant.RpsPlayers

/-!
# Players who quit

When a player quits while its opponent waits for a result, the server has a reply for the
opponent and sends it to the player who quits.  Nobody ever replies to the opponent.
-/

namespace Rtk.RpsServer

open Rtk.Transition

/-- No player waits for one who has quit. -/
def NoneDeserted (a : Arena) : Prop :=
  ∀ client other, a.opponent client = some other →
    (a.server.games client).player.state = .waiting →
      (a.server.games other).player.state ≠ .quit

/-- A player who quits is replied to once, and an opponent who waits learns about it. -/
def QuitRight (a : Arena) (input : Input) : Prop :=
  input.2.type = rpsReqQuit →
    (a.replies input).countP (fun reply => reply.tid = input.1) = 1 ∧
      ∀ {other}, a.opponent input.1 = some other →
        (a.server.games other).player.state = .waiting →
          ∃ response, response.result = rpsQuit ∧ ⟨other, some response⟩ ∈ a.replies input

/-- A player quits whose opponent waits for a result. -/
def Deserts (a : Arena) (input : Input) : Prop :=
  input.2.type = rpsReqQuit ∧
    ∃ other, a.opponent input.1 = some other ∧ (a.thrown other).isSome = true

section Step

variable {a a' : Arena} {client other : ℤ} {req : RpsRequest}

theorem Agrees.state_eq_quit_iff (h : Agrees a) (hsome : a.opponent client ≠ none) :
    (a.server.games client).player.state = .quit ↔ a.hasQuit client = true := by
  have htracks := h.tracks hsome
  cases hquit : a.hasQuit client with
  | true => simp [htracks.quit hquit]
  | false =>
      cases hpending : a.pending client with
      | none => simp [htracks.active hquit hpending]
      | some req => simp [(htracks.waiting hquit hpending).1]

/-- No client waits for the throw of one who has quit. -/
def Faithful (a : Arena) : Prop :=
  ∀ client other, a.opponent client = some other → (a.thrown client).isSome = true →
    a.hasQuit other = false

theorem Agrees.noneDeserted_iff (h : Agrees a) : NoneDeserted a ↔ Faithful a := by
  have hstates : ∀ client other, a.opponent client = some other →
      (((a.server.games client).player.state = .waiting →
          (a.server.games other).player.state ≠ .quit) ↔
        ((a.thrown client).isSome = true → a.hasQuit other = false)) := by
    intro client other hopponent
    have hmine : a.opponent client ≠ none := by simp [hopponent]
    have htheirs : a.opponent other ≠ none := by simp [(h.symm hopponent).1]
    rw [h.state_eq_waiting_iff hmine, ne_eq, h.state_eq_quit_iff htheirs, Bool.not_eq_true]
  exact forall_congr' fun client => forall_congr' fun other =>
    forall_congr' fun hopponent => hstates client other hopponent

/-- With no new throw nobody is deserted. -/
theorem Faithful.of_thrown (h : Faithful a) (hopponent : a'.opponent = a.opponent)
    (hquit : a'.hasQuit = a.hasQuit)
    (hthrown : ∀ player, (a'.thrown player).isSome = true → (a.thrown player).isSome = true) :
    Faithful a' := by
  intro client other hother hsome
  rw [hopponent] at hother
  rw [hquit]
  exact h client other hother (hthrown client hsome)

theorem Agrees.faithful_play (h : Agrees a) (hfaithful : Faithful a)
    (hfree : a.pending client = none) (hopponent : a.opponent client = some other)
    (htype : req.type = rpsReqPlay) : Faithful (a.next (client, req)) := by
  cases h.plays hfree hopponent req.choice with
  | gone hquit hserve =>
      rw [Arena.next_of_play htype hserve]
      refine hfaithful.of_thrown rfl rfl fun player hsome => ?_
      by_cases hplayer : player = client
      · simp [Arena.thrown, hplayer, hquit] at hsome
      · simpa [Arena.thrown, Arena.settled, hplayer] using hsome
  | deserted hquit hother hserve =>
      rw [Arena.next_of_play htype hserve]
      refine hfaithful.of_thrown rfl rfl fun player hsome => ?_
      by_cases hplayer : player = client
      · simp [Arena.thrown, Arena.settled, hplayer] at hsome
      · simpa [Arena.thrown, Arena.settled, hplayer] using hsome
  | first hquit hother hpending hserve =>
      rw [Arena.next_of_play htype hserve]
      intro player second hpair hsome
      by_cases hplayer : player = client
      · subst player
        obtain rfl := Option.some.inj (hopponent.symm.trans hpair)
        exact hother
      · apply hfaithful player second hpair
        simpa [Arena.thrown, Arena.settled, hplayer] using hsome
  | second hquit hother hpending hserve =>
      rw [Arena.next_of_play htype hserve]
      refine hfaithful.of_thrown rfl rfl fun player hsome => ?_
      by_cases hplayer : player = client
      · simp [Arena.thrown, Arena.settled, hplayer] at hsome
      · by_cases hplayer' : player = other
        · simp [Arena.thrown, Arena.settled, hplayer'] at hsome
        · simpa [Arena.thrown, Arena.settled, hplayer, hplayer'] using hsome

theorem Agrees.faithful_signup (h : Agrees a) (hfaithful : Faithful a)
    (htype : req.type = rpsReqSignup) : Faithful (a.next (client, req)) := by
  have hplay : req.type ≠ rpsReqPlay := htype.trans_ne (by decide)
  cases halone : a.alone with
  | none =>
      rw [h.next_of_signup_first halone htype]
      refine hfaithful.of_thrown rfl rfl fun player hsome => ?_
      by_cases hplayer : player = client
      · simp [Arena.thrown, hplayer, hplay] at hsome
      · simpa [Arena.thrown, hplayer] using hsome
  | some first =>
      rw [h.next_of_signup_second halone htype]
      intro player other (hpair : Arena.pair a.opponent first client player = some other) hsome
      by_cases hplayer : player = client
      · simp [Arena.thrown, Arena.settled, hplayer] at hsome
      · by_cases hfirst : player = first
        · simp [Arena.thrown, Arena.settled, hfirst] at hsome
        · rw [Arena.pair_of_ne hplayer hfirst] at hpair
          apply hfaithful player other hpair
          simpa [Arena.thrown, Arena.settled, hplayer, hfirst] using hsome

/-- A player who quits leaves nobody behind unless its opponent waits. -/
theorem Agrees.faithful_quit_iff (h : Agrees a) (hfaithful : Faithful a)
    (hopponent : a.opponent client = some other) (htype : req.type = rpsReqQuit) :
    Faithful (a.next (client, req)) ↔ ¬(a.thrown other).isSome = true := by
  obtain ⟨hback, hne⟩ := h.symm hopponent
  rw [h.next_of_quit hopponent htype]
  constructor
  · intro hnext hsome
    have hstays := hnext other client hback (by simpa [Arena.thrown, hne] using hsome)
    simp at hstays
  · intro hnone player second hpair hsome
    by_cases hplayer : player = client
    · simp [Arena.thrown, hplayer] at hsome
    · have hthrown : (a.thrown player).isSome = true := by
        simpa [Arena.thrown, hplayer] using hsome
      have hsecond : second ≠ client := by
        rintro rfl
        have hplayer' := (h.symm hpair).1
        obtain rfl := Option.some.inj (hopponent.symm.trans hplayer')
        exact hnone hthrown
      simpa [hsecond] using hfaithful player second hpair hthrown

/-- The one who quits is replied to once, and an opponent who waits is the exception. -/
theorem Agrees.quitRight_quit_iff (h : Agrees a) (hopponent : a.opponent client = some other)
    (htype : req.type = rpsReqQuit) :
    QuitRight a (client, req) ↔ ¬(a.thrown other).isSome = true := by
  obtain ⟨hback, hne⟩ := h.symm hopponent
  have hwaiting := h.state_eq_waiting_iff (Option.ne_none_iff_exists'.mpr ⟨client, hback⟩)
  have hreplies : a.replies (client, req) = (a.server.quit client).1 := by
    rw [Arena.replies, Arena.serve_of_quit htype]
  rw [State.quit_of_opponent (h.opponent hopponent)] at hreplies
  constructor
  · intro hright hsome
    have hcount := (hright htype).1
    rw [hreplies, if_pos (hwaiting.mpr hsome)] at hcount
    simp at hcount
  · intro hnone _
    have hstate := hwaiting.not.mpr hnone
    refine ⟨by simp [hreplies, hstate], fun hpair hothers => ?_⟩
    obtain rfl := Option.some.inj (hopponent.symm.trans hpair)
    exact absurd hothers hstate

/-- A player who quits deserts exactly an opponent who has thrown. -/
theorem deserts_iff (hopponent : a.opponent client = some other)
    (htype : req.type = rpsReqQuit) :
    Deserts a (client, req) ↔ (a.thrown other).isSome = true := by
  constructor
  · rintro ⟨_, waiting, hwaiting, hsome⟩
    obtain rfl := Option.some.inj (hopponent.symm.trans hwaiting)
    exact hsome
  · exact fun hsome => ⟨htype, other, hopponent, hsome⟩

theorem not_deserts_of_type_ne (htype : req.type ≠ rpsReqQuit) : ¬Deserts a (client, req) :=
  fun hdeserts => htype hdeserts.1

/-- What a request of a client may do to others who wait. -/
theorem Agrees.faithful_next_iff (h : Agrees a) (hfaithful : Faithful a) {input : Input}
    (hsends : a.Sends input) : Faithful (a.next input) ↔ ¬Deserts a input := by
  cases h.requests hsends with
  | signup _ htype =>
      refine iff_of_true (h.faithful_signup hfaithful htype)
        (not_deserts_of_type_ne (htype.trans_ne ?_))
      decide
  | play hfree hopponent htype =>
      refine iff_of_true (h.faithful_play hfaithful hfree hopponent htype)
        (not_deserts_of_type_ne (htype.trans_ne ?_))
      decide
  | quit hopponent htype =>
      exact (h.faithful_quit_iff hfaithful hopponent htype).trans
        (deserts_iff hopponent htype).not.symm

theorem quitRight_of_type_ne (htype : req.type ≠ rpsReqQuit) :
    QuitRight a (client, req) ↔ ¬Deserts a (client, req) :=
  iff_of_true (fun hquit => absurd hquit htype) (not_deserts_of_type_ne htype)

theorem Agrees.quitRight_iff (h : Agrees a) {input : Input} (hsends : a.Sends input) :
    QuitRight a input ↔ ¬Deserts a input := by
  cases h.requests hsends with
  | signup _ htype => exact quitRight_of_type_ne (htype.trans_ne (by decide))
  | play _ _ htype => exact quitRight_of_type_ne (htype.trans_ne (by decide))
  | quit hopponent htype =>
      exact (h.quitRight_quit_iff hopponent htype).trans (deserts_iff hopponent htype).not.symm

end Step

theorem faithful_start (games : ℤ → RpsGame) : Faithful (.start games) :=
  fun _ _ hopponent => by simp [Arena.start] at hopponent

/-- In a run of any clients nobody waits for one who has quit, and every player who quits is
answered as it has to be, exactly when no player quits while its opponent waits. -/
theorem quits_settled_iff (games : ℤ → RpsGame) {inputs : List Input}
    (hsends : EachStep Arena.next Arena.Sends (.start games) inputs) :
    Throughout Arena.next NoneDeserted (.start games) inputs ∧
        EachStep Arena.next QuitRight (.start games) inputs ↔
      EachStep Arena.next (fun a input => ¬Deserts a input) (.start games) inputs := by
  have hagrees := throughout_agrees games hsends
  have hright := hagrees.eachStep_congr hsends fun h hinput => h.quitRight_iff hinput
  have hstart := agrees_start games
  have hnext : ∀ {a : Arena} {input : Input}, Agrees a → NoneDeserted a → a.Sends input →
      (NoneDeserted (a.next input) ↔ ¬Deserts a input) := by
    intro a input h hnone hinput
    rw [(h.next hinput).noneDeserted_iff,
      h.faithful_next_iff (h.noneDeserted_iff.mp hnone) hinput]
  have hdeserted : Throughout Arena.next NoneDeserted (.start games) inputs ↔
      EachStep Arena.next (fun a input => ¬Deserts a input) (.start games) inputs := by
    refine throughout_iff _ _ hstart (hstart.noneDeserted_iff.mpr (faithful_start games))
      ?_ ?_ hsends
    · exact fun h hnone hinput hkeeps => ⟨h.next hinput, (hnext h hnone hinput).mpr hkeeps⟩
    · exact fun h hnone hinput => (hnext h hnone hinput).mp
  rw [hdeserted, hright, and_self]

/-- Two players sign up; one throws and then the other one quits. -/
def sampleQuit : List Input :=
  [(1, ⟨rpsReqSignup, 0⟩), (2, ⟨rpsReqSignup, 0⟩), (1, ⟨rpsReqPlay, rpsRock⟩),
    (2, ⟨rpsReqQuit, 0⟩)]

theorem quits_settled_sample :
    Throughout Arena.next NoneDeserted (.start sampleGames) sampleQuit ∧
        EachStep Arena.next QuitRight (.start sampleGames) sampleQuit ↔
      EachStep Arena.next (fun a input => ¬Deserts a input) (.start sampleGames) sampleQuit :=
  quits_settled_iff sampleGames (by decide)

/-- The player who quits is replied to twice, and the one who threw waits for ever. -/
theorem not_quits_settled :
    ¬∀ (games : ℤ → RpsGame) {inputs : List Input},
      EachStep Arena.next Arena.Sends (.start games) inputs →
        Throughout Arena.next NoneDeserted (.start games) inputs ∧
          EachStep Arena.next QuitRight (.start games) inputs := by
  intro hall
  have hsends : EachStep Arena.next Arena.Sends (.start sampleGames) sampleQuit := by decide
  have hnone : NoneDeserted (sampleQuit.foldl Arena.next (.start sampleGames)) :=
    (hall sampleGames hsends).1.last
  have hstates := hnone 1 2 (by decide) (by decide)
  exact hstates (by decide)

end Rtk.RpsServer
