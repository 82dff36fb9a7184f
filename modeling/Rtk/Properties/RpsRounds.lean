import Rtk.Invariant.RpsPlayers

/-!
# The results of a round

The second throw of two opponents completes a round, and the server replies to both of them.
`RpsGetResult` compares the throws as numbers, so that scissors win against rock as well.
-/

namespace Rtk.RpsServer

open Function
open Rtk.Transition

def Throws (input : Input) : Prop :=
  input.2.type = rpsReqPlay → input.2.choice ≤ rpsScissors

instance (input : Input) : Decidable (Throws input) := inferInstanceAs (Decidable (_ → _))

/-- The opponent and its throw, when the request completes a round. -/
def Arena.round (a : Arena) (input : Input) : Option (ℤ × ℕ) :=
  if input.2.type = rpsReqPlay ∧ a.hasQuit input.1 = false then
    (a.opponent input.1).bind fun other => (a.thrown other).map fun choice => (other, choice)
  else none

/-- A tie for equal throws, and one win and one loss for others. -/
def Complementary (mine theirs : ℕ) (result result' : ℤ) : Prop :=
  (mine = theirs → result = rpsTie ∧ result' = rpsTie) ∧
    (mine ≠ theirs → result = rpsWin ∧ result' = rpsLoss ∨ result = rpsLoss ∧ result' = rpsWin)

instance (mine theirs : ℕ) (result result' : ℤ) :
    Decidable (Complementary mine theirs result result') :=
  inferInstanceAs (Decidable ((_ → _) ∧ (_ → _)))

/-- A request that completes a round is answered with one result to each of the opponents,
computed from their throws, and the two results agree.  No other request gives a result. -/
def RoundRight (a : Arena) (input : Input) : Prop :=
  match a.round input with
  | some (other, theirs) =>
      let mine := input.2.choice
      a.replies input = [⟨input.1, some ⟨rpsResPlay, rpsGetResult mine theirs⟩⟩,
        ⟨other, some ⟨rpsResPlay, rpsGetResult theirs mine⟩⟩] ∧
      Complementary mine theirs (rpsGetResult mine theirs) (rpsGetResult theirs mine)
  | none => ∀ reply ∈ a.replies input, ∀ response, reply.response = some response →
      response.type ≠ rpsResPlay

/-- The request completes a round of rock against scissors. -/
def RockMeetsScissors (a : Arena) (input : Input) : Prop :=
  ∃ other theirs, a.round input = some (other, theirs) ∧
    (input.2.choice = rpsRock ∧ theirs = rpsScissors ∨
      input.2.choice = rpsScissors ∧ theirs = rpsRock)

/-- The clients that are blocked have thrown rock, paper or scissors, if anything. -/
def AllThrow (a : Arena) : Prop :=
  ∀ client req, a.pending client = some req → Throws (client, req)

/-- The two results agree but for rock and scissors. -/
theorem complementary_iff {mine theirs : ℕ} (hmine : mine ≤ rpsScissors)
    (htheirs : theirs ≤ rpsScissors) :
    Complementary mine theirs (rpsGetResult mine theirs) (rpsGetResult theirs mine) ↔
      ¬(mine = rpsRock ∧ theirs = rpsScissors ∨ mine = rpsScissors ∧ theirs = rpsRock) := by
  have hall : ∀ mine ≤ 2, ∀ theirs ≤ 2,
      Complementary mine theirs (rpsGetResult mine theirs) (rpsGetResult theirs mine) ↔
        ¬(mine = rpsRock ∧ theirs = rpsScissors ∨ mine = rpsScissors ∧ theirs = rpsRock) := by
    decide
  exact hall mine hmine theirs htheirs

section Step

variable {a : Arena} {client other : ℤ} {req : RpsRequest}

/-- Only the client that sends becomes blocked. -/
theorem AllThrow.next (h : AllThrow a) {input : Input} (hthrows : Throws input) :
    AllThrow (a.next input) := by
  intro client req hpending
  simp only [Arena.next, Arena.settled] at hpending
  split_ifs at hpending
  by_cases hclient : client = input.1
  · rw [hclient, update_self, Option.some.injEq] at hpending
    subst req
    exact hthrows
  · rw [update_of_ne hclient] at hpending
    exact h client req hpending

theorem round_of_type_ne (htype : req.type ≠ rpsReqPlay) : a.round (client, req) = none :=
  if_neg fun hplay => htype hplay.1

theorem roundRight_of_none (hround : a.round (client, req) = none)
    (hreplies : ∀ reply ∈ a.replies (client, req), ∀ response,
      reply.response = some response → response.type ≠ rpsResPlay) :
    RoundRight a (client, req) ↔ ¬RockMeetsScissors a (client, req) := by
  refine iff_of_true ?_ ?_
  · simp only [RoundRight, hround]
    exact hreplies
  · rintro ⟨other, theirs, hsome, _⟩
    exact absurd (hround.symm.trans hsome) (by simp)

/-- A sign-up is answered without a result. -/
theorem Agrees.roundRight_signup (h : Agrees a) (htype : req.type = rpsReqSignup) :
    RoundRight a (client, req) ↔ ¬RockMeetsScissors a (client, req) := by
  have hplay : req.type ≠ rpsReqPlay := htype.trans_ne (by decide)
  apply roundRight_of_none (round_of_type_ne hplay)
  rw [Arena.replies, State.serve, if_pos htype, State.signup, h.unmatched]
  cases a.alone <;> simp

theorem Agrees.roundRight_quit (h : Agrees a) (hopponent : a.opponent client = some other)
    (htype : req.type = rpsReqQuit) :
    RoundRight a (client, req) ↔ ¬RockMeetsScissors a (client, req) := by
  have hplay : req.type ≠ rpsReqPlay := htype.trans_ne (by decide)
  apply roundRight_of_none (round_of_type_ne hplay)
  rw [Arena.replies, Arena.serve_of_quit htype, State.quit_of_opponent (h.opponent hopponent)]
  split_ifs <;> simp [rpsQuit, rpsResPlay]

theorem Agrees.roundRight_play (h : Agrees a) (hall : AllThrow a)
    (hfree : a.pending client = none) (hopponent : a.opponent client = some other)
    (htype : req.type = rpsReqPlay) (hmine : req.choice ≤ rpsScissors) :
    RoundRight a (client, req) ↔ ¬RockMeetsScissors a (client, req) := by
  have hreplies : a.replies (client, req) = (a.server.play client req.choice).1 := by
    rw [Arena.replies, Arena.serve_of_play htype]
  cases h.plays hfree hopponent req.choice with
  | gone hquit hserve =>
      apply roundRight_of_none
      · rw [Arena.round, if_neg (by simp [hquit])]
      · simp [hreplies, hserve]
  | deserted hquit hother hserve =>
      apply roundRight_of_none
      · simp [Arena.round, Arena.thrown, hopponent, hother]
      · simp [hreplies, hserve, rpsQuit, rpsResPlay]
  | first hquit hother hpending hserve =>
      apply roundRight_of_none
      · simp [Arena.round, Arena.thrown, hopponent, hpending]
      · simp [hreplies, hserve]
  | @second throw hquit hother hpending hserve =>
      have htheirs : a.opponent other ≠ none := by simp [(h.symm hopponent).1]
      obtain ⟨_, _, htype'⟩ := (h.tracks htheirs).waiting hother hpending
      have hround : a.round (client, req) = some (other, throw.choice) := by
        simp [Arena.round, Arena.thrown, htype, hquit, hopponent, hother, hpending, htype']
      have hexact := complementary_iff hmine (hall other throw hpending htype')
      simp only [RoundRight, RockMeetsScissors, hround, hreplies, hserve, true_and, hexact]
      simp

/-- A step gives the right results unless rock meets scissors. -/
theorem Agrees.roundRight_iff (h : Agrees a) (hall : AllThrow a) {input : Input}
    (hsends : a.Sends input) (hthrows : Throws input) :
    RoundRight a input ↔ ¬RockMeetsScissors a input := by
  cases h.requests hsends with
  | signup _ htype => exact h.roundRight_signup htype
  | play hfree hopponent htype =>
      exact h.roundRight_play hall hfree hopponent htype (hthrows htype)
  | quit hopponent htype => exact h.roundRight_quit hopponent htype

end Step

/-- In a run of any clients every round gives the right results exactly when in none of them
rock meets scissors. -/
theorem rounds_right_iff (games : ℤ → RpsGame) {inputs : List Input}
    (hsends : EachStep Arena.next (fun a input => a.Sends input ∧ Throws input)
      (.start games) inputs) :
    EachStep Arena.next RoundRight (.start games) inputs ↔
      EachStep Arena.next (fun a input => ¬RockMeetsScissors a input) (.start games) inputs := by
  have hstart : Agrees (.start games) ∧ AllThrow (.start games) :=
    ⟨agrees_start games, fun _ _ hpending => by simp [Arena.start] at hpending⟩
  have hboth : Throughout Arena.next (fun a => Agrees a ∧ AllThrow a) (.start games) inputs :=
    hsends.throughout
      (fun hstate hinput => ⟨hstate.1.next hinput.1, hstate.2.next hinput.2⟩) hstart
  exact hboth.eachStep_congr hsends fun hstate hinput =>
    hstate.1.roundRight_iff hstate.2 hinput.1 hinput.2

theorem rounds_right_sample :
    EachStep Arena.next RoundRight (.start sampleGames) (sampleRound rpsPaper rpsRock) ↔
      EachStep Arena.next (fun a input => ¬RockMeetsScissors a input) (.start sampleGames)
        (sampleRound rpsPaper rpsRock) :=
  rounds_right_iff sampleGames (by decide)

/-- When rock meets scissors both players win. -/
theorem not_rounds_right :
    ¬∀ (games : ℤ → RpsGame) {inputs : List Input},
      EachStep Arena.next (fun a input => a.Sends input ∧ Throws input) (.start games) inputs →
        EachStep Arena.next RoundRight (.start games) inputs := by
  intro hall
  have hsends : EachStep Arena.next (fun a input => a.Sends input ∧ Throws input)
      (.start sampleGames) (sampleRound rpsRock rpsScissors) := by decide
  obtain ⟨_, _, _, hround, _⟩ := hall sampleGames hsends
  have hresults : Complementary rpsScissors rpsRock (rpsGetResult rpsScissors rpsRock)
      (rpsGetResult rpsRock rpsScissors) := hround.2
  exact absurd hresults (by decide)

end Rtk.RpsServer
