import Rtk.Core.Transition
import Rtk.Invariant.RpsArena

/-!
# What the server knows of the players

In every run of the clients the server's records agree with what the clients do: who plays
against whom, who waits for the result of a throw, and who has quit.
-/

namespace Rtk.RpsServer

open Function
open Rtk.Transition

/-- What the server knows of a client that has an opponent. -/
structure Tracks (player : RpsPlayer) (pending : Option RpsRequest) (hasQuit : Bool) : Prop where
  quit : hasQuit = true → player.state = .quit
  active : hasQuit = false → pending = none → player.state = .active
  waiting : ∀ {req}, hasQuit = false → pending = some req →
    player.state = .waiting ∧ player.choice = req.choice ∧ req.type = rpsReqPlay

/-- What the server knows of its clients. -/
structure Agrees (a : Arena) : Prop where
  unmatched : a.server.unmatched = a.alone
  tid : ∀ {client}, a.Signed client → (a.server.games client).player.tid = client
  opponent : ∀ {client other}, a.opponent client = some other →
    (a.server.games client).opponent = other
  symm : ∀ {client other}, a.opponent client = some other →
    a.opponent other = some client ∧ other ≠ client
  single : ∀ {client}, a.alone = some client → a.opponent client = none ∧
    a.pending client ≠ none ∧ a.hasQuit client = false ∧
      (a.server.games client).player.state = .active
  tracks : ∀ {client}, a.opponent client ≠ none →
    Tracks (a.server.games client).player (a.pending client) (a.hasQuit client)
  fresh : ∀ {client}, ¬a.Signed client → a.hasQuit client = false

section Agrees

variable {a a' : Arena} {client other : ℤ} {req : RpsRequest}

/-- A client that has signed up and is not blocked has an opponent. -/
theorem Agrees.exists_opponent (h : Agrees a) (hfree : a.pending client = none)
    (hsigned : a.Signed client) : ∃ other, a.opponent client = some other := by
  cases hsigned with
  | inl halone => exact absurd hfree (h.single halone).2.1
  | inr hopponent => exact Option.ne_none_iff_exists'.mp hopponent

/-- What the server does with a throw. -/
inductive Plays (a : Arena) (client other : ℤ) (choice : ℕ) : Prop
  | gone (hquit : a.hasQuit client = true)
      (hserve : a.server.play client choice = ([], a.server))
  | deserted (hquit : a.hasQuit client = false) (hother : a.hasQuit other = true)
      (hserve : a.server.play client choice =
        ([⟨client, some ⟨rpsQuit, rpsQuit⟩⟩], a.server.setPlayer client
          { (a.server.games client).player with choice := choice }))
  | first (hquit : a.hasQuit client = false) (hother : a.hasQuit other = false)
      (hpending : a.pending other = none)
      (hserve : a.server.play client choice =
        ([], a.server.setPlayer client
          { (a.server.games client).player with choice := choice, state := .waiting }))
  | second {throw : RpsRequest} (hquit : a.hasQuit client = false)
      (hother : a.hasQuit other = false) (hpending : a.pending other = some throw)
      (hserve : a.server.play client choice =
        ([⟨client, some ⟨rpsResPlay, rpsGetResult choice throw.choice⟩⟩,
          ⟨other, some ⟨rpsResPlay, rpsGetResult throw.choice choice⟩⟩],
          (a.server.setPlayer client
            { (a.server.games client).player with choice := choice }).setPlayer other
              { (a.server.games other).player with state := .active }))

theorem Agrees.plays (h : Agrees a) (hfree : a.pending client = none)
    (hopponent : a.opponent client = some other) (choice : ℕ) : Plays a client other choice := by
  obtain ⟨hback, hne⟩ := h.symm hopponent
  have hmine : a.opponent client ≠ none := by simp [hopponent]
  have htheirs : a.opponent other ≠ none := by simp [hback]
  have hgame := h.opponent hopponent
  have htracks := h.tracks hmine
  have htracks' := h.tracks htheirs
  cases hquit : a.hasQuit client with
  | true => exact .gone hquit (State.play_of_quit choice (htracks.quit hquit))
  | false =>
      have hactive := htracks.active hquit hfree
      cases hother : a.hasQuit other with
      | true =>
          exact .deserted hquit hother
            (State.play_of_opponent_quit choice hactive hgame hne (htracks'.quit hother))
      | false =>
          cases hpending : a.pending other with
          | none =>
              exact .first hquit hother hpending (State.play_of_opponent_active choice hactive
                hgame hne (htracks'.active hother hpending))
          | some throw =>
              obtain ⟨hwaiting, hchoice, _⟩ := htracks'.waiting hother hpending
              have hserve := State.play_of_opponent_waiting choice hactive hgame hne hwaiting
              rw [h.tid (.inr hmine), h.tid (.inr htheirs), hchoice] at hserve
              exact .second hquit hother hpending hserve

/-- A client that waits for a result is a waiting player. -/
theorem Agrees.state_eq_waiting_iff (h : Agrees a) (hsome : a.opponent client ≠ none) :
    (a.server.games client).player.state = .waiting ↔ (a.thrown client).isSome = true := by
  have htracks := h.tracks hsome
  rw [Arena.thrown]
  cases hquit : a.hasQuit client with
  | true => simp [htracks.quit hquit]
  | false =>
      cases hpending : a.pending client with
      | none => simp [htracks.active hquit hpending]
      | some req =>
          obtain ⟨hwaiting, _, htype⟩ := htracks.waiting hquit hpending
          simp [hwaiting, htype]

/-- What happens between two opponents is of no concern to the others. -/
theorem Agrees.change (h : Agrees a) (hopponent : a.opponent client = some other)
    {server : State} {pending : ℤ → Option RpsRequest} {hasQuit : ℤ → Bool}
    (hunmatched : server.unmatched = a.server.unmatched)
    (hgame : ∀ player, (server.games player).opponent = (a.server.games player).opponent)
    (htid : ∀ player, (server.games player).player.tid = (a.server.games player).player.tid)
    (hothers : ∀ player, player ≠ client → player ≠ other →
      (server.games player).player = (a.server.games player).player ∧
        pending player = a.pending player ∧ hasQuit player = a.hasQuit player)
    (hmine : Tracks (server.games client).player (pending client) (hasQuit client))
    (htheirs : Tracks (server.games other).player (pending other) (hasQuit other)) :
    Agrees { a with server := server, pending := pending, hasQuit := hasQuit } := by
  have hback := (h.symm hopponent).1
  have hnobody : ∀ player, a.opponent player = none →
      (server.games player).player = (a.server.games player).player ∧
        pending player = a.pending player ∧ hasQuit player = a.hasQuit player := by
    intro player hnone
    apply hothers
    · rintro rfl
      exact absurd (hopponent.symm.trans hnone) (by simp)
    · rintro rfl
      exact absurd (hback.symm.trans hnone) (by simp)
  refine ⟨hunmatched.trans h.unmatched, ?_, ?_, h.symm, ?_, ?_, ?_⟩
  · exact fun hsigned => (htid _).trans (h.tid hsigned)
  · exact fun hother => (hgame _).trans (h.opponent hother)
  · intro player halone
    obtain ⟨hnone, hblocked, hquit, hactive⟩ := h.single halone
    obtain ⟨hplayer, hpending, hquit'⟩ := hnobody player hnone
    refine ⟨hnone, ?_, hquit'.trans hquit, ?_⟩
    · exact fun hfree => hblocked (hpending.symm.trans hfree)
    · exact (congrArg RpsPlayer.state hplayer).trans hactive
  · intro player hsome
    by_cases hclient : player = client
    · exact hclient ▸ hmine
    · by_cases hother : player = other
      · exact hother ▸ htheirs
      · obtain ⟨hplayer, hpending, hquit⟩ := hothers player hclient hother
        have hkept := h.tracks hsome
        rw [← hplayer, ← hpending, ← hquit] at hkept
        exact hkept
  · intro player hsigned
    have hnone : a.opponent player = none := by
      by_contra hsome
      exact hsigned (.inr hsome)
    exact (hnobody player hnone).2.2.trans (h.fresh hsigned)

/-- Only the client that quits is replied to. -/
theorem Agrees.next_of_quit (h : Agrees a) (hopponent : a.opponent client = some other)
    (htype : req.type = rpsReqQuit) :
    a.next (client, req) =
      { a with
        server := a.server.setPlayer client
          { (a.server.games client).player with state := .quit }
        pending := update a.pending client none
        hasQuit := update a.hasQuit client true } := by
  have hsignup : req.type ≠ rpsReqSignup := htype.trans_ne (by decide)
  have hserve := State.quit_of_opponent (h.opponent hopponent)
  have hsettled : Arena.settled a.pending client req (a.server.quit client).1 =
      update a.pending client none := by
    funext player
    rw [Arena.settled, hserve]
    by_cases hplayer : player = client
    · rw [hplayer, if_pos (by simp), update_self]
    · rw [update_of_ne hplayer, update_of_ne hplayer, if_neg]
      split_ifs <;> simp [hplayer]
  have hserver := congrArg Prod.snd hserve
  simp only [Arena.next, Arena.replies, Arena.serve_of_quit htype, hsettled, if_neg hsignup,
    if_pos htype, hserver]
  cases a.alone <;> rfl

/-- A throw leaves what the server knows of the players as it has to be. -/
theorem Agrees.play (h : Agrees a) (hfree : a.pending client = none)
    (hopponent : a.opponent client = some other) (htype : req.type = rpsReqPlay) :
    Agrees (a.next (client, req)) := by
  obtain ⟨hback, hne⟩ := h.symm hopponent
  have hmine : a.opponent client ≠ none := by simp [hopponent]
  have htheirs : a.opponent other ≠ none := by simp [hback]
  have htracks := h.tracks hmine
  have htracks' := h.tracks htheirs
  cases h.plays hfree hopponent req.choice with
  | gone hquit hserve =>
      rw [Arena.next_of_play htype hserve]
      apply h.change hopponent rfl (fun _ => rfl) (fun _ => rfl)
      · intro player hclient _
        exact ⟨rfl, by simp [Arena.settled, hclient], rfl⟩
      · exact ⟨htracks.quit, by simp [hquit], by simp [hquit]⟩
      · simpa [Arena.settled, hne] using htracks'
  | deserted hquit hother hserve =>
      rw [Arena.next_of_play htype hserve]
      apply h.change hopponent
      · rfl
      · simp
      · intro player
        by_cases hclient : player = client <;> simp [hclient]
      · intro player hclient _
        simp [Arena.settled, hclient]
      · have hactive := htracks.active hquit hfree
        exact ⟨by simp [hquit], by simp [hactive], by simp [Arena.settled]⟩
      · simpa [Arena.settled, hne] using htracks'
  | first hquit hother hpending hserve =>
      rw [Arena.next_of_play htype hserve]
      apply h.change hopponent
      · rfl
      · simp
      · intro player
        by_cases hclient : player = client <;> simp [hclient]
      · intro player hclient _
        simp [Arena.settled, hclient]
      · exact ⟨by simp [hquit], by simp [Arena.settled], by simp [Arena.settled, htype]⟩
      · simpa [Arena.settled, hne] using htracks'
  | second hquit hother hpending hserve =>
      rw [Arena.next_of_play htype hserve]
      apply h.change hopponent
      · rfl
      · simp
      · intro player
        by_cases hclient : player = client <;> by_cases hplayer : player = other <;>
          simp [hclient, hplayer, hne.symm]
      · intro player hclient hplayer
        simp [Arena.settled, hclient, hplayer]
      · have hactive := htracks.active hquit hfree
        exact ⟨by simp [hquit], by simp [hactive, hne.symm], by simp [Arena.settled]⟩
      · exact ⟨by simp [hother], by simp, by simp [Arena.settled]⟩

theorem Agrees.quit (h : Agrees a) (hopponent : a.opponent client = some other)
    (htype : req.type = rpsReqQuit) : Agrees (a.next (client, req)) := by
  obtain ⟨hback, hne⟩ := h.symm hopponent
  have htheirs : a.opponent other ≠ none := by simp [hback]
  have htracks' := h.tracks htheirs
  rw [h.next_of_quit hopponent htype]
  apply h.change hopponent
  · rfl
  · simp
  · intro player
    by_cases hclient : player = client <;> simp [hclient]
  · intro player hclient _
    simp [hclient]
  · exact ⟨by simp, by simp, by simp⟩
  · simpa [hne] using htracks'

/-- The first of two clients to sign up has to wait for the second. -/
theorem Agrees.next_of_signup_first (h : Agrees a) (halone : a.alone = none)
    (htype : req.type = rpsReqSignup) :
    a.next (client, req) =
      { a with
        server := ({ a.server with unmatched := some client } : State).setPlayer client
          { (a.server.games client).player with tid := client, state := .active }
        alone := some client
        pending := update a.pending client (some req) } := by
  have hquit : req.type ≠ rpsReqQuit := htype.trans_ne (by decide)
  have hserve : a.server.serve client req =
      ([], ({ a.server with unmatched := some client } : State).setPlayer client
        { (a.server.games client).player with tid := client, state := .active }) := by
    rw [Arena.serve_of_signup htype, State.signup, h.unmatched, halone]
  simp only [Arena.next, Arena.replies, hserve, halone, if_pos htype, if_neg hquit]
  rfl

/-- The second one becomes the opponent of the first, and both are replied to. -/
theorem Agrees.next_of_signup_second (h : Agrees a) {first : ℤ}
    (halone : a.alone = some first) (htype : req.type = rpsReqSignup) :
    a.next (client, req) =
      { a with
        server := ({ (a.server.setOpponent first client).setOpponent client first with
            unmatched := none } : State).setPlayer client
          { (a.server.games client).player with tid := client, state := .active }
        alone := none
        opponent := Arena.pair a.opponent first client
        pending := Arena.settled a.pending client req [⟨first, none⟩, ⟨client, none⟩] } := by
  have hquit : req.type ≠ rpsReqQuit := htype.trans_ne (by decide)
  have htid := h.tid (.inl halone)
  have hserve : a.server.serve client req =
      ([⟨first, none⟩, ⟨client, none⟩],
        ({ (a.server.setOpponent first client).setOpponent client first with
            unmatched := none } : State).setPlayer client
          { (a.server.games client).player with tid := client, state := .active }) := by
    rw [Arena.serve_of_signup htype, State.signup, h.unmatched, halone]
    simp [htid]
  simp only [Arena.next, Arena.replies, hserve, halone, if_pos htype, if_neg hquit]
  rfl

theorem Agrees.signup_first (h : Agrees a) (hnew : ¬a.Signed client)
    (halone : a.alone = none) (htype : req.type = rpsReqSignup) :
    Agrees (a.next (client, req)) := by
  have hnone := Arena.opponent_of_new hnew
  have hother : ∀ {player}, a.opponent player ≠ none → player ≠ client := by
    rintro player hsome rfl
    exact hsome hnone
  rw [h.next_of_signup_first halone htype]
  refine ⟨rfl, ?_, ?_, h.symm, ?_, ?_, ?_⟩
  · intro player hsigned
    by_cases hplayer : player = client
    · simp [hplayer]
    · have hsome : a.opponent player ≠ none :=
        hsigned.resolve_left fun heq => hplayer (Option.some.inj heq).symm
      simpa [hplayer] using h.tid (.inr hsome)
  · intro player other hopponent
    simpa using h.opponent hopponent
  · intro player hplayer
    obtain rfl := Option.some.inj hplayer
    exact ⟨hnone, by simp, h.fresh hnew, by simp⟩
  · intro player hsome
    have hplayer := hother hsome
    simpa [hplayer] using h.tracks hsome
  · intro player hsigned
    apply h.fresh
    rintro (hwaits | hsome)
    · exact absurd (halone.symm.trans hwaits) (by simp)
    · exact hsigned (.inr hsome)

/-- Two clients without opponents become each other's. -/
theorem Agrees.symm_pair (h : Agrees a) {first second : ℤ} (hne : second ≠ first)
    (hfirst : a.opponent first = none) (hsecond : a.opponent second = none)
    (hopponent : Arena.pair a.opponent first second client = some other) :
    Arena.pair a.opponent first second other = some client ∧ other ≠ client := by
  have hothers : ∀ {player player'}, a.opponent player = some player' →
      player ≠ second ∧ player ≠ first := by
    intro player player' hsome
    constructor
    · rintro rfl
      exact absurd (hsecond.symm.trans hsome) (by simp)
    · rintro rfl
      exact absurd (hfirst.symm.trans hsome) (by simp)
  by_cases hclient : client = second
  · rw [hclient, Arena.pair_second, Option.some.injEq] at hopponent
    rw [← hopponent, hclient, Arena.pair_first hne]
    exact ⟨rfl, hne.symm⟩
  · by_cases hclient' : client = first
    · rw [hclient', Arena.pair_first hne, Option.some.injEq] at hopponent
      rw [← hopponent, hclient', Arena.pair_second]
      exact ⟨rfl, hne⟩
    · rw [Arena.pair_of_ne hclient hclient'] at hopponent
      obtain ⟨hback, hdiffers⟩ := h.symm hopponent
      rw [Arena.pair_of_ne (hothers hback).1 (hothers hback).2]
      exact ⟨hback, hdiffers⟩

theorem Agrees.signup_second (h : Agrees a) (hnew : ¬a.Signed client) {first : ℤ}
    (halone : a.alone = some first) (htype : req.type = rpsReqSignup) :
    Agrees (a.next (client, req)) := by
  obtain ⟨hunpaired, _, hstays, hactive⟩ := h.single halone
  have hne : client ≠ first := by
    rintro rfl
    exact hnew (.inl halone)
  -- whether a client has an opponent changes for these two only
  have hsigned : ∀ {player}, player ≠ client →
      (a.Signed player ↔ Arena.pair a.opponent first client player ≠ none) := by
    intro player hplayer
    by_cases hfirst : player = first
    · subst player
      exact iff_of_true (.inl halone) (by simp [Arena.pair_first hne])
    · have hdiffers : a.alone ≠ some player := by simp [halone, Ne.symm hfirst]
      rw [Arena.pair_of_ne hplayer hfirst, Arena.Signed, or_iff_right hdiffers]
  rw [h.next_of_signup_second halone htype]
  refine ⟨rfl, ?_, ?_, h.symm_pair hne hunpaired (Arena.opponent_of_new hnew), ?_, ?_, ?_⟩
  · intro player hpaired
    by_cases hplayer : player = client
    · simp [hplayer]
    · have hbefore := (hsigned hplayer).mpr (hpaired.resolve_left (by simp))
      simpa [hplayer] using h.tid hbefore
  · intro player other (hopponent : Arena.pair a.opponent first client player = some other)
    by_cases hplayer : player = client
    · rw [hplayer, Arena.pair_second, Option.some.injEq] at hopponent
      simp [hplayer, hopponent]
    · by_cases hfirst : player = first
      · rw [hfirst, Arena.pair_first hne, Option.some.injEq] at hopponent
        simp [hfirst, hopponent]
      · rw [Arena.pair_of_ne hplayer hfirst] at hopponent
        simpa [hplayer, hfirst] using h.opponent hopponent
  · intro player hplayer
    exact absurd hplayer (by simp)
  · intro player (hsome : Arena.pair a.opponent first client player ≠ none)
    by_cases hplayer : player = client
    · subst player
      have hquit := h.fresh hnew
      exact ⟨by simp [hquit], by simp, by simp [Arena.settled]⟩
    · by_cases hfirst : player = first
      · subst player
        exact ⟨by simp [hstays], by simp [hplayer, hactive], by simp [Arena.settled]⟩
      · rw [Arena.pair_of_ne hplayer hfirst] at hsome
        simpa [Arena.settled, hplayer, hfirst] using h.tracks hsome
  · intro player hunsigned
    have hpaired := not_or.mp hunsigned
    have hplayer : player ≠ client := by
      rintro rfl
      exact hpaired.2 (by simp [Arena.pair_second])
    exact h.fresh fun hbefore => hpaired.2 ((hsigned hplayer).mp hbefore)

inductive Requests (a : Arena) (client : ℤ) (req : RpsRequest) : Prop
  | signup (hnew : ¬a.Signed client) (htype : req.type = rpsReqSignup)
  | play {other : ℤ} (hfree : a.pending client = none) (hopponent : a.opponent client = some other)
      (htype : req.type = rpsReqPlay)
  | quit {other : ℤ} (hopponent : a.opponent client = some other) (htype : req.type = rpsReqQuit)

/-- A client that plays or quits has an opponent. -/
theorem Agrees.requests (h : Agrees a) (hsends : a.Sends (client, req)) :
    Requests a client req := by
  obtain ⟨hfree, hcases⟩ := hsends
  rcases hcases with ⟨hsignup, hnew⟩ | ⟨hplay, hsigned⟩ | ⟨hquit, hsigned⟩
  · exact .signup hnew hsignup
  · obtain ⟨other, hopponent⟩ := h.exists_opponent hfree hsigned
    exact .play hfree hopponent hplay
  · obtain ⟨other, hopponent⟩ := h.exists_opponent hfree hsigned
    exact .quit hopponent hquit

/-- Every request that a client may send keeps what the server knows right. -/
theorem Agrees.next (h : Agrees a) {input : Input} (hsends : a.Sends input) :
    Agrees (a.next input) := by
  cases h.requests hsends with
  | signup hnew htype =>
      cases halone : a.alone with
      | none => exact h.signup_first hnew halone htype
      | some first => exact h.signup_second hnew halone htype
  | play hfree hopponent htype => exact h.play hfree hopponent htype
  | quit hopponent htype => exact h.quit hopponent htype

end Agrees

theorem agrees_start (games : ℤ → RpsGame) : Agrees (Arena.start games) where
  unmatched := rfl
  tid hsigned := by simp [Arena.Signed, Arena.start] at hsigned
  opponent hopponent := by simp [Arena.start] at hopponent
  symm hopponent := by simp [Arena.start] at hopponent
  single halone := by simp [Arena.start] at halone
  tracks hsome := absurd rfl hsome
  fresh _ := rfl

/-- In every run of the clients the server knows its players. -/
theorem throughout_agrees (games : ℤ → RpsGame) {inputs : List Input}
    (hsends : EachStep Arena.next Arena.Sends (.start games) inputs) :
    Throughout Arena.next Agrees (.start games) inputs :=
  hsends.throughout (fun hagrees hinput => hagrees.next hinput) (agrees_start games)

end Rtk.RpsServer
