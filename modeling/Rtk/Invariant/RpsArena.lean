import Rtk.Usr.RpsServer

/-!
# The players of rock-paper-scissors

A client of the server is blocked in `Send` until the server replies to it.  The arena is
the server with its clients: who plays against whom, what each one is blocked in, and who
has quit.
-/

namespace Rtk.RpsServer

open Function

/-- The server and its clients. -/
structure Arena where
  server : State
  /-- The client that has signed up and has no opponent yet. -/
  alone : Option ℤ
  opponent : ℤ → Option ℤ
  /-- The request that a client is blocked in. -/
  pending : ℤ → Option RpsRequest
  hasQuit : ℤ → Bool

abbrev Input := ℤ × RpsRequest

namespace Arena

def pair (opponent : ℤ → Option ℤ) (first second : ℤ) : ℤ → Option ℤ :=
  update (update opponent first (some second)) second (some first)

def replies (a : Arena) (input : Input) : List Reply := (a.server.serve input.1 input.2).1

/-- The clients that are replied to go on, and the others stay blocked. -/
def settled (pending : ℤ → Option RpsRequest) (client : ℤ) (req : RpsRequest)
    (replies : List Reply) : ℤ → Option RpsRequest := fun other =>
  if other ∈ replies.map Reply.tid then none else update pending client (some req) other

def next (a : Arena) (input : Input) : Arena where
  server := (a.server.serve input.1 input.2).2
  alone :=
    if input.2.type = rpsReqSignup then
      if a.alone = none then some input.1 else none
    else a.alone
  opponent :=
    match a.alone with
    | some first =>
        if input.2.type = rpsReqSignup then pair a.opponent first input.1 else a.opponent
    | none => a.opponent
  pending := settled a.pending input.1 input.2 (a.replies input)
  hasQuit := if input.2.type = rpsReqQuit then update a.hasQuit input.1 true else a.hasQuit

def Signed (a : Arena) (client : ℤ) : Prop := a.alone = some client ∨ a.opponent client ≠ none

instance (a : Arena) (client : ℤ) : Decidable (a.Signed client) :=
  inferInstanceAs (Decidable (_ ∨ _))

/-- A client that is not blocked signs up, for the first time, or plays or quits after that. -/
def Sends (a : Arena) (input : Input) : Prop :=
  a.pending input.1 = none ∧
    (input.2.type = rpsReqSignup ∧ ¬a.Signed input.1 ∨
      input.2.type = rpsReqPlay ∧ a.Signed input.1 ∨
      input.2.type = rpsReqQuit ∧ a.Signed input.1)

instance (a : Arena) (input : Input) : Decidable (a.Sends input) :=
  inferInstanceAs (Decidable (_ ∧ (_ ∨ _ ∨ _)))

/-- The throw for which a client that has not quit waits for a result. -/
def thrown (a : Arena) (client : ℤ) : Option ℕ :=
  if a.hasQuit client then none
  else (a.pending client).bind fun req => if req.type = rpsReqPlay then some req.choice else none

/-- Nobody has signed up; `games` is uninitialised. -/
def start (games : ℤ → RpsGame) : Arena where
  server := ⟨none, games⟩
  alone := none
  opponent _ := none
  pending _ := none
  hasQuit _ := false

end Arena

/-! ## What the server does with a request -/

namespace State

variable (s : State) (index client : ℤ) (player : RpsPlayer)

theorem games_setPlayer : (s.setPlayer index player).games =
    update s.games index { s.games index with player := player } := rfl

@[simp]
theorem player_setPlayer :
    ((s.setPlayer index player).games client).player =
      if client = index then player else (s.games client).player := by
  by_cases hclient : client = index
  · rw [hclient, games_setPlayer, update_self, if_pos rfl]
  · rw [games_setPlayer, update_of_ne hclient, if_neg hclient]

@[simp]
theorem opponent_setPlayer :
    ((s.setPlayer index player).games client).opponent = (s.games client).opponent := by
  by_cases hclient : client = index
  · rw [hclient, games_setPlayer, update_self]
  · rw [games_setPlayer, update_of_ne hclient]

@[simp]
theorem unmatched_setPlayer : (s.setPlayer index player).unmatched = s.unmatched := rfl

@[simp]
theorem setPlayer_setPlayer (player' : RpsPlayer) :
    (s.setPlayer index player).setPlayer index player' = s.setPlayer index player' := by
  simp only [setPlayer, update_self, update_idem]

theorem games_setOpponent (opponent : ℤ) : (s.setOpponent index opponent).games =
    update s.games index { s.games index with opponent := opponent } := rfl

@[simp]
theorem player_setOpponent (opponent : ℤ) :
    ((s.setOpponent index opponent).games client).player = (s.games client).player := by
  by_cases hclient : client = index
  · rw [hclient, games_setOpponent, update_self]
  · rw [games_setOpponent, update_of_ne hclient]

@[simp]
theorem opponent_setOpponent (opponent : ℤ) :
    ((s.setOpponent index opponent).games client).opponent =
      if client = index then opponent else (s.games client).opponent := by
  by_cases hclient : client = index
  · rw [hclient, games_setOpponent, update_self, if_pos rfl]
  · rw [games_setOpponent, update_of_ne hclient, if_neg hclient]

variable {s} {client other : ℤ} (choice : ℕ)

theorem play_of_quit (hstate : (s.games client).player.state = .quit) :
    s.play client choice = ([], s) := by
  have hnot : (s.games client).player.state ≠ .active := hstate.trans_ne (by decide)
  rw [play, if_pos hnot]

variable (hstate : (s.games client).player.state = .active)
  (hopponent : (s.games client).opponent = other) (hne : other ≠ client)

include hstate hopponent hne

/-- The first of two opponents to throw waits. -/
theorem play_of_opponent_active (hother : (s.games other).player.state = .active) :
    s.play client choice =
      ([], s.setPlayer client
        { (s.games client).player with choice := choice, state := .waiting }) := by
  rw [play, if_neg (not_not.mpr hstate)]
  simp [hopponent, hne, hother]

/-- The second one ends the round. -/
theorem play_of_opponent_waiting (hother : (s.games other).player.state = .waiting) :
    s.play client choice =
      ([⟨(s.games client).player.tid,
          some ⟨rpsResPlay, rpsGetResult choice (s.games other).player.choice⟩⟩,
        ⟨(s.games other).player.tid,
          some ⟨rpsResPlay, rpsGetResult (s.games other).player.choice choice⟩⟩],
        (s.setPlayer client { (s.games client).player with choice := choice }).setPlayer other
          { (s.games other).player with state := .active }) := by
  rw [play, if_neg (not_not.mpr hstate)]
  simp [hopponent, hne, hne.symm, hother]

theorem play_of_opponent_quit (hother : (s.games other).player.state = .quit) :
    s.play client choice =
      ([⟨client, some ⟨rpsQuit, rpsQuit⟩⟩],
        s.setPlayer client { (s.games client).player with choice := choice }) := by
  rw [play, if_neg (not_not.mpr hstate)]
  simp [hopponent, hne, hother]

omit hstate hne in
/-- A player who quits is replied to, and once more when the opponent waits. -/
theorem quit_of_opponent :
    s.quit client =
      ((if (s.games other).player.state = .waiting then [⟨client, some ⟨rpsQuit, rpsQuit⟩⟩]
          else []) ++ [⟨client, none⟩],
        s.setPlayer client { (s.games client).player with state := .quit }) := by
  rw [quit, hopponent]

end State

section Arena

variable {a : Arena} {client : ℤ} {req : RpsRequest}

theorem Arena.serve_of_play (htype : req.type = rpsReqPlay) :
    a.server.serve client req = a.server.play client req.choice := by
  have hsignup : req.type ≠ rpsReqSignup := htype.trans_ne (by decide)
  rw [State.serve, if_neg hsignup, if_pos htype]

theorem Arena.serve_of_quit (htype : req.type = rpsReqQuit) :
    a.server.serve client req = a.server.quit client := by
  have hsignup : req.type ≠ rpsReqSignup := htype.trans_ne (by decide)
  have hplay : req.type ≠ rpsReqPlay := htype.trans_ne (by decide)
  rw [State.serve, if_neg hsignup, if_neg hplay, if_pos htype]

/-- Everything but the server and the clients that are blocked stays. -/
theorem Arena.next_of_play (htype : req.type = rpsReqPlay) {replies : List Reply}
    {server : State} (hserve : a.server.play client req.choice = (replies, server)) :
    a.next (client, req) =
      { a with server := server, pending := Arena.settled a.pending client req replies } := by
  have hsignup : req.type ≠ rpsReqSignup := htype.trans_ne (by decide)
  have hquit : req.type ≠ rpsReqQuit := htype.trans_ne (by decide)
  simp only [Arena.next, Arena.replies, Arena.serve_of_play htype, hserve, if_neg hsignup,
    if_neg hquit]
  cases a.alone <;> rfl

theorem Arena.serve_of_signup (htype : req.type = rpsReqSignup) :
    a.server.serve client req = a.server.signup client := if_pos htype

theorem Arena.opponent_of_new (hnew : ¬a.Signed client) : a.opponent client = none := by
  by_contra hsome
  exact hnew (.inr hsome)

section Pair

variable {opponent : ℤ → Option ℤ} {first second player : ℤ}

theorem Arena.pair_second : Arena.pair opponent first second second = some first :=
  update_self ..

theorem Arena.pair_first (hne : second ≠ first) :
    Arena.pair opponent first second first = some second := by
  rw [Arena.pair, update_of_ne hne.symm, update_self]

theorem Arena.pair_of_ne (hsecond : player ≠ second) (hfirst : player ≠ first) :
    Arena.pair opponent first second player = opponent player := by
  rw [Arena.pair, update_of_ne hsecond, update_of_ne hfirst]

end Pair

end Arena

/-! ## Samples -/

def sampleGames : ℤ → RpsGame := fun _ => ⟨0, ⟨0, 0, .quit⟩⟩

def sampleRound (first second : ℕ) : List Input :=
  [(1, ⟨rpsReqSignup, 0⟩), (2, ⟨rpsReqSignup, 0⟩), (1, ⟨rpsReqPlay, first⟩),
    (2, ⟨rpsReqPlay, second⟩)]

end Rtk.RpsServer
