import Mathlib.Data.Int.Notation
import Mathlib.Data.Nat.Notation
import Mathlib.Logic.Function.Basic

/-!
# The rock-paper-scissors server

The loop of `RpsServer` of `usr/rps.c`.  `games` has one record for each tid of a player;
an `opponent` is the tid whose record the pointer leads to.
-/

namespace Rtk.RpsServer

open Function

/-! The values of `enum RpsMsgType`. -/

def rpsReqSignup : ℤ := 0
def rpsReqQuit : ℤ := 1
def rpsReqPlay : ℤ := 2
def rpsResPlay : ℤ := 3

/-! The values of `enum RpsResult`. -/

def rpsQuit : ℤ := -1
def rpsLoss : ℤ := 0
def rpsTie : ℤ := 1
def rpsWin : ℤ := 2

/-! The values of `enum RpsThrow`. -/

def rpsRock : ℕ := 0
def rpsPaper : ℕ := 1
def rpsScissors : ℕ := 2

inductive RpsPlayerState where
  | active
  | waiting
  | quit
  deriving DecidableEq

structure RpsPlayer where
  tid : ℤ
  choice : ℕ
  state : RpsPlayerState

structure RpsGame where
  opponent : ℤ
  player : RpsPlayer

/-- The request of a client: `choice` is `req.throw.choice`. -/
structure RpsRequest where
  type : ℤ
  choice : ℕ
  deriving DecidableEq

structure RpsPlayResponse where
  type : ℤ
  result : ℤ
  deriving DecidableEq

/-- A `Reply( tid, &res, sizeof( res ) )`, or a `Reply( tid, NULL, 0 )`. -/
structure Reply where
  tid : ℤ
  response : Option RpsPlayResponse
  deriving DecidableEq

def rpsGetResult (mine theirs : ℕ) : ℤ :=
  if mine = theirs then rpsTie
  else if (mine = rpsRock ∧ theirs = rpsScissors) ∨ theirs < mine then rpsWin
  else rpsLoss

structure State where
  unmatched : Option ℤ
  games : ℤ → RpsGame

namespace State

def setPlayer (s : State) (index : ℤ) (player : RpsPlayer) : State :=
  { s with games := update s.games index { s.games index with player := player } }

def setOpponent (s : State) (index opponent : ℤ) : State :=
  { s with games := update s.games index { s.games index with opponent := opponent } }

/-- The case `RPS_REQ_SIGNUP`. -/
def signup (s : State) (senderTid : ℤ) : List Reply × State :=
  let matched : List Reply × State :=
    match s.unmatched with
    | none => ([], { s with unmatched := some senderTid })
    | some first =>
        let s := (s.setOpponent first senderTid).setOpponent senderTid first
        ([⟨(s.games first).player.tid, none⟩, ⟨senderTid, none⟩], { s with unmatched := none })
  let s := matched.2
  (matched.1, s.setPlayer senderTid
    { (s.games senderTid).player with tid := senderTid, state := .active })

/-- The case `RPS_REQ_PLAY`. -/
def play (s : State) (senderTid : ℤ) (choice : ℕ) : List Reply × State :=
  let opponent := (s.games senderTid).opponent
  if (s.games senderTid).player.state ≠ .active then ([], s)
  else
    let s := s.setPlayer senderTid { (s.games senderTid).player with choice := choice }
    let opp := (s.games opponent).player
    match opp.state with
    | .active =>
        ([], s.setPlayer senderTid { (s.games senderTid).player with state := .waiting })
    | .waiting =>
        let s := s.setPlayer opponent { opp with state := .active }
        let curr := (s.games senderTid).player
        ([⟨curr.tid, some ⟨rpsResPlay, rpsGetResult curr.choice opp.choice⟩⟩,
          ⟨opp.tid, some ⟨rpsResPlay, rpsGetResult opp.choice curr.choice⟩⟩], s)
    | .quit => ([⟨senderTid, some ⟨rpsQuit, rpsQuit⟩⟩], s)

/-- The case `RPS_REQ_QUIT`. -/
def quit (s : State) (senderTid : ℤ) : List Reply × State :=
  let opp := (s.games (s.games senderTid).opponent).player
  let informed : List Reply :=
    if opp.state = .waiting then [⟨senderTid, some ⟨rpsQuit, rpsQuit⟩⟩] else []
  (informed ++ [⟨senderTid, none⟩],
    s.setPlayer senderTid { (s.games senderTid).player with state := .quit })

def serve (s : State) (senderTid : ℤ) (req : RpsRequest) : List Reply × State :=
  if req.type = rpsReqSignup then s.signup senderTid
  else if req.type = rpsReqPlay then s.play senderTid req.choice
  else if req.type = rpsReqQuit then s.quit senderTid
  else ([], s)

/-- The element of `games` that a request uses. -/
def element (senderTid : ℤ) (req : RpsRequest) : Option ℤ :=
  if req.type = rpsReqSignup ∨ req.type = rpsReqPlay ∨ req.type = rpsReqQuit then
    some senderTid
  else none

end State

end Rtk.RpsServer
