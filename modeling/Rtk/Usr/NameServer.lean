import Rtk.Core.Transition
import Rtk.Lib.HashTable

/-!
# The name server

`usr/nameserver.c`: the requests that `RegisterAs` and `WhoIs` build and the loop of
`NameServer`.  The server keeps the hash of a name, not the name.
-/

namespace Rtk.NameServer

open Function
open Rtk.ByteMemory
open Rtk.Lib
open Rtk.Transition

def nsNameBufferSize : ℕ := 128

/-! The values of `enum NameServerMsgType`. -/

def nsRegisterAs : ℤ := 0
def nsRegisterAsReply : ℤ := 1
def nsWhoIs : ℤ := 2
def nsWhoIsReply : ℤ := 3

/-- `struct NameServerRequest`.  The indices of `name` from `NS_NAME_BUFFER_SIZE` on
designate the memory behind it. -/
structure NameServerRequest where
  type : ℤ
  name : ℕ → Byte

structure NameServerWhoIsResponse where
  type : ℤ
  status : ℤ
  whoisTid : ℤ
  deriving DecidableEq

structure NameServerRegisterAsResponse where
  type : ℤ
  status : ℤ
  deriving DecidableEq

inductive Response where
  | whoIs (response : NameServerWhoIsResponse)
  | registerAs (response : NameServerRegisterAsResponse)
  deriving DecidableEq

/-! ## The clients -/

/-- The request that `RegisterAs( name )` sends, built over `uninit`. -/
def registerAsRequest (name uninit : ℕ → Byte) : NameServerRequest :=
  let nameLength := strnlen name (nsNameBufferSize - 1)
  { type := nsRegisterAs
    name := update (strncpy uninit name nameLength) nameLength 0 }

def whoIsRequest (name uninit : ℕ → Byte) : NameServerRequest :=
  let nameLength := strnlen name (nsNameBufferSize - 1)
  { type := nsWhoIs
    name := strncpy uninit name nameLength }

/-! ## The server -/

/-- What a round of the server finds in memory that it has not written: the words
behind the hash table and its uninitialised `whois_tid`. -/
structure Leftover where
  past : ℕ → HashTableNode
  whoisTid : ℤ

/-- The body of the loop of `NameServer` for a message from `tid`: the reply, if
there is one, and the table. -/
def serve (ht : HashTable) (leftover : Leftover) (fuel : ℕ) (tid : ℤ)
    (msg : NameServerRequest) : Option (Option Response × HashTable) :=
  if msg.type = nsWhoIs then
    (hash msg.name fuel).map fun key =>
      let got := hashTableGet ht leftover.past key leftover.whoisTid
      (some (.whoIs
        { type := nsWhoIsReply
          status := got.1
          whoisTid := got.2 }), ht)
  else if msg.type = nsRegisterAs then
    (hash msg.name fuel).map fun key =>
      let inserted := hashTableInsert ht leftover.past key tid
      (some (.registerAs
        { type := nsRegisterAsReply
          status := inserted.1 }), inserted.2)
  else some (none, ht)

/-! ## Sequences of requests -/

inductive Call where
  | registerAs
  | whoIs
  deriving DecidableEq

/-- A call with the name that `str` spells. -/
structure Visit where
  tid : ℤ
  call : Call
  name : List Byte
  str : ℕ → Byte
  uninit : ℕ → Byte
  leftover : Leftover

def Visit.msg (visit : Visit) : NameServerRequest :=
  match visit.call with
  | .registerAs => registerAsRequest visit.str visit.uninit
  | .whoIs => whoIsRequest visit.str visit.uninit

/-- The state of the server between two requests.  `registered` is a history
variable: the names and tids of the registrations answered with status OK, the
newest first. -/
structure State where
  table : HashTable
  registered : List (List Byte × ℤ)

/-- The registrations after a visit that was answered with `response`. -/
def recordVisit (registered : List (List Byte × ℤ)) (visit : Visit) :
    Option Response → List (List Byte × ℤ)
  | some (.registerAs response) =>
      if response.status = htSuccess then (visit.name, visit.tid) :: registered
      else registered
  | _ => registered

/-- The server before its first request.  Its table is static memory. -/
def start : State := ⟨hashTableInitialize HashTable.zero, []⟩

def server : System State Visit where
  initial s := s = start
  step s visit s' :=
    ∃ fuel response,
      serve s.table visit.leftover fuel visit.tid visit.msg = some (response, s'.table) ∧
        s'.registered = recordVisit s.registered visit response

/-- The name is a string of fewer than 127 characters. -/
def Named (_ : State) (visit : Visit) : Prop :=
  Spells visit.str 0 visit.name ∧ visit.name.length < nsNameBufferSize - 1

def visits (fuel : ℕ) : State → List Visit → Option State
  | s, [] => some s
  | s, visit :: rest =>
      match serve s.table visit.leftover fuel visit.tid visit.msg with
      | none => none
      | some (response, table) =>
          visits fuel ⟨table, recordVisit s.registered visit response⟩ rest

theorem reachable_of_visits {fuel : ℕ} {s s' : State} {requests : List Visit}
    (hreachable : Reachable server Named s)
    (hnamed : ∀ visit ∈ requests, Named s visit)
    (hvisits : visits fuel s requests = some s') : Reachable server Named s' := by
  induction requests generalizing s with
  | nil =>
      rw [visits, Option.some.injEq] at hvisits
      exact hvisits ▸ hreachable
  | cons visit rest ih =>
      rw [visits] at hvisits
      cases hserve : serve s.table visit.leftover fuel visit.tid visit.msg with
      | none => simp [hserve] at hvisits
      | some outcome =>
          simp only [hserve] at hvisits
          have hstep : Reachable server Named
              ⟨outcome.2, recordVisit s.registered visit outcome.1⟩ :=
            hreachable.step (hnamed visit List.mem_cons_self) ⟨fuel, outcome.1, hserve, rfl⟩
          exact ih hstep (fun next hnext => hnamed next (List.mem_cons_of_mem _ hnext)) hvisits

end Rtk.NameServer
