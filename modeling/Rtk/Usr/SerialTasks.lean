import Rtk.Core.Programs
import Rtk.Usr.SerialServer

/-!
# The tasks of a UART

The loops of `SerialServer`, `Courier`, `Notifier`, `TransmitSecretary` and `ReceiveSecretary`
of `usr/serialserver.c`, cut at the system calls that they make, and the requests of `Putc`
and `Getc`.
-/

namespace Rtk.SerialServer

open Rtk.ByteMemory
open Rtk.Messaging

inductive Msg where
  | request (req : SerialRequest)
  | char (ch : Byte)
  /-- `NULL, 0`. -/
  | null
  /-- A message that is not theirs. -/
  | other (bytes : List Byte)
  deriving DecidableEq

/-- What `req` holds once the message was received. -/
def Msg.Fills (msg : Msg) (req : SerialRequest) : Prop := ∀ sent, msg = .request sent → req = sent

def putc (ch : Byte) : Msg := .request ⟨ssTransmit, ch⟩

def getc : Msg := .request ⟨ssReceive, 0⟩

/-- The tids of the tasks, and the event of the UART. -/
structure Crew (T E : Type*) where
  serialServer : T
  courier : T
  notifier : T
  transmitSecretary : T
  receiveSecretary : T
  picReg : E
  distinct : [serialServer, courier, notifier, transmitSecretary, receiveSecretary].Nodup

variable {T E : Type*}

def Crew.tids (crew : Crew T E) : List T :=
  [crew.serialServer, crew.courier, crew.notifier, crew.transmitSecretary,
    crew.receiveSecretary]

/-! ## The server -/

/-- The server with what it still does about the last message, and the bytes that it wrote to
the data register. -/
structure Server where
  run : Run
  pending : List Output
  written : List Byte

/-- The bytes written to the data register before the next reply, and what is left then. -/
def settle : List Output → List Byte × List Output
  | .transmit data :: rest => (data :: (settle rest).1, (settle rest).2)
  | .clearReceive :: rest => settle rest
  | .clearTransmit :: rest => settle rest
  | outputs => ([], outputs)

namespace Server

/-- The server goes on to its next reply or to `Receive`. -/
def proceed (v : Server) (outputs : List Output) : Server :=
  { v with pending := (settle outputs).2, written := v.written ++ (settle outputs).1 }

def call (crew : Crew T E) (v : Server) : Act T E Msg :=
  match v.pending with
  | [] => ⟨.receive, .null⟩
  | .replyCourier :: _ => ⟨.reply crew.courier, .null⟩
  | .replyReceive recv :: _ => ⟨.reply crew.receiveSecretary, .char recv⟩
  | .replyTransmit :: _ => ⟨.reply crew.transmitSecretary, .null⟩
  -- not reached, because the server proceeds to its next reply
  | _ :: _ => ⟨.other, .null⟩

inductive Resumes : Answer T Msg → Server → Server → Prop
  | took {sender : T} {msg : Msg} {v : Server} {req : SerialRequest} (regs : Uart)
      (hpending : v.pending = []) (hreq : msg.Fills req) :
      Resumes (.took sender msg) v
        ({ v with run := v.run.handle ⟨req, regs⟩ }.proceed (v.run.server.serve regs req).1)
  | replied {answer : Answer T Msg} {v : Server} {output : Output} {rest : List Output}
      (hpending : v.pending = output :: rest) : Resumes answer v (v.proceed rest)

end Server

/-! ## The courier and the notifier -/

inductive Courier where
  | collecting
  | delivering
  deriving DecidableEq

namespace Courier

def call (crew : Crew T E) : Courier → Act T E Msg
  | collecting => ⟨.send crew.notifier, .null⟩
  | delivering => ⟨.send crew.serialServer, .request ⟨ssNotifier, 0⟩⟩

def next : Courier → Courier
  | collecting => delivering
  | delivering => collecting

end Courier

/-- The call that `Notifier` makes next, with its variable `courier`. -/
inductive Notifier (T : Type*) where
  | receiving
  | awaiting (courier : T)
  | replying (courier : T)

namespace Notifier

def call (crew : Crew T E) : Notifier T → Act T E Msg
  | receiving => ⟨.receive, .null⟩
  | awaiting _ => ⟨.await crew.picReg, .null⟩
  | replying courier => ⟨.reply courier, .null⟩

inductive Resumes : Answer T Msg → Notifier T → Notifier T → Prop
  | took (courier : T) (msg : Msg) : Resumes (.took courier msg) receiving (awaiting courier)
  | woken (courier : T) : Resumes .done (awaiting courier) (replying courier)
  | replied (answer : Answer T Msg) (courier : T) : Resumes answer (replying courier) receiving

end Notifier

/-! ## The secretaries -/

/-- The call that a secretary makes next, with its variables. -/
inductive Stage (T : Type*) where
  /-- The `Send` of `RegisterAs`. -/
  | registering (nameserverTid : T) (request : Msg)
  | receiving
  | forwarding (senderTid : T) (req : SerialRequest)
  | replying (senderTid : T) (res : Msg)

/-- A secretary with the requests that it took and the replies that it made. -/
structure Secretary (T : Type*) where
  stage : Stage T
  taken : List (T × SerialRequest)
  answered : List (T × Msg)

namespace Secretary

def call (crew : Crew T E) (v : Secretary T) : Act T E Msg :=
  match v.stage with
  | .registering nameserverTid request => ⟨.send nameserverTid, request⟩
  | .receiving => ⟨.receive, .null⟩
  | .forwarding _ req => ⟨.send crew.serialServer, .request req⟩
  | .replying senderTid res => ⟨.reply senderTid, res⟩

/-- `result` is what the secretary makes of the reply of the server. -/
inductive Resumes (crew : Crew T E) (result : Msg → Msg) :
    Answer T Msg → Secretary T → Secretary T → Prop
  /-- `RegisterAs` failed, and is called again. -/
  | again {answer : Answer T Msg} {v : Secretary T} {nameserverTid : T} {request : Msg}
      (nameserverTid' : T) (request' : Msg) (hstage : v.stage = .registering nameserverTid request)
      (hother : nameserverTid' ∉ crew.tids) :
      Resumes crew result answer v { v with stage := .registering nameserverTid' request' }
  | registered {answer : Answer T Msg} {v : Secretary T} {nameserverTid : T} {request : Msg}
      (hstage : v.stage = .registering nameserverTid request) :
      Resumes crew result answer v { v with stage := .receiving }
  | took {sender : T} {msg : Msg} {v : Secretary T} {req : SerialRequest}
      (hstage : v.stage = .receiving) (hreq : msg.Fills req) :
      Resumes crew result (.took sender msg) v
        { v with stage := .forwarding sender req, taken := v.taken ++ [(sender, req)] }
  | replied {msg : Msg} {v : Secretary T} {senderTid : T} {req : SerialRequest}
      (hstage : v.stage = .forwarding senderTid req) :
      Resumes crew result (.replied msg) v
        { v with stage := .replying senderTid (result msg) }
  /-- The server is not there, and `res` holds anything. -/
  | unsent {v : Secretary T} {senderTid : T} {req : SerialRequest} (res : Msg)
      (hstage : v.stage = .forwarding senderTid req) :
      Resumes crew result .failed v { v with stage := .replying senderTid (result res) }
  | answered {v : Secretary T} {senderTid : T} {res : Msg}
      (hstage : v.stage = .replying senderTid res) :
      Resumes crew result .done v
        { v with stage := .receiving, answered := v.answered ++ [(senderTid, res)] }
  /-- The sender does not wait. -/
  | refused {v : Secretary T} {senderTid : T} {res : Msg}
      (hstage : v.stage = .replying senderTid res) :
      Resumes crew result .failed v { v with stage := .receiving }

end Secretary

/-! ## The programs -/

/-- A task with its variables. -/
inductive Station (T : Type*) where
  | serialServer (v : Server)
  | courier (v : Courier)
  | notifier (v : Notifier T)
  | transmitSecretary (v : Secretary T)
  | receiveSecretary (v : Secretary T)
  | other

namespace Station

def call (crew : Crew T E) : Station T → Option (Act T E Msg)
  | serialServer v => some (v.call crew)
  | courier v => some (v.call crew)
  | notifier v => some (v.call crew)
  | transmitSecretary v => some (v.call crew)
  | receiveSecretary v => some (v.call crew)
  | other => none

/-- `TransmitSecretary` replies `NULL, 0`, and `ReceiveSecretary` what it was replied. -/
inductive Resumes (crew : Crew T E) : Answer T Msg → Station T → Station T → Prop
  | serialServer {answer : Answer T Msg} {v v' : Server} (h : v.Resumes answer v') :
      Resumes crew answer (serialServer v) (serialServer v')
  | courier (answer : Answer T Msg) (v : Courier) :
      Resumes crew answer (courier v) (courier v.next)
  | notifier {answer : Answer T Msg} {v v' : Notifier T} (h : v.Resumes answer v') :
      Resumes crew answer (notifier v) (notifier v')
  | transmitSecretary {answer : Answer T Msg} {v v' : Secretary T}
      (h : Secretary.Resumes crew (fun _ => .null) answer v v') :
      Resumes crew answer (transmitSecretary v) (transmitSecretary v')
  | receiveSecretary {answer : Answer T Msg} {v v' : Secretary T}
      (h : Secretary.Resumes crew id answer v v') :
      Resumes crew answer (receiveSecretary v) (receiveSecretary v')
  | other (answer : Answer T Msg) : Resumes crew answer other other

end Station

/-- The programs of the tasks of a UART; all others may do anything. -/
def programs (crew : Crew T E) : Program T E Msg (Station T) where
  call := Station.call crew
  resumes := Station.Resumes crew

end Rtk.SerialServer
