import Rtk.Lib.CyclicBuffer

/-!
# The serial server

The loop of `SerialServer` of `usr/serialserver.c`.  What the UART shows when the
server reads one of its registers is an input of the iteration; the replies and the
writes to its registers are the output.
-/

namespace Rtk.SerialServer

open Rtk.ByteMemory
open Rtk.Lib

/-! The values of `enum SerialRequestType`. -/

def ssNotifier : ℤ := 0
def ssTransmit : ℤ := 1
def ssReceive : ℤ := 2

def uartfrRxff : Word := 0x40

def uartfrTxfe : Word := 0x80

/-- `SS_BUFFER_SIZE`, the size of `tbuffer` and of `rbuffer`. -/
def ssBufferSize : ℕ := 128

structure SerialRequest where
  type : ℤ
  data : Byte
  deriving DecidableEq

/-- What the server reads from the registers of the UART in one iteration. -/
structure Uart where
  /-- `UARTFR` as read for `UARTFR_RXFF`. -/
  receiveFlags : Word
  /-- The data register. -/
  data : Word
  /-- `UARTFR` as read for `UARTFR_TXFE`. -/
  transmitFlags : Word
  deriving DecidableEq

/-- What the server does to other tasks and to the UART. -/
inductive Output where
  /-- `Reply( courier_tid, NULL, 0 )`. -/
  | replyCourier
  /-- `UARTICR_RXIC` is written to `UARTICR`. -/
  | clearReceive
  /-- `Reply( receive_tid, &recv, sizeof( recv ) )`. -/
  | replyReceive (recv : Byte)
  /-- `UARTICR_TXIC` is written to `UARTICR`. -/
  | clearTransmit
  /-- A byte is written to the data register. -/
  | transmit (data : Byte)
  /-- `Reply( transmit_tid, NULL, 0 )`. -/
  | replyTransmit
  deriving DecidableEq

/-- The local variables of `SerialServer` that its loop changes. -/
structure State where
  transmitBuffer : CyclicBuffer
  receiveBuffer : CyclicBuffer
  awaitingReceive : Bool
  awaitingTransmit : Bool

namespace State

/-- `CyclicBufferPop( &transmit_buffer, config.uart )`. -/
def popTransmit (s : State) : List Output × State :=
  let popped := cyclicBufferPop s.transmitBuffer
  ((popped.2.1.getD []).map .transmit, { s with transmitBuffer := popped.2.2 })

def received (s : State) (uart : Uart) : List Output × State :=
  if uart.receiveFlags &&& uartfrRxff ≠ 0 then
    let recv : Byte := uart.data.setWidth 8
    if s.awaitingReceive then
      ([.clearReceive, .replyReceive recv], { s with awaitingReceive := false })
    else
      ([.clearReceive],
        { s with receiveBuffer := (cyclicBufferPush s.receiveBuffer fun _ => recv).2 })
  else ([], s)

def transmitted (s : State) (uart : Uart) : List Output × State :=
  if s.awaitingTransmit ∧ uart.transmitFlags &&& uartfrTxfe ≠ 0 then
    let s := { s with awaitingTransmit := false }
    if isCyclicBufferEmpty s.transmitBuffer then
      ([.clearTransmit], { s with awaitingTransmit := false })
    else
      let wasFull := isCyclicBufferFull s.transmitBuffer
      let popped := s.popTransmit
      ([.clearTransmit] ++ popped.1 ++ if wasFull then [.replyTransmit] else [], popped.2)
  else ([], s)

/-- The case `SS_NOTIFIER`. -/
def notified (s : State) (uart : Uart) : List Output × State :=
  let received := s.received uart
  let transmitted := received.2.transmitted uart
  ([.replyCourier] ++ received.1 ++ transmitted.1, transmitted.2)

/-- The case `SS_RECEIVE`. -/
def receive (s : State) : List Output × State :=
  if isCyclicBufferEmpty s.receiveBuffer then ([], { s with awaitingReceive := true })
  else
    let popped := cyclicBufferPop s.receiveBuffer
    ((popped.2.1.getD []).map .replyReceive, { s with receiveBuffer := popped.2.2 })

/-- The case `SS_TRANSMIT`. -/
def transmit (s : State) (data : Byte) : List Output × State :=
  let s := { s with
    transmitBuffer := (cyclicBufferPush s.transmitBuffer fun _ => data).2 }
  let replied := if isCyclicBufferFull s.transmitBuffer then [] else [.replyTransmit]
  if s.awaitingTransmit then (replied, s)
  else
    let popped := { s with awaitingTransmit := true }.popTransmit
    (replied ++ popped.1, popped.2)

def serve (s : State) (uart : Uart) (req : SerialRequest) : List Output × State :=
  if req.type = ssNotifier then s.notified uart
  else if req.type = ssReceive then s.receive
  else if req.type = ssTransmit then s.transmit req.data
  else ([], s)

end State

/-! ## Sequences of messages -/

/-- A message and what the UART shows while it is handled. -/
structure Message where
  req : SerialRequest
  uart : Uart
  deriving DecidableEq

structure Iteration where
  message : Message
  outputs : List Output
  deriving DecidableEq

structure Run where
  server : State
  history : List Iteration

def emptyBuffer (data : ℕ → Byte) : CyclicBuffer := ⟨ssBufferSize, 1, data, 0, 0⟩

/-- The server before its first message; `tbuffer` and `rbuffer` are uninitialised. -/
def start (tbuffer rbuffer : ℕ → Byte) : Run :=
  ⟨⟨emptyBuffer tbuffer, emptyBuffer rbuffer, false, false⟩, []⟩

def Run.handle (run : Run) (message : Message) : Run :=
  let served := run.server.serve message.uart message.req
  ⟨served.2, run.history ++ [⟨message, served.1⟩]⟩

end Rtk.SerialServer
