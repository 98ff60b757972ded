import M68kMachine.Core.Chipset

/-!
# The TCP bridge of the serial port

`serial_tcp.rs` and what the frame loop does with it. Two threads share two queues, each behind its
own lock: the frame loop never waits for the network, the bridge thread owns the one client. A step
below is one turn of a thread with a lock, with the work it does by itself before or after; between
two of them the other may take any number.

What the network does comes from outside: the answers of `accept`, `write` and `read`.
-/

namespace M68kMachine

namespace SerialTcp

abbrev outputBufCap : Nat := 4096
abbrev inputBufCap : Nat := 512

/-- The buffer `fill_input` reads into. -/
abbrev readBufLen : Nat := 256

/-- What a read of the socket put into the buffer: something, and no more than it holds. -/
structure Chunk where
  bytes : List Byte
  nonempty : bytes ≠ []
  fits : bytes.length ≤ readBufLen

inductive WriteAnswer
  | wrote (n : Nat)
  | wouldBlock
  | failed

inductive ReadAnswer
  | chunk (chunk : Chunk)
  | wouldBlock
  /-- The client closed the connection, or it broke. -/
  | gone

/-- What the sockets answer, whichever of them is asked. -/
structure Answers where
  accept : Bool
  write : WriteAnswer
  read : ReadAnswer

/-- What the bridge thread does next. -/
inductive Phase
  /-- The top of `poll_loop`. -/
  | accept
  /-- `flush_output` takes the queue over. -/
  | drain
  | write (pending : List Byte)
  /-- The part that was not written goes back to the front of the queue. -/
  | requeue (rest : List Byte)
  /-- `fill_input` looks whether there is room. -/
  | checkRoom
  | read
  | extend (chunk : Chunk)

end SerialTcp

open SerialTcp

/-- The queues, oldest byte first, and the thread behind them. -/
structure SerialTcpBridge where
  output : List Byte
  input : List Byte
  connected : Bool
  phase : Phase

/-- What can be seen of the serial line from outside. -/
inductive SerialEvent
  /-- The guest wrote a byte, and the transmit buffer took it. -/
  | written (byte : Byte)
  /-- The guest wrote a byte to a full transmit buffer. -/
  | refused (byte : Byte)
  /-- The byte reached the console. -/
  | printed (byte : Byte)
  /-- The oldest byte of a full output queue made room. -/
  | evicted (byte : Byte)
  /-- The client's socket took the bytes. -/
  | sent (bytes : List Byte)
  /-- The bytes were in hand when the connection broke. -/
  | lost (bytes : List Byte)
  /-- The socket did not take the bytes, and they are in the queue again. -/
  | putBack (bytes : List Byte)
  /-- The client's bytes were read from its socket. -/
  | received (bytes : List Byte)
  /-- What the guest's read of `SERDATR` returned. -/
  | read (value : Word)

namespace SerialTcpBridge

def start : SerialTcpBridge := ⟨[], [], false, .accept⟩

/-- Queue one byte of the guest. A full queue drops its oldest byte. -/
def pushGuestByte (b : SerialTcpBridge) (byte : Byte) : SerialTcpBridge × List SerialEvent :=
  match b.output with
  | oldest :: rest =>
    if outputBufCap ≤ b.output.length then
      ({ b with output := rest ++ [byte] }, [.evicted oldest])
    else ({ b with output := b.output ++ [byte] }, [])
  | [] => ({ b with output := [byte] }, [])

/-- The next byte for the guest. -/
def tryRecvHostByte (b : SerialTcpBridge) : Option Byte × SerialTcpBridge :=
  match b.input with
  | byte :: rest => (some byte, { b with input := rest })
  | [] => (none, b)

/-- The connection is dropped, and the thread sleeps. -/
def drop (b : SerialTcpBridge) : SerialTcpBridge :=
  { b with connected := false, phase := .accept }

/-- The rest of `flush_output`, once the socket answered for `pending`. -/
def written (b : SerialTcpBridge) (pending : List Byte) :
    WriteAnswer → SerialTcpBridge × List SerialEvent
  | .wrote n =>
    if n < pending.length then
      ({ b with phase := .requeue (pending.drop n) }, [.sent (pending.take n)])
    else ({ b with phase := .checkRoom }, [.sent pending])
  | .wouldBlock => ({ b with phase := .requeue pending }, [])
  | .failed => (b.drop, [.lost pending])

/-- The rest of a round of `fill_input`, once the socket answered. -/
def filled (b : SerialTcpBridge) : ReadAnswer → SerialTcpBridge × List SerialEvent
  | .chunk chunk => ({ b with phase := .extend chunk }, [.received chunk.bytes])
  | .wouldBlock => ({ b with phase := .accept }, [])
  | .gone => (b.drop, [])

/-- One turn of `poll_loop`. -/
def poll (b : SerialTcpBridge) (net : Answers) : SerialTcpBridge × List SerialEvent :=
  match b.phase with
  | .accept =>
    if b.connected || net.accept then ({ b with connected := true, phase := .drain }, [])
    else (b, [])
  | .drain =>
    ({ b with
      output := []
      phase := if b.output = [] then .checkRoom else .write b.output }, [])
  | .write pending => b.written pending net.write
  | .requeue rest =>
    ({ b with output := rest ++ b.output, phase := .checkRoom }, [.putBack rest])
  | .checkRoom => ({ b with phase := if inputBufCap ≤ b.input.length then .accept else .read }, [])
  | .read => b.filled net.read
  | .extend chunk => ({ b with input := b.input ++ chunk.bytes, phase := .checkRoom }, [])

end SerialTcpBridge

/-! ## The frame loop's side -/

/-- The serial port of the chipset and the bridge it is on. -/
structure SerialLine where
  chipset : Chipset
  bridge : SerialTcpBridge

namespace SerialLine

/-- What else happens to the chipset. Nothing else touches the serial buffers. -/
structure Elsewhere where
  apply : Chipset → Chipset
  serialBuf : ∀ c, (apply c).serialBuf = c.serialBuf
  serialInBuf : ∀ c, (apply c).serialInBuf = c.serialInBuf
  serialInOverrun : ∀ c, (apply c).serialInOverrun = c.serialInOverrun

inductive Op
  /-- The guest writes `SERDAT`. -/
  | serdat (value : Word)
  /-- The guest reads `SERDATR`. -/
  | serdatr
  | elsewhere (f : Elsewhere)
  /-- A round of the loop of `drain_serial`. -/
  | drainSerial
  /-- `service_host_serial`, in a frame it was not called in before. -/
  | serviceHostSerial
  | poll (net : Answers)

def start : SerialLine := ⟨Chipset.new, .start⟩

/-- One byte to the console and to the client. -/
def drainSerial (s : SerialLine) : SerialLine × List SerialEvent :=
  match s.chipset.takeSerialByte with
  | (some byte, chipset) =>
    let (bridge, events) := s.bridge.pushGuestByte byte
    (⟨chipset, bridge⟩, .printed byte :: events)
  | (none, _) => (s, [])

/-- At most one byte of the client for each frame, and only when the guest has room for it. -/
def serviceHostSerial (s : SerialLine) : SerialLine :=
  if s.chipset.serialInHasRoom then
    match s.bridge.tryRecvHostByte with
    | (some byte, bridge) => ⟨s.chipset.pushSerialInByte byte, bridge⟩
    | (none, _) => s
  else s

def serdat (s : SerialLine) (value : Word) : SerialLine × List SerialEvent :=
  let byte : Byte := value.setWidth 8
  ({ s with chipset := s.chipset.write Chipset.Reg.serdat value },
    [if s.chipset.serialBuf.isFull then .refused byte else .written byte])

def turn (s : SerialLine) : Op → SerialLine × List SerialEvent
  | .serdat value => s.serdat value
  | .serdatr =>
    let (value, chipset) := s.chipset.read Chipset.Reg.serdatr
    ({ s with chipset := chipset }, [.read value])
  | .elsewhere f => ({ s with chipset := f.apply s.chipset }, [])
  | .drainSerial => s.drainSerial
  | .serviceHostSerial => (s.serviceHostSerial, [])
  | .poll net => ({ s with bridge := (s.bridge.poll net).1 }, (s.bridge.poll net).2)

def step (s : SerialLine) (op : Op) : SerialLine := (s.turn op).1

def events (s : SerialLine) (op : Op) : List SerialEvent := (s.turn op).2

end SerialLine

end M68kMachine
