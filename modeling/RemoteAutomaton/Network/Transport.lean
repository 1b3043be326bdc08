import RemoteAutomaton.Network.Error
import RemoteAutomaton.Network.Socket

/-!
# The channel to the observer

Status messages go through a queue. Sending a message offers the queue to the socket until it is
empty or the socket would have to wait; what is left is offered again later, so messages leave in
the order in which they were sent. A datagram that the socket rejects is dropped, and the failure is
returned at once. A closed channel takes messages and forgets them. `receive` turns what the socket
has received into a message of the observer, or into the failure that it is.
-/

namespace RemoteAutomaton.Network

/-- A channel over a socket with state `σ`. -/
structure Transport (σ : Type) where
  socket : σ
  peer : Address
  /-- Whether the channel is open. A closed one leaves the socket alone. -/
  isOpen : Bool := true
  /-- Whether datagrams of the observer are wanted. -/
  wantsDatagrams : Bool := false
  /-- The datagrams that wait for the socket, the oldest first. -/
  queue : List ByteArray := []

namespace Transport

variable {σ : Type} [Socket σ]

/-- Offers datagrams in order. -/
def offer (peer : Address) (s : σ) : List ByteArray → Except Error Unit × σ × List ByteArray
  | [] => (.ok (), s, [])
  | d :: rest =>
    match Socket.trySend s d with
    | (.accepted, s) => offer peer s rest
    | (.wouldBlock, s) => (.ok (), s, d :: rest)
    | (.rejected reason, s) => (.error (.send peer.text reason), s, rest)

/-- Offers the queue to the socket. -/
def flush (t : Transport σ) : Except Error Unit × Transport σ :=
  if t.isOpen then
    let (r, socket, queue) := offer t.peer t.socket t.queue
    (r, { t with socket, queue })
  else (.ok (), { t with queue := [] })

def send (t : Transport σ) (m : Message.Outbound) : Except Error Unit × Transport σ :=
  if t.isOpen then flush { t with queue := t.queue ++ [m.encode] } else (.ok (), t)

/-- Whether messages wait for the socket. -/
def isWaiting (t : Transport σ) : Bool := t.isOpen && !t.queue.isEmpty

/-- Whether messages wait and the socket has room for one. -/
def isWritable (t : Transport σ) : Bool := t.isWaiting && Socket.isWritable t.socket

def wait (t : Transport σ) : Transport σ := { t with socket := Socket.wait t.socket }

omit [Socket σ] in
/-- Wants the observer's datagrams from now on. -/
def startReceiving (t : Transport σ) : Transport σ := { t with wantsDatagrams := true }

omit [Socket σ] in
/-- Whether a datagram of the observer is taken. -/
def isReceiving (t : Transport σ) : Bool := t.wantsDatagrams && t.isOpen

/-- Closes the channel after a last offer of the queue. -/
def shutdown (t : Transport σ) : Transport σ :=
  let t := { t with wantsDatagrams := false }.flush.2
  { t with isOpen := false, queue := [] }

/-- The address to send to: the first one of the socket's own family, or else the first. -/
def choosePeer (isV4 : Bool) (addresses : List Address) : Option Address :=
  (addresses.find? fun a => a.host.isV4 == isV4).or addresses.head?

/-- Binds a socket and looks up the observer. -/
def connect (access : Access σ) (bindHost : String) (listenPort : Nat) (peerHost : String)
    (peerPort : Nat) : Except Error (Transport σ) := do
  let address := bindHost ++ ":" ++ toString listenPort
  match access.bind address with
  | .error reason => throw (.bind address reason)
  | .ok (isV4, socket) =>
    match access.resolve peerHost peerPort with
    | .error reason => throw (.resolve peerHost reason)
    | .ok addresses =>
      match choosePeer isV4 addresses with
      | none => throw (.noAddress peerHost)
      | some peer => return { socket, peer }

end Transport

/-- The message that the socket has received. Of a datagram of the observer as much is read as a
buffer holds; a socket that could receive none tells the reason. -/
def receive (bufferSize : Nat) : Except String ByteArray → Except Error Message.Inbound
  | .error reason => .error (.receive reason)
  | .ok d =>
    match Message.Inbound.decode (d.extract 0 bufferSize) with
    | .ok m => .ok m
    | .error e => .error (.message e)

end RemoteAutomaton.Network
