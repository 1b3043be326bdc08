import RemoteAutomaton.Message.Datagram
import RemoteAutomaton.Network.Address

/-!
# Sockets

A socket sends datagrams to one peer without waiting: it takes a datagram, or would have to wait for
room, or rejects the datagram. `Access` is how a program comes by a socket. An `Outbox` is the
socket that only collects what it takes.
-/

namespace RemoteAutomaton.Network

/-- What a socket answers to a datagram. -/
inductive Answer where
  | accepted
  | wouldBlock
  /-- The datagram cannot be sent, for the given reason. -/
  | rejected (reason : String)
  deriving DecidableEq, Repr

/-- A socket with state `σ`. -/
class Socket (σ : Type) where
  /-- Offers a datagram to the socket. -/
  trySend : σ → ByteArray → Answer × σ
  /-- Whether the socket has room for a datagram. -/
  isWritable : σ → Bool
  /-- Waits for room, as long as a program waits that is about to end. -/
  wait : σ → σ

/-- The network of a host: how sockets are bound and hosts are looked up. -/
structure Access (σ : Type) where
  /-- Binds a socket to an address of the form `host:port`, which also tells whether the address is
  one of four numbers. -/
  bind : String → Except String (Bool × σ)
  /-- The addresses of a host and a port. -/
  resolve : String → Nat → Except String (List Address)

/-- A socket that never waits. It takes what fits into a datagram, if its peer can be reached. -/
structure Outbox where
  isReachable : Bool := true
  /-- The datagrams taken, in order. -/
  sent : Array ByteArray := #[]

def Outbox.trySend (o : Outbox) (d : ByteArray) : Answer × Outbox :=
  if !o.isReachable then (.rejected "network unreachable", o)
  else if Message.maxDatagramSize < d.size then (.rejected "message too long", o)
  else (.accepted, { o with sent := o.sent.push d })

instance : Socket Outbox where
  trySend := Outbox.trySend
  isWritable _ := true
  wait := id

/-- The address of a host that is named by its address, or is the host itself. -/
def Ip.named? (name : String) : Option Ip :=
  if name = "localhost" then some (.v4 127 0 0 1) else read? name.toList

/-- The part of `host:port` before the last colon. -/
def hostPart (address : String) : String :=
  String.ofList (address.toList.reverse.dropWhile (· != ':')).tail.reverse

/-- Access to outboxes on a host that knows no names but its own. Where `isTaken`, the port is in
use and nothing can be bound. -/
def Outbox.access (isReachable isTaken : Bool) : Access Outbox where
  bind address :=
    match Ip.named? (hostPart address), isTaken with
    | some ip, false => .ok (ip.isV4, { isReachable })
    | some _, true => .error "address in use"
    | none, _ => .error "unknown host"
  resolve name port :=
    match Ip.named? name with
    | some ip => .ok [⟨ip, 0, port⟩]
    | none => .error "unknown host"

end RemoteAutomaton.Network
