import RemoteAutomaton.Message.Inbound
import RemoteAutomaton.Message.Outbound

/-!
# Datagrams

A message travels as the UTF-8 bytes of its line, one message in one datagram.
-/

namespace RemoteAutomaton.Message

/-- The most bytes that one datagram can carry. -/
def maxDatagramSize : Nat := 65507

def Inbound.encode (m : Inbound) : ByteArray := m.text.toUTF8

def Outbound.encode (m : Outbound) : ByteArray := m.text.toUTF8

/-- Reads a datagram sent to the automaton. -/
def Inbound.decode (datagram : ByteArray) : Except Error Inbound :=
  match String.fromUTF8? datagram with
  | none => .error .invalidUtf8
  | some s => Inbound.read s.toList

/-- Reads a datagram sent to the observer. -/
def Outbound.decode (datagram : ByteArray) : Except Error Outbound :=
  match String.fromUTF8? datagram with
  | none => .error .invalidUtf8
  | some s => Outbound.read s.toList

end RemoteAutomaton.Message
