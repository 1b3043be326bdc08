import RemoteAutomaton.Proofs.InboundGrammar
import RemoteAutomaton.Proofs.OutboundGrammar

/-!
# Which messages survive their datagram

A message is read back from its datagram exactly if its name can be told from what follows it and
its last part does not end like a line (`decode_encode_domain`).  Reading takes a line end away and
then gives the message whose line is left, so a message comes back exactly if its line has no line
end of its own and is the line of no other message (`Inbound.decode_encode_eq_ok_iff`,
`Outbound.decode_encode_eq_ok_iff`).
-/

namespace RemoteAutomaton.Message

open Text (dropLineEnd dropLineEnd_eq_self_iff getLast?_append_cons_eq_iff)

namespace Inbound

variable {m : Inbound}

/-- A name that no separator cuts, and a value that no line end is taken from. -/
def Survives (m : Inbound) : Prop :=
  m.name ≠ "" ∧ '|' ∉ m.name.toList ∧ m.value.toList.getLast? ≠ some '\n'

theorem decode_encode (m : Inbound) : decode m.encode = readLine (dropLineEnd m.render) := by
  rw [encode, decode_of_utf8 rfl, text, String.toList_ofList]

theorem render_ended_iff : m.render.getLast? = some '\n' ↔ m.value.toList.getLast? = some '\n' := by
  rw [render, getLast?_append_cons_eq_iff (by decide), getLast?_append_cons_eq_iff (by decide)]

theorem decode_encode_eq_ok_iff : decode m.encode = .ok m ↔ m.Survives := by
  rw [decode_encode, readLine_eq_ok_iff, dropLineEnd_eq_self_iff, Ne, render_ended_iff]
  exact ⟨fun ⟨hvalue, hne, hname⟩ => ⟨hne, hname, hvalue⟩,
    fun ⟨hne, hname, hvalue⟩ => ⟨hvalue, hne, hname⟩⟩

end Inbound

namespace Outbound

variable {m : Outbound}

/-- A text that no line end is taken from, or a name that no `=` cuts. -/
def Survives : Outbound → Prop
  | terminating => True
  | ready t | state t | log t | error t => t.toList.getLast? ≠ some '\n'
  | output name _ | var name _ => name ≠ "" ∧ '=' ∉ name.toList

theorem render_ended_iff {p : List Char} (hp : m.payload? = some p) :
    m.render.getLast? = some '\n' ↔ p.getLast? = some '\n' := by
  rw [render, hp]
  exact getLast?_append_cons_eq_iff (by decide)

theorem getLast?_assignment (name value : String) :
    (assignment name value).getLast? = some '"' := by
  rw [assignment, ← List.cons_append, ← List.cons_append, ← List.append_assoc, List.getLast?_concat]

theorem decode_encode_eq_ok_iff : decode m.encode = .ok m ↔ m.Survives := by
  rw [encode, decode_of_utf8 rfl, text, String.toList_ofList, read_eq_ok_iff,
    readLine?_eq_some_iff, dropLineEnd_eq_self_iff]
  cases m with
  | terminating => exact iff_of_true ⟨by decide +kernel, trivial⟩ trivial
  | ready t | state t | log t | error t =>
    rw [Ne, render_ended_iff rfl]
    exact and_iff_left trivial
  | output name value | var name value =>
    rw [Ne, render_ended_iff rfl, getLast?_assignment]
    exact and_iff_right (by decide)

end Outbound

/-- A message to the automaton survives its datagram exactly if its name is not empty and has no `|`
and its value does not end with a line break; a message to the observer exactly if it is the last
one, or its text does not end with a line break, or its name is not empty and has no `=`.  Different
messages that survive have different datagrams. -/
theorem decode_encode_domain :
    (∀ m : Inbound, Inbound.decode m.encode = .ok m ↔ m.Survives)
      ∧ (∀ m : Outbound, Outbound.decode m.encode = .ok m ↔ m.Survives)
      ∧ (∀ m m' : Inbound, m.Survives → m'.Survives → m.encode = m'.encode → m = m')
      ∧ ∀ m m' : Outbound, m.Survives → m'.Survives → m.encode = m'.encode → m = m' := by
  refine ⟨fun _ => Inbound.decode_encode_eq_ok_iff, fun _ => Outbound.decode_encode_eq_ok_iff,
    fun m m' hm hm' h => ?_, fun m m' hm hm' h => ?_⟩
  · rw [← Inbound.decode_encode_eq_ok_iff] at hm hm'
    rw [h, hm'] at hm
    exact (Except.ok.inj hm).symm
  · rw [← Outbound.decode_encode_eq_ok_iff] at hm hm'
    rw [h, hm'] at hm
    exact (Except.ok.inj hm).symm

/-- A lone `\r` at the end of a value stays, and tells two datagrams apart. -/
theorem decode_encode_domain_led :
    let m := Inbound.ofInput "led" "a|b"
    let m' := Inbound.ofInput "led" "a|b\r"
    let w := Outbound.var "led" "\"\n"
    let w' := Outbound.output "led" "\"\n"
    (m.Survives ∧ m'.Survives ∧ Inbound.decode m'.encode = .ok m' ∧ m.encode ≠ m'.encode)
      ∧ w.Survives ∧ w'.Survives ∧ Outbound.decode w.encode = .ok w ∧ w.encode ≠ w'.encode := by
  intro m m' w w'
  obtain ⟨hin, hout, hinj, hinj'⟩ := decode_encode_domain
  have hm : m.Survives := ⟨by decide +kernel, by decide +kernel, by decide +kernel⟩
  have hm' : m'.Survives := ⟨by decide +kernel, by decide +kernel, by decide +kernel⟩
  have hw : w.Survives := ⟨by decide +kernel, by decide +kernel⟩
  have hw' : w'.Survives := ⟨by decide +kernel, by decide +kernel⟩
  exact ⟨⟨hm, hm', (hin m').2 hm', mt (hinj m m' hm hm') (by decide +kernel)⟩,
    hw, hw', (hout w).2 hw, mt (hinj' w w' hw hw') (by decide +kernel)⟩

end RemoteAutomaton.Message
