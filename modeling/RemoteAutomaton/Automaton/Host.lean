import RemoteAutomaton.Automaton.Error

/-!
# The surroundings of an automaton

An automaton reports what happens to a host and asks it for timers. `Host` is what it needs of
one; the host's state is carried along explicitly. A `Recorder` is the host that remembers every
call, and `Traced` makes any host remember them.
-/

namespace RemoteAutomaton.Automaton

/-- A timer. `generation` grows with every timer, so an id is never used again; `index` is the place
where the timer is kept. -/
structure TimerId where
  index : Nat
  generation : Nat
  deriving DecidableEq, Repr

namespace TimerId

def text (id : TimerId) : String := "timer#" ++ toString id.generation

/-- Timers in order: the older one first. -/
def compare (a b : TimerId) : Ordering :=
  (Ord.compare a.generation b.generation).then (Ord.compare a.index b.index)

end TimerId

/-- Something that an automaton reports. -/
inductive Notice where
  | state (name : String)
  | output (name value : String)
  | var (name value : String)
  | log (text : String)
  /-- A failure that the automaton survives. -/
  | failure (e : Error)
  deriving DecidableEq, Repr

/-- What an automaton needs of its surroundings, whose state is `σ`. -/
class Host (σ : Type) where
  notify : σ → Notice → σ
  /-- Schedules a timer: a delay in milliseconds and the state that it leads to. -/
  schedule : σ → Nat → String → Except Error TimerId × σ
  /-- Cancels a timer. One that is not outstanding is ignored. -/
  cancel : σ → TimerId → σ

/-- A call of a host and what came of it. -/
inductive HostCall where
  | notice (n : Notice)
  | schedule (milliseconds : Nat) (target : String) (result : Except Error TimerId)
  | cancel (id : TimerId)

/-- A host and the calls it has received, the last one first. -/
structure Traced (σ : Type) where
  host : σ
  calls : List HostCall

instance {σ : Type} [Host σ] : Host (Traced σ) where
  notify t n := ⟨Host.notify t.host n, .notice n :: t.calls⟩
  schedule t ms target :=
    let (r, h) := Host.schedule t.host ms target
    (r, ⟨h, .schedule ms target r :: t.calls⟩)
  cancel t id := ⟨Host.cancel t.host id, .cancel id :: t.calls⟩

inductive Record where
  | notice (n : Notice)
  | scheduled (id : TimerId) (milliseconds : Nat) (target : String)
  | cancelled (id : TimerId)
  deriving DecidableEq, Repr

/-- A host that remembers reports, timers and cancellations. Its timers are kept in one place and
never expire by themselves. It refuses timers for the states of `refused`. -/
structure Recorder where
  records : Array Record := #[]
  generation : Nat := 0
  refused : List String := []

namespace Recorder

def schedule (r : Recorder) (ms : Nat) (target : String) : Except Error TimerId × Recorder :=
  if target ∈ r.refused then (.error (.ofDelay (.refused target)), r)
  else if ms = 0 then (.error (.ofDelay .zero), r)
  else
    let id : TimerId := ⟨0, r.generation + 1⟩
    (.ok id, ⟨r.records.push (.scheduled id ms target), r.generation + 1, r.refused⟩)

def push (r : Recorder) (x : Record) : Recorder := ⟨r.records.push x, r.generation, r.refused⟩

instance : Host Recorder where
  notify r n := r.push (.notice n)
  schedule := schedule
  cancel r id := r.push (.cancelled id)

/-- Forgets what was remembered. Timers still count on. -/
def clear (r : Recorder) : Recorder := ⟨#[], r.generation, r.refused⟩

def states (r : Recorder) : List String :=
  r.records.toList.filterMap fun
    | .notice (.state s) => some s
    | _ => none

def errors (r : Recorder) : List String :=
  r.records.toList.filterMap fun
    | .notice (.failure e) => some e.code
    | _ => none

/-- The timers scheduled and not cancelled since. -/
def pending (r : Recorder) : List TimerId :=
  r.records.toList.foldl
    (fun ids x =>
      match x with
      | .scheduled id _ _ => ids ++ [id]
      | .cancelled id => ids.filter (· ≠ id)
      | .notice _ => ids)
    []

end Recorder

end RemoteAutomaton.Automaton
