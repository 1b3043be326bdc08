import RemoteAutomaton.Timer.Arena

/-!
# Timers and time

A schedule is an arena of outstanding timers and a clock, in milliseconds. Every timer sleeps until
its deadline; then its id is queued, in order of deadline and age. A queued timer stays outstanding
until it is handed out, and one that was cancelled in the meantime is passed over.
-/

namespace RemoteAutomaton.Timer

open Automaton (TimerId DelayFault)

/-- Why a timer is not scheduled. -/
inductive Error where
  | invalidDelay (reason : String)
  deriving DecidableEq, Repr

namespace Error

def code : Error → String
  | invalidDelay _ => "INVALID_DELAY"

def message : Error → String
  | invalidDelay reason => "invalid delay: " ++ reason

def toAutomaton : Error → Automaton.Error
  | invalidDelay reason => .invalidDelay reason

end Error

/-- A timer that has not reached its deadline. -/
structure Sleeper where
  deadline : Nat
  id : TimerId
  deriving DecidableEq, Repr

/-- A timer as it is handed out. -/
structure Expired where
  id : TimerId
  target : String
  deadline : Nat
  deriving DecidableEq, Repr

/-- Timers and a clock. -/
structure Schedule where
  arena : Arena := {}
  now : Nat := 0
  asleep : List Sleeper := []
  /-- The timers whose deadline has been reached, the next one to hand out first. -/
  due : List TimerId := []
  deriving DecidableEq, Repr

/-- The order in which timers expire. -/
def Sleeper.before (a b : Sleeper) : Bool :=
  a.deadline < b.deadline || (a.deadline == b.deadline && a.id.generation ≤ b.id.generation)

namespace Schedule

/-- Schedules a timer. It has to wait for some time. -/
def schedule (s : Schedule) (delay : Nat) (target : String) : Except Error (TimerId × Schedule) :=
  if delay = 0 then .error (.invalidDelay (DelayFault.zeroFor target).reason)
  else
    let deadline := s.now + delay
    let (id, arena) := s.arena.insert target deadline
    .ok (id, { s with arena := arena, asleep := s.asleep ++ [⟨deadline, id⟩] })

def contains (s : Schedule) (id : TimerId) : Bool := s.arena.contains id

def size (s : Schedule) : Nat := s.arena.size

def isEmpty (s : Schedule) : Bool := s.size == 0

/-- Cancels a timer, and tells whether it was outstanding. -/
def cancel (s : Schedule) (id : TimerId) : Bool × Schedule :=
  match s.arena.take id with
  | some (_, arena) => (true, { s with arena := arena, asleep := s.asleep.filter (·.id ≠ id) })
  | none => (false, s)

/-- Cancels every timer, and tells how many there were. -/
def cancelAll (s : Schedule) : Nat × Schedule :=
  ((Arena.occupiedFrom 0 s.arena.slots).length, { s with arena := s.arena.clear, asleep := [] })

def elapse (s : Schedule) (milliseconds : Nat) : Schedule :=
  let now := s.now + milliseconds
  let woken := (s.asleep.filter (·.deadline ≤ now)).mergeSort Sleeper.before
  { s with
    now := now
    asleep := s.asleep.filter (now < ·.deadline)
    due := s.due ++ woken.map (·.id) }

/-- The first of some queued timers that is still outstanding, taken out of the arena, and those
queued after it. -/
def claim (a : Arena) : List TimerId → Option Expired × Arena × List TimerId
  | [] => (none, a, [])
  | id :: rest =>
    match a.take id with
    | some (e, a) => (some ⟨id, e.target, e.deadline⟩, a, rest)
    | none => claim a rest

/-- Hands out the next timer whose deadline has been reached. -/
def next (s : Schedule) : Option Expired × Schedule :=
  let (e, arena, due) := claim s.arena s.due
  (e, { s with arena := arena, due := due })

theorem length_claim_lt {a : Arena} {due : List TimerId} {e : Expired}
    (h : (claim a due).1 = some e) : (claim a due).2.2.length < due.length := by
  induction due with
  | nil => simp [claim] at h
  | cons id rest ih =>
    simp only [claim] at h ⊢
    split at h
    · simp
    · exact Nat.lt_succ_of_lt (ih h)

theorem length_due_next_lt {s : Schedule} {e : Expired} (h : s.next.1 = some e) :
    s.next.2.due.length < s.due.length :=
  length_claim_lt h

/-- Hands out every timer whose deadline has been reached. -/
def handOut (s : Schedule) : List Expired × Schedule :=
  match _ : s.next with
  | (none, s) => ([], s)
  | (some e, s') =>
    let (rest, last) := handOut s'
    (e :: rest, last)
termination_by s.due.length
decreasing_by
  rename_i h
  have := length_due_next_lt (congrArg Prod.fst h)
  rwa [h] at this

end Schedule

end RemoteAutomaton.Timer
