import SchemaForge.Schema.Records

/-!
# Locks of projects

One compile of a project at a time touches its staged files; others wait and come next in the order
in which they asked. A map has a mutex for each project that somebody is interested in, and a mutex
that nobody holds or waits for is dropped from it the next time a lock is asked for. A mutex that is
given back goes to the first in its queue, who holds it from the moment it looks again.
-/

namespace SchemaForge

/-- What a lock guards: the staged files of one project. -/
structure LockKey where
  owner : UserId
  project : ProjectId
  deriving DecidableEq, Repr

/-- Mutexes are told apart by number. -/
abbrev MutexId := Nat

/-- How far a ticket for a mutex has come. -/
inductive TicketState
  /-- In the queue. -/
  | queued
  /-- The mutex is given to the ticket, which has not looked since. -/
  | granted
  | held
  deriving DecidableEq, Repr

/-- A ticket for the mutex of a key, drawn under a label. -/
structure Ticket where
  label : String
  key : LockKey
  mutex : MutexId
  state : TicketState
  deriving DecidableEq, Repr

/-- The mutexes of keys, and the tickets for them in the order in which they were drawn. -/
structure Locks where
  map : List (LockKey × MutexId)
  tickets : List Ticket
  /-- The number of the next new mutex. -/
  next : MutexId
  deriving DecidableEq

namespace Locks

/-- No mutexes and no tickets. -/
def empty : Locks := ⟨[], [], 0⟩

/-- Does anybody hold the mutex or wait for it? -/
def inUse (l : Locks) (m : MutexId) : Bool := l.tickets.any fun t => t.mutex == m

/-- Is the mutex held or given to a ticket? -/
def taken (l : Locks) (m : MutexId) : Bool :=
  l.tickets.any fun t => t.mutex == m && t.state != .queued

/-- The map without the mutexes that are not in use. -/
def prune (l : Locks) : Locks := { l with map := l.map.filter fun entry => l.inUse entry.2 }

/-- The mutex of a key, and the locks with it in the map; a key without a mutex gets a new one. -/
def mutexOf (l : Locks) (key : LockKey) : MutexId × Locks :=
  match l.map.lookup key with
  | some m => (m, l)
  | none => (l.next, { l with map := l.map ++ [(key, l.next)], next := l.next + 1 })

/-- The tickets with a change to the first of which `here` says so. -/
def changeFirst (here : Ticket → Bool) (change : Ticket → Ticket) : List Ticket → List Ticket
  | [] => []
  | t :: rest => if here t then change t :: rest else t :: changeFirst here change rest

/-- A mutex is given to the first ticket in its queue, unless it is taken. -/
def grant (l : Locks) (m : MutexId) : Locks :=
  if l.taken m then l
  else
    { l with
      tickets := changeFirst (fun t => t.mutex == m && t.state == .queued)
        (fun t => { t with state := .granted }) l.tickets }

/-- The locks without the tickets of a label. -/
def without (l : Locks) (label : String) : Locks :=
  { l with tickets := l.tickets.filter fun t => t.label != label }

/-- A ticket is drawn. It gets the mutex at once if the mutex is free. A ticket drawn before under
the same label is given up. -/
def acquire (l : Locks) (label : String) (key : LockKey) : Locks :=
  let (m, l) := l.prune.mutexOf key
  let ticket : Ticket := ⟨label, key, m, if l.taken m then .queued else .held⟩
  let drawn := l.without label
  let drawn := { drawn with tickets := drawn.tickets ++ [ticket] }
  match l.tickets.find? fun t => t.label == label with
  | none => drawn
  | some earlier => drawn.grant earlier.mutex

/-- A ticket looks whether the mutex is given to it. -/
def poll (l : Locks) (label : String) : Locks :=
  { l with
    tickets := l.tickets.map fun t =>
      if t.label = label ∧ t.state = .granted then { t with state := .held } else t }

/-- A ticket is given up, whether the mutex was held or waited for. -/
def release (l : Locks) (label : String) : Locks :=
  match l.tickets.find? fun t => t.label == label with
  | none => l
  | some t => (l.without label).grant t.mutex

/-- The labels of tickets that hold their mutex. -/
def holding (l : Locks) : List String :=
  (l.tickets.filter fun t => t.state == .held).map Ticket.label

/-- The labels of tickets that wait. -/
def waiting (l : Locks) : List String :=
  (l.tickets.filter fun t => t.state != .held).map Ticket.label

/-- How many mutexes in the map are in use. -/
def active (l : Locks) : Nat := (l.map.filter fun entry => l.inUse entry.2).length

end Locks

end SchemaForge
