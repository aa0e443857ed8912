import SchemaForge.Proofs.Store.Invariant

/-!
# Runs of requests

A run is the list of the requests that have been made, the latest first, and `after` is the store
that it leads to. `Reachable` forgets the run; what depends on when a row was made is said about
`after`.
-/

namespace SchemaForge.Store

/-- A store in which no request has been made yet. -/
inductive Initial : Store → Prop
  | empty : Initial .empty
  | loaded {rows : Snapshot} {start : Store} : ofSnapshot rows = .ok start → Initial start

/-- The store after some requests, the latest first. -/
def after (start : Store) : List Write → Store
  | [] => start
  | w :: past => (w.run (start.after past)).2

/-- Have the numbers for new rows lasted for all of the requests? -/
def RoomFor (start : Store) : List Write → Prop
  | [] => True
  | w :: past => start.RoomFor past ∧ w.HasRoom (start.after past)

variable {start : Store} {past : List Write}

theorem Initial.consistent (h : start.Initial) : start.Consistent := by
  cases h with
  | empty => exact consistent_empty
  | loaded hload => exact consistent_ofSnapshot hload

theorem Consistent.after (h : start.Consistent) (hroom : start.RoomFor past) :
    (start.after past).Consistent := by
  induction past with
  | nil => exact h
  | cons w past ih => exact (ih hroom.1).run hroom.2

/-- The stores that can be reached are those that runs lead to. -/
theorem reachable_iff {s : Store} :
    s.Reachable ↔ ∃ start past, Initial start ∧ start.RoomFor past ∧ start.after past = s := by
  constructor
  · intro h
    induction h with
    | empty => exact ⟨.empty, [], .empty, trivial, rfl⟩
    | loaded hload => exact ⟨_, [], .loaded hload, trivial, rfl⟩
    | written w _ hroom ih =>
      obtain ⟨start, past, hstart, hpast, rfl⟩ := ih
      exact ⟨start, w :: past, hstart, ⟨hpast, hroom⟩, rfl⟩
  · rintro ⟨start, past, hstart, hroom, rfl⟩
    induction past with
    | nil =>
      cases hstart with
      | empty => exact .empty
      | loaded hload => exact .loaded hload
    | cons w past ih => exact (ih hroom.1).written w hroom.2

end SchemaForge.Store
