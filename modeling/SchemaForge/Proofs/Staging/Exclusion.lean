import Mathlib.Data.Finset.Card
import SchemaForge.Proofs.Staging.Locks

/-!
# What locks promise

What follows for the holders and the map of any locks that events led to.
-/

namespace SchemaForge.Locks

variable {l : Locks} {m : MutexId} {key k : LockKey} {label x : String} {t t' : Ticket}

theorem mem_labels_iff {chosen : Ticket → Bool} :
    label ∈ (l.tickets.filter chosen).map Ticket.label ↔
      ∃ t ∈ l.tickets, t.label = label ∧ chosen t := by
  rw [List.mem_map]
  constructor
  · rintro ⟨t, ht, hlabel⟩
    obtain ⟨ht, hchosen⟩ := List.mem_filter.mp ht
    exact ⟨t, ht, hlabel, hchosen⟩
  · rintro ⟨t, ht, hlabel, hchosen⟩
    exact ⟨t, List.mem_filter.mpr ⟨ht, hchosen⟩, hlabel⟩

theorem mem_holding_iff :
    label ∈ l.holding ↔ ∃ t ∈ l.tickets, t.label = label ∧ t.state = .held := by
  simp only [holding, mem_labels_iff, beq_iff_eq]

theorem mem_waiting_iff :
    label ∈ l.waiting ↔ ∃ t ∈ l.tickets, t.label = label ∧ t.state ≠ .held := by
  simp only [waiting, mem_labels_iff, bne_iff_ne]

theorem map_acquire (l : Locks) (label : String) (key : LockKey) :
    (l.acquire label key).map = (l.prune.mutexOf key).2.map := by
  rw [acquire_eq]
  split
  · rfl
  · exact map_grant

/-! ### Looks and returns -/

/-- Who has a mutex holds it when he looks. -/
theorem mem_holding_poll (ht : t ∈ l.tickets) (hstate : t.state ≠ .queued) :
    t.label ∈ (l.poll t.label).holding :=
  mem_holding_iff.mpr
    ⟨_, mem_poll.mpr ⟨t, ht, rfl⟩, label_looked t.label t, state_looked_label hstate⟩

theorem length_poll (l : Locks) (label : String) :
    (l.poll label).tickets.length = l.tickets.length :=
  List.length_map ..

theorem length_grant (l : Locks) (m : MutexId) : (l.grant m).tickets.length = l.tickets.length := by
  rcases l.grant_cases m with ⟨-, heq⟩ | ⟨front, t, back, hts, -, -, -, heq⟩
  · rw [heq]
  · rw [heq, hts]
    simp

theorem length_release_lt (h : label ∈ l.holding) :
    (l.release label).tickets.length < l.tickets.length := by
  obtain ⟨t, ht, rfl, -⟩ := mem_holding_iff.mp h
  unfold release
  split
  · next hnone => exact absurd (beq_self_eq_true t.label) (List.find?_eq_none.mp hnone t ht)
  · rw [length_grant]
    apply List.length_filter_lt_length_iff_exists.mpr
    exact ⟨t, ht, by simp⟩

/-! ### Who has a lock -/

namespace Sound

variable (h : l.Sound)

include h

theorem mutex_eq_iff (ht : t ∈ l.tickets) (ht' : t' ∈ l.tickets) :
    t.mutex = t'.mutex ↔ t.key = t'.key :=
  (h.key_eq_iff (h.entry t ht) (h.entry t' ht')).symm

/-- One ticket at most has the lock of a key. -/
theorem length_takers_le_one (key : LockKey) :
    (l.tickets.filter fun t => t.key = key ∧ t.state ≠ .queued).length ≤ 1 := by
  have hnodup : (l.tickets.filter fun t => t.key = key ∧ t.state ≠ .queued).Nodup :=
    (List.Nodup.of_map _ h.labels).filter _
  rw [← List.toFinset_card_of_nodup hnodup, Finset.card_le_one]
  intro t ht t' ht'
  simp only [List.mem_toFinset, List.mem_filter, decide_eq_true_eq] at ht ht'
  obtain ⟨ht, hkey, hstate⟩ := ht
  obtain ⟨ht', hkey', hstate'⟩ := ht'
  exact h.eq_of_mutex_eq ht ht' ((h.mutex_eq_iff ht ht').mpr (hkey.trans hkey'.symm))
    hstate hstate'

/-- Somebody has the lock of a key that somebody waits for. -/
theorem exists_taker (ht : t ∈ l.tickets) :
    ∃ t' ∈ l.tickets, t'.key = t.key ∧ t'.state ≠ .queued := by
  obtain ⟨t', ht', hm, hstate⟩ := taken_iff.mp (h.served t.mutex (inUse_iff.mpr ⟨t, ht, rfl⟩))
  exact ⟨t', ht', (h.mutex_eq_iff ht' ht).mp hm, hstate⟩

/-! ### Requests -/

/-- The ticket that a request draws is in the queue if somebody has a ticket of the key. -/
theorem exists_draw (label : String) (key : LockKey) :
    ∃ t : Ticket, (l.draw label key).tickets = (l.without label).tickets ++ [t] ∧
      t.label = label ∧ t.key = key ∧ t.state ≠ .granted ∧
      (t.state = .queued ↔ ∃ t ∈ l.tickets, t.key = key) := by
  obtain ⟨-, -, htickets, -, -⟩ := h.toOrderly.prune.mutexOf key
  refine ⟨⟨label, key, (l.prune.mutexOf key).1,
    if (l.prune.mutexOf key).2.taken (l.prune.mutexOf key).1 then .queued else .held⟩,
    ?_, rfl, rfl, ?_, ?_⟩
  · exact congrArg (fun ts => List.filter (fun t => t.label != label) ts ++ _) htickets
  · split
    · exact nofun
    · exact nofun
  · rw [← h.taken_mutexOf_iff key]
    split
    · next htaken => exact ⟨fun _ => htaken, fun _ => rfl⟩
    · next hfree => exact ⟨nofun, fun htaken => absurd htaken hfree⟩

/-- Under a label that no ticket has, a ticket is put at the end of the queue. -/
theorem exists_acquire (hfresh : ∀ t ∈ l.tickets, t.label ≠ label) (key : LockKey) :
    ∃ t : Ticket, (l.acquire label key).tickets = l.tickets ++ [t] ∧
      t.label = label ∧ t.key = key ∧ t.state ≠ .granted ∧
      (t.state = .queued ↔ ∃ t ∈ l.tickets, t.key = key) := by
  have hall : (l.without label).tickets = l.tickets :=
    List.filter_eq_self.mpr fun t ht => by simpa using hfresh t ht
  have hdrawn : l.acquire label key = l.draw label key := by
    rw [acquire_eq, (h.toOrderly.prune.mutexOf key).2.2.1]
    split
    · rfl
    · next earlier hearlier =>
      have hlabel : earlier.label = label := by simpa using List.find?_some hearlier
      exact absurd hlabel (hfresh earlier (List.mem_of_find?_eq_some hearlier))
  rw [hdrawn]
  exact hall ▸ h.exists_draw label key

/-- A request waits exactly if somebody has or waits for the lock of the same key. -/
theorem mem_waiting_acquire_iff (label : String) (key : LockKey) :
    label ∈ (l.acquire label key).waiting ↔ ∃ t ∈ l.tickets, t.key = key := by
  obtain ⟨t, htickets, hlabel, hkey, hstate, hqueued⟩ := h.exists_draw label key
  -- an older ticket of the same label is given up, so the label names the new ticket alone
  have hdrawn : ∀ t' ∈ (l.draw label key).tickets, t'.label = label → t' = t := by
    intro t' ht' hlabel'
    rw [htickets] at ht'
    rcases List.mem_append.mp ht' with ht' | ht'
    · exact absurd hlabel' (mem_without.mp ht').2
    · exact List.mem_singleton.mp ht'
  have hmem : t ∈ (l.draw label key).tickets := by
    rw [htickets]
    exact List.mem_append_right _ (List.mem_singleton_self t)
  rw [← hqueued, mem_waiting_iff, acquire_eq]
  constructor
  · rintro ⟨t', ht', hlabel', hwaits⟩
    have hstill : ∀ t₀ ∈ (l.draw label key).tickets, t₀.label = label → t₀.state ≠ .held →
        t.state = .queued := by
      intro t₀ ht₀ hlabel₀ hheld
      rw [hdrawn t₀ ht₀ hlabel₀] at hheld
      cases hcase : t.state with
      | queued => rfl
      | granted => exact absurd hcase hstate
      | held => exact absurd hcase hheld
    split at ht'
    · exact hstill t' ht' hlabel' hwaits
    · obtain ⟨t₀, ht₀, hlabel₀, -, -, heq | ⟨hqueued₀, -⟩⟩ := mem_grant ht'
      · exact hstill t₀ ht₀ (hlabel₀.trans hlabel') (heq ▸ hwaits)
      · exact hdrawn t₀ ht₀ (hlabel₀.trans hlabel') ▸ hqueued₀
  · intro hwaits
    split
    · exact ⟨t, hmem, hlabel, by rw [hwaits]; exact nofun⟩
    · obtain ⟨t', ht', hlabel', -, -, heq | ⟨-, hgranted⟩⟩ := exists_mem_grant hmem
      · exact ⟨t', ht', hlabel'.trans hlabel, by rw [heq, hwaits]; exact nofun⟩
      · exact ⟨t', ht', hlabel'.trans hlabel, by rw [hgranted]; exact nofun⟩

/-! ### The map -/

theorem lookup_eq (ht : t ∈ l.tickets) : l.map.lookup t.key = some t.mutex :=
  (lookup_eq_some_iff_of_nodup h.keys).mpr (h.entry t ht)

/-- No event drops the mutex of a key of which somebody has a ticket. -/
theorem lookup_after (ht : t ∈ l.tickets) (e : Event) :
    (l.after e).map.lookup t.key = some t.mutex := by
  rw [lookup_eq_some_iff_of_nodup (h.after e).keys]
  cases e with
  | acquire label key =>
    obtain ⟨-, -, -, hkept, -⟩ := h.toOrderly.prune.mutexOf key
    show _ ∈ (l.acquire label key).map
    rw [map_acquire]
    exact hkept _ (h.toOrderly.prune.entry t ht)
  | poll label => exact h.entry t ht
  | release label =>
    show _ ∈ (l.release label).map
    unfold Locks.release
    split
    · exact h.entry t ht
    · rw [map_grant]
      exact h.entry t ht

/-- The mutexes in use are as many as the keys of tickets. -/
theorem active_eq : l.active = (l.tickets.map Ticket.key).dedup.length := by
  have hperm : (l.prune.map.map Prod.fst).Perm (l.tickets.map Ticket.key).dedup := by
    rw [List.perm_ext_iff_of_nodup h.toOrderly.prune.keys (List.nodup_dedup _)]
    intro k
    rw [h.mem_keys_prune_iff, List.mem_dedup, List.mem_map]
  rw [← hperm.length_eq, List.length_map]
  rfl

/-- After a request, the map has the keys of which somebody had a ticket, and that of the request. -/
theorem mem_keys_acquire_iff (label : String) (key : LockKey) :
    k ∈ (l.acquire label key).map.map Prod.fst ↔ k = key ∨ ∃ t ∈ l.tickets, t.key = k := by
  rw [map_acquire, h.mem_keys_mutexOf_iff key]

/-- After a request under a label that no ticket had, the map has the keys of tickets. -/
theorem mem_keys_acquire_iff_ticket (hfresh : ∀ t ∈ l.tickets, t.label ≠ label) (key : LockKey) :
    k ∈ (l.acquire label key).map.map Prod.fst ↔
      ∃ t ∈ (l.acquire label key).tickets, t.key = k := by
  obtain ⟨t, htickets, -, rfl, -, -⟩ := h.exists_acquire hfresh key
  rw [h.mem_keys_acquire_iff label t.key, htickets]
  constructor
  · rintro (rfl | ⟨t', ht', rfl⟩)
    · exact ⟨t, by simp, rfl⟩
    · exact ⟨t', by simp [ht'], rfl⟩
  · rintro ⟨t', ht', rfl⟩
    rcases List.mem_append.mp ht' with ht' | ht'
    · exact .inr ⟨t', ht', rfl⟩
    · exact .inl (congrArg Ticket.key (List.mem_singleton.mp ht'))

end Sound

/-! ### All of it -/

/-- Whatever events there were: One ticket at most has the lock of a key; all tickets of a key share
the mutex that the map has for it, and no event drops that. A request waits exactly if somebody has a
ticket of its key. As many keys are active as there are keys of tickets; and after a request the map
has each of those once, and no others. -/
theorem tickets_exclude_each_other (events : List Event) :
    (∀ key, ((ofEvents events).tickets.filter fun t => t.key = key ∧ t.state ≠ .queued).length ≤ 1) ∧
    (∀ t ∈ (ofEvents events).tickets, (ofEvents events).map.lookup t.key = some t.mutex ∧
      ∀ e, ((ofEvents events).after e).map.lookup t.key = some t.mutex) ∧
    (∀ label key, label ∈ ((ofEvents events).acquire label key).waiting ↔
      ∃ t ∈ (ofEvents events).tickets, t.key = key) ∧
    (ofEvents events).active = ((ofEvents events).tickets.map Ticket.key).dedup.length ∧
    ∀ label key, (((ofEvents events).acquire label key).map.map Prod.fst).Nodup ∧
      (∀ k, k ∈ ((ofEvents events).acquire label key).map.map Prod.fst ↔
        k = key ∨ ∃ t ∈ (ofEvents events).tickets, t.key = k) ∧
      ((∀ t ∈ (ofEvents events).tickets, t.label ≠ label) →
        ∀ k, k ∈ ((ofEvents events).acquire label key).map.map Prod.fst ↔
          ∃ t ∈ ((ofEvents events).acquire label key).tickets, t.key = k) := by
  have h := sound_ofEvents events
  refine ⟨h.length_takers_le_one, fun t ht => ⟨h.lookup_eq ht, h.lookup_after ht⟩,
    h.mem_waiting_acquire_iff, h.active_eq, fun label key => ⟨?_, ?_, ?_⟩⟩
  · exact (h.acquire label key).keys
  · exact fun k => h.mem_keys_acquire_iff label key
  · exact fun hfresh k => h.mem_keys_acquire_iff_ticket hfresh key

/-- The lock that was given back has no mutex after the next request; that of the other project is
waited for. -/
theorem idle_mutex_is_dropped_and_other_is_waited_for :
    ⟨1, 1⟩ ∉ ((ofEvents [.acquire "a" ⟨1, 1⟩, .acquire "b" ⟨1, 2⟩, .release "a"]).acquire
        "c" ⟨1, 2⟩).map.map Prod.fst ∧
      "c" ∈ ((ofEvents [.acquire "a" ⟨1, 1⟩, .acquire "b" ⟨1, 2⟩, .release "a"]).acquire
        "c" ⟨1, 2⟩).waiting := by
  obtain ⟨-, -, hwaits, -, hmap⟩ := tickets_exclude_each_other
    [.acquire "a" ⟨1, 1⟩, .acquire "b" ⟨1, 2⟩, .release "a"]
  refine ⟨fun hmem => ?_, (hwaits "c" ⟨1, 2⟩).mpr (by decide)⟩
  exact absurd (((hmap "c" ⟨1, 2⟩).2.2 (by decide) ⟨1, 1⟩).mp hmem) (by decide)

end SchemaForge.Locks
