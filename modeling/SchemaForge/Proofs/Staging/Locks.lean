import Mathlib.Data.List.Dedup
import Mathlib.Data.List.Perm.Basic
import SchemaForge.Proofs.Lookup
import SchemaForge.Staging.Locks

/-!
# Locks exclude each other

However requests for locks, looks and returns follow each other, the tickets of a key share one mutex
and at most one of them has it. A mutex in use is never dropped, and after every request the map has
no others; so a request waits exactly if somebody has or waits for the lock of the same key.
-/

namespace SchemaForge.Locks

variable {l : Locks} {m m' : MutexId} {key k : LockKey} {label : String} {t t' : Ticket}

/-! ### Events -/

/-- What can happen to locks. A lock is asked for under a label, by which its ticket goes from then
on. -/
inductive Event
  | acquire (label : String) (key : LockKey)
  | poll (label : String)
  | release (label : String)

/-- The locks after an event. -/
def after (l : Locks) : Event → Locks
  | .acquire label key => l.acquire label key
  | .poll label => l.poll label
  | .release label => l.release label

/-- The locks after some events, in their order. -/
def ofEvents (events : List Event) : Locks := events.foldl after empty

/-! ### Tickets and mutexes -/

/-- Mutexes and keys stand for each other, and of the tickets for a mutex all but the first are in
the queue. -/
structure Orderly (l : Locks) : Prop where
  entry : ∀ t ∈ l.tickets, (t.key, t.mutex) ∈ l.map
  keys : (l.map.map Prod.fst).Nodup
  mutexes : (l.map.map Prod.snd).Nodup
  old : ∀ e ∈ l.map, e.2 < l.next
  labels : (l.tickets.map Ticket.label).Nodup
  order : l.tickets.Pairwise fun t t' => t.mutex = t'.mutex → t'.state = .queued

/-- Nobody waits for a mutex that nobody has. -/
def Served (l : Locks) (m : MutexId) : Prop := l.inUse m → l.taken m

/-- Locks in order, where somebody has each mutex that is waited for. -/
structure Sound (l : Locks) : Prop extends Orderly l where
  served : ∀ m, l.Served m

theorem inUse_iff : l.inUse m ↔ ∃ t ∈ l.tickets, t.mutex = m := by
  simp [inUse]

theorem taken_iff : l.taken m ↔ ∃ t ∈ l.tickets, t.mutex = m ∧ t.state ≠ .queued := by
  simp [taken]

theorem sound_empty : empty.Sound where
  entry := by simp [empty]
  keys := .nil
  mutexes := .nil
  old := by simp [empty]
  labels := .nil
  order := .nil
  served m h := by simp [empty, inUse] at h

namespace Orderly

variable (h : l.Orderly)

include h

theorem mutex_eq_of_key_eq {m m' : MutexId} (hm : (key, m) ∈ l.map) (hm' : (key, m') ∈ l.map) :
    m = m' := by
  rw [← lookup_eq_some_iff_of_nodup h.keys] at hm hm'
  exact Option.some.inj (hm.symm.trans hm')

/-- Tickets for one mutex are those of one key. -/
theorem key_eq_iff {m m' : MutexId} (hm : (key, m) ∈ l.map) (hm' : (k, m') ∈ l.map) :
    key = k ↔ m = m' := by
  constructor
  · rintro rfl
    exact h.mutex_eq_of_key_eq hm hm'
  · rintro rfl
    exact congrArg Prod.fst (List.inj_on_of_nodup_map h.mutexes hm hm' rfl)

theorem eq_of_label_eq (ht : t ∈ l.tickets) (ht' : t' ∈ l.tickets) (heq : t.label = t'.label) :
    t = t' :=
  List.inj_on_of_nodup_map h.labels ht ht' heq

/-- One ticket at most has a mutex. -/
theorem eq_of_mutex_eq (ht : t ∈ l.tickets) (ht' : t' ∈ l.tickets) (heq : t.mutex = t'.mutex)
    (hstate : t.state ≠ .queued) (hstate' : t'.state ≠ .queued) : t = t' := by
  by_contra hne
  rcases List.pairwise_iff_getElem.mp h.order with horder
  obtain ⟨i, hi, rfl⟩ := List.getElem_of_mem ht
  obtain ⟨j, hj, rfl⟩ := List.getElem_of_mem ht'
  rcases Nat.lt_trichotomy i j with hlt | rfl | hlt
  · exact hstate' (horder i j hi hj hlt heq)
  · exact hne rfl
  · exact hstate (horder j i hj hi hlt heq.symm)

/-! ### The map -/

theorem prune : l.prune.Orderly where
  entry t ht := List.mem_filter.mpr ⟨h.entry t ht, inUse_iff.mpr ⟨t, ht, rfl⟩⟩
  keys := h.keys.sublist (List.filter_sublist.map _)
  mutexes := h.mutexes.sublist (List.filter_sublist.map _)
  old e he := h.old e (List.mem_of_mem_filter he)
  labels := h.labels
  order := h.order

/-- Without the mutexes that are not in use, the map has the keys of which somebody has a ticket. -/
theorem mem_keys_prune_iff :
    k ∈ l.prune.map.map Prod.fst ↔ ∃ t ∈ l.tickets, t.key = k := by
  constructor
  · intro hk
    obtain ⟨e, he, rfl⟩ := List.mem_map.mp hk
    obtain ⟨hmem, huse⟩ := List.mem_filter.mp he
    obtain ⟨t, ht, hm⟩ := inUse_iff.mp huse
    obtain ⟨k, m'⟩ := e
    exact ⟨t, ht, (h.key_eq_iff (h.entry t ht) hmem).mpr hm⟩
  · rintro ⟨t, ht, rfl⟩
    exact List.mem_map_of_mem (h.prune.entry t ht)

/-- A key gets the mutex that it has, or a new one. -/
theorem mutexOf (key : LockKey) :
    (l.mutexOf key).2.Orderly ∧ (key, (l.mutexOf key).1) ∈ (l.mutexOf key).2.map ∧
      (l.mutexOf key).2.tickets = l.tickets ∧
      (∀ e ∈ l.map, e ∈ (l.mutexOf key).2.map) ∧
      ∀ e ∈ (l.mutexOf key).2.map, e ∈ l.map ∨ e.1 = key := by
  unfold Locks.mutexOf
  split
  · next m hm =>
    exact ⟨h, (lookup_eq_some_iff_of_nodup h.keys).mp hm, rfl, fun _ he => he, fun _ he => .inl he⟩
  · next hnone =>
    have hnew : key ∉ l.map.map Prod.fst := by
      intro hmem
      obtain ⟨⟨k, m⟩, hk, rfl⟩ := List.mem_map.mp hmem
      rw [(lookup_eq_some_iff_of_nodup h.keys).mpr hk] at hnone
      cases hnone
    have hnext : l.next ∉ l.map.map Prod.snd := by
      intro hmem
      obtain ⟨e, he, heq⟩ := List.mem_map.mp hmem
      exact Nat.lt_irrefl _ (heq ▸ h.old e he)
    refine ⟨⟨fun t ht => List.mem_append_left _ (h.entry t ht), ?_, ?_, ?_, h.labels, h.order⟩,
      by simp, rfl, fun _ he => List.mem_append_left _ he, fun e he => ?_⟩
    · rw [List.map_append]
      exact h.keys.append (List.nodup_singleton _) (by simpa using hnew)
    · rw [List.map_append]
      exact h.mutexes.append (List.nodup_singleton _) (by simpa using hnext)
    · intro e he
      rcases List.mem_append.mp he with he | he
      · exact Nat.lt_succ_of_lt (h.old e he)
      · rw [List.mem_singleton.mp he]
        exact Nat.lt_succ_self _
    · exact (List.mem_append.mp he).imp_right fun he => congrArg Prod.fst (List.mem_singleton.mp he)

/-! ### Tickets that come and go -/

theorem without (label : String) : (l.without label).Orderly where
  entry t ht := h.entry t (List.mem_of_mem_filter ht)
  keys := h.keys
  mutexes := h.mutexes
  old := h.old
  labels := h.labels.sublist (List.filter_sublist.map _)
  order := h.order.sublist List.filter_sublist

end Orderly

theorem mem_without : t ∈ (l.without label).tickets ↔ t ∈ l.tickets ∧ t.label ≠ label := by
  simp [without]

/-- Where the tickets of a label are for other mutexes, giving them up leaves nobody behind. -/
theorem Served.without (h : l.Served m) (hother : ∀ t ∈ l.tickets, t.label = label → t.mutex ≠ m) :
    (l.without label).Served m := by
  intro huse
  obtain ⟨t, ht, hm⟩ := inUse_iff.mp huse
  obtain ⟨t', ht', hm', hstate⟩ :=
    taken_iff.mp (h (inUse_iff.mpr ⟨t, (mem_without.mp ht).1, hm⟩))
  exact taken_iff.mpr ⟨t', mem_without.mpr ⟨ht', fun hl => hother t' ht' hl hm'⟩, hm', hstate⟩

/-! ### Giving a mutex on -/

/-- The first ticket of which `here` says so is changed, if there is one. -/
theorem changeFirst_cases (here : Ticket → Bool) (change : Ticket → Ticket) (ts : List Ticket) :
    (∀ t ∈ ts, ¬here t) ∧ changeFirst here change ts = ts ∨
      ∃ front t back, ts = front ++ t :: back ∧ here t ∧ (∀ x ∈ front, ¬here x) ∧
        changeFirst here change ts = front ++ change t :: back := by
  induction ts with
  | nil => exact .inl ⟨nofun, rfl⟩
  | cons t rest ih =>
    rw [changeFirst]
    by_cases ht : here t
    · exact .inr ⟨[], t, rest, rfl, ht, nofun, if_pos ht⟩
    · rw [if_neg ht]
      rcases ih with ⟨hnone, heq⟩ | ⟨front, t', back, rfl, ht', hfront, heq⟩
      · exact .inl ⟨List.forall_mem_cons.mpr ⟨ht, hnone⟩, congrArg _ heq⟩
      · exact .inr ⟨t :: front, t', back, rfl, ht', List.forall_mem_cons.mpr ⟨ht, hfront⟩,
          congrArg _ heq⟩

/-- A mutex is not given on where it is taken or nobody waits for it; else the first ticket for it
has it afterwards. -/
theorem grant_cases (l : Locks) (m : MutexId) :
    l.Served m ∧ l.grant m = l ∨
      ∃ front t back, l.tickets = front ++ t :: back ∧ t.mutex = m ∧ t.state = .queued ∧
        (∀ x ∈ front, x.mutex ≠ m) ∧
        l.grant m = { l with tickets := front ++ { t with state := .granted } :: back } := by
  unfold grant
  by_cases htaken : l.taken m
  · exact .inl ⟨fun _ => htaken, if_pos htaken⟩
  rw [if_neg htaken]
  have hqueued : ∀ x ∈ l.tickets, x.mutex = m → x.state = .queued := by
    intro x hx hm
    by_contra hstate
    exact htaken (taken_iff.mpr ⟨x, hx, hm, hstate⟩)
  rcases changeFirst_cases (fun t => t.mutex == m && t.state == .queued)
    (fun t => { t with state := .granted }) l.tickets with ⟨hnone, heq⟩ |
      ⟨front, t, back, hts, ht, hfront, heq⟩
  · refine .inl ⟨fun huse => ?_, by rw [heq]⟩
    obtain ⟨t, ht, hm⟩ := inUse_iff.mp huse
    exact absurd (by simp [hm, hqueued t ht hm]) (hnone t ht)
  · obtain ⟨hm, hstate⟩ : t.mutex = m ∧ t.state = .queued := by simpa using ht
    refine .inr ⟨front, t, back, hts, hm, hstate, fun x hx hxm => ?_, by rw [heq]⟩
    exact hfront x hx (by simp [hxm, hqueued x (hts ▸ List.mem_append_left _ hx) hxm])

theorem map_grant : (l.grant m).map = l.map := by
  unfold grant
  split
  · rfl
  · rfl

/-- A ticket that is given a mutex stays what it is otherwise. -/
theorem mem_grant (ht : t ∈ (l.grant m).tickets) :
    ∃ t₀ ∈ l.tickets, t₀.label = t.label ∧ t₀.key = t.key ∧ t₀.mutex = t.mutex ∧
      (t₀ = t ∨ t₀.state = .queued ∧ t.state = .granted) := by
  rcases l.grant_cases m with ⟨-, heq⟩ | ⟨front, x, back, hts, -, hstate, -, heq⟩
  · rw [heq] at ht
    exact ⟨t, ht, rfl, rfl, rfl, .inl rfl⟩
  · rw [heq] at ht
    rw [hts]
    rcases List.mem_append.mp ht with ht | ht
    · exact ⟨t, List.mem_append_left _ ht, rfl, rfl, rfl, .inl rfl⟩
    · rcases List.mem_cons.mp ht with rfl | ht
      · exact ⟨x, by simp, rfl, rfl, rfl, .inr ⟨hstate, rfl⟩⟩
      · exact ⟨t, by simp [ht], rfl, rfl, rfl, .inl rfl⟩

/-- No ticket goes away when a mutex is given on. -/
theorem exists_mem_grant (ht : t ∈ l.tickets) :
    ∃ t' ∈ (l.grant m).tickets, t'.label = t.label ∧ t'.key = t.key ∧ t'.mutex = t.mutex ∧
      (t' = t ∨ t.state = .queued ∧ t'.state = .granted) := by
  rcases l.grant_cases m with ⟨-, heq⟩ | ⟨front, x, back, hts, -, hstate, -, heq⟩
  · rw [heq]
    exact ⟨t, ht, rfl, rfl, rfl, .inl rfl⟩
  · rw [heq]
    rw [hts] at ht
    rcases List.mem_append.mp ht with ht | ht
    · exact ⟨t, List.mem_append_left _ ht, rfl, rfl, rfl, .inl rfl⟩
    · rcases List.mem_cons.mp ht with rfl | ht
      · exact ⟨{ t with state := .granted }, by simp, rfl, rfl, rfl, .inr ⟨hstate, rfl⟩⟩
      · exact ⟨t, by simp [ht], rfl, rfl, rfl, .inl rfl⟩

theorem Orderly.grant (h : l.Orderly) (m : MutexId) : (l.grant m).Orderly := by
  rcases l.grant_cases m with ⟨-, heq⟩ | ⟨front, x, back, hts, hm, hstate, hfront, heq⟩
  · rw [heq]
    exact h
  · have hlabels := h.labels
    have horder := h.order
    rw [hts] at hlabels horder
    have hentry : ∀ t ∈ (l.grant m).tickets, (t.key, t.mutex) ∈ l.map := by
      intro t ht
      obtain ⟨t₀, ht₀, -, hkey, hmutex, -⟩ := mem_grant (l := l) ht
      rw [← hkey, ← hmutex]
      exact h.entry t₀ ht₀
    rw [heq] at hentry ⊢
    refine ⟨hentry, h.keys, h.mutexes, h.old, by simpa using hlabels, ?_⟩
    · obtain ⟨hbefore, hrest, hacross⟩ := List.pairwise_append.mp horder
      obtain ⟨hfirst, hbehind⟩ := List.pairwise_cons.mp hrest
      refine List.pairwise_append.mpr ⟨hbefore, List.pairwise_cons.mpr ⟨hfirst, hbehind⟩, ?_⟩
      intro a ha b hb hab
      rcases List.mem_cons.mp hb with rfl | hb
      · -- the ticket is the first one for its mutex
        exact absurd (hab.trans hm) (hfront a ha)
      · exact hacross a ha b (List.mem_cons_of_mem _ hb) hab

theorem served_grant (l : Locks) (m : MutexId) : (l.grant m).Served m := by
  rcases l.grant_cases m with ⟨hserved, heq⟩ | ⟨front, x, back, -, hm, -, -, heq⟩
  · rw [heq]
    exact hserved
  · intro _
    rw [heq]
    exact taken_iff.mpr ⟨{ x with state := .granted }, by simp, hm, nofun⟩

theorem Served.grant (h : l.Served m) : (l.grant m').Served m := by
  intro huse
  obtain ⟨t, ht, hm⟩ := inUse_iff.mp huse
  obtain ⟨t₀, ht₀, -, -, hmutex, -⟩ := mem_grant ht
  obtain ⟨t₁, ht₁, hm₁, hstate⟩ := taken_iff.mp (h (inUse_iff.mpr ⟨t₀, ht₀, hmutex.trans hm⟩))
  obtain ⟨t₂, ht₂, -, -, hm₂, heq | ⟨hqueued, -⟩⟩ := exists_mem_grant (m := m') ht₁
  · exact taken_iff.mpr ⟨t₂, ht₂, hm₂.trans hm₁, heq ▸ hstate⟩
  · exact absurd hqueued hstate

/-! ### Looking -/

/-- A ticket after a look under a label, when it holds a mutex that was given to it. -/
def looked (label : String) (t : Ticket) : Ticket :=
  if t.label = label ∧ t.state = .granted then { t with state := .held } else t

theorem looked_cases (label : String) (t : Ticket) :
    looked label t = t ∨ t.state = .granted ∧ looked label t = { t with state := .held } := by
  unfold looked
  split
  · next h => exact .inr ⟨h.2, rfl⟩
  · exact .inl rfl

@[simp]
theorem label_looked (label : String) (t : Ticket) : (looked label t).label = t.label := by
  rcases looked_cases label t with h | ⟨-, h⟩ <;> rw [h]

@[simp]
theorem key_looked (label : String) (t : Ticket) : (looked label t).key = t.key := by
  rcases looked_cases label t with h | ⟨-, h⟩ <;> rw [h]

@[simp]
theorem mutex_looked (label : String) (t : Ticket) : (looked label t).mutex = t.mutex := by
  rcases looked_cases label t with h | ⟨-, h⟩ <;> rw [h]

/-- Who waits goes on to wait, and nobody else begins to. -/
@[simp]
theorem looked_queued_iff : (looked label t).state = .queued ↔ t.state = .queued := by
  rcases looked_cases label t with h | ⟨hgranted, h⟩
  · rw [h]
  · rw [h, hgranted]
    exact iff_of_false nofun nofun

/-- Who holds a mutex keeps it. -/
theorem state_looked_of_held (h : t.state = .held) : (looked label t).state = .held := by
  rcases looked_cases label t with heq | ⟨-, heq⟩
  · rw [heq, h]
  · rw [heq]

/-- Who has a mutex holds it when he looks. -/
theorem state_looked_label (h : t.state ≠ .queued) : (looked t.label t).state = .held := by
  unfold looked
  split
  · rfl
  · next hnot =>
    cases hstate : t.state with
    | queued => exact absurd hstate h
    | granted => exact absurd ⟨rfl, hstate⟩ hnot
    | held => rfl

theorem mem_poll : t ∈ (l.poll label).tickets ↔ ∃ t₀ ∈ l.tickets, looked label t₀ = t :=
  List.mem_map

/-! ### Each event -/

namespace Sound

variable (h : l.Sound)

include h

theorem poll (label : String) : (l.poll label).Sound where
  entry t ht := by
    obtain ⟨t₀, ht₀, rfl⟩ := mem_poll.mp ht
    rw [key_looked, mutex_looked]
    exact h.entry t₀ ht₀
  keys := h.keys
  mutexes := h.mutexes
  old := h.old
  labels := by
    show ((l.tickets.map (looked label)).map Ticket.label).Nodup
    rw [List.map_map, show Ticket.label ∘ looked label = Ticket.label from funext (label_looked label)]
    exact h.labels
  order := by
    refine List.pairwise_map.mpr (h.order.imp fun {t t'} horder hmutex => ?_)
    replace hmutex : (looked label t).mutex = (looked label t').mutex := hmutex
    rw [mutex_looked, mutex_looked] at hmutex
    exact looked_queued_iff.mpr (horder hmutex)
  served m huse := by
    obtain ⟨t, ht, hm⟩ := inUse_iff.mp huse
    obtain ⟨t₀, ht₀, rfl⟩ := mem_poll.mp ht
    rw [mutex_looked] at hm
    obtain ⟨t₁, ht₁, hm₁, hstate⟩ := taken_iff.mp (h.served m (inUse_iff.mpr ⟨t₀, ht₀, hm⟩))
    exact taken_iff.mpr ⟨_, mem_poll.mpr ⟨t₁, ht₁, rfl⟩, (mutex_looked label t₁).trans hm₁,
      mt looked_queued_iff.mp hstate⟩

theorem release (label : String) : (l.release label).Sound := by
  unfold Locks.release
  split
  · exact h
  · next t ht =>
    have hmem := List.mem_of_find?_eq_some ht
    have hlabel : t.label = label := by simpa using List.find?_some ht
    refine ⟨(h.toOrderly.without label).grant _, fun m => ?_⟩
    by_cases hm : t.mutex = m
    · exact hm ▸ served_grant _ _
    · apply Served.grant
      apply (h.served m).without
      intro t' ht' hlabel'
      rw [h.eq_of_label_eq ht' hmem (hlabel'.trans hlabel.symm)]
      exact hm

end Sound

/-! ### Requests for a lock -/

/-- A ticket is drawn, and one drawn before under its label is given up, but not given on. -/
def draw (l : Locks) (label : String) (key : LockKey) : Locks :=
  let found := l.prune.mutexOf key
  { found.2.without label with
    tickets := (found.2.without label).tickets ++
      [⟨label, key, found.1, if found.2.taken found.1 then .queued else .held⟩] }

theorem acquire_eq (l : Locks) (label : String) (key : LockKey) :
    l.acquire label key =
      match (l.prune.mutexOf key).2.tickets.find? fun t => t.label == label with
      | none => l.draw label key
      | some earlier => (l.draw label key).grant earlier.mutex :=
  rfl

namespace Sound

variable (h : l.Sound) (label : String) (key : LockKey)

include h

/-- The map has the keys of which somebody has a ticket, and that of the request. -/
theorem mem_keys_mutexOf_iff :
    k ∈ (l.prune.mutexOf key).2.map.map Prod.fst ↔ k = key ∨ ∃ t ∈ l.tickets, t.key = k := by
  obtain ⟨-, hkey, -, hkept, hnew⟩ := h.toOrderly.prune.mutexOf key
  constructor
  · intro hk
    obtain ⟨e, he, rfl⟩ := List.mem_map.mp hk
    rcases hnew e he with hold | heq
    · exact .inr (h.mem_keys_prune_iff.mp (List.mem_map_of_mem hold))
    · exact .inl heq
  · rintro (rfl | hticket)
    · exact List.mem_map_of_mem hkey
    · obtain ⟨e, he, rfl⟩ := List.mem_map.mp (h.mem_keys_prune_iff.mpr hticket)
      exact List.mem_map_of_mem (hkept e he)

/-- The mutex of a key is taken exactly if somebody has a ticket of the key. -/
theorem taken_mutexOf_iff :
    (l.prune.mutexOf key).2.taken (l.prune.mutexOf key).1 ↔ ∃ t ∈ l.tickets, t.key = key := by
  obtain ⟨horderly, hkey, htickets, -, -⟩ := h.toOrderly.prune.mutexOf key
  constructor
  · intro htaken
    obtain ⟨t, ht, hm, -⟩ := taken_iff.mp htaken
    exact ⟨t, htickets ▸ ht, (horderly.key_eq_iff (horderly.entry t ht) hkey).mpr hm⟩
  · rintro ⟨t, ht, rfl⟩
    have hmem : t ∈ (l.prune.mutexOf t.key).2.tickets := htickets ▸ ht
    have hm := horderly.mutex_eq_of_key_eq (horderly.entry t hmem) hkey
    obtain ⟨t', ht', hm', hstate⟩ := taken_iff.mp (h.served _ (inUse_iff.mpr ⟨t, ht, rfl⟩))
    exact taken_iff.mpr ⟨t', htickets ▸ ht', hm'.trans hm, hstate⟩

theorem orderly_draw : (l.draw label key).Orderly := by
  obtain ⟨horderly, hkey, -, -, -⟩ := h.toOrderly.prune.mutexOf key
  have hwithout := horderly.without label
  refine ⟨fun t ht => ?_, hwithout.keys, hwithout.mutexes, hwithout.old, ?_, ?_⟩
  · rcases List.mem_append.mp ht with ht | ht
    · exact hwithout.entry t ht
    · exact List.mem_singleton.mp ht ▸ hkey
  · show List.Nodup (List.map _ (_ ++ _))
    rw [List.map_append]
    refine hwithout.labels.append (List.nodup_singleton _) (List.disjoint_singleton.mpr ?_)
    intro hmem
    obtain ⟨t, ht, heq⟩ := List.mem_map.mp hmem
    exact (mem_without.mp ht).2 heq
  · refine List.pairwise_append.mpr ⟨hwithout.order, List.pairwise_singleton _ _, ?_⟩
    intro t ht t' ht' hm
    rw [List.mem_singleton.mp ht'] at hm ⊢
    -- somebody has a ticket for the mutex, so that it is taken
    have hmem := (mem_without.mp ht).1
    have htickets := (h.toOrderly.prune.mutexOf key).2.2.1
    have htaken := (h.taken_mutexOf_iff key).mpr ⟨t, htickets ▸ hmem,
      (horderly.key_eq_iff (horderly.entry t hmem) hkey).mpr hm⟩
    exact if_pos htaken

theorem served_draw (hother : ∀ t ∈ l.tickets, t.label = label → t.mutex ≠ m) :
    (l.draw label key).Served m := by
  obtain ⟨-, -, htickets, -, -⟩ := h.toOrderly.prune.mutexOf key
  -- first the older tickets, then the new one, which has the lock itself if nobody else has
  have hfound : (l.prune.mutexOf key).2.Served m := by
    intro huse
    obtain ⟨t, ht, hm⟩ := inUse_iff.mp huse
    obtain ⟨t', ht', hrest⟩ :=
      taken_iff.mp (h.served m (inUse_iff.mpr ⟨t, htickets ▸ ht, hm⟩))
    exact taken_iff.mpr ⟨t', htickets ▸ ht', hrest⟩
  have hwithout : ((l.prune.mutexOf key).2.without label).Served m :=
    hfound.without (htickets ▸ hother)
  intro huse
  obtain ⟨t, ht, hm⟩ := inUse_iff.mp huse
  have hserved : ((l.prune.mutexOf key).2.without label).taken m →
      (l.draw label key).taken m := by
    intro htaken
    obtain ⟨t', ht', hrest⟩ := taken_iff.mp htaken
    exact taken_iff.mpr ⟨t', List.mem_append_left _ ht', hrest⟩
  rcases List.mem_append.mp ht with ht | ht
  · exact hserved (hwithout (inUse_iff.mpr ⟨t, ht, hm⟩))
  · rw [List.mem_singleton.mp ht] at hm
    by_cases htaken : (l.prune.mutexOf key).2.taken (l.prune.mutexOf key).1
    · obtain ⟨t', ht', hm', -⟩ := taken_iff.mp htaken
      have hlabel : t'.label ≠ label :=
        fun heq => hother t' (htickets ▸ ht') heq (hm'.trans hm)
      exact hserved (hwithout
        (inUse_iff.mpr ⟨t', mem_without.mpr ⟨ht', hlabel⟩, hm'.trans hm⟩))
    · refine taken_iff.mpr ⟨_, List.mem_append_right _ (List.mem_singleton_self _), hm, ?_⟩
      rw [if_neg htaken]
      exact nofun

theorem acquire : (l.acquire label key).Sound := by
  obtain ⟨-, -, htickets, -, -⟩ := h.toOrderly.prune.mutexOf key
  have hdraw := h.orderly_draw label key
  rw [acquire_eq]
  split
  · next hnone =>
    refine ⟨hdraw, fun m => h.served_draw label key fun t ht hlabel => ?_⟩
    rw [htickets] at hnone
    exact absurd hlabel (by simpa using List.find?_eq_none.mp hnone t ht)
  · next earlier hearlier =>
    rw [htickets] at hearlier
    have hmem := List.mem_of_find?_eq_some hearlier
    have hlabel : earlier.label = label := by simpa using List.find?_some hearlier
    refine ⟨hdraw.grant _, fun m => ?_⟩
    by_cases hm : earlier.mutex = m
    · exact hm ▸ served_grant _ _
    · refine (h.served_draw label key fun t ht hlabel' => ?_).grant
      rw [h.eq_of_label_eq ht hmem (hlabel'.trans hlabel.symm)]
      exact hm

theorem after (e : Event) : (l.after e).Sound := by
  cases e with
  | acquire label key => exact h.acquire label key
  | poll label => exact h.poll label
  | release label => exact h.release label

end Sound

theorem sound_ofEvents (events : List Event) : (ofEvents events).Sound := by
  have hfold : ∀ (events : List Event) (l : Locks), l.Sound → (events.foldl Locks.after l).Sound := by
    intro events
    induction events with
    | nil => exact fun _ h => h
    | cons e rest ih => exact fun l h => ih (l.after e) (h.after e)
  exact hfold events empty sound_empty

end SchemaForge.Locks
