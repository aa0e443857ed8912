import SchemaForge.Proofs.Store.Creation
import SchemaForge.Proofs.Store.Runs

/-!
# The order of creation

A new row gets the number after the greatest one in its table, so the number of a row that is removed
may be given again, and numbers alone do not tell when a row was made. They do tell which of two rows
that are there was made first: whatever is left when a row is made has a smaller number. `born` says
after how many requests a row came into its table; lists of rows, which stand by number, stand in the
order in which they were born.
-/

namespace SchemaForge

namespace Table

variable {α : Type} [Numbered α] {t t' : Table α}

/-- The numbers of the rows, in ascending order. -/
def numbers (t : Table α) : List UInt64 := t.rows.map number

theorem mem_numbers_iff {n : UInt64} : n ∈ t.numbers ↔ ∃ row ∈ t.rows, number row = n :=
  List.mem_map

theorem ascending_numbers (t : Table α) : t.numbers.Pairwise (· < ·) :=
  List.pairwise_map.mpr t.ascending

/-- Rows have been removed or changed in their places, and behind those that are left there are rows
of numbers that were free. -/
def Grown (t : Table α) (fresh : List UInt64) (t' : Table α) : Prop :=
  ∃ kept, t'.numbers = kept ++ fresh ∧ kept.Sublist t.numbers ∧ ∀ n ∈ fresh, n ∉ t.numbers

namespace Grown

theorem refl (t : Table α) : Grown t [] t := ⟨_, (List.append_nil _).symm, .refl _, nofun⟩

theorem filter (t : Table α) (keep : α → Bool) : Grown t [] (t.filter keep) :=
  ⟨_, (List.append_nil _).symm, List.filter_sublist.map number, nofun⟩

/-- Rows are put behind all others. -/
theorem append {rows : List α} (h : t'.rows = t.rows ++ rows) : Grown t (rows.map number) t' := by
  have hnumbers : t'.numbers = t.numbers ++ rows.map number := by
    rw [numbers, h, List.map_append]
    rfl
  refine ⟨t.numbers, hnumbers, .refl _, fun n hn hold => ?_⟩
  have hasc := t'.ascending_numbers
  rw [hnumbers, List.pairwise_append] at hasc
  exact UInt64.lt_irrefl n (hasc.2.2 n hold n hn)

/-- A new row is put behind all others. -/
theorem insert_new {row : α} (hroom : t.HasRoom 1) (h : number row = t.nextNumber) :
    Grown t [number row] (t.insert row) :=
  append (rows_insert_new hroom h)

/-- A row takes the place of the row that has its number. -/
theorem replace {row : α} (h : number row ∈ t.numbers) : Grown t [] (t.insert row) := by
  obtain ⟨old, hold, hnumber⟩ := mem_numbers_iff.mp h
  have hmem : ∀ n, n ∈ (t.insert row).numbers ↔ n ∈ t.numbers := by
    intro n
    rw [mem_numbers_iff, mem_numbers_iff]
    constructor
    · rintro ⟨r, hr, rfl⟩
      rcases mem_insert_iff.mp hr with rfl | ⟨hr, -⟩
      · exact ⟨old, hold, hnumber⟩
      · exact ⟨r, hr, rfl⟩
    · rintro ⟨r, hr, rfl⟩
      by_cases hsame : number r = number row
      · exact ⟨row, mem_insert_iff.mpr (.inl rfl), hsame.symm⟩
      · exact ⟨r, mem_insert_iff.mpr (.inr ⟨hr, hsame⟩), rfl⟩
  have heq : (t.insert row).numbers = t.numbers :=
    eq_of_mem_iff_of_ascending hmem (t.insert row).ascending_numbers t.ascending_numbers
  rw [Grown, heq]
  exact ⟨_, (List.append_nil _).symm, .refl _, nofun⟩

end Grown

end Table

namespace Store

variable {s start : Store} {past : List Write}

/-! ### One request -/

theorem mem_numbers_of_project {owner : UserId} {id : ProjectId} {row : ProjectRow}
    (h : s.project owner id = .ok row) : row.id ∈ s.projects.numbers := by
  exact Table.mem_numbers_iff.mpr ⟨row, (mem_of_project_eq_ok h).1, rfl⟩

/-- A request makes at most one project, and puts it behind the others. -/
theorem Write.projects_grown {w : Write} (hroom : w.HasRoom s) :
    ∃ fresh, fresh.length ≤ 1 ∧ s.projects.Grown fresh (w.run s).2.projects := by
  generalize hs : (w.run s).2 = s'
  cases effect_of_run hs with
  | none | createObject | deleteObject | createAction => exact ⟨[], Nat.zero_le _, .refl _⟩
  | deleteProject => exact ⟨[], Nat.zero_le _, .filter _ _⟩
  | renameProject admitted =>
    have hrow := mem_numbers_of_project (admitRename_eq_ok_iff.mp admitted).2.1
    exact ⟨[], Nat.zero_le _, .replace hrow⟩
  | createProject admitted =>
    exact ⟨[_], Nat.le_refl 1, .insert_new (hroom admitted) rfl⟩

/-- A request makes at most one object, and puts it behind the others. -/
theorem Write.objects_grown {w : Write} (hroom : w.HasRoom s) :
    ∃ fresh, fresh.length ≤ 1 ∧ s.objects.Grown fresh (w.run s).2.objects := by
  generalize hs : (w.run s).2 = s'
  cases effect_of_run hs with
  | none | createProject | renameProject | createAction => exact ⟨[], Nat.zero_le _, .refl _⟩
  | deleteProject | deleteObject => exact ⟨[], Nat.zero_le _, .filter _ _⟩
  | createObject admitted =>
    exact ⟨[_], Nat.le_refl 1, .insert_new (hroom admitted).1 rfl⟩

/-- A request puts new attributes behind the others. -/
theorem Write.attributes_grown {w : Write} (hroom : w.HasRoom s) :
    ∃ fresh, s.attributes.Grown fresh (w.run s).2.attributes := by
  generalize hs : (w.run s).2 = s'
  cases effect_of_run hs with
  | none | createProject | renameProject | createAction => exact ⟨[], .refl _⟩
  | deleteProject | deleteObject => exact ⟨[], .filter _ _⟩
  | createObject admitted =>
    obtain ⟨rows, hrows, -⟩ := rows_addAttributes _ _ (hroom admitted).2
    exact ⟨_, .append hrows⟩

/-- A request makes at most one action, and puts it behind the others. -/
theorem Write.actions_grown {w : Write} (hroom : w.HasRoom s) :
    ∃ fresh, fresh.length ≤ 1 ∧ s.actions.Grown fresh (w.run s).2.actions := by
  generalize hs : (w.run s).2 = s'
  cases effect_of_run hs with
  | none | createProject | renameProject | createObject => exact ⟨[], Nat.zero_le _, .refl _⟩
  | deleteProject | deleteObject => exact ⟨[], Nat.zero_le _, .filter _ _⟩
  | createAction admitted =>
    exact ⟨[_], Nat.le_refl 1, .insert_new (hroom admitted) rfl⟩

/-! ### When a row was born -/

section Born

variable {α : Type} [Numbered α] {table : Store → Table α}

/-- The number of requests after which the row of this number came into its table, to stay; a row that
was there from the start has 0. -/
def born (table : Store → Table α) (start : Store) (n : UInt64) : List Write → Nat
  | [] => 0
  | _ :: past =>
    if n ∈ (table (start.after past)).numbers then born table start n past else past.length + 1

theorem born_le (n : UInt64) : born table start n past ≤ past.length := by
  induction past with
  | nil => exact Nat.le_refl 0
  | cons w past ih =>
    rw [born]
    split
    · exact Nat.le_succ_of_le ih
    · exact Nat.le_refl _

/-- A row that was born before all requests was there from the start. -/
theorem mem_start_of_born_eq_zero {n : UInt64} (hn : n ∈ (table (start.after past)).numbers)
    (h : born table start n past = 0) : n ∈ (table start).numbers := by
  induction past with
  | nil => exact hn
  | cons w past ih =>
    rw [born] at h
    split at h
    · next hold => exact ih hold h
    · cases h

/-- Rows stand in the order in which they were born. `R` is how the births of two rows in this order
compare: rows from the start were born together, and so were rows made by one request. -/
theorem pairwise_born (table : Store → Table α) {R : Nat → Nat → Prop} (hzero : R 0 0)
    (hlt : ∀ m n, m < n → R m n)
    (hgrown : ∀ (s : Store) (w : Write), w.HasRoom s →
      ∃ fresh, (fresh.length ≤ 1 ∨ ∀ n, R n n) ∧ (table s).Grown fresh (table (w.run s).2))
    (hroom : start.RoomFor past) :
    (table (start.after past)).numbers.Pairwise fun m n =>
      R (born table start m past) (born table start n past) := by
  induction past with
  | nil => exact List.pairwise_of_forall fun _ _ => hzero
  | cons w past ih =>
    obtain ⟨fresh, htogether, kept, hnumbers, hkept, hfresh⟩ := hgrown _ w hroom.2
    have hold : ∀ n ∈ kept, born table start n (w :: past) = born table start n past := by
      intro n hn
      rw [born, if_pos (hkept.subset hn)]
    have hnew : ∀ n ∈ fresh, born table start n (w :: past) = past.length + 1 := by
      intro n hn
      rw [born, if_neg (hfresh n hn)]
    show (table (w.run (start.after past)).2).numbers.Pairwise _
    rw [hnumbers, List.pairwise_append]
    -- two old rows, two rows of this request, and an old row before a new one
    refine ⟨?_, ?_, ?_⟩
    · refine ((ih hroom.1).sublist hkept).imp_of_mem fun hm hn hR => ?_
      rw [hold _ hm, hold _ hn]
      exact hR
    · rcases htogether with hone | hrefl
      · match fresh, hone with
        | [], _ => exact .nil
        | [n], _ => exact List.pairwise_singleton _ n
      · refine List.Pairwise.imp_of_mem (fun hm hn _ => ?_)
          (List.pairwise_of_forall (R := fun _ _ => True) fun _ _ => trivial)
        rw [hnew _ hm, hnew _ hn]
        exact hrefl _
    · intro m hm n hn
      rw [hold m hm, hnew n hn]
      exact hlt _ _ (Nat.lt_succ_of_le (born_le m))

/-- A list that ascends in numbers starts with those that have 0. -/
theorem exists_append_of_pairwise_le {β : Type} {f : β → Nat} {l : List β}
    (h : l.Pairwise fun a b => f a ≤ f b) :
    ∃ l₁ l₂, l = l₁ ++ l₂ ∧ (∀ a ∈ l₁, f a = 0) ∧ ∀ a ∈ l₂, 0 < f a := by
  induction h with
  | nil => exact ⟨[], [], rfl, nofun, nofun⟩
  | @cons a l ha _ ih =>
    rcases Nat.eq_zero_or_pos (f a) with hzero | hpos
    · obtain ⟨l₁, l₂, rfl, h₁, h₂⟩ := ih
      exact ⟨a :: l₁, l₂, rfl, List.forall_mem_cons.mpr ⟨hzero, h₁⟩, h₂⟩
    · refine ⟨[], a :: l, rfl, nofun, List.forall_mem_cons.mpr ⟨hpos, ?_⟩⟩
      exact fun b hb => Nat.lt_of_lt_of_le hpos (ha b hb)

/-- Do the rows from the start come before all rows that requests have made? -/
def StartFirst (table : Store → Table α) (start : Store) (past : List Write) : Prop :=
  ∃ old new, (table (start.after past)).numbers = old ++ new ∧
    (∀ n ∈ old, n ∈ (table start).numbers ∧ born table start n past = 0) ∧
    ∀ n ∈ new, 0 < born table start n past

theorem startFirst (hgrown : ∀ (s : Store) (w : Write), w.HasRoom s →
      ∃ fresh, (table s).Grown fresh (table (w.run s).2))
    (hroom : start.RoomFor past) : StartFirst table start past := by
  have hborn := pairwise_born table (R := (· ≤ ·)) (Nat.le_refl 0)
    (fun _ _ => Nat.le_of_lt) (fun s w hw => (hgrown s w hw).imp fun _ h => ⟨.inr Nat.le_refl, h⟩)
    hroom
  obtain ⟨old, new, hnumbers, hold, hnew⟩ := exists_append_of_pairwise_le hborn
  refine ⟨old, new, hnumbers, fun n hn => ⟨?_, hold n hn⟩, hnew⟩
  refine mem_start_of_born_eq_zero ?_ (hold n hn)
  rw [hnumbers]
  exact List.mem_append_left new hn

/-- Do rows of these numbers stand in the order in which they were born? No two were born together, but
for rows from the start. -/
def InOrderOfBirth (table : Store → Table α) (start : Store) (past : List Write)
    (ids : List UInt64) : Prop :=
  ids.Pairwise fun m n =>
    born table start m past < born table start n past ∨
      born table start m past = 0 ∧ born table start n past = 0

theorem inOrderOfBirth (hgrown : ∀ (s : Store) (w : Write), w.HasRoom s →
      ∃ fresh, fresh.length ≤ 1 ∧ (table s).Grown fresh (table (w.run s).2))
    (hroom : start.RoomFor past) {ids : List UInt64}
    (h : ids.Sublist (table (start.after past)).numbers) :
    InOrderOfBirth table start past ids := by
  refine (pairwise_born _ (R := fun m n => m < n ∨ m = 0 ∧ n = 0) (.inr ⟨rfl, rfl⟩)
    (fun _ _ => .inl) (fun s w hw => ?_) hroom).sublist h
  obtain ⟨fresh, hone, hfresh⟩ := hgrown s w hw
  exact ⟨fresh, .inl hone, hfresh⟩

end Born

/-! ### Attributes of one object -/

/-- An object that stays keeps its attributes. -/
theorem attributes_kept {w : Write} (hroom : w.HasRoom s) {id : ObjectId}
    (hbefore : id ∈ s.objects.numbers) (hafter : id ∈ (w.run s).2.objects.numbers) :
    ((w.run s).2.attributes.rows.filter fun row => row.objectId == id) =
      s.attributes.rows.filter fun row => row.objectId == id := by
  have hremoved : ∀ ids : List ObjectId, id ∈ (s.withoutObjects ids).objects.numbers →
      ((s.withoutObjects ids).attributes.rows.filter fun row => row.objectId == id) =
        s.attributes.rows.filter fun row => row.objectId == id := by
    intro ids hid
    obtain ⟨o, ho, rfl⟩ := Table.mem_numbers_iff.mp hid
    have hnot : o.id ∉ ids := of_decide_eq_true (Table.mem_filter_iff.mp ho).2
    apply Table.rows_filter_filter_of_imp
    intro row _ hrow
    rw [eq_of_beq hrow]
    exact decide_eq_true hnot
  generalize hs : (w.run s).2 = s' at hafter ⊢
  cases Write.effect_of_run hs with
  | none | createProject | renameProject | createAction => rfl
  | deleteProject | deleteObject => exact hremoved _ hafter
  | createObject admitted =>
    obtain ⟨hobject, hattributes⟩ := hroom admitted
    obtain ⟨rows, hrows, hmade⟩ := rows_addAttributes _ _ hattributes
    show List.filter _ (addAttributes _ _ _ _).rows = _
    rw [hrows, List.filter_append, List.append_right_eq_self, List.filter_eq_nil_iff]
    intro row hrow heq
    obtain ⟨o, ho, hid⟩ := Table.mem_numbers_iff.mp hbefore
    apply Table.nextNumber_fresh hobject ho
    rw [hid, ← eq_of_beq heq, forall_made_objectId hmade row hrow]

/-- An object that a request makes gets the attributes of the payload. -/
theorem attributes_made {w : Write} (h : s.Consistent) (hroom : w.HasRoom s) {id : ObjectId}
    (hbefore : id ∉ s.objects.numbers) (hafter : id ∈ (w.run s).2.objects.numbers) :
    ∃ now owner projectId o, w = .createObject now owner projectId o ∧
      List.Forall₂ (MadeFor owner id)
        ((w.run s).2.attributes.rows.filter fun row => row.objectId == id) o.attributes := by
  generalize hs : (w.run s).2 = s' at hafter ⊢
  cases Write.effect_of_run hs with
  | none | createProject | renameProject | createAction => exact absurd hafter hbefore
  | deleteProject | deleteObject =>
    exact absurd ((List.filter_sublist.map number).subset hafter) hbefore
  | @createObject now owner projectId o admitted =>
    have hid : id = s.objects.nextNumber := by
      obtain ⟨o', ho', rfl⟩ := Table.mem_numbers_iff.mp hafter
      rcases Table.mem_insert_iff.mp ho' with rfl | ⟨ho', -⟩
      · rfl
      · exact absurd (Table.mem_numbers_iff.mpr ⟨o', ho', rfl⟩) hbefore
    subst hid
    have hmade := attributes_createObject now h admitted (hroom admitted)
    rw [createObject_snd admitted] at hmade
    exact ⟨now, owner, projectId, o, rfl, hmade⟩

/-- An object that a request has made has the attributes of the payload, ever after. -/
theorem attributes_of_born (h : start.Consistent) (hroom : start.RoomFor past) {id : ObjectId}
    (hid : id ∈ (start.after past).objects.numbers) (hborn : 0 < born Store.objects start id past) :
    ∃ later now owner projectId o earlier,
      past = later ++ .createObject now owner projectId o :: earlier ∧
      born Store.objects start id past = earlier.length + 1 ∧
      List.Forall₂ (MadeFor owner id)
        ((start.after past).attributes.rows.filter fun row => row.objectId == id)
        o.attributes := by
  induction past with
  | nil => exact absurd hborn (Nat.lt_irrefl 0)
  | cons w past ih =>
    rw [born] at hborn ⊢
    -- the object was there before the latest request, or that request has made it
    by_cases hold : id ∈ (start.after past).objects.numbers
    · rw [if_pos hold] at hborn ⊢
      obtain ⟨later, now, owner, projectId, o, earlier, hpast, hlength, hmade⟩ :=
        ih hroom.1 hold hborn
      refine ⟨w :: later, now, owner, projectId, o, earlier, by rw [hpast]; rfl, hlength, ?_⟩
      show List.Forall₂ _ ((w.run (start.after past)).2.attributes.rows.filter _) _
      rw [attributes_kept hroom.2 hold hid]
      exact hmade
    · rw [if_neg hold]
      obtain ⟨now, owner, projectId, o, rfl, hmade⟩ :=
        attributes_made (h.after hroom.1) hroom.2 hold hid
      exact ⟨[], now, owner, projectId, o, past, rfl, rfl, hmade⟩

/-! ### Lists -/

theorem listAttributes_eq_ok {owner : UserId} {id : ObjectId} {as : List Attribute}
    (h : s.listAttributes owner id = .ok as) :
    id ∈ s.objects.numbers ∧ s.attributesOf id = .ok as := by
  unfold listAttributes at h
  split at h
  · next o hfind =>
    obtain ⟨ho, hid⟩ := Table.find?_eq_some_iff.mp hfind
    split at h
    · exact ⟨Table.mem_numbers_iff.mpr ⟨o, ho, hid⟩, h⟩
    · cases h
  · cases h

/-- What is listed are the rows that are there, in the order in which they were made: projects, objects
and actions by the requests that made them, and the attributes of an object in the order of the payload
that made the object. In every table the rows from the start come before those that requests have
made; a store that starts out empty has no rows from the start. -/
theorem lists_follow_births {start : Store} (hstart : start.Initial) {past : List Write}
    (hroom : start.RoomFor past) :
    (∀ owner ps, (start.after past).listProjects owner = .ok ps →
        (∀ p, p ∈ ps ↔ ∃ row ∈ (start.after past).projects.rows,
          row.owner = owner ∧ row.toProject = .ok p) ∧
          InOrderOfBirth Store.projects start past (ps.map Project.id)) ∧
      (∀ owner projectId os, (start.after past).listObjects owner projectId = .ok os →
        (∀ o, o ∈ os ↔ o ∈ (start.after past).objects.rows ∧
          o.owner = owner ∧ o.projectId = projectId) ∧
          InOrderOfBirth Store.objects start past (os.map Object.id)) ∧
      (∀ owner id as, (start.after past).listAttributes owner id = .ok as →
        (∀ a, a ∈ as ↔ ∃ row ∈ (start.after past).attributes.rows,
          row.objectId = id ∧ row.toAttribute = .ok a) ∧
          ((as.map Attribute.id).Pairwise fun m n =>
            born Store.attributes start m past ≤ born Store.attributes start n past) ∧
          (0 < born Store.objects start id past →
            ∃ later now user projectId o earlier,
              past = later ++ .createObject now user projectId o :: earlier ∧
              born Store.objects start id past = earlier.length + 1 ∧
              as.map Attribute.asked = o.attributes)) ∧
      (∀ owner projectId id as, (start.after past).listActions owner projectId id = .ok as →
        (∀ a, a ∈ as ↔ ∃ row ∈ (start.after past).actions.rows,
          row.action = a ∧ a.objectId = id) ∧
          InOrderOfBirth Store.actions start past (as.map Action.id)) ∧
      StartFirst Store.projects start past ∧ StartFirst Store.objects start past ∧
      StartFirst Store.attributes start past ∧ StartFirst Store.actions start past := by
  have hprojects : StartFirst Store.projects start past :=
    startFirst (fun _ _ hw => (Write.projects_grown hw).imp fun _ => And.right) hroom
  have hobjects : StartFirst Store.objects start past :=
    startFirst (fun _ _ hw => (Write.objects_grown hw).imp fun _ => And.right) hroom
  have hattributes : StartFirst Store.attributes start past :=
    startFirst (fun _ _ => Write.attributes_grown) hroom
  have hactions : StartFirst Store.actions start past :=
    startFirst (fun _ _ hw => (Write.actions_grown hw).imp fun _ => And.right) hroom
  refine ⟨?_, ?_, ?_, ?_, hprojects, hobjects, hattributes, hactions⟩
  · intro owner ps h
    constructor
    · intro p
      simp only [mem_decodedAll_iff h, List.mem_filter, beq_iff_eq, and_assoc]
    · apply inOrderOfBirth (fun _ _ => Write.projects_grown) hroom
      rw [map_of_decodedAll h ProjectRow.id_of_toProject]
      exact List.filter_sublist.map number
  · intro owner projectId os h
    obtain ⟨p, -, hos⟩ := bind_eq_ok_iff.mp h
    obtain rfl := Except.ok.inj hos
    constructor
    · intro o
      simp only [List.mem_filter, Bool.and_eq_true, beq_iff_eq]
    · apply inOrderOfBirth (fun _ _ => Write.objects_grown) hroom
      exact List.filter_sublist.map number
  · intro owner id as h
    obtain ⟨hid, has⟩ := listAttributes_eq_ok h
    refine ⟨?_, ?_, ?_⟩
    · intro a
      simp only [mem_decodedAll_iff has, List.mem_filter, beq_iff_eq, and_assoc]
    · rw [map_of_decodedAll has AttributeRow.id_of_toAttribute]
      refine (pairwise_born Store.attributes (R := (· ≤ ·)) (Nat.le_refl 0)
        (fun _ _ => Nat.le_of_lt) (fun s w hw => ?_) hroom).sublist (List.filter_sublist.map number)
      exact (Write.attributes_grown hw).imp fun _ hgrown => ⟨.inr Nat.le_refl, hgrown⟩
    · intro hborn
      obtain ⟨later, now, user, projectId, o, earlier, hpast, hlength, hmade⟩ :=
        attributes_of_born hstart.consistent hroom hid hborn
      obtain ⟨as', has', -, hasked⟩ := exists_decoded_of_made hmade
      obtain rfl : as' = as := Except.ok.inj (has'.symm.trans has)
      exact ⟨later, now, user, projectId, o, earlier, hpast, hlength, hasked⟩
  · intro owner projectId id as h
    obtain ⟨o, -, has⟩ := bind_eq_ok_iff.mp h
    obtain rfl := Except.ok.inj has
    constructor
    · intro a
      simp only [List.mem_map, List.mem_filter, beq_iff_eq]
      constructor
      · rintro ⟨row, ⟨hrow, hid⟩, rfl⟩
        exact ⟨row, hrow, rfl, hid⟩
      · rintro ⟨row, hrow, rfl, hid⟩
        exact ⟨row, ⟨hrow, hid⟩, rfl⟩
    · apply inOrderOfBirth (fun _ _ => Write.actions_grown) hroom
      rw [List.map_map]
      exact List.filter_sublist.map number

/-- The newer of two objects is removed, and the next one gets its number. -/
def runWithReuse : List Write :=
  [.createObject .epoch 7 1
      ⟨"Cup", [⟨"size", .decimal, true, none⟩, ⟨"form", .text, false, none⟩]⟩,
    .deleteObject 7 1 2, .createObject .epoch 7 1 ⟨"Bag", [⟨"size", .text, false, none⟩]⟩,
    .createObject .epoch 7 1 ⟨"Ace", []⟩, .createProject .epoch 7 ⟨"Shop", .sailsJs⟩]

/-- The object that got the number is listed last, for it was made last. -/
theorem reused_number_is_listed_last :
    ∃ (past : List Write) (os : List Object) (as : List Attribute),
      empty.RoomFor past ∧ (empty.after past).listObjects 7 1 = .ok os ∧
        os.map Object.id = [1, 2] ∧ os.map Object.name = ["Ace", "Cup"] ∧
        born Store.objects empty 1 past = 2 ∧ born Store.objects empty 2 past = 5 ∧
        InOrderOfBirth Store.objects empty past [1, 2] ∧
        (empty.after past).listAttributes 7 2 = .ok as ∧
        as.map Attribute.asked = [⟨"size", .decimal, true, none⟩, ⟨"form", .text, false, none⟩] := by
  have hroom : empty.RoomFor runWithReuse := by
    refine ⟨⟨⟨⟨⟨trivial, fun _ => ?_⟩, fun _ => ?_⟩, fun _ => ?_⟩, fun _ => ?_⟩, fun _ => ?_⟩
    · show Table.HasRoom _ 1
      decide +kernel
    · show Table.HasRoom _ 1 ∧ Table.HasRoom _ 0
      decide +kernel
    · show Table.HasRoom _ 1 ∧ Table.HasRoom _ 1
      decide +kernel
    · exact trivial
    · show Table.HasRoom _ 1 ∧ Table.HasRoom _ 2
      decide +kernel
  have hobjects : (empty.after runWithReuse).listObjects 7 1 =
      .ok [⟨1, "Ace", 1, 7, .epoch⟩, ⟨2, "Cup", 1, 7, .epoch⟩] := by
    with_unfolding_all rfl
  have hattributes : (empty.after runWithReuse).listAttributes 7 2 =
      .ok [⟨1, 2, "size", .decimal, true, none⟩, ⟨2, 2, "form", .text, false, none⟩] := by
    with_unfolding_all rfl
  obtain ⟨-, hlists, -⟩ := lists_follow_births .empty hroom
  exact ⟨runWithReuse, _, _, hroom, hobjects, rfl, rfl, by with_unfolding_all rfl,
    by with_unfolding_all rfl, (hlists 7 1 _ hobjects).2, hattributes, rfl⟩

end Store

end SchemaForge
