import SchemaForge.Proofs.Store.Effect

/-!
# Consistent rows

What all rows of a store meet together: every number stands for one row of its table, names are
valid and do not clash, and every row belongs to a row of the same owner. The three kinds of clauses have
one lemma each for the two things that happen to a table: a row is put into it, or rows are removed.

Several clauses need each other. Clashes are looked for among the rows of one parent, whoever owns
them, and rows are removed by the number of their parent alone; both are right only because a row
and its parent have the same owner and numbers of new rows belong to no row that is there.
-/

namespace SchemaForge

/-! ### Clauses -/

/-- Do no two rows clash? -/
def Unique (clash : α → α → Prop) (rows : List α) : Prop :=
  ∀ a ∈ rows, ∀ b ∈ rows, clash a b → a = b

/-- Does every child have a parent? -/
def Housed (owns : α → β → Prop) (parents : List α) (children : List β) : Prop :=
  ∀ c ∈ children, ∃ p ∈ parents, owns p c

namespace Unique

variable {clash : α → α → Prop}

theorem of_subset {rows rows' : List α} (h : Unique clash rows) (hsub : ∀ a ∈ rows', a ∈ rows) :
    Unique clash rows' := by
  intro a ha b hb hab
  exact h a (hsub a ha) b (hsub b hb) hab

/-- A row is put into a table where it clashes with none, but for the row whose place it takes. -/
theorem insert [Numbered α] {t : Table α} {row : α} (h : Unique clash t.rows)
    (hsymm : ∀ a b, clash a b → clash b a)
    (hfree : ∀ a ∈ t.rows, number a ≠ number row → ¬clash a row) :
    Unique clash (t.insert row).rows := by
  intro a ha b hb hab
  rcases Table.mem_insert_iff.mp ha with rfl | ⟨ha', hane⟩
  · rcases Table.mem_insert_iff.mp hb with rfl | ⟨hb', hbne⟩
    · rfl
    · exact absurd (hsymm _ _ hab) (hfree b hb' hbne)
  · rcases Table.mem_insert_iff.mp hb with rfl | ⟨hb', _⟩
    · exact absurd hab (hfree a ha' hane)
    · exact h a ha' b hb' hab

end Unique

namespace Housed

variable {owns : α → β → Prop}

/-- A child is put into its table. -/
theorem insert_child [Numbered β] {parents : List α} {t : Table β} {child : β}
    (h : Housed owns parents t.rows) (hchild : ∃ p ∈ parents, owns p child) :
    Housed owns parents (t.insert child).rows := by
  intro c hc
  rcases Table.mem_insert_iff.mp hc with rfl | ⟨hc, _⟩
  · exact hchild
  · exact h c hc

/-- A parent is put into its table; it takes over the children of the one whose place it takes. -/
theorem insert_parent [Numbered α] {t : Table α} {row : α} {children : List β}
    (h : Housed owns t.rows children)
    (hover : ∀ p ∈ t.rows, number p = number row → ∀ c, owns p c → owns row c) :
    Housed owns (t.insert row).rows children := by
  intro c hc
  obtain ⟨p, hp, hown⟩ := h c hc
  by_cases hn : number p = number row
  · exact ⟨row, Table.mem_insert_iff.mpr (.inl rfl), hover p hp hn c hown⟩
  · exact ⟨p, Table.mem_insert_iff.mpr (.inr ⟨hp, hn⟩), hown⟩

/-- Parents and children are removed, no parent of a child that stays among them. -/
theorem filter {parents : List α} {children : List β} {keep : α → Bool} {keepChild : β → Bool}
    (h : Housed owns parents children)
    (hkeep : ∀ p ∈ parents, ∀ c ∈ children, owns p c → keepChild c = true → keep p = true) :
    Housed owns (parents.filter keep) (children.filter keepChild) := by
  intro c hc
  obtain ⟨hc, hkc⟩ := List.mem_filter.mp hc
  obtain ⟨p, hp, hown⟩ := h c hc
  exact ⟨p, List.mem_filter.mpr ⟨hp, hkeep p hp c hc hown hkc⟩, hown⟩

end Housed

/-! ### Rows that clash, and rows that belong to others -/

/-- Projects of one owner must not have the same name. -/
def ProjectRow.Clash (p q : ProjectRow) : Prop := p.owner = q.owner ∧ p.name = q.name

/-- Names of objects in one project must differ in more than case. -/
def Object.Clash (a b : Object) : Prop :=
  a.projectId = b.projectId ∧ Text.sameIgnoringCase a.name b.name = true

/-- Attributes of one object must not have the same name. -/
def AttributeRow.Clash (a b : AttributeRow) : Prop := a.objectId = b.objectId ∧ a.name = b.name

/-- Actions of one object must not have the same identifier. -/
def ActionRow.Clash (a b : ActionRow) : Prop :=
  a.action.objectId = b.action.objectId ∧ a.action.identifier = b.action.identifier

theorem ProjectRow.Clash.symm {p q : ProjectRow} (h : p.Clash q) : q.Clash p :=
  ⟨h.1.symm, h.2.symm⟩

theorem Object.Clash.symm {a b : Object} (h : a.Clash b) : b.Clash a := by
  refine ⟨h.1.symm, ?_⟩
  have hsame := h.2
  unfold Text.sameIgnoringCase at hsame ⊢
  rw [beq_iff_eq] at hsame ⊢
  exact hsame.symm

theorem AttributeRow.Clash.symm {a b : AttributeRow} (h : a.Clash b) : b.Clash a :=
  ⟨h.1.symm, h.2.symm⟩

theorem ActionRow.Clash.symm {a b : ActionRow} (h : a.Clash b) : b.Clash a :=
  ⟨h.1.symm, h.2.symm⟩

/-- The project is the one that the object names, and both have one owner. -/
def ProjectRow.Owns (p : ProjectRow) (o : Object) : Prop := p.id = o.projectId ∧ p.owner = o.owner

/-- The object is the one that the attribute names, and both have one owner. -/
def Object.OwnsAttribute (o : Object) (a : AttributeRow) : Prop :=
  o.id = a.objectId ∧ o.owner = a.owner

/-- The object is the one that the action names, and both have one owner. -/
def Object.OwnsAction (o : Object) (a : ActionRow) : Prop :=
  o.id = a.action.objectId ∧ o.owner = a.owner

/-! ### The rows of a store -/

/-- What the rows of a store meet. -/
structure Snapshot.Consistent (r : Snapshot) : Prop where
  project_ids : (r.projects.map ProjectRow.id).Nodup
  project_named : ∀ p ∈ r.projects, Naming.checkProjectName p.name = .ok ()
  project_unique : Unique ProjectRow.Clash r.projects
  object_ids : (r.objects.map Object.id).Nodup
  object_housed : Housed ProjectRow.Owns r.projects r.objects
  object_named : ∀ o ∈ r.objects, Naming.checkObjectName o.name = .ok ()
  object_unique : Unique Object.Clash r.objects
  attribute_ids : (r.attributes.map AttributeRow.id).Nodup
  attribute_housed : Housed Object.OwnsAttribute r.objects r.attributes
  attribute_named : ∀ a ∈ r.attributes, Naming.checkAttributeName a.name = .ok ()
  attribute_unique : Unique AttributeRow.Clash r.attributes
  action_ids : (r.actions.map fun a => a.action.id).Nodup
  action_housed : Housed Object.OwnsAction r.objects r.actions
  action_named : ∀ a ∈ r.actions, Naming.checkActionIdentifier a.action.identifier = .ok ()
  action_unique : Unique ActionRow.Clash r.actions

namespace Store

/-- Are the rows of a store consistent? -/
def Consistent (s : Store) : Prop := s.snapshot.Consistent

theorem consistent_empty : empty.Consistent := by
  constructor <;> simp [empty, snapshot, Table.empty, Unique, Housed]

namespace Consistent

variable {s : Store}

/-! ### Rows put into tables -/

/-- A project is new, or takes the place of a row of the same owner. -/
theorem insertProject (h : s.Consistent) {row : ProjectRow}
    (hnamed : Naming.checkProjectName row.name = .ok ())
    (hfree : ∀ p ∈ s.projects.rows, p.id ≠ row.id → ¬p.Clash row)
    (howner : ∀ p ∈ s.projects.rows, p.id = row.id → p.owner = row.owner) :
    ({ s with projects := s.projects.insert row } : Store).Consistent := by
  refine { h with
    project_ids := ?_, project_named := ?_, project_unique := ?_, object_housed := ?_ }
  · exact Table.nodup_numbers _
  · intro p hp
    rcases Table.mem_insert_iff.mp hp with rfl | ⟨hp', _⟩
    · exact hnamed
    · exact h.project_named p hp'
  · exact h.project_unique.insert (fun _ _ => ProjectRow.Clash.symm) hfree
  · apply h.object_housed.insert_parent
    intro p hp hn o hown
    exact ⟨hn.symm.trans hown.1, (howner p hp hn).symm.trans hown.2⟩

/-- An object of a project of its owner is new. -/
theorem insertObject (h : s.Consistent) {row : Object}
    (hnamed : Naming.checkObjectName row.name = .ok ())
    (hparent : ∃ p ∈ s.projects.rows, p.Owns row) (hfree : ∀ o ∈ s.objects.rows, ¬o.Clash row)
    (hfresh : ∀ o ∈ s.objects.rows, o.id ≠ row.id) :
    ({ s with objects := s.objects.insert row } : Store).Consistent := by
  refine { h with
    object_ids := ?_, object_housed := ?_, object_named := ?_, object_unique := ?_
    attribute_housed := ?_, action_housed := ?_ }
  · exact Table.nodup_numbers _
  · exact h.object_housed.insert_child hparent
  · intro o ho
    rcases Table.mem_insert_iff.mp ho with rfl | ⟨ho', _⟩
    · exact hnamed
    · exact h.object_named o ho'
  · exact h.object_unique.insert (fun _ _ => Object.Clash.symm) fun o ho _ => hfree o ho
  · exact h.attribute_housed.insert_parent fun o ho hn => absurd hn (hfresh o ho)
  · exact h.action_housed.insert_parent fun o ho hn => absurd hn (hfresh o ho)

/-- An attribute of an object of its owner is new. -/
theorem insertAttribute (h : s.Consistent) {row : AttributeRow}
    (hnamed : Naming.checkAttributeName row.name = .ok ())
    (hparent : ∃ o ∈ s.objects.rows, o.OwnsAttribute row)
    (hfree : ∀ a ∈ s.attributes.rows, ¬a.Clash row) :
    ({ s with attributes := s.attributes.insert row } : Store).Consistent := by
  refine { h with
    attribute_ids := ?_, attribute_housed := ?_, attribute_named := ?_, attribute_unique := ?_ }
  · exact Table.nodup_numbers _
  · exact h.attribute_housed.insert_child hparent
  · intro a ha
    rcases Table.mem_insert_iff.mp ha with rfl | ⟨ha', _⟩
    · exact hnamed
    · exact h.attribute_named a ha'
  · exact h.attribute_unique.insert (fun _ _ => AttributeRow.Clash.symm) fun a ha _ => hfree a ha

/-- An action of an object of its owner is new. -/
theorem insertAction (h : s.Consistent) {row : ActionRow}
    (hnamed : Naming.checkActionIdentifier row.action.identifier = .ok ())
    (hparent : ∃ o ∈ s.objects.rows, o.OwnsAction row)
    (hfree : ∀ a ∈ s.actions.rows, ¬a.Clash row) :
    ({ s with actions := s.actions.insert row } : Store).Consistent := by
  refine { h with action_ids := ?_, action_housed := ?_, action_named := ?_, action_unique := ?_ }
  · exact Table.nodup_numbers _
  · exact h.action_housed.insert_child hparent
  · intro a ha
    rcases Table.mem_insert_iff.mp ha with rfl | ⟨ha', _⟩
    · exact hnamed
    · exact h.action_named a ha'
  · exact h.action_unique.insert (fun _ _ => ActionRow.Clash.symm) fun a ha _ => hfree a ha

/-! ### Rows removed -/

/-- Objects are removed with their attributes and actions. -/
theorem withoutObjects (h : s.Consistent) (ids : List ObjectId) :
    (s.withoutObjects ids).Consistent := by
  refine {
    project_ids := h.project_ids, project_named := h.project_named
    project_unique := h.project_unique
    object_ids := Table.nodup_numbers _, object_housed := ?_, object_named := ?_
    object_unique := ?_
    attribute_ids := Table.nodup_numbers _, attribute_housed := ?_, attribute_named := ?_
    attribute_unique := ?_
    action_ids := Table.nodup_numbers _, action_housed := ?_, action_named := ?_
    action_unique := ?_ }
  · intro o ho
    exact h.object_housed o (Table.mem_filter_iff.mp ho).1
  · intro o ho
    exact h.object_named o (Table.mem_filter_iff.mp ho).1
  · exact h.object_unique.of_subset fun o ho => (Table.mem_filter_iff.mp ho).1
  · -- what stays belongs to another object
    apply h.attribute_housed.filter
    intro o _ a _ hown hkeep
    rw [hown.1]
    exact hkeep
  · intro a ha
    exact h.attribute_named a (Table.mem_filter_iff.mp ha).1
  · exact h.attribute_unique.of_subset fun a ha => (Table.mem_filter_iff.mp ha).1
  · apply h.action_housed.filter
    intro o _ a _ hown hkeep
    rw [hown.1]
    exact hkeep
  · intro a ha
    exact h.action_named a (Table.mem_filter_iff.mp ha).1
  · exact h.action_unique.of_subset fun a ha => (Table.mem_filter_iff.mp ha).1

/-- A project without objects is removed. -/
theorem eraseProject (h : s.Consistent) {id : ProjectId}
    (hempty : ∀ o ∈ s.objects.rows, o.projectId ≠ id) :
    ({ s with projects := s.projects.erase id } : Store).Consistent := by
  refine { h with
    project_ids := ?_, project_named := ?_, project_unique := ?_, object_housed := ?_ }
  · exact Table.nodup_numbers _
  · intro p hp
    exact h.project_named p (Table.mem_erase_iff.mp hp).1
  · exact h.project_unique.of_subset fun p hp => (Table.mem_erase_iff.mp hp).1
  · intro o ho
    obtain ⟨p, hp, hown⟩ := h.object_housed o ho
    refine ⟨p, Table.mem_erase_iff.mpr ⟨hp, ?_⟩, hown⟩
    intro hid
    exact hempty o ho (hown.1.symm.trans hid)

end Consistent

end Store

end SchemaForge
