import SchemaForge.Proofs.Schema.Naming
import SchemaForge.Proofs.Store.Runs

/-!
# Rows and the rules for payloads

A request for a new row is held to all the rules for its payload. A row that is loaded is held to the
rules for its name only: of an action neither the name for people, nor the route, nor the description
is looked at, and of an attribute not the description. So a row of a store meets the rules unless it
was loaded with texts that do not.
-/

namespace SchemaForge

/-! ### The rules in plain words -/

theorem NewAttribute.check_eq_ok_iff {a : NewAttribute} :
    a.check = .ok () ↔
      Naming.checkAttributeName a.name = .ok () ∧
        ∀ d, a.description = some d → d.length ≤ Naming.descriptionLimit := by
  rw [check, check_bind_eq_ok_iff, Naming.checkDescription?_eq_ok_iff]

theorem NewAction.check_eq_ok_iff {a : NewAction} {identifier : String} :
    a.check identifier = .ok () ↔
      Text.trimmed a.friendlyName.toList ≠ [] ∧
        Naming.checkActionIdentifier identifier = .ok () ∧ Naming.checkRoute a.route = .ok () ∧
          ∀ d, a.description = some d → d.length ≤ Naming.descriptionLimit := by
  unfold check
  dsimp only
  rw [Naming.refuse_or_eq_ok_iff, List.isEmpty_iff, check_bind_eq_ok_iff, check_bind_eq_ok_iff,
    Naming.checkDescription?_eq_ok_iff]

/-! ### Rows that meet the rules -/

/-- The payload that asks for this attribute, were it of this type. -/
def AttributeRow.payload (row : AttributeRow) (type : AttributeType) : NewAttribute :=
  ⟨row.name, type, row.required, row.description⟩

/-- Does the row meet the rules for the payload of a new attribute? Its type does not matter. -/
def AttributeRow.Proper (row : AttributeRow) : Prop := ∀ type, (row.payload type).check = .ok ()

/-- The payload that asks for this action. -/
def Action.payload (a : Action) : NewAction :=
  ⟨a.friendlyName, some a.identifier, a.method, a.route, a.description, a.returnValues⟩

/-- Does the row meet the rules for the payload of a new action with its identifier? -/
def ActionRow.Proper (row : ActionRow) : Prop :=
  row.action.payload.check row.action.identifier = .ok ()

/-- Is the description short enough, if there is one? -/
def AttributeRow.TextsFit (row : AttributeRow) : Prop :=
  ∀ d, row.description = some d → d.length ≤ Naming.descriptionLimit

/-- Do the texts of an action fit: its name is not blank, its route is a path from the root of bounded
length without blanks and control characters, its description is short enough? -/
def ActionRow.TextsFit (row : ActionRow) : Prop :=
  Text.trimmed row.action.friendlyName.toList ≠ [] ∧
    (row.action.route.toList.head? = some '/' ∧ row.action.route.length ≤ Naming.routeLimit ∧
      ∀ c ∈ row.action.route.toList, Text.isBlank c = false ∧ Text.isControl c = false) ∧
    ∀ d, row.action.description = some d → d.length ≤ Naming.descriptionLimit

theorem AttributeRow.proper_iff {row : AttributeRow} :
    row.Proper ↔ Naming.checkAttributeName row.name = .ok () ∧ row.TextsFit := by
  constructor
  · intro h
    exact NewAttribute.check_eq_ok_iff.mp (h .text)
  · intro h type
    exact NewAttribute.check_eq_ok_iff.mpr h

theorem ActionRow.proper_iff {row : ActionRow} :
    row.Proper ↔
      Naming.checkActionIdentifier row.action.identifier = .ok () ∧ row.TextsFit := by
  rw [Proper, NewAction.check_eq_ok_iff, Naming.checkRoute_eq_ok_iff]
  exact and_left_comm

namespace Store

variable {s start : Store} {past : List Write}

/-! ### One request -/

/-- After a request, an attribute is one from before or meets the rules. -/
theorem attribute_of_run (w : Write) {row : AttributeRow}
    (h : row ∈ (w.run s).2.attributes.rows) : row ∈ s.attributes.rows ∨ row.Proper := by
  generalize hs : (w.run s).2 = s' at h
  cases Write.effect_of_run hs with
  | none | createProject | renameProject | createAction => exact .inl h
  | deleteProject | deleteObject => exact .inl (Table.mem_filter_iff.mp h).1
  | @createObject _ _ _ o admitted =>
    have hcheck := (NewObject.check_eq_ok_iff.mp (admitObject_eq_ok_iff.mp admitted).1).2
    rcases mem_addAttributes h with hrow | ⟨a, ha, hmade⟩
    · exact .inl hrow
    · rw [hmade, AttributeRow.proper_iff]
      exact .inr (NewAttribute.check_eq_ok_iff.mp (hcheck a ha))

/-- After a request, an action is one from before or meets the rules. -/
theorem action_of_run (w : Write) {row : ActionRow}
    (h : row ∈ (w.run s).2.actions.rows) : row ∈ s.actions.rows ∨ row.Proper := by
  generalize hs : (w.run s).2 = s' at h
  cases Write.effect_of_run hs with
  | none | createProject | renameProject | createObject => exact .inl h
  | deleteProject | deleteObject => exact .inl (Table.mem_filter_iff.mp h).1
  | createAction admitted =>
    rcases Table.mem_insert_iff.mp h with rfl | ⟨hrow, -⟩
    · -- the rules do not look at how the identifier was come by
      exact .inr (admitAction_eq_ok_iff.mp admitted).1
    · exact .inl hrow

/-! ### Runs -/

theorem attribute_of_after {row : AttributeRow} (h : row ∈ (start.after past).attributes.rows) :
    row ∈ start.attributes.rows ∨ row.Proper := by
  induction past with
  | nil => exact .inl h
  | cons w past ih => exact (attribute_of_run w h).elim ih .inr

theorem action_of_after {row : ActionRow} (h : row ∈ (start.after past).actions.rows) :
    row ∈ start.actions.rows ∨ row.Proper := by
  induction past with
  | nil => exact .inl h
  | cons w past ih => exact (action_of_run w h).elim ih .inr

/-- Every row of a store that started out empty meets the rules for payloads. In a store that was
loaded, the names of attributes and the identifiers of actions are valid as well, and a row meets the
rules unless it was loaded with texts that do not fit. -/
theorem rows_meet_rules_unless_loaded {rows : Snapshot} {start : Store}
    (h : ofSnapshot rows = .ok start) (past : List Write) :
    (∀ row ∈ (empty.after past).attributes.rows, row.Proper) ∧
      (∀ row ∈ (empty.after past).actions.rows, row.Proper) ∧
      (∀ row ∈ (start.after past).attributes.rows,
        Naming.checkAttributeName row.name = .ok () ∧
          (row.Proper ↔ (row ∈ rows.attributes → row.TextsFit))) ∧
      ∀ row ∈ (start.after past).actions.rows,
        Naming.checkActionIdentifier row.action.identifier = .ok () ∧
          (row.Proper ↔ (row ∈ rows.actions → row.TextsFit)) := by
  obtain ⟨hrows, rfl⟩ := ofSnapshot_eq_ok_iff.mp h
  refine ⟨?_, ?_, ?_, ?_⟩
  · intro row hrow
    exact (attribute_of_after hrow).resolve_left List.not_mem_nil
  · intro row hrow
    exact (action_of_after hrow).resolve_left List.not_mem_nil
  · intro row hrow
    rcases attribute_of_after hrow with hold | hproper
    · have hloaded : row ∈ rows.attributes := (Table.mem_ofRows_iff hrows.attribute_ids).mp hold
      have hnamed := hrows.attribute_named row hloaded
      rw [AttributeRow.proper_iff]
      exact ⟨hnamed, fun hproper _ => hproper.2, fun hfits => ⟨hnamed, hfits hloaded⟩⟩
    · obtain ⟨hnamed, hfits⟩ := AttributeRow.proper_iff.mp hproper
      exact ⟨hnamed, fun _ _ => hfits, fun _ => hproper⟩
  · intro row hrow
    rcases action_of_after hrow with hold | hproper
    · have hloaded : row ∈ rows.actions := (Table.mem_ofRows_iff hrows.action_ids).mp hold
      have hnamed := hrows.action_named row hloaded
      rw [ActionRow.proper_iff]
      exact ⟨hnamed, fun hproper _ => hproper.2, fun hfits => ⟨hnamed, hfits hloaded⟩⟩
    · obtain ⟨hnamed, hfits⟩ := ActionRow.proper_iff.mp hproper
      exact ⟨hnamed, fun _ _ => hfits, fun _ => hproper⟩

/-- An action whose route does not start at the root. -/
def unrootedAction : ActionRow := ⟨7, 1, 1, "Go", "go", .get, "items", none, []⟩

/-- A project with an object that has this action. -/
def unrootedRows : Snapshot :=
  ⟨[⟨3, "Shop", 7, 1, .epoch⟩], [⟨1, "Item", 3, 7, .epoch⟩], [], [unrootedAction]⟩

theorem ofSnapshot_unrootedRows : ofSnapshot unrootedRows = .ok (ofRows unrootedRows) := by
  with_unfolding_all rfl

theorem not_textsFit_unrootedAction : ¬unrootedAction.TextsFit := by
  intro hfits
  have hrooted : "items".toList.head? = some '/' := hfits.2.1.1
  cases hrooted

/-- The loaded action stays as it is when one with a proper route is added. -/
theorem loaded_route_stays_beside_proper_one :
    ∃ (rows : Snapshot) (start : Store) (w : Write) (loaded added : ActionRow),
      ofSnapshot rows = .ok start ∧ loaded.action.route = "items" ∧
        w = .createAction 7 3 1 ⟨"Do", some "do", .get, "/items", none, []⟩ ∧
        (start.after [w]).actions.rows = [loaded, added] ∧ ¬loaded.Proper ∧ added.Proper := by
  let added : ActionRow := ⟨7, 2, 1, "Do", "do", .get, "/items", none, []⟩
  let w : Write := .createAction 7 3 1 ⟨"Do", some "do", .get, "/items", none, []⟩
  have hafter : ((ofRows unrootedRows).after [w]).actions.rows = [unrootedAction, added] := by
    with_unfolding_all rfl
  obtain ⟨-, -, -, hactions⟩ := rows_meet_rules_unless_loaded ofSnapshot_unrootedRows [w]
  rw [hafter] at hactions
  refine ⟨unrootedRows, _, w, unrootedAction, added, ofSnapshot_unrootedRows, rfl, rfl, hafter,
    ?_, ?_⟩
  · rw [(hactions _ List.mem_cons_self).2]
    exact fun hfits => not_textsFit_unrootedAction (hfits (List.mem_singleton.mpr rfl))
  · rw [(hactions added (List.mem_cons_of_mem _ List.mem_cons_self)).2]
    intro hloaded
    have hid : added.action.id = unrootedAction.action.id :=
      congrArg (fun row => row.action.id) (List.mem_singleton.mp hloaded)
    cases hid

/-- Not every row of a store that is loaded meets the rules for payloads. -/
theorem route_without_root_is_loaded :
    ∃ (rows : Snapshot) (start : Store) (row : ActionRow),
      ofSnapshot rows = .ok start ∧ row ∈ (start.after []).actions.rows ∧ ¬row.Proper :=
  ⟨unrootedRows, _, unrootedAction, ofSnapshot_unrootedRows, List.mem_singleton.mpr rfl,
    fun hproper => not_textsFit_unrootedAction (ActionRow.proper_iff.mp hproper).2⟩

end Store

end SchemaForge
