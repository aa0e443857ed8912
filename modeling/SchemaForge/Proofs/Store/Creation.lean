import SchemaForge.Proofs.Store.Consistency
import SchemaForge.Proofs.Store.Listing

/-!
# What is made is there

A request that makes an object or an action is admitted or refused as a whole, and what it has made is
listed behind all that was there. The number of a new object may have belonged to one that is gone;
that the rows are consistent means that nothing of the old one is left for the new one to inherit.
-/

namespace SchemaForge

/-- The payload that asks for an attribute like this one. -/
def Attribute.asked (a : Attribute) : NewAttribute := ⟨a.name, a.type, a.required, a.description⟩

namespace Store

variable {s : Store} {now : Instant} {owner : UserId} {projectId : ProjectId} {objectId : ObjectId}

/-! ### Attributes -/

theorem forall_made_objectId {owner : UserId} {objectId : ObjectId} {rows : List AttributeRow}
    {attributes : List NewAttribute} (h : List.Forall₂ (MadeFor owner objectId) rows attributes) :
    ∀ row ∈ rows, row.objectId = objectId := by
  induction h with
  | nil => exact nofun
  | cons hmade _ ih =>
    refine List.forall_mem_cons.mpr ⟨?_, ih⟩
    rw [hmade]

/-- Rows made for a payload are read as the attributes that it asks for. -/
theorem exists_decoded_of_made {rows : List AttributeRow} {attributes : List NewAttribute}
    (h : List.Forall₂ (MadeFor owner objectId) rows attributes) :
    ∃ as, decodedAll AttributeRow.toAttribute rows = .ok as ∧
      (∀ a ∈ as, a.objectId = objectId) ∧ as.map Attribute.asked = attributes := by
  induction h with
  | nil => exact ⟨[], rfl, nofun, rfl⟩
  | @cons row asked rows attributes hrow _ ih =>
    obtain ⟨as, has, hids, hasked⟩ := ih
    let a : Attribute :=
      ⟨row.id, objectId, asked.name, asked.type, asked.required, asked.description⟩
    have ha : row.toAttribute = .ok a := by
      rw [hrow, AttributeRow.toAttribute, AttributeType.ofCode?_code]
    refine ⟨a :: as, ?_, List.forall_mem_cons.mpr ⟨rfl, hids⟩, by rw [List.map_cons, hasked]; rfl⟩
    rw [decodedAll, ha, has]
    rfl

/-! ### Objects -/

section Object

variable {o : NewObject}

theorem createObject_snd (admitted : s.admitObject owner projectId o = .ok ()) :
    (s.createObject now owner projectId o).2 =
      { s with
        objects := s.objects.insert ⟨s.objects.nextNumber, o.name, projectId, owner, now⟩
        attributes := addAttributes owner s.objects.nextNumber s.attributes o.attributes } := by
  simp only [createObject, admitted]

/-- The new object is listed behind the others of its project, under a number that none of them has. -/
theorem listObjects_createObject (now : Instant) (admitted : s.admitObject owner projectId o = .ok ())
    (hroom : s.objects.HasRoom 1) :
    ∃ old, s.listObjects owner projectId = .ok old ∧
      (s.createObject now owner projectId o).2.listObjects owner projectId =
        .ok (old ++ [⟨s.objects.nextNumber, o.name, projectId, owner, now⟩]) ∧
      ∀ other ∈ old, other.id ≠ s.objects.nextNumber := by
  obtain ⟨p, hp⟩ := (admitObject_eq_ok_iff.mp admitted).2.1
  let row : Object := ⟨s.objects.nextNumber, o.name, projectId, owner, now⟩
  have hrows : (s.objects.insert row).rows = s.objects.rows ++ [row] :=
    Table.rows_insert_new hroom rfl
  refine ⟨_, bind_eq_ok_iff.mpr ⟨p, hp, rfl⟩, ?_, ?_⟩
  · rw [createObject_snd admitted]
    refine bind_eq_ok_iff.mpr ⟨p, hp, ?_⟩
    show Except.ok ((s.objects.insert row).rows.filter _) = _
    rw [hrows, List.filter_append]
    simp [row]
  · intro other hother
    exact Table.nextNumber_fresh hroom (List.mem_filter.mp hother).1

/-- Nothing belongs to an object that is not there yet. -/
theorem filter_eq_nil_of_housed {ρ : Type} {rows : List ρ} {parent : ρ → ObjectId}
    (hroom : s.objects.HasRoom 1)
    (housed : ∀ row ∈ rows, ∃ o ∈ s.objects.rows, o.id = parent row) :
    (rows.filter fun row => parent row == s.objects.nextNumber) = [] := by
  rw [List.filter_eq_nil_iff]
  intro row hrow heq
  obtain ⟨o, ho, hid⟩ := housed row hrow
  exact Table.nextNumber_fresh hroom ho (hid.trans (eq_of_beq heq))

/-- The new object has the attributes of the payload and no others. -/
theorem attributes_createObject (now : Instant) (h : s.Consistent)
    (admitted : s.admitObject owner projectId o = .ok ())
    (hroom : s.objects.HasRoom 1 ∧ s.attributes.HasRoom o.attributes.length) :
    List.Forall₂ (MadeFor owner s.objects.nextNumber)
      ((s.createObject now owner projectId o).2.attributes.rows.filter fun row =>
        row.objectId == s.objects.nextNumber) o.attributes := by
  obtain ⟨rows, hrows, hmade⟩ :=
    rows_addAttributes owner s.objects.nextNumber hroom.2
  have hnone : (s.attributes.rows.filter fun row => row.objectId == s.objects.nextNumber) = [] :=
    filter_eq_nil_of_housed hroom.1 fun row hrow =>
      (h.attribute_housed row hrow).imp fun _ => And.imp_right And.left
  have hall : (rows.filter fun row => row.objectId == s.objects.nextNumber) = rows := by
    rw [List.filter_eq_self]
    intro row hrow
    exact beq_iff_eq.mpr (forall_made_objectId hmade row hrow)
  rw [createObject_snd admitted]
  show List.Forall₂ _ ((addAttributes _ _ _ _).rows.filter _) _
  rw [hrows, List.filter_append, hnone, hall]
  exact hmade

/-- The new object is found under its number, with the attributes of the payload in their order and
without actions. -/
theorem parts_createObject (now : Instant) (h : s.Consistent)
    (admitted : s.admitObject owner projectId o = .ok ())
    (hroom : s.objects.HasRoom 1 ∧ s.attributes.HasRoom o.attributes.length) :
    let s' := (s.createObject now owner projectId o).2
    let id := s.objects.nextNumber
    s'.getObject owner projectId id = .ok ⟨id, o.name, projectId, owner, now⟩ ∧
      (∃ as, s'.listAttributes owner id = .ok as ∧ (∀ a ∈ as, a.objectId = id) ∧
        as.map Attribute.asked = o.attributes) ∧
      s'.listActions owner projectId id = .ok [] := by
  intro s' id
  let row : Object := ⟨id, o.name, projectId, owner, now⟩
  have hs' : s' = { s with objects := s.objects.insert row
                           attributes := addAttributes owner id s.attributes o.attributes } :=
    createObject_snd admitted
  have hfind : s'.objects.find? id = some row := by
    rw [hs']
    exact Table.find?_number (Table.mem_insert_iff.mpr (.inl rfl))
  have hobject : s'.object owner projectId id = .ok row := by
    obtain ⟨p, hp⟩ := (admitObject_eq_ok_iff.mp admitted).2.1
    refine object_eq_ok_iff.mpr ⟨⟨p, ?_⟩, hfind, rfl, rfl⟩
    rw [hs']
    exact hp
  refine ⟨hobject, ?_, bind_eq_ok_iff.mpr ⟨row, hobject, ?_⟩⟩
  · obtain ⟨as, has, hasked⟩ :=
      exists_decoded_of_made (attributes_createObject now h admitted hroom)
    refine ⟨as, ?_, hasked⟩
    rw [listAttributes, hfind]
    exact (if_pos rfl).trans has
  · have hnone : (s.actions.rows.filter fun row => row.action.objectId == id) = [] :=
      filter_eq_nil_of_housed hroom.1 fun row hrow =>
        (h.action_housed row hrow).imp fun _ => And.imp_right And.left
    rw [hs', hnone]
    rfl

end Object

/-! ### Actions -/

/-- The new action is listed behind the others of its object. -/
theorem listActions_createAction {a : NewAction}
    (admitted : s.admitAction owner projectId objectId a = .ok ()) (hroom : s.actions.HasRoom 1) :
    ∃ old, s.listActions owner projectId objectId = .ok old ∧
      (s.createAction owner projectId objectId a).2.listActions owner projectId objectId =
        .ok (old ++ [⟨s.actions.nextNumber, objectId, a.friendlyName, a.resolvedIdentifier, a.method,
          a.route, a.description, a.returnValues⟩]) := by
  obtain ⟨o, ho⟩ := (admitAction_eq_ok_iff.mp admitted).2.1
  let row : ActionRow :=
    ⟨owner, s.actions.nextNumber, objectId, a.friendlyName, a.resolvedIdentifier, a.method, a.route,
      a.description, a.returnValues⟩
  have hrows : (s.actions.insert row).rows = s.actions.rows ++ [row] :=
    Table.rows_insert_new hroom rfl
  have hsnd : (s.createAction owner projectId objectId a).2 =
      { s with actions := s.actions.insert row } := by
    simp only [createAction, admitted]
    rfl
  refine ⟨_, bind_eq_ok_iff.mpr ⟨o, ho, rfl⟩, ?_⟩
  rw [hsnd]
  refine bind_eq_ok_iff.mpr ⟨o, ho, ?_⟩
  show Except.ok (((s.actions.insert row).rows.filter _).map _) = _
  rw [hrows, List.filter_append, List.map_append]
  simp [row]

end Store

end SchemaForge
