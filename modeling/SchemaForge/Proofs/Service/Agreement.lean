import SchemaForge.Proofs.Json.Recovery
import SchemaForge.Proofs.Schema.Codecs
import SchemaForge.Proofs.Service.Bodies

/-!
# Bodies and codecs agree

What a body asks for is read member by member, without the codec of the payload. Both agree: the
members that the codec writes for a new object or a new action are understood as just that, whatever
its attributes, return values and optional parts are.
-/

namespace SchemaForge

open Json

/-! ### Return values -/

theorem ResultOptions.recovers : ResultOptions.codec.Recovers fun _ => True := by
  have hsize : (Field.optional "page_size" .word32).Recovers fun _ => True :=
    .optional (Codec.lawful_word32.recovers fun _ => rfl) (fun _ => nofun) _
  have htext (key : String) : (Field.optional key .text).Recovers fun _ => True :=
    .optional Codec.recovers_text (fun _ => nofun) key
  have hdirection : SortDirection.codec.Recovers fun _ => True :=
    SortDirection.lawful.recovers fun _ => rfl
  refine Codec.Recovers.of_imp (.record (.field hsize (.field (htext _)
    (.field (.withDefault hdirection _ _) (.field (htext _) .done (by decide)) (by decide))
    (by decide)) (by decide)) (by decide) fun _ => rfl) ?_
  exact fun _ _ => ⟨trivial, trivial, trivial, trivial, trivial⟩

namespace ReturnValue

/-- A literal is a generic value, so it is held in canonical form. -/
def Held : ReturnValue → Prop
  | literal value => value.canonical = value
  | query _ _ | attributeValue _ _ => True

theorem recovers_literalFields :
    literalFields.Recovers fun t => t.1.canonical = t.1 ∧ True :=
  .field (.required Codec.recovers_json _) .done (by decide)

theorem recovers_lookupFields {key : String} (hkey : key ≠ "options") :
    (lookupFields key).Recovers fun _ => True ∧ True ∧ True :=
  .field (.required Codec.recovers_text _)
    (.field (.withDefault ResultOptions.recovers _ _) .done (by decide)) (by simpa using hkey)

theorem recovers : ReturnValue.codec.Recovers Held := by
  intro src hsrc v hv
  -- the name of the type matters to complaints only
  let name := "internally tagged enum ReturnValue"
  have hlookup : True ∧ True ∧ True := ⟨trivial, trivial, trivial⟩
  cases v with
  | literal value =>
    have hkeys : ("source" :: literalFields.keys).Nodup := by decide
    exact decodeTagged_canonical (t := (value, ())) recovers_literalFields hkeys rfl name hsrc
      ⟨hv, trivial⟩ rfl
  | query source options =>
    have hkeys : ("source" :: (lookupFields "query").keys).Nodup := by decide
    exact decodeTagged_canonical (t := (source, options, ())) (recovers_lookupFields (by decide))
      hkeys rfl name hsrc hlookup rfl
  | attributeValue attributeName options =>
    have hkeys : ("source" :: (lookupFields "attribute").keys).Nodup := by decide
    exact decodeTagged_canonical (t := (attributeName, options, ()))
      (recovers_lookupFields (by decide)) hkeys rfl name hsrc hlookup rfl

end ReturnValue

/-- A method is named by its name. -/
theorem HttpMethod.ofName?_name (m : HttpMethod) : ofName? m.name = some m := by
  cases m <;> decide +kernel

namespace Body

variable {members : List (String × Json)} {field : String}

/-! ### Members -/

theorem optionalText_of_member {s? : Option String}
    (h : member? field members = s?.map .text) : optionalText members field = .ok s? := by
  unfold optionalText
  rw [h]
  cases s? <;> rfl

theorem requiredText_of_member {s : String} (h : member? field members = some (.text s)) :
    requiredText members field = .ok s := by
  have hread : optionalText members field = .ok (some s) := optionalText_of_member h
  unfold requiredText
  rw [hread]
  rfl

theorem given_of_member {j : Json} (h : member? field members = some j) (hnull : j ≠ .null) :
    given members field = some j :=
  given_eq_some_iff.mpr ⟨h, hnull⟩

/-- The members of a record, in the order of their keys. -/
theorem exists_members_toJson {fs : Fields τ} (hkeys : fs.keys.Nodup) (expected : String)
    (values : α → τ) (make : τ → α) (a : α) :
    ∃ members, (Codec.record expected fs values make).toJson a = .object members ∧
      ∀ field, member? field members =
        (member? field (fs.write (values a))).map canonical :=
  ⟨canonicalMembers [] (fs.write (values a)), rfl, fun _ =>
    member?_canonicalMembers (Fields.nodup_keys_write fs hkeys (values a))⟩

/-! ### Objects -/

theorem newAttribute_toJson (a : NewAttribute) :
    newAttribute (NewAttribute.codec.toJson a) = .ok a := by
  obtain ⟨members, hmembers, hmember⟩ :
      ∃ members, NewAttribute.codec.toJson a = .object members ∧ _ :=
    exists_members_toJson (by decide) _ _ _ a
  have htype : AttributeType.codec.Recovers fun _ => True :=
    AttributeType.lawful.recovers fun _ => rfl
  have hname : given members "name" = some (.text a.name) := given_of_member (hmember "name") nofun
  have hlabel : given members "type" = some (AttributeType.codec.toJson a.type) :=
    given_of_member (hmember "type") nofun
  have hrequired : requiredFlag members = .ok a.required := by
    have hflag : member? "required" members = some (.bool a.required) := hmember "required"
    rw [requiredFlag, hflag]
  have hdescription : optionalText members "description" = .ok a.description := by
    apply optionalText_of_member
    rw [hmember]
    cases a.description <;> rfl
  rw [hmembers]
  exact newAttribute_object_eq_ok_iff.mpr
    ⟨hname, ⟨_, hlabel, htype.ofJson_toJson trivial⟩, hrequired, hdescription⟩

theorem newAttributes_toJson (as : List NewAttribute) :
    newAttributes (as.map NewAttribute.codec.toJson) = .ok as := by
  rw [newAttributes_eq_ok_iff, List.forall₂_map_left_iff, List.forall₂_same]
  exact fun a _ => newAttribute_toJson a

theorem newObject_toJson (o : NewObject) :
    ∃ members, NewObject.codec.toJson o = .object members ∧ newObject members = .ok o := by
  obtain ⟨members, hmembers, hmember⟩ : ∃ members, NewObject.codec.toJson o = .object members ∧ _ :=
    exists_members_toJson (by decide) _ _ _ o
  have hname : requiredText members "name" = .ok o.name := requiredText_of_member (hmember "name")
  have hitems : given members "attributes" =
      some (.array (o.attributes.map NewAttribute.codec.toJson)) := by
    have hcanonical : member? "attributes" members =
        some (.array (canonicalItems (o.attributes.map NewAttribute.codec.encode))) :=
      hmember "attributes"
    rw [canonicalItems_eq_map, List.map_map] at hcanonical
    exact given_of_member hcanonical nofun
  have hattributes : attributes members = .ok o.attributes := by
    rw [attributes, hitems]
    exact newAttributes_toJson o.attributes
  exact ⟨members, hmembers, newObject_eq_ok_iff.mpr ⟨hname, hattributes⟩⟩

/-! ### Actions -/

theorem newAction_toJson {a : NewAction} (ha : ∀ v ∈ a.returnValues, v.Held) :
    ∃ members, NewAction.codec.toJson a = .object members ∧ newAction members = .ok a := by
  obtain ⟨members, hmembers, hmember⟩ : ∃ members, NewAction.codec.toJson a = .object members ∧ _ :=
    exists_members_toJson (by decide) _ _ _ a
  -- where a text is left out, the members behind it stand one place further ahead
  obtain ⟨friendlyName, identifier, m, route, description, values⟩ := a
  have hname : requiredText members "name" = .ok friendlyName :=
    requiredText_of_member (hmember "name")
  have hroute : requiredText members "route" = .ok route := by
    apply requiredText_of_member
    rw [hmember]
    cases identifier <;> rfl
  have hmethod : method members = .ok m := by
    have htext : requiredText members "method" = .ok m.name := by
      apply requiredText_of_member
      rw [hmember]
      cases identifier <;> rfl
    refine bind_eq_ok_iff.mpr ⟨m.name, htext, ?_⟩
    rw [HttpMethod.ofName?_name]
    rfl
  have hidentifier : optionalText members "identifier" = .ok identifier := by
    apply optionalText_of_member
    rw [hmember]
    cases identifier <;> cases description <;> rfl
  have hdescription : optionalText members "description" = .ok description := by
    apply optionalText_of_member
    rw [hmember]
    cases identifier <;> cases description <;> rfl
  have hitems : given members "return_values" =
      some ((Codec.list ReturnValue.codec).toJson values) := by
    apply given_of_member
    · rw [hmember]
      cases identifier <;> cases description <;> rfl
    · nofun
  have hvalues : returnValues members = .ok values := by
    rw [returnValues, hitems]
    exact decodeParameter_eq_ok_iff.mpr (ReturnValue.recovers.list.ofJson_toJson ha)
  exact ⟨members, hmembers,
    newAction_eq_ok_iff.mpr ⟨hname, hroute, hmethod, hvalues, hidentifier, hdescription⟩⟩

/-- The readers of bodies and the codecs agree. For every new object and every new action, whatever
its attributes, options and nested literals are, the members of its generic value are understood as
the object or the action itself. -/
theorem bodies_of_payloads_are_understood :
    (∀ o : NewObject, ∃ members, NewObject.codec.toJson o = .object members ∧
      newObject members = .ok o) ∧
    ∀ a : NewAction, (∀ v ∈ a.returnValues, v.Held) →
      ∃ members, NewAction.codec.toJson a = .object members ∧ newAction members = .ok a :=
  ⟨newObject_toJson, fun _ => newAction_toJson⟩

/-- An object with attributes of two types, and an action without an identifier that returns values
of all kinds, the first of them a literal with an array and an object in it. -/
theorem body_of_nested_literal_is_understood :
    ∃ (o : NewObject) (a : NewAction) (ms ms' : List (String × Json)),
      o = ⟨"Item", [⟨"price", .decimal, true, none⟩, ⟨"due", .dateTime, false, some "when"⟩]⟩ ∧
      a = ⟨"List users", none, .get, "/users", some "all of them",
        [.literal (.object [("list", .array [.null, .ofWord 2]), ("none", .object [])]),
          .query "age > 3" ⟨some 20, some "created_at", .descending, none⟩,
          .attributeValue "email" .plain]⟩ ∧
      NewObject.codec.toJson o = .object ms ∧ newObject ms = .ok o ∧
      NewAction.codec.toJson a = .object ms' ∧ newAction ms' = .ok a := by
  let o : NewObject :=
    ⟨"Item", [⟨"price", .decimal, true, none⟩, ⟨"due", .dateTime, false, some "when"⟩]⟩
  let a : NewAction := ⟨"List users", none, .get, "/users", some "all of them",
    [.literal (.object [("list", .array [.null, .ofWord 2]), ("none", .object [])]),
      .query "age > 3" ⟨some 20, some "created_at", .descending, none⟩,
      .attributeValue "email" .plain]⟩
  have hheld : ∀ v ∈ a.returnValues, v.Held :=
    List.forall_mem_cons.mpr ⟨rfl, List.forall_mem_cons.mpr ⟨trivial,
      List.forall_mem_singleton.mpr trivial⟩⟩
  obtain ⟨hobject, haction⟩ := bodies_of_payloads_are_understood
  obtain ⟨ms, hms, ho⟩ := hobject o
  obtain ⟨ms', hms', ha⟩ := haction a hheld
  exact ⟨o, a, ms, ms', rfl, rfl, hms, ho, hms', ha⟩

end Body

end SchemaForge
