import SchemaForge.Proofs.Instant.Text
import SchemaForge.Proofs.Json.Codecs
import SchemaForge.Schema.Codecs

/-!
# Records are read as they are written

Every record and payload is read back from its JSON form. A literal value is read as what its numbers
are read as, in canonical form.
-/

namespace SchemaForge

open Json

/-! ### Parts -/

theorem Codec.lawful_instant : instant.Lawful := by
  refine .of_leaf (fun _ _ _ => trivial) (fun _ => rfl) fun r _ src t => ?_
  simp only [instant, Doc.ofJsonBy, Reading.of, ok_bind, pure_eq_ok, Instant.parse_render]

/-- A type is named by its label. -/
theorem AttributeType.ofLabel?_label (t : AttributeType) : ofLabel? t.label = some t := by
  cases t <;> decide

theorem AttributeType.lawful : AttributeType.codec.Lawful := by
  refine .of_leaf (fun _ _ _ => trivial) (fun _ => rfl) fun r _ src t => ?_
  simp only [AttributeType.codec, Doc.ofJsonBy, Doc.content, Reading.of, ok_bind, Except.map,
    AttributeType.ofContent, AttributeType.ofLabel?_label]

theorem HttpMethod.lawful : HttpMethod.codec.Lawful :=
  Codec.lawful_choice (fun m => by cases m <;> decide) fun m n h => by
    cases m <;> cases n <;> first | rfl | exact absurd h (by decide)

theorem SortDirection.lawful : SortDirection.codec.Lawful :=
  Codec.lawful_choice (fun d => by cases d <;> decide) fun d e h => by
    cases d <;> cases e <;> first | rfl | exact absurd h (by decide)

theorem TargetLanguage.lawful : TargetLanguage.codec.Lawful :=
  Codec.lawful_choice (fun l => by cases l; decide) fun l m _ => by cases l; cases m; rfl

/-! ### Records -/

section Records

open Codec

theorem lawful_optional_text (key : String) : (Field.optional key .text).Lawful :=
  .optional lawful_text (fun _ => nofun) key

theorem Project.lawful : Project.codec.Lawful :=
  .record
    (.field (.required lawful_word64 _)
      (.field (.required lawful_text _)
        (.field (.required lawful_word64 _)
          (.field (.withDefault TargetLanguage.lawful _ _)
            (.field (.required lawful_instant _) .done (by decide)) (by decide)) (by decide))
        (by decide)) (by decide))
    fun _ => rfl

theorem NewProject.lawful : NewProject.codec.Lawful :=
  .record
    (.field (.required lawful_text _)
      (.field (.withDefault TargetLanguage.lawful _ _) .done (by decide)) (by decide))
    fun _ => rfl

theorem Object.lawful : Object.codec.Lawful :=
  .record
    (.field (.required lawful_word64 _)
      (.field (.required lawful_text _)
        (.field (.required lawful_word64 _)
          (.field (.required lawful_word64 _)
            (.field (.required lawful_instant _) .done (by decide)) (by decide)) (by decide))
        (by decide)) (by decide))
    fun _ => rfl

theorem Attribute.lawful : Attribute.codec.Lawful :=
  .record
    (.field (.required lawful_word64 _)
      (.field (.required lawful_word64 _)
        (.field (.required lawful_text _)
          (.field (.required AttributeType.lawful _)
            (.field (.withDefault lawful_bool _ _)
              (.field (lawful_optional_text _) .done (by decide)) (by decide)) (by decide))
          (by decide)) (by decide)) (by decide))
    fun _ => rfl

theorem NewAttribute.lawful : NewAttribute.codec.Lawful :=
  .record
    (.field (.required lawful_text _)
      (.field (.required AttributeType.lawful _)
        (.field (.withDefault lawful_bool _ _)
          (.field (lawful_optional_text _) .done (by decide)) (by decide)) (by decide))
      (by decide))
    fun _ => rfl

theorem NewObject.lawful : NewObject.codec.Lawful :=
  .record
    (.field (.required lawful_text _)
      (.field (.withDefault (Lawful.list NewAttribute.lawful) _ _) .done (by decide)) (by decide))
    fun _ => rfl

theorem ResultOptions.lawful : ResultOptions.codec.Lawful :=
  .record
    (.field (.optional lawful_word32 (fun _ => nofun) _)
      (.field (lawful_optional_text _)
        (.field (.withDefault SortDirection.lawful _ _)
          (.field (lawful_optional_text _) .done (by decide)) (by decide)) (by decide))
      (by decide))
    fun _ => rfl

end Records

/-! ### Return values -/

namespace ReturnValue

/-- A condition on the numbers in a literal value. -/
def OnNumbers : SchemaForge.OnNumbers ReturnValue
  | P, .literal value => value.All P
  | _, .query _ _ | _, .attributeValue _ _ => True

/-- What a value is read as: only a literal may be read as another one. -/
def ReadAs : SchemaForge.ReadAs ReturnValue
  | r, .literal value, v => ∃ value', Codec.json.ReadAs r value value' ∧ .literal value' = v
  | _, .query source options, v => .query source options = v
  | _, .attributeValue name options, v => .attributeValue name options = v

theorem faithful_literalFields :
    literalFields.Faithful (fun P a => a.1.All P) fun r a b => Codec.json.ReadAs r a.1 b.1 :=
  (Fields.Faithful.field (.required Codec.faithful_json _) Fields.Lawful.done (by decide)).congr
    (fun _ _ => and_iff_left trivial) fun _ _ _ => and_iff_left rfl

theorem lawful_lookupFields {key : String} (hkey : key ≠ "options") : (lookupFields key).Lawful :=
  .field (.required Codec.lawful_text _)
    (.field (.withDefault ResultOptions.lawful _ _) .done (by decide))
    (by simpa using hkey)

theorem faithful : ReturnValue.codec.Faithful OnNumbers ReadAs where
  readable r v _ h := by
    cases v with
    | literal value =>
      obtain ⟨value', hvalue, -⟩ := h
      exact Codec.faithful_json.readable r value value' hvalue
    | query => trivial
    | attributeValue => trivial
  settled r v w := by
    cases v with
    | literal value =>
      exact exists_congr fun value' => and_congr_left' (Codec.faithful_json.settled r value value')
    | query => exact Iff.rfl
    | attributeValue => exact Iff.rfl
  numbers P hP v hv := by
    cases v with
    | literal value => exact ⟨trivial, faithful_literalFields.numbers P hP (value, ()) hv⟩
    | query source options =>
      exact ⟨trivial, (lawful_lookupFields (by decide)).numbers P hP (source, options, ()) trivial⟩
    | attributeValue name options =>
      exact ⟨trivial, (lawful_lookupFields (by decide)).numbers P hP (name, options, ()) trivial⟩
  decode r hr src v w := by
    -- the name of the type matters to complaints only
    let name := "internally tagged enum ReturnValue"
    cases v with
    | literal value =>
      refine (decodeTagged_ofFields_eq_ok_iff faithful_literalFields hr rfl (by decide) name src
        (value, ())).trans (and_congr_right fun _ => ?_)
      exact ⟨fun ⟨t, ht, hw⟩ => ⟨t.1, ht, hw⟩, fun ⟨value', hvalue, hw⟩ => ⟨(value', ()), hvalue, hw⟩⟩
    | query source options =>
      refine (decodeTagged_ofFields_eq_ok_iff (lawful_lookupFields (by decide)) hr rfl (by decide)
        name src (source, options, ())).trans (and_congr_right fun _ => ?_)
      exact exists_eq_left'
    | attributeValue name options =>
      refine (decodeTagged_ofFields_eq_ok_iff (lawful_lookupFields (by decide)) hr rfl (by decide)
        name src (name, options, ())).trans (and_congr_right fun _ => ?_)
      exact exists_eq_left'

end ReturnValue

/-! ### Actions -/

/-- What an action is read as: all but its return values is as it was. -/
def Action.ReadAs : SchemaForge.ReadAs Action := fun r a b =>
  ∃ values, List.Forall₂ (ReturnValue.ReadAs r) a.returnValues values ∧
    { a with returnValues := values } = b

open Codec in
/-- The last field of an action holds its return values. -/
theorem faithful_returnValues (key : String) :
    (Fields.field (.withDefault key (.list ReturnValue.codec) []) .done).Faithful
      (fun P t => ∀ v ∈ t.1, ReturnValue.OnNumbers P v)
      fun r t t' => List.Forall₂ (ReturnValue.ReadAs r) t.1 t'.1 :=
  (Fields.Faithful.field (.withDefault (Faithful.list ReturnValue.faithful) _ _) Fields.Lawful.done
    nofun).congr (fun _ _ => and_iff_left trivial) fun _ _ _ => and_iff_left rfl

open Codec in
theorem Action.faithful :
    Action.codec.Faithful (fun P a => ∀ v ∈ a.returnValues, ReturnValue.OnNumbers P v) ReadAs := by
  refine (Faithful.record
    (.field (.required lawful_word64 _)
      (.field (.required lawful_word64 _)
        (.field (.required lawful_text _)
          (.field (.required lawful_text _)
            (.field (.required HttpMethod.lawful _)
              (.field (.required lawful_text _)
                (.field (lawful_optional_text _) (faithful_returnValues _) (by decide))
                (by decide)) (by decide)) (by decide)) (by decide)) (by decide)) (by decide))
    _ _ _).congr (fun _ _ => by simp only [true_and]) fun r a b => ?_
  constructor
  · rintro ⟨⟨_, _, _, _, _, _, _, values, ⟨⟩⟩, ⟨rfl, rfl, rfl, rfl, rfl, rfl, rfl, hvalues⟩, rfl⟩
    exact ⟨values, hvalues, rfl⟩
  · rintro ⟨values, hvalues, rfl⟩
    exact ⟨(a.id, a.objectId, a.friendlyName, a.identifier, a.method, a.route, a.description, values, ()),
      ⟨rfl, rfl, rfl, rfl, rfl, rfl, rfl, hvalues⟩, rfl⟩

/-- What a new action is read as: all but its return values is as it was. -/
def NewAction.ReadAs : SchemaForge.ReadAs NewAction := fun r a b =>
  ∃ values, List.Forall₂ (ReturnValue.ReadAs r) a.returnValues values ∧
    { a with returnValues := values } = b

open Codec in
theorem NewAction.faithful :
    NewAction.codec.Faithful (fun P a => ∀ v ∈ a.returnValues, ReturnValue.OnNumbers P v) ReadAs := by
  refine (Faithful.record
    (.field (.required lawful_text _)
      (.field (lawful_optional_text _)
        (.field (.required HttpMethod.lawful _)
          (.field (.required lawful_text _)
            (.field (lawful_optional_text _) (faithful_returnValues _) (by decide))
            (by decide)) (by decide)) (by decide)) (by decide))
    _ _ _).congr (fun _ _ => by simp only [true_and]) fun r a b => ?_
  constructor
  · rintro ⟨⟨_, _, _, _, _, values, ⟨⟩⟩, ⟨rfl, rfl, rfl, rfl, rfl, hvalues⟩, rfl⟩
    exact ⟨values, hvalues, rfl⟩
  · rintro ⟨values, hvalues, rfl⟩
    exact ⟨(a.friendlyName, a.identifier, a.method, a.route, a.description, values, ()),
      ⟨rfl, rfl, rfl, rfl, rfl, hvalues⟩, rfl⟩

end SchemaForge
