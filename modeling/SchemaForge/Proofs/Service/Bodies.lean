import Mathlib.Data.List.Forall2
import SchemaForge.Proofs.Except
import SchemaForge.Service.Payload

/-!
# What bodies ask for

A body that is understood says what the payload has: each reader succeeds exactly on the members that
give its value. A member that is null counts as missing, a type is named by a label or by a code, and
an attribute is not required where nothing is said.
-/

namespace SchemaForge

open Json

/-- The value of a member, if it is there and not null. -/
def Json.given (members : List (String × Json)) (field : String) : Option Json :=
  match member? field members with
  | some .null => none
  | j? => j?

/-- Does a JSON value name the type, by a label or by its code? -/
def AttributeType.NamedBy (t : AttributeType) (j : Json) : Prop :=
  (∃ s, j = .text s ∧ ofLabel? s = some t) ∨ ∃ i, j = .number (.whole i) ∧ i.val = t.code.toNat

/-! ### Types -/

theorem AttributeType.ofContent_eq_ok {j : Json} {t : AttributeType} (h : ofContent j = .ok t) :
    t.NamedBy j := by
  unfold ofContent at h
  split at h
  · next i =>
    split at h
    · next hrange =>
      dsimp only at h
      split at h
      · next t' hcode =>
        obtain rfl := Except.ok.inj h
        have hcode := congrArg UInt8.toNat (ofCode?_eq_some_iff.mp hcode)
        rw [UInt8.toNat_ofNat', Nat.mod_eq_of_lt (by omega)] at hcode
        exact .inr ⟨i, rfl, by omega⟩
      · cases h
    · cases h
  · next s =>
    split at h
    · next t' hlabel =>
      obtain rfl := Except.ok.inj h
      exact .inl ⟨s, rfl, hlabel⟩
    · cases h
  · cases h

/-- A type is named by a text or by a number, which are read as they are. -/
theorem AttributeType.named_of_ofJson {j : Json} {t : AttributeType}
    (h : AttributeType.codec.ofJson j = .ok t) : t.NamedBy j := by
  obtain ⟨content, hcontent, ht⟩ := bind_eq_ok_iff.mp h
  have hnamed := ofContent_eq_ok ht
  cases j with
  | null | bool | number | text =>
    obtain rfl := Except.ok.inj hcontent
    exact hnamed
  | array items =>
    obtain ⟨src, -, hcontent⟩ := bind_eq_ok_iff.mp hcontent
    obtain ⟨js, -, hcontent⟩ := bind_eq_ok_iff.mp hcontent
    obtain rfl := Except.ok.inj (check_bind_eq_ok_iff.mp hcontent).2
    cases ht
  | object members =>
    obtain ⟨src, -, hcontent⟩ := bind_eq_ok_iff.mp hcontent
    obtain ⟨ms, -, hcontent⟩ := bind_eq_ok_iff.mp hcontent
    obtain rfl := Except.ok.inj (check_bind_eq_ok_iff.mp hcontent).2
    cases ht

namespace Body

variable {members : List (String × Json)} {field : String}

/-! ### Members -/

theorem given_eq_none_iff :
    given members field = none ↔ member? field members = none ∨ member? field members = some .null := by
  unfold given
  split
  · next h => exact iff_of_true rfl (.inr h)
  · next h => exact ⟨.inl, fun hmember => hmember.resolve_right h⟩

theorem given_eq_some_iff {j : Json} :
    given members field = some j ↔ member? field members = some j ∧ j ≠ .null := by
  unfold given
  split
  · next h =>
    rw [h]
    exact ⟨nofun, fun ⟨hj, hne⟩ => absurd (Option.some.inj hj).symm hne⟩
  · next h => exact ⟨fun hj => ⟨hj, fun hnull => h (hnull ▸ hj)⟩, And.left⟩

theorem given_of_optionalText {s? : Option String} (h : optionalText members field = .ok s?) :
    given members field = s?.map .text := by
  unfold optionalText at h
  split at h
  · next hmember =>
    obtain rfl := Except.ok.inj h
    exact given_eq_none_iff.mpr (.inl hmember)
  · next hmember =>
    obtain rfl := Except.ok.inj h
    exact given_eq_none_iff.mpr (.inr hmember)
  · next s hmember =>
    obtain rfl := Except.ok.inj h
    exact given_eq_some_iff.mpr ⟨hmember, nofun⟩
  · cases h

theorem given_of_requiredText {s : String} (h : requiredText members field = .ok s) :
    given members field = some (.text s) := by
  obtain ⟨s?, hs, h⟩ := bind_eq_ok_iff.mp h
  cases s? with
  | none => cases h
  | some s' =>
    obtain rfl := Except.ok.inj h
    exact given_of_optionalText hs

theorem given_of_requiredFlag {b : Bool} (h : requiredFlag members = .ok b) :
    (given members "required").getD (.bool false) = .bool b := by
  unfold requiredFlag at h
  split at h
  · next hmember =>
    obtain rfl := Except.ok.inj h
    rw [given_eq_none_iff.mpr (.inl hmember)]
    rfl
  · next hmember =>
    obtain rfl := Except.ok.inj h
    rw [given_eq_none_iff.mpr (.inr hmember)]
    rfl
  · next b hmember =>
    obtain rfl := Except.ok.inj h
    rw [given_eq_some_iff.mpr ⟨hmember, nofun⟩]
    rfl
  · cases h

theorem decodeParameter_eq_ok_iff {c : Codec α} {j : Json} {a : α} :
    decodeParameter c field j = .ok a ↔ c.ofJson j = .ok a := by
  unfold decodeParameter
  split
  · next h => simp only [h, Except.ok.injEq]
  · next h =>
    rw [h]
    exact iff_of_false nofun nofun

/-! ### Objects -/

/-- Do these members of an item ask for the attribute? -/
structure AsksAttribute (members : List (String × Json)) (a : NewAttribute) : Prop where
  name : given members "name" = some (.text a.name)
  type : ∃ j, given members "type" = some j ∧ a.type.NamedBy j
  required : (given members "required").getD (.bool false) = .bool a.required
  description : given members "description" = a.description.map .text

theorem newAttribute_object_eq_ok_iff {a : NewAttribute} :
    newAttribute (.object members) = .ok a ↔
      given members "name" = some (.text a.name) ∧
      (∃ j, given members "type" = some j ∧ AttributeType.codec.ofJson j = .ok a.type) ∧
      requiredFlag members = .ok a.required ∧
      optionalText members "description" = .ok a.description := by
  unfold newAttribute
  dsimp only
  constructor
  · intro h
    split at h
    · next name hname =>
      rw [pure_bind] at h
      split at h
      · cases h
      · cases h
      · next type hnull htype =>
        obtain ⟨t, ht, h⟩ := bind_eq_ok_iff.mp h
        obtain ⟨required, hrequired, h⟩ := bind_eq_ok_iff.mp h
        obtain ⟨description, hdescription, h⟩ := bind_eq_ok_iff.mp h
        obtain rfl := Except.ok.inj h
        exact ⟨given_eq_some_iff.mpr ⟨hname, nofun⟩,
          ⟨type, given_eq_some_iff.mpr ⟨htype, hnull⟩, decodeParameter_eq_ok_iff.mp ht⟩,
          hrequired, hdescription⟩
    · cases h
  · rintro ⟨hname, ⟨j, hj, ht⟩, hrequired, hdescription⟩
    obtain ⟨htype, hnull⟩ := given_eq_some_iff.mp hj
    rw [(given_eq_some_iff.mp hname).1]
    dsimp only
    rw [pure_bind]
    split
    · next hmissing => cases htype.symm.trans hmissing
    · next hmember => exact absurd (Option.some.inj (htype.symm.trans hmember)) hnull
    · next j' _ hmember =>
      obtain rfl := Option.some.inj (htype.symm.trans hmember)
      rw [decodeParameter_eq_ok_iff.mpr ht, hrequired, hdescription]
      rfl

theorem asks_of_newAttribute {item : Json} {a : NewAttribute} (h : newAttribute item = .ok a) :
    ∃ members, item = .object members ∧ AsksAttribute members a := by
  cases item with
  | object members =>
    obtain ⟨hname, ⟨j, hj, ht⟩, hrequired, hdescription⟩ := newAttribute_object_eq_ok_iff.mp h
    exact ⟨members, rfl, {
      name := hname
      type := ⟨j, hj, AttributeType.named_of_ofJson ht⟩
      required := given_of_requiredFlag hrequired
      description := given_of_optionalText hdescription }⟩
  | null | bool | number | text | array => cases h

theorem newAttributes_eq_ok_iff {items : List Json} {as : List NewAttribute} :
    newAttributes items = .ok as ↔ List.Forall₂ (fun item a => newAttribute item = .ok a) items as := by
  induction items generalizing as with
  | nil =>
    rw [List.forall₂_nil_left_iff]
    exact ⟨fun h => (Except.ok.inj h).symm, fun h => h ▸ rfl⟩
  | cons item rest ih =>
    rw [newAttributes, bind_eq_ok_iff, List.forall₂_cons_left_iff]
    apply exists_congr
    intro a
    rw [bind_eq_ok_iff]
    constructor
    · rintro ⟨ha, as', has, h⟩
      exact ⟨as', ha, ih.mp has, (Except.ok.inj h).symm⟩
    · rintro ⟨as', ha, has, rfl⟩
      exact ⟨ha, as', ih.mpr has, rfl⟩

/-- The items of a list that may be missing. -/
def itemsOf (members : List (String × Json)) (field : String) : List Json :=
  match given members field with
  | some (.array items) => items
  | _ => []

/-- The attributes that an object is to have; there are none where nothing is said. -/
def attributes (members : List (String × Json)) : Except ApiError (List NewAttribute) :=
  match given members "attributes" with
  | none => .ok []
  | some (.array items) => newAttributes items
  | some _ => .error (.invalidParameter "attributes" "expected a list")

theorem newAttributes_itemsOf {as : List NewAttribute} (h : attributes members = .ok as) :
    newAttributes (itemsOf members "attributes") = .ok as := by
  unfold attributes at h
  unfold itemsOf
  split at h
  · next hnone =>
    rw [hnone]
    exact h
  · next items hitems =>
    rw [hitems]
    exact h
  · cases h

theorem newObject_eq :
    newObject members = (do
      let name ← requiredText members "name"
      let attributes ← attributes members
      return ⟨name, attributes⟩) := by
  unfold newObject attributes given
  generalize member? "attributes" members = value?
  rcases value? with _ | value
  · rfl
  · cases value <;> rfl

theorem newObject_eq_ok_iff {o : NewObject} :
    newObject members = .ok o ↔
      requiredText members "name" = .ok o.name ∧ attributes members = .ok o.attributes := by
  rw [newObject_eq]
  constructor
  · intro h
    obtain ⟨name, hname, h⟩ := bind_eq_ok_iff.mp h
    obtain ⟨as, has, h⟩ := bind_eq_ok_iff.mp h
    obtain rfl := Except.ok.inj h
    exact ⟨hname, has⟩
  · rintro ⟨hname, has⟩
    rw [hname, has]
    rfl

theorem asks_of_newObject {o : NewObject} (h : newObject members = .ok o) :
    given members "name" = some (.text o.name) ∧
      List.Forall₂ (fun item a => ∃ members, item = .object members ∧ AsksAttribute members a)
        (itemsOf members "attributes") o.attributes := by
  obtain ⟨hname, has⟩ := newObject_eq_ok_iff.mp h
  refine ⟨given_of_requiredText hname, ?_⟩
  exact (newAttributes_eq_ok_iff.mp (newAttributes_itemsOf has)).imp fun _ _ => asks_of_newAttribute

/-! ### Actions -/

/-- Do these members of a body ask for the action? -/
structure AsksAction (members : List (String × Json)) (a : NewAction) : Prop where
  name : given members "name" = some (.text a.friendlyName)
  identifier : given members "identifier" = a.identifier.map .text
  method : ∃ s, given members "method" = some (.text s) ∧ HttpMethod.ofName? s = some a.method
  route : given members "route" = some (.text a.route)
  description : given members "description" = a.description.map .text
  returnValues : given members "return_values" = none ∧ a.returnValues = [] ∨
    ∃ j, given members "return_values" = some j ∧
      (Codec.list ReturnValue.codec).ofJson j = .ok a.returnValues

theorem given_of_method {m : HttpMethod} (h : method members = .ok m) :
    ∃ s, given members "method" = some (.text s) ∧ HttpMethod.ofName? s = some m := by
  obtain ⟨s, hs, hm⟩ := bind_eq_ok_iff.mp h
  split at hm
  · next m' hm' =>
    obtain rfl := Except.ok.inj hm
    exact ⟨s, given_of_requiredText hs, hm'⟩
  · cases hm

/-- The values that an action is to return; there are none where nothing is said. -/
def returnValues (members : List (String × Json)) : Except ApiError (List ReturnValue) :=
  match given members "return_values" with
  | none => .ok []
  | some j => decodeParameter (.list ReturnValue.codec) "return_values" j

theorem given_of_returnValues {values : List ReturnValue} (h : returnValues members = .ok values) :
    given members "return_values" = none ∧ values = [] ∨
      ∃ j, given members "return_values" = some j ∧
        (Codec.list ReturnValue.codec).ofJson j = .ok values := by
  unfold returnValues at h
  split at h
  · next hnone => exact .inl ⟨hnone, (Except.ok.inj h).symm⟩
  · next j hj => exact .inr ⟨j, hj, decodeParameter_eq_ok_iff.mp h⟩

theorem newAction_eq :
    newAction members = (do
      let friendlyName ← requiredText members "name"
      let route ← requiredText members "route"
      let m ← method members
      let values ← returnValues members
      let identifier ← optionalText members "identifier"
      let description ← optionalText members "description"
      return ⟨friendlyName, identifier, m, route, description, values⟩) := by
  unfold newAction returnValues given
  generalize member? "return_values" members = value?
  rcases value? with _ | value
  · rfl
  · cases value <;> rfl

theorem newAction_eq_ok_iff {a : NewAction} :
    newAction members = .ok a ↔
      requiredText members "name" = .ok a.friendlyName ∧
      requiredText members "route" = .ok a.route ∧ method members = .ok a.method ∧
      returnValues members = .ok a.returnValues ∧
      optionalText members "identifier" = .ok a.identifier ∧
      optionalText members "description" = .ok a.description := by
  rw [newAction_eq]
  constructor
  · intro h
    obtain ⟨name, hname, h⟩ := bind_eq_ok_iff.mp h
    obtain ⟨route, hroute, h⟩ := bind_eq_ok_iff.mp h
    obtain ⟨m, hm, h⟩ := bind_eq_ok_iff.mp h
    obtain ⟨values, hvalues, h⟩ := bind_eq_ok_iff.mp h
    obtain ⟨identifier, hidentifier, h⟩ := bind_eq_ok_iff.mp h
    obtain ⟨description, hdescription, h⟩ := bind_eq_ok_iff.mp h
    obtain rfl := Except.ok.inj h
    exact ⟨hname, hroute, hm, hvalues, hidentifier, hdescription⟩
  · rintro ⟨hname, hroute, hm, hvalues, hidentifier, hdescription⟩
    rw [hname, hroute, hm, hvalues, hidentifier, hdescription]
    rfl

theorem asks_of_newAction {a : NewAction} (h : newAction members = .ok a) :
    AsksAction members a := by
  obtain ⟨hname, hroute, hm, hvalues, hidentifier, hdescription⟩ := newAction_eq_ok_iff.mp h
  exact {
    name := given_of_requiredText hname
    identifier := given_of_optionalText hidentifier
    method := given_of_method hm
    route := given_of_requiredText hroute
    description := given_of_optionalText hdescription
    returnValues := given_of_returnValues hvalues }

end Body

end SchemaForge
