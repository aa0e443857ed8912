import SchemaForge.Proofs.Service.Bodies
import SchemaForge.Proofs.Service.Runs
import SchemaForge.Proofs.Store.Creation
import SchemaForge.Proofs.Store.Invariant
import SchemaForge.Proofs.Text.Characters

/-!
# What is accepted is shown

A payload goes a long way: it is read from a body, checked, kept as rows with codes, and read and
written as JSON again when somebody asks. What is shown in the end is what was asked for, spelled out
where the body was brief, and all that was shown before is still shown as it was.
-/

namespace SchemaForge

open Json Body

/-! ### Methods -/

namespace Text

/-- Only ASCII letters have lower case letters of ASCII. -/
theorem toNat_lt_of_toLower {c : Char} (h : c.toLower.toNat < 0x80) : c.toNat < 0x80 := by
  unfold Char.toLower at h
  split at h
  · next hcapital =>
    have hle := UInt32.le_iff_toNat_le.mp hcapital.2
    exact Nat.lt_of_le_of_lt hle (by decide)
  · exact h

theorem length_uppered {cs : List Char} (h : ∀ c ∈ cs, c.toNat < 0x80) :
    (uppered cs).length = cs.length := by
  induction cs with
  | nil => rfl
  | cons c rest ih =>
    obtain ⟨hc, hrest⟩ := List.forall_mem_cons.mp h
    rw [uppered, List.flatMap_cons, upperChar, if_pos hc]
    exact congrArg Nat.succ (ih hrest)

end Text

/-- What names a method is not the question what is allowed, in any case of its letters. -/
theorem HttpMethod.ne_options {s : String} {m : HttpMethod} (h : ofName? s = some m) :
    Text.sameIgnoringCase s "OPTIONS" = false := by
  rw [Bool.eq_false_iff]
  intro hsame
  have hlower : s.toList.map Char.toLower = "OPTIONS".toList.map Char.toLower := eq_of_beq hsame
  have hascii : ∀ c ∈ s.toList, c.toNat < 0x80 := by
    intro c hc
    have hmem : c.toLower ∈ "OPTIONS".toList.map Char.toLower := hlower ▸ List.mem_map_of_mem hc
    have hall : ∀ d ∈ "OPTIONS".toList.map Char.toLower, d.toNat < 0x80 :=
      Text.forall_mem_of_all (by decide)
    exact Text.toNat_lt_of_toLower (hall _ hmem)
  have hlength : (Text.uppered s.toList).length = 7 := by
    rw [Text.length_uppered hascii]
    simpa using congrArg List.length hlower
  have hname : m.name.toList = Text.uppered s.toList := by
    have hfound := List.find?_some h
    rw [eq_of_beq hfound, Text.upper, String.toList_ofList]
  rw [← hname] at hlength
  cases m <;> exact absurd hlength (by decide)

/-! ### Requests for a part -/

/-- Does the user ask for this part, by this method? -/
structure Request.Asks (r : Request) (user : UserId) (route : Route) (method : HttpMethod) : Prop where
  route : r.route = route
  method : HttpMethod.ofName? r.method = some method
  user : r.auth = .authenticated user

namespace Request

variable {r : Request} {user : UserId} {project : ProjectId} {m : HttpMethod}

theorem Asks.demand_objects {object : Option ObjectId}
    (h : r.Asks user (.objects project object) m) :
    r.demand = (do return .command user (← r.objectsCommand project object m)) := by
  simp only [demand, h.route, HttpMethod.ne_options h.method, httpMethod, h.method,
    user_eq_ok_iff.mpr h.user]
  rfl

theorem Asks.demand_actions {object : ObjectId}
    (h : r.Asks user (.actions project (some object)) m) :
    r.demand = (do return .command user (← r.actionsCommand project object m)) := by
  simp only [demand, h.route, httpMethod, h.method, user_eq_ok_iff.mpr h.user]
  rfl

end Request

namespace Service

variable {w : Service} {user : UserId} {project : ProjectId}

/-- Is this what the user is shown who asks for this part? -/
def Shows (w : Service) (user : UserId) (route : Route) (members : List (String × Json)) : Prop :=
  ∀ now r, r.Asks user route .get → (w.answer now r).1 = .ok members

theorem shows_objects {os : List Object} (h : w.store.listObjects user project = .ok os) :
    w.Shows user (.objects project none) [("objects", listed Object.codec os)] := by
  intro now r hr
  rw [answer_of_command hr.demand_objects]
  simp only [perform, h]
  rfl

theorem shows_object {id : ObjectId} {o : Object} {attributes : List Attribute}
    {actions : List Action} (ho : w.store.getObject user project id = .ok o)
    (hattributes : w.store.listAttributes user id = .ok attributes)
    (hactions : w.store.listActions user project id = .ok actions) :
    w.Shows user (.objects project (some id)) [("object", detailed o attributes actions)] := by
  intro now r hr
  rw [answer_of_command hr.demand_objects]
  simp only [perform, objectWithParts, ho, hattributes, hactions]
  rfl

theorem shows_actions {id : ObjectId} {as : List Action}
    (h : w.store.listActions user project id = .ok as) :
    w.Shows user (.actions project (some id)) [("actions", listed Action.codec as)] := by
  intro now r hr
  rw [answer_of_command hr.demand_actions]
  simp only [perform, h]
  rfl

/-! ### Requests that are carried out -/

/-- A command to write that is answered with a success was admitted, and the store has seen it. -/
theorem admitted_of_answer {now : Instant} {r : Request} {c : Command} {x : Store.Write}
    (hd : r.demand = .ok (.command user c)) (hx : write? now user c = some x)
    (hok : (w.answer now r).1.status = 200) :
    x.demands w.store = .ok () ∧ (w.answer now r).2.store = (x.run w.store).2 := by
  obtain ⟨hstore, hfails⟩ := perform_of_write hx w
  rw [answer_of_command hd]
  refine ⟨?_, hstore⟩
  rcases hmet : x.demands w.store with e | ⟨⟩
  · -- a refusal would have been answered with the status of an error
    obtain ⟨e', he'⟩ := hfails.mpr ⟨e, by rw [Store.Write.run_of_refused hmet]⟩
    have hstatus := (answer_status_iff w now r).mpr (.inr ⟨user, c, e', hd, he'⟩)
    rw [hok] at hstatus
    exact absurd hstatus (by decide)
  · rfl

/-- A request that is answered with a success comes to something. -/
theorem exists_demand_of_answer {now : Instant} {r : Request}
    (hok : (w.answer now r).1.status = 200) : ∃ d, r.demand = .ok d := by
  rcases hd : r.demand with e | d
  · have hstatus := (answer_status_iff w now r).mpr (.inl ⟨e, hd⟩)
    rw [hok] at hstatus
    exact absurd hstatus (by decide)
  · exact ⟨d, rfl⟩

/-! ### What is shown -/

theorem listed_concat {c : Codec α} {as : List α} {a : α} :
    listed c (as ++ [a]) = .array (as.map c.encode ++ [c.encode a]) :=
  congrArg Json.array List.map_append

/-- The member for a description, if there is one. -/
def described (d? : Option String) : List (String × Json) :=
  match d? with
  | some d => [("description", .text d)]
  | none => []

/-- The members of an object as it is listed. -/
def objectMembers (id : ObjectId) (name : String) (project : ProjectId) (user : UserId)
    (now : Instant) : List (String × Json) :=
  [("id", .ofWord id), ("name", .text name), ("project_id", .ofWord project),
    ("owner", .ofWord user), ("created_at", .text now.render)]

/-- Is this how the object shows an attribute that was asked for? The type is written by its label. -/
def ShowsAttribute (object : ObjectId) (item shown : Json) : Prop :=
  ∃ members a, item = .object members ∧ AsksAttribute members a ∧ ∃ id : AttributeId,
    shown = .object ([("id", .ofWord id), ("object_id", .ofWord object), ("name", .text a.name),
      ("type", .text a.type.label), ("required", .bool a.required)] ++ described a.description)

/-- Is this how the object shows an action that was asked for? The identifier is the one that was given,
or the words of the name. -/
def ShowsAction (object : ObjectId) (members : List (String × Json)) (shown : Json) : Prop :=
  ∃ a, AsksAction members a ∧ ∃ id : ActionId,
    shown = .object ([("id", .ofWord id), ("object_id", .ofWord object),
      ("friendly_name", .text a.friendlyName), ("identifier", .text a.resolvedIdentifier),
      ("method", .text a.method.name), ("route", .text a.route)] ++ described a.description ++
      [("return_values", listed ReturnValue.codec a.returnValues)])

theorem encode_attribute (a : Attribute) :
    Attribute.codec.encode a =
      .object ([("id", .ofWord a.id), ("object_id", .ofWord a.objectId), ("name", .text a.name),
        ("type", .text a.type.label), ("required", .bool a.required)] ++ described a.description) := by
  obtain ⟨id, objectId, name, type, required, description⟩ := a
  cases description <;> rfl

theorem encode_action (a : Action) :
    Action.codec.encode a =
      .object ([("id", .ofWord a.id), ("object_id", .ofWord a.objectId),
        ("friendly_name", .text a.friendlyName), ("identifier", .text a.identifier),
        ("method", .text a.method.name), ("route", .text a.route)] ++ described a.description ++
        [("return_values", listed ReturnValue.codec a.returnValues)]) := by
  obtain ⟨id, objectId, friendlyName, identifier, method, route, description, returnValues⟩ := a
  cases description <;> rfl

/-- Attributes that were asked for by items are shown as the items ask. -/
theorem shows_attributes {object : ObjectId} {items : List Json} {as : List Attribute}
    (hasked : List.Forall₂ (fun item a => ∃ members, item = .object members ∧ AsksAttribute members a)
      items (as.map Attribute.asked))
    (hobject : ∀ a ∈ as, a.objectId = object) :
    List.Forall₂ (ShowsAttribute object) items (as.map Attribute.codec.encode) := by
  rw [List.forall₂_map_right_iff] at hasked ⊢
  induction hasked with
  | nil => exact .nil
  | @cons item a items as hitem _ ih =>
    obtain ⟨ha, has⟩ := List.forall_mem_cons.mp hobject
    obtain ⟨members, rfl, hmembers⟩ := hitem
    refine .cons ⟨members, a.asked, rfl, hmembers, a.id, ?_⟩ (ih has)
    rw [encode_attribute, ha]
    rfl

theorem ofWord_injective {m n : UInt64} (h : Json.ofWord m = Json.ofWord n) : m = n := by
  injection h with h
  injection h with h
  exact UInt64.toNat_inj.mp (Int.ofNat.inj (congrArg Subtype.val h))

/-- What a successful request for a new object leads to. -/
theorem created_of_answer {now : Instant} {r : Request} {segment : Option ObjectId}
    (hr : r.Asks user (.objects project segment) .post) (hok : (w.answer now r).1.status = 200) :
    ∃ members o, Body.members r.body = .ok members ∧ Body.newObject members = .ok o ∧
      r.demand = .ok (.command user (.createObject project o)) := by
  obtain ⟨d, hd⟩ := exists_demand_of_answer hok
  obtain ⟨c, hc, hcommand⟩ := bind_eq_ok_iff.mp (hr.demand_objects ▸ hd)
  obtain ⟨members, hmembers, hc⟩ := bind_eq_ok_iff.mp hc
  obtain ⟨o, ho, hc⟩ := bind_eq_ok_iff.mp hc
  obtain rfl := Except.ok.inj hc
  exact ⟨members, o, hmembers, ho, hd.trans hcommand.symm⟩

/-- What a successful request for a new action leads to. -/
theorem action_created_of_answer {now : Instant} {r : Request} {object : ObjectId}
    (hr : r.Asks user (.actions project (some object)) .post)
    (hok : (w.answer now r).1.status = 200) :
    ∃ members a, Body.members r.body = .ok members ∧ Body.newAction members = .ok a ∧
      r.demand = .ok (.command user (.createAction project object a)) := by
  obtain ⟨d, hd⟩ := exists_demand_of_answer hok
  obtain ⟨c, hc, hcommand⟩ := bind_eq_ok_iff.mp (hr.demand_actions ▸ hd)
  obtain ⟨members, hmembers, hc⟩ := bind_eq_ok_iff.mp hc
  obtain ⟨a, ha, hc⟩ := bind_eq_ok_iff.mp hc
  obtain rfl := Except.ok.inj hc
  exact ⟨members, a, hmembers, ha, hd.trans hcommand.symm⟩

/-- A new object that is accepted is listed behind the objects of its project, which are listed as
before, and is shown with exactly the attributes that the body asks for, in their order, and without
actions. A new action that is accepted is listed behind the actions of its object, which are listed as
before, with what the body asks for. -/
theorem accepted_is_shown {w : Service} (h : w.store.Reachable) {now : Instant} {r : Request}
    (hroom : w.HasRoom now r) (hok : (w.answer now r).1.status = 200) {user : UserId}
    {project : ProjectId} :
    (∀ segment, r.Asks user (.objects project segment) .post →
      ∃ members name old id attributes,
        Body.members r.body = .ok members ∧ given members "name" = some (.text name) ∧
        w.Shows user (.objects project none) [("objects", .array old)] ∧
        (w.answer now r).2.Shows user (.objects project none)
          [("objects", .array (old ++ [.object (objectMembers id name project user now)]))] ∧
        (∀ other ∈ old, ∃ others, other = .object others ∧ given others "id" ≠ some (.ofWord id)) ∧
        (w.answer now r).2.Shows user (.objects project (some id))
          [("object", .object (objectMembers id name project user now ++
            [("attributes", .array attributes), ("actions", .array [])]))] ∧
        List.Forall₂ (ShowsAttribute id) (itemsOf members "attributes") attributes) ∧
      ∀ object, r.Asks user (.actions project (some object)) .post →
        ∃ members old shown,
          Body.members r.body = .ok members ∧
          w.Shows user (.actions project (some object)) [("actions", .array old)] ∧
          (w.answer now r).2.Shows user (.actions project (some object))
            [("actions", .array (old ++ [shown]))] ∧
          ShowsAction object members shown := by
  constructor
  · intro segment hr
    obtain ⟨members, o, hmembers, ho, hd⟩ := created_of_answer hr hok
    obtain ⟨admitted, hstore⟩ := admitted_of_answer hd rfl hok
    have hroom := hroom user _ _ hd rfl admitted
    obtain ⟨hname, hitems⟩ := asks_of_newObject ho
    obtain ⟨old, hold, hnew, hfresh⟩ :=
      Store.listObjects_createObject now admitted hroom.1
    obtain ⟨hobject, ⟨as, hattributes, hids, hasked⟩, hactions⟩ :=
      Store.parts_createObject now h.consistent admitted hroom
    replace hstore : (w.answer now r).2.store = (w.store.createObject now user project o).2 := hstore
    rw [← hstore] at hnew hobject hattributes hactions
    rw [← hasked] at hitems
    have hshown := shows_objects hnew
    rw [listed_concat] at hshown
    refine ⟨members, o.name, old.map Object.codec.encode, w.store.objects.nextNumber, _, hmembers,
      hname, shows_objects hold, hshown, ?_, shows_object hobject hattributes hactions,
      shows_attributes hitems hids⟩
    intro other hother
    obtain ⟨o', ho', rfl⟩ := List.mem_map.mp hother
    refine ⟨_, rfl, fun hsame => hfresh o' ho' ?_⟩
    exact ofWord_injective (Option.some.inj hsame)
  · intro object hr
    obtain ⟨members, a, hmembers, ha, hd⟩ := action_created_of_answer hr hok
    obtain ⟨admitted, hstore⟩ := admitted_of_answer hd rfl hok
    have hroom := hroom user _ _ hd rfl admitted
    obtain ⟨old, hold, hnew⟩ := Store.listActions_createAction admitted hroom
    replace hstore : (w.answer now r).2.store = (w.store.createAction user project object a).2 :=
      hstore
    rw [← hstore] at hnew
    have hshown := shows_actions hnew
    rw [listed_concat] at hshown
    refine ⟨members, old.map Action.codec.encode, _, hmembers, shows_actions hold, hshown, a,
      asks_of_newAction ha, w.store.actions.nextNumber, ?_⟩
    rw [encode_action]

/-- A service with one project. -/
def serviceWithShop : Service :=
  ⟨(Store.Write.run .empty (.createProject .epoch 7 ⟨"Shop", .sailsJs⟩)).2, ⟨[], []⟩,
    ⟨⟨"/out"⟩, .stored, true⟩⟩

/-- A request for an object with two attributes. The type of one is named by its second label, and the
type of the other is given by its code. -/
def requestForCup : Request :=
  ⟨.objects 1 none, "post", .authenticated 7, some (Text.utf8
    ("\x7b\"name\":\"Cup\",\"attributes\":[\x7b\"name\":\"size\",\"type\":\" Float\"\x7d," ++
      "\x7b\"name\":\"form\",\"type\":1,\"required\":true\x7d]\x7d"))⟩

/-- How many attributes are to be made. -/
def attributesAsked : Except ApiError Demand → Nat
  | .ok (.command _ (.createObject _ o)) => o.attributes.length
  | _ => 0

theorem hasRoom_requestForCup : serviceWithShop.HasRoom .epoch requestForCup := by
  have hasked : attributesAsked requestForCup.demand = 2 := by decide +kernel
  refine hasRoom_of_tables (by decide +kernel) (by decide +kernel) (by decide +kernel) ?_
  intro user project o hd
  rw [hd] at hasked
  rw [show o.attributes.length = 2 from hasked]
  decide +kernel

theorem cup_is_shown :
    serviceWithShop.store.Reachable ∧
      (serviceWithShop.answer .epoch requestForCup).1.status = 200 ∧
      (serviceWithShop.answer .epoch requestForCup).2.store.attributes.rows =
        [⟨1, 1, 7, "size", 3, false, none⟩, ⟨2, 1, 7, "form", 1, true, none⟩] ∧
      ∃ name old id attributes,
        serviceWithShop.Shows 7 (.objects 1 none) [("objects", .array old)] ∧
        (serviceWithShop.answer .epoch requestForCup).2.Shows 7 (.objects 1 none)
          [("objects", .array (old ++ [.object (objectMembers id name 1 7 .epoch)]))] ∧
        (serviceWithShop.answer .epoch requestForCup).2.Shows 7 (.objects 1 (some id))
          [("object", .object (objectMembers id name 1 7 .epoch ++
            [("attributes", .array attributes), ("actions", .array [])]))] := by
  have hreach : serviceWithShop.store.Reachable :=
    .written (.createProject .epoch 7 ⟨"Shop", .sailsJs⟩) .empty fun _ => by
      show Table.HasRoom _ 1
      decide
  have hok : (serviceWithShop.answer .epoch requestForCup).1.status = 200 := by decide +kernel
  have hasks : requestForCup.Asks 7 (.objects 1 none) .post := ⟨rfl, by decide +kernel, rfl⟩
  obtain ⟨-, name, old, id, attributes, -, -, hold, hnew, -, hshown, -⟩ :=
    (accepted_is_shown hreach hasRoom_requestForCup hok).1 none hasks
  exact ⟨hreach, hok, by decide +kernel, name, old, id, attributes, hold, hnew, hshown⟩

end Service

end SchemaForge
