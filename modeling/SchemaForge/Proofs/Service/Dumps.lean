import SchemaForge.Proofs.Json.Floats
import SchemaForge.Proofs.Schema.Literals
import SchemaForge.Proofs.Service.Availability
import SchemaForge.Proofs.Service.Shown
import SchemaForge.Proofs.Store.Dump
import SchemaForge.Proofs.Store.Effect
import SchemaForge.Proofs.Store.RoundTrip

/-!
# Dumps of a service

The literals of actions are all that comes from a body as it is. Their numbers are values of number
texts, so they can be written and read back, and how they are nested is not looked at again once the
body is read. A body has three levels around a literal and a dump has five, so two levels are left in
a body that a dump has no place for.
-/

namespace SchemaForge

open Json

/-! ### Numbers in bodies -/

theorem Json.all_of_given {P : Number → Prop} {members : List (String × Json)} {field : String}
    {j : Json} (h : AllMembers P members) (hj : given members field = some j) : j.All P := by
  replace hj : member? field members = some j := (Body.given_eq_some_iff.mp hj).1
  induction members with
  | nil => cases hj
  | cons member members ih =>
    rw [member?, List.lookup_cons] at hj
    split at hj
    · exact Option.some.inj hj ▸ h.1
    · exact ih h.2 hj

namespace Body

variable {members : List (String × Json)} {body : Option Bytes}

theorem formatted_of_members (h : Body.members body = .ok members) :
    AllMembers Number.Formatted members := by
  unfold Body.members at h
  split at h
  · cases h
  · cases h
  · split at h
    · next hread =>
      obtain rfl := Except.ok.inj h
      exact all_of_ofBytes (fun _ _ => Number.formatted_of_value) hread
    · cases h
    · cases h

theorem formatted_of_newAction {a : NewAction} (hmembers : AllMembers Number.Formatted members)
    (h : newAction members = .ok a) : ∀ v ∈ a.returnValues, v.OnNumbers Number.Formatted := by
  rcases (asks_of_newAction h).returnValues with ⟨-, hnone⟩ | ⟨j, hj, hvalues⟩
  · rw [hnone]
    exact fun v hv => absurd hv List.not_mem_nil
  · exact ReturnValue.carries.list _ _ _ (Doc.numbers_ofJson j (all_of_given hmembers hj)) hvalues

end Body

namespace Request

variable {r : Request} {user : UserId} {project : ProjectId} {object : ObjectId} {a : NewAction}

/-- A request for a new action has it from its body. -/
theorem newAction_of_demand (h : r.demand = .ok (.command user (.createAction project object a))) :
    ∃ members, Body.members r.body = .ok members ∧ Body.newAction members = .ok a := by
  obtain ⟨-, m, -, hcommand⟩ := comesTo_of_demand h
  generalize r.route = route at hcommand
  cases hcommand with
  | createAction hmembers ha => exact ⟨_, hmembers, ha⟩

end Request

/-! ### Literals in a store -/

namespace Store

variable {s : Store} {P : Number → Prop}

theorem LiteralsOn.run (h : s.LiteralsOn P) (w : Write)
    (hnew : ∀ owner projectId objectId a, w = .createAction owner projectId objectId a →
      ∀ v ∈ a.returnValues, v.OnNumbers P) : (w.run s).2.LiteralsOn P := by
  intro row hrow
  generalize hs : (w.run s).2 = s' at hrow
  cases Write.effect_of_run hs with
  | none | createProject | renameProject | createObject => exact h row hrow
  | deleteProject | deleteObject => exact h row (Table.mem_filter_iff.mp hrow).1
  | createAction =>
    rcases Table.mem_insert_iff.mp hrow with rfl | ⟨hrow, -⟩
    · exact hnew _ _ _ _ rfl
    · exact h row hrow

/-- Whether an action is admitted does not depend on what it returns. -/
theorem admitAction_of_returnValues (s : Store) (owner : UserId) (projectId : ProjectId)
    (objectId : ObjectId) (a : NewAction) (values : List ReturnValue) :
    s.admitAction owner projectId objectId { a with returnValues := values } =
      s.admitAction owner projectId objectId a :=
  rfl

theorem Consistent.exists_ofDump_iff_of_formatted (hs : s.Consistent)
    (h : s.LiteralsOn Number.Formatted) (now : Instant) :
    ((∃ s', ofDump now (Text.utf8 s.dump) = .ok s') ↔ s.LiteralsWithin 122) ∧
      ∀ e, ofDump now (Text.utf8 s.dump) ≠ .error (.refused e) := by
  have himp {Q : Number → Prop} (hQ : ∀ n : Number, n.Formatted → Q n) : s.LiteralsOn Q := by
    intro row hrow v hv
    have hformatted := h row hrow v hv
    cases v with
    | literal value => exact All.imp hQ value hformatted
    | query | attributeValue => trivial
  have hwritten : s.LiteralsOn Written := himp fun _ => Number.Formatted.written
  have hreadable : s.LiteralsOn (Json.Readable reread) := himp fun _ => Number.Formatted.readable
  exact ⟨hs.exists_ofDump_iff hwritten hreadable, hs.ofDump_ne_refused hwritten⟩

end Store

namespace Service

variable {start w : Service}

theorem Reached.reachable (hw : Reached start w) (h : start.store.Reachable) :
    w.store.Reachable := by
  induction hw with
  | start => exact h
  | answered now r _ hroom ih => exact reachable_answer ih hroom

/-- Numbers in literals stay values of number texts. -/
theorem Reached.formatted (hw : Reached start w) (h : start.store.LiteralsOn Number.Formatted) :
    w.store.LiteralsOn Number.Formatted := by
  induction hw with
  | start => exact h
  | @answered w now r _ _ ih =>
    rcases store_answer w now r with hsame | ⟨user, c, x, hd, hx, hstore⟩
    · rw [hsame]
      exact ih
    · rw [hstore]
      apply ih.run
      rintro owner project object a rfl
      have hc : c = .createAction project object a := by
        cases c with
        | createAction =>
          obtain ⟨-, rfl, rfl, rfl⟩ := Store.Write.createAction.inj (Option.some.inj hx)
          rfl
        | createProject | renameProject | deleteProject | createObject | deleteObject |
          listProjects | getProject | download | listObjects | getObject | listActions => cases hx
      obtain ⟨members, hmembers, ha⟩ := Request.newAction_of_demand (hc ▸ hd)
      exact Body.formatted_of_newAction (Body.formatted_of_members hmembers) ha

end Service

/-! ### Literals in bodies -/

/-- A value that has been read is read once more where a generic value is asked for. -/
theorem Codec.Faithful.ofJson_eq_ok_iff {c : Codec α} {On : OnNumbers α} {Same : ReadAs α}
    (h : c.Faithful On Same) {a b : α} (hwhole : (c.encode a).All Number.IsWhole) :
    c.ofJson (c.encode a) = .ok b ↔ Same reread a b := by
  have hkept : (c.encode a).All fun n => (reread n).value = .ok n := by
    refine All.imp ?_ _ hwhole
    rintro n ⟨i, rfl⟩
    rw [reread_whole]
    rfl
  rw [Codec.ofJson, Doc.ofJson_of_content _ (Doc.content_eq_of_kept _ hkept),
    h.decode _ keepsWhole_reread.settled, h.settled]
  exact and_iff_right trivial

namespace Body

/-- A body that is not nested deeper than 127 levels has the members that it is written with. -/
theorem members_utf8_render {members : List (String × Json)} (h : (Json.object members).Exact)
    (hdepth : (Json.object members).depth ≤ 127) :
    Body.members (some (Text.utf8 (Json.object members).render)) = .ok members := by
  have hread : Codec.json.ofBytes (Text.utf8 (Json.object members).render) =
      .ok (.object members) :=
    (Codec.faithful_json.ofText_eq_ok_iff h.written).mpr ⟨hdepth, h.readAs⟩
  have hne : Text.utf8 (Json.object members).render ≠ [] := by
    intro hnil
    have hempty : (Codec.json.ofBytes []).isOk = false := by decide +kernel
    rw [← hnil, hread] at hempty
    cases hempty
  unfold Body.members
  split
  · next hnone => cases hnone
  · next hnil => exact absurd (Option.some.inj hnil) hne
  · next bytes hbytes =>
    obtain rfl := Option.some.inj hbytes
    rw [hread]

/-- The members of a body that asks for an action that returns a literal. -/
def literalMembers (value : Json) : List (String × Json) :=
  [("method", .text "GET"), ("name", .text "x y"),
    ("return_values", (Codec.list ReturnValue.codec).encode [.literal value]), ("route", .text "/u")]

/-- The action asked for. -/
def literalAction (value : Json) : NewAction := ⟨"x y", none, .get, "/u", none, [.literal value]⟩

theorem newAction_literalMembers {value : Json} (h : value.Exact) :
    newAction (literalMembers value) = .ok (literalAction value) := by
  have hvalues : (Codec.list ReturnValue.codec).ofJson
      ((Codec.list ReturnValue.codec).encode [.literal value]) = .ok [.literal value] := by
    refine ((Codec.Faithful.list ReturnValue.faithful).ofJson_eq_ok_iff ?_).mpr ?_
    · exact ⟨⟨trivial, h.2, trivial⟩, trivial⟩
    · exact .cons ⟨value, h.readAs, rfl⟩ .nil
  refine newAction_eq_ok_iff.mpr ⟨rfl, rfl, ?_, decodeParameter_eq_ok_iff.mpr hvalues, rfl, rfl⟩
  with_unfolding_all rfl

theorem exact_literalMembers {value : Json} (h : value.Exact) :
    (Json.object (literalMembers value)).Exact := by
  refine ⟨?_, trivial, trivial, ⟨⟨trivial, h.2, trivial⟩, trivial⟩, trivial, trivial⟩
  show Json.object [_, _, ("return_values", .array [.object [_, ("value", value.canonical)]]), _] = _
  rw [h.1]
  rfl

/-- In a body there are three levels around a literal. -/
theorem depth_literalMembers (value : Json) :
    (Json.object (literalMembers value)).depth = value.depth + 3 := by
  show 1 + max 0 (max 0 (max (1 + max (1 + max 0 (max value.depth 0)) 0) (max 0 0))) = _
  omega

end Body

/-! ### Nested arrays -/

namespace Json

/-- Arrays in each other around an empty one. -/
def nested : Nat → Json
  | 0 => .array []
  | n + 1 => .array [nested n]

theorem exact_nested (n : Nat) : (nested n).Exact := by
  induction n with
  | zero => exact ⟨rfl, trivial⟩
  | succ n ih =>
    refine ⟨?_, ih.2, trivial⟩
    show Json.array [(nested n).canonical] = _
    rw [ih.1]
    rfl

theorem depth_nested (n : Nat) : (nested n).depth = n + 1 := by
  induction n with
  | zero => rfl
  | succ n ih =>
    show 1 + max (nested n).depth 0 = _
    omega

end Json

namespace Service

/-! ### A service with one action -/

/-- A service with nothing in its store. -/
def emptyService : Service := ⟨.empty, ⟨[], []⟩, ⟨⟨"/out"⟩, .stored, true⟩⟩

/-- A request that gives something a name. -/
def requestNamed (route : Route) (name : String) : Request :=
  ⟨route, "POST", .authenticated 1, some (Text.utf8 ("\x7b\"name\":\"" ++ name ++ "\"\x7d"))⟩

/-- A service with a project and an object in it. -/
def serviceWithUser : Service :=
  ((emptyService.answer .epoch (requestNamed .projects "Shop")).2.answer .epoch
    (requestNamed (.objects 1 none) "User")).2

theorem reached_serviceWithUser : Reached emptyService serviceWithUser := by
  have hasked : attributesAsked (requestNamed (.objects 1 none) "User").demand = 0 := by
    decide +kernel
  refine .answered .epoch _ (.answered .epoch _ .start (hasRoom_of_empty rfl _ _)) ?_
  refine hasRoom_of_tables (by decide +kernel) (by decide +kernel) (by decide +kernel) ?_
  intro user project o hd
  rw [hd] at hasked
  rw [show o.attributes.length = 0 from hasked]
  decide +kernel

theorem store_serviceWithUser : serviceWithUser.store =
    ⟨⟨[⟨1, "Shop", 1, 1, .epoch⟩], List.pairwise_singleton ..⟩,
      ⟨[⟨1, "User", 1, 1, .epoch⟩], List.pairwise_singleton ..⟩, .empty, .empty⟩ := by
  have hactions : serviceWithUser.store.actions.rows.isEmpty = true := by decide +kernel
  refine (Store.mk.injEq ..).mpr ⟨Table.ext ?_, Table.ext ?_, Table.ext ?_, Table.ext ?_⟩
  · decide +kernel
  · decide +kernel
  · decide +kernel
  · exact List.isEmpty_iff.mp hactions

/-- A request for an action that returns a literal. -/
def requestForLiteral (value : Json) : Request :=
  ⟨.actions 1 (some 1), "POST", .authenticated 1,
    some (Text.utf8 (Json.object (Body.literalMembers value)).render)⟩

/-- The service that has the action as well. -/
def serviceWithLiteral (value : Json) : Service :=
  (serviceWithUser.answer .epoch (requestForLiteral value)).2

section Literal

variable {value : Json} (h : value.Exact) (hdepth : value.depth ≤ 124)

include h hdepth

theorem demand_requestForLiteral : (requestForLiteral value).demand =
    .ok (.command 1 (.createAction 1 1 (Body.literalAction value))) := by
  have hbody : Body.members (requestForLiteral value).body = .ok (Body.literalMembers value) := by
    apply Body.members_utf8_render (Body.exact_literalMembers h)
    rw [Body.depth_literalMembers]
    omega
  have hasks : (requestForLiteral value).Asks 1 (.actions 1 (some 1)) .post :=
    ⟨rfl, show HttpMethod.ofName? "POST" = some .post by decide +kernel, rfl⟩
  rw [hasks.demand_actions]
  refine bind_eq_ok_iff.mpr ⟨_, bind_eq_ok_iff.mpr ⟨_, hbody, bind_eq_ok_iff.mpr ⟨_, ?_, rfl⟩⟩, rfl⟩
  exact Body.newAction_literalMembers h

/-- A literal of up to 124 levels is accepted. -/
theorem reached_serviceWithLiteral :
    (serviceWithUser.answer .epoch (requestForLiteral value)).1.status = 200 ∧
      Reached emptyService (serviceWithLiteral value) ∧
      ∀ n, (serviceWithLiteral value).store.LiteralsWithin n ↔ value.depth ≤ n := by
  have hd := demand_requestForLiteral h hdepth
  -- whether an action is admitted does not depend on what it returns
  have hadmitted :
      serviceWithUser.store.admitAction 1 1 1 (Body.literalAction value) = .ok () := by
    have hadmitted :
        serviceWithUser.store.admitAction 1 1 1 (Body.literalAction .null) = .ok () := by
      rw [store_serviceWithUser]
      decide +kernel
    have hvalues : Body.literalAction value =
        { Body.literalAction .null with returnValues := [.literal value] } := rfl
    rw [hvalues, Store.admitAction_of_returnValues, hadmitted]
  obtain ⟨created, hcreated, hvalues⟩ : ∃ created : Action,
      serviceWithUser.store.createAction 1 1 1 (Body.literalAction value) =
        (.ok created, { serviceWithUser.store with
          actions := serviceWithUser.store.actions.insert ⟨1, created⟩ }) ∧
      created.returnValues = [.literal value] := by
    rw [Store.createAction, hadmitted]
    exact ⟨_, rfl, rfl⟩
  refine ⟨?_, ?_, fun n => ?_⟩
  · rw [answer_of_command hd, perform, hcreated]
    rfl
  · refine .answered .epoch _ reached_serviceWithUser ?_
    refine hasRoom_of_tables (by decide +kernel) (by decide +kernel) (by decide +kernel) ?_
    intro user project o ho
    obtain ⟨-, hc⟩ := Demand.command.inj (Except.ok.inj (hd.symm.trans ho))
    cases hc
  · rw [serviceWithLiteral, answer_of_command hd, perform, hcreated]
    constructor
    · intro hall
      have hmem : .literal value ∈ created.returnValues := hvalues ▸ List.mem_singleton_self _
      exact hall ⟨1, created⟩ (Table.mem_insert_iff.mpr (.inl rfl)) _ hmem
    · intro hn row hrow v hv
      rcases Table.mem_insert_iff.mp hrow with rfl | ⟨hrow, -⟩
      · obtain rfl := List.mem_singleton.mp (hvalues ▸ hv)
        exact hn
      · rw [store_serviceWithUser] at hrow
        exact absurd hrow List.not_mem_nil

end Literal

/-- Whatever requests a service has answered that started out empty, its dump can be loaded exactly if
no literal in it is nested deeper than 122, and loading never gets as far as to refuse the rows. -/
theorem dump_is_loaded_unless_literal_is_too_deep {config : CompilerConfig} {t : FileTree}
    (hw : Reached ⟨.empty, t, config⟩ w) (now : Instant) :
    ((∃ s, Store.ofDump now (Text.utf8 w.store.dump) = .ok s) ↔ w.store.LiteralsWithin 122) ∧
      ∀ e, Store.ofDump now (Text.utf8 w.store.dump) ≠ .error (.refused e) :=
  (hw.reachable .empty).consistent.exists_ofDump_iff_of_formatted
    (hw.formatted fun _ hrow => absurd hrow List.not_mem_nil) now

/-- A literal of as many levels as a dump has a place for. -/
theorem literal_of_most_levels_is_loaded :
    (serviceWithUser.answer .epoch (requestForLiteral (nested 121))).1.status = 200 ∧
      ∃ s, Store.ofDump .epoch (Text.utf8 (serviceWithLiteral (nested 121)).store.dump) = .ok s := by
  have hdepth : (nested 121).depth = 122 := depth_nested 121
  obtain ⟨hok, hw, hwithin⟩ := reached_serviceWithLiteral (exact_nested 121) (by omega)
  exact ⟨hok, (dump_is_loaded_unless_literal_is_too_deep hw .epoch).1.mpr
    ((hwithin 122).mpr (Nat.le_of_eq hdepth))⟩

/-- A literal of one more level is accepted, and the dump cannot be loaded. -/
theorem literal_of_one_more_level_is_not_loaded :
    (serviceWithUser.answer .epoch (requestForLiteral (nested 122))).1.status = 200 ∧
      Reached emptyService (serviceWithLiteral (nested 122)) ∧
      ¬∃ s, Store.ofDump .epoch (Text.utf8 (serviceWithLiteral (nested 122)).store.dump) = .ok s := by
  have hdepth : (nested 122).depth = 123 := depth_nested 122
  obtain ⟨hok, hw, hwithin⟩ := reached_serviceWithLiteral (exact_nested 122) (by omega)
  refine ⟨hok, hw, fun hload => ?_⟩
  have hformatted := hw.formatted fun _ hrow => absurd hrow List.not_mem_nil
  have hle := ((hw.reachable .empty).consistent.exists_ofDump_iff_of_formatted hformatted
    .epoch).1.mp hload
  have := (hwithin 122).mp hle
  omega

end Service

end SchemaForge
