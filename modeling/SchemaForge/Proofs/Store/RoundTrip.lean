import SchemaForge.Proofs.Store.Codecs
import SchemaForge.Service.Auth

/-!
# Values are restored from their texts

Every value that the service keeps or answers with is restored from its JSON text. Generic values are
held with their members sorted by key, and restored as they are if all of their numbers are whole.
-/

namespace SchemaForge

open Json

/-- Is the number whole? -/
def Number.IsWhole (n : Number) : Prop := ∃ i, n = .whole i

/-- Is the value held as generic values are, and are all of its numbers whole? -/
def Json.Exact (j : Json) : Prop := j.canonical = j ∧ j.All Number.IsWhole

/-- Is the literal exact, if there is one? -/
def ReturnValue.Exact : ReturnValue → Prop
  | .literal value => value.Exact
  | .query _ _ | .attributeValue _ _ => True

/-- Are all values exact? -/
def Snapshot.Exact (s : Snapshot) : Prop :=
  ∀ row ∈ s.actions, ∀ v ∈ row.action.returnValues, v.Exact

/-- Is each of the values picked out restored from its text, if that is not nested too deep? -/
def Codec.Restores (c : Codec α) (Picked : α → Prop) : Prop :=
  ∀ a, Picked a → (c.encode a).depth ≤ 127 → c.ofText (c.toText a) = .ok a

theorem AuthState.lawful : AuthState.codec.Lawful where
  toSettles := settles_eq
  numbers P hP state _ := by
    cases state with
    | anonymous => exact ⟨trivial, trivial⟩
    | authenticated user => exact ⟨trivial, hP _, trivial⟩
  decode r hr src state state' := by
    let name := "internally tagged enum AuthState"
    cases state with
    | anonymous =>
      have hcase : decodeTagged name "mode" cases src
            (.ofJsonBy r (.object [("mode", .text "anonymous")])) = .ok state' ↔
          src.Admits (1 + depthMembers []) ∧ AllMembers (Readable r) [] ∧
            (Variant.ofUnit "anonymous" anonymous).decode (.ofJsonBy (settled r) (.object [])) =
              .ok state' :=
        decodeTagged_eq_ok_iff rfl nofun
      exact hcase.trans ⟨fun ⟨hdepth, _, h⟩ => ⟨hdepth, Except.ok.inj h⟩,
        fun ⟨hdepth, h⟩ => ⟨hdepth, trivial, congrArg Except.ok h⟩⟩
    | authenticated user =>
      have hfields : userFields.Lawful := .field (.required Codec.lawful_word64 _) .done (by decide)
      refine (decodeTagged_ofFields_eq_ok_iff hfields hr rfl (by decide) name src (user, ())).trans
        (and_congr_right fun _ => ?_)
      exact exists_eq_left'

/-! ### Exact values -/

theorem Codec.Lawful.restores {c : Codec α} (h : c.Lawful) : c.Restores fun _ => True :=
  fun _ _ hdepth => (h.ofText_eq_ok_iff trivial).mpr ⟨hdepth, rfl⟩

theorem Codec.Faithful.restores {c : Codec α} {On : OnNumbers α} {Same : ReadAs α}
    (h : c.Faithful On Same) {Picked : α → Prop} (hon : ∀ a, Picked a → On Written a)
    (hsame : ∀ a, Picked a → Same reread a a) : c.Restores Picked :=
  fun a ha hdepth => (h.ofText_eq_ok_iff (hon a ha)).mpr ⟨hdepth, hsame a ha⟩

theorem Json.Exact.written {j : Json} (h : j.Exact) : j.All Written := by
  refine All.imp ?_ j h.2
  rintro n ⟨i, rfl⟩
  exact written_whole i

/-- An exact value is read as itself. -/
theorem Json.Exact.readAs {j : Json} (h : j.Exact) : Codec.json.ReadAs reread j j := by
  refine ⟨j, Doc.content_eq_of_kept j (All.imp ?_ j h.2), h.1⟩
  rintro n ⟨i, rfl⟩
  rw [reread_whole]
  rfl

namespace ReturnValue.Exact

variable {v : ReturnValue} {values : List ReturnValue}

theorem written (h : v.Exact) : v.OnNumbers Written := by
  cases v with
  | literal value => exact Json.Exact.written h
  | query => trivial
  | attributeValue => trivial

theorem readAs (h : v.Exact) : v.ReadAs reread v := by
  cases v with
  | literal value => exact ⟨value, Json.Exact.readAs h, rfl⟩
  | query => exact rfl
  | attributeValue => exact rfl

theorem forall₂_readAs (h : ∀ v ∈ values, v.Exact) :
    List.Forall₂ (ReturnValue.ReadAs reread) values values := by
  rw [List.forall₂_same]
  exact fun v hv => (h v hv).readAs

end ReturnValue.Exact

/-- Every value is restored from its text, if that is not nested deeper than 127 levels and numbers
in literals are whole. -/
theorem values_are_restored_from_texts :
    Project.codec.Restores (fun _ => True) ∧ NewProject.codec.Restores (fun _ => True) ∧
    Object.codec.Restores (fun _ => True) ∧ NewObject.codec.Restores (fun _ => True) ∧
    Attribute.codec.Restores (fun _ => True) ∧ NewAttribute.codec.Restores (fun _ => True) ∧
    Action.codec.Restores (fun a => ∀ v ∈ a.returnValues, v.Exact) ∧
    NewAction.codec.Restores (fun a => ∀ v ∈ a.returnValues, v.Exact) ∧
    ReturnValue.codec.Restores ReturnValue.Exact ∧ ResultOptions.codec.Restores (fun _ => True) ∧
    AuthState.codec.Restores (fun _ => True) ∧
    ∀ now, (Snapshot.codec now).Restores Snapshot.Exact := by
  have hactions : ∀ s : Snapshot, s.Exact →
      List.Forall₂ (ActionRow.ReadAs reread) s.actions s.actions := by
    intro s hs
    rw [List.forall₂_same]
    exact fun row hrow => ⟨row.action,
      ⟨row.action.returnValues, ReturnValue.Exact.forall₂_readAs (hs row hrow), rfl⟩, rfl⟩
  refine ⟨Project.lawful.restores, NewProject.lawful.restores, Object.lawful.restores,
    NewObject.lawful.restores, Attribute.lawful.restores, NewAttribute.lawful.restores, ?_, ?_,
    ?_, ResultOptions.lawful.restores, AuthState.lawful.restores, fun now => ?_⟩
  · exact Action.faithful.restores (fun a ha v hv => (ha v hv).written)
      fun a ha => ⟨a.returnValues, ReturnValue.Exact.forall₂_readAs ha, rfl⟩
  · exact NewAction.faithful.restores (fun a ha v hv => (ha v hv).written)
      fun a ha => ⟨a.returnValues, ReturnValue.Exact.forall₂_readAs ha, rfl⟩
  · exact ReturnValue.faithful.restores (fun _ h => h.written) fun _ h => h.readAs
  · exact (Snapshot.faithful now).restores (fun s hs row hrow v hv => (hs row hrow v hv).written)
      fun s hs => ⟨s.actions, hactions s hs, rfl⟩

/-- A literal with the least and the greatest whole number is restored. -/
theorem literal_of_bounds_is_restored :
    let literal : ReturnValue := .literal (.object [
      ("bounds", .array [.number (.whole ⟨-0x8000000000000000, by decide⟩),
        .number (.whole ⟨0xFFFFFFFFFFFFFFFF, by decide⟩)]),
      ("unit", .null)])
    ReturnValue.codec.ofText (ReturnValue.codec.toText literal) = .ok literal := by
  obtain ⟨-, -, -, -, -, -, -, -, hvalues, -⟩ := values_are_restored_from_texts
  exact hvalues _ ⟨rfl, ⟨⟨⟨_, rfl⟩, ⟨_, rfl⟩, trivial⟩, trivial, trivial⟩⟩ (by decide)

end SchemaForge
