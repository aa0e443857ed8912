import SchemaForge.Proofs.Schema.Codecs
import SchemaForge.Store.Codecs

/-!
# Rows are read as they are written

Every row and all rows together are read back from their JSON form. An instant of creation is always
written, so that of the reading does not matter.
-/

namespace SchemaForge

open Json

variable (now : Instant)

section Rows

open Codec

theorem ProjectRow.lawful : (ProjectRow.codec now).Lawful :=
  .record
    (.field (.required lawful_word64 _)
      (.field (.required lawful_text _)
        (.field (.required lawful_word64 _)
          (.field (.withDefault lawful_word8 _ _)
            (.field (.withDefault lawful_instant _ _) .done (by simp)) (by simp)) (by simp))
        (by simp)) (by simp))
    fun _ => rfl

theorem Object.lawful_row : (Object.rowCodec now).Lawful :=
  .record
    (.field (.required lawful_word64 _)
      (.field (.required lawful_text _)
        (.field (.required lawful_word64 _)
          (.field (.required lawful_word64 _)
            (.field (.withDefault lawful_instant _ _) .done (by simp)) (by simp)) (by simp))
        (by simp)) (by simp))
    fun _ => rfl

theorem AttributeRow.lawful : AttributeRow.codec.Lawful :=
  .record
    (.field (.required lawful_word64 _)
      (.field (.required lawful_word64 _)
        (.field (.required lawful_word64 _)
          (.field (.required lawful_text _)
            (.field (.required lawful_word8 _)
              (.field (.withDefault lawful_bool _ _)
                (.field (lawful_optional_text _) .done (by decide)) (by decide)) (by decide))
            (by decide)) (by decide)) (by decide)) (by decide))
    fun _ => rfl

end Rows

/-! ### Rows of actions -/

namespace ActionRow

variable {r : Number → Reading Number} {members : List (String × Json)}

/-- What a row is read as: the owner is as it was. -/
def ReadAs : SchemaForge.ReadAs ActionRow := fun r row row' =>
  ∃ action, Action.ReadAs r row.action action ∧ ⟨row.owner, action⟩ = row'

/-- The members of an action stand beside the owner. -/
theorem encode_eq (row : ActionRow) :
    ∃ members, Action.codec.encode row.action = .object members ∧ (∀ m ∈ members, m.1 ≠ "owner") ∧
      ActionRow.codec.encode row = .object (("owner", .ofWord row.owner) :: members) := by
  refine ⟨_, rfl, fun m hm heq => ?_, rfl⟩
  have hkey := Fields.key_mem_of_mem_write _ hm
  rw [heq] at hkey
  exact absurd hkey (by decide)

/-- Members beside the owner are kept as generic values. -/
theorem splitOwner_others (src : Source) (owner : Option UserId)
    (hkeys : ∀ m ∈ members, m.1 ≠ "owner") :
    splitOwner src owner (Doc.ofMembersBy r members) =
      (owner, ·) <$> Doc.contentMembers src (Doc.ofMembersBy r members) :=
  Doc.split_others rfl (fun _ _ _ hkey => if_neg hkey) hkeys

/-- The owner is taken out of the members. -/
theorem splitOwner_members (hr : KeepsWhole r) (src : Source) (owner : UserId)
    (hkeys : ∀ m ∈ members, m.1 ≠ "owner") :
    splitOwner src none (Doc.ofMembersBy r (("owner", .ofWord owner) :: members)) =
      (some owner, ·) <$> Doc.contentMembers src (Doc.ofMembersBy r members) := by
  have howner : Codec.word64.decode src (.ofJsonBy r (.ofWord owner)) = .ok owner :=
    (Codec.lawful_word64.decode r hr src _ _).mpr ⟨src.admits_zero, rfl⟩
  rw [← splitOwner_others src (some owner) hkeys, Doc.ofMembersBy, splitOwner]
  show (Codec.word64.decode src (.ofJsonBy r (.ofWord owner)) >>= _) = _
  rw [howner]
  rfl

theorem faithful : ActionRow.codec.Faithful
    (fun P row => ∀ v ∈ row.action.returnValues, ReturnValue.OnNumbers P v) ReadAs where
  readable r row _ := fun ⟨action, h, _⟩ => Action.faithful.readable r row.action action h
  settled r row _ :=
    exists_congr fun action => and_congr_left' (Action.faithful.settled r row.action action)
  numbers P hP row hrow := by
    obtain ⟨members, hmembers, -, hencode⟩ := row.encode_eq
    have hall := Action.faithful.numbers P hP row.action hrow
    rw [hmembers] at hall
    rw [hencode]
    exact ⟨hP _, hall⟩
  decode r hr src row row' := by
    obtain ⟨members, hmembers, hkeys, hencode⟩ := row.encode_eq
    have hdepth : (Json.object (("owner", .ofWord row.owner) :: members)).depth =
        1 + depthMembers members := congrArg (1 + ·) (Nat.zero_max _)
    have haction := fun action => Action.faithful.decode _ hr.settled .held row.action action
    have hreadable : Action.ReadAs r row.action row'.action → AllMembers (Readable r) members := by
      intro hsame
      have hall := Action.faithful.numbers _ (fun i => ⟨.whole i, by rw [hr i]; rfl⟩) row.action
        (Action.faithful.readable r row.action row'.action hsame)
      rwa [hmembers] at hall
    rw [hmembers] at haction
    rw [hencode, hdepth]
    show (src.enter >>= fun inner => splitOwner inner none
      (Doc.ofMembersBy r (("owner", .ofWord row.owner) :: members)) >>= _) = _ ↔ _
    rw [bind_eq_ok_iff]
    apply Source.exists_enter_iff
    intro inner _
    rw [splitOwner_members hr inner row.owner hkeys, bind_map_left]
    refine (Doc.contentMembers_bind_eq_ok_iff fun d =>
      Action.codec.decode .held d >>= fun action => .ok (ActionRow.mk row.owner action)).trans ?_
    rw [bind_eq_ok_iff]
    refine and_congr_right fun _ => ?_
    constructor
    · rintro ⟨-, action, haction', hrow⟩
      exact ⟨action,
        (Action.faithful.settled r _ _).mp ((haction action).mp haction').2, Except.ok.inj hrow⟩
    · rintro ⟨action, hsame, rfl⟩
      exact ⟨hreadable hsame, action,
        (haction action).mpr ⟨trivial, (Action.faithful.settled r _ _).mpr hsame⟩, rfl⟩

end ActionRow

/-! ### All rows -/

/-- What all rows are read as: those of other tables are as they were. -/
def Snapshot.ReadAs : SchemaForge.ReadAs Snapshot := fun r s s' =>
  ∃ rows, List.Forall₂ (ActionRow.ReadAs r) s.actions rows ∧ { s with actions := rows } = s'

open Codec in
theorem Snapshot.faithful : (Snapshot.codec now).Faithful
    (fun P s => ∀ row ∈ s.actions, ∀ v ∈ row.action.returnValues, ReturnValue.OnNumbers P v)
    ReadAs := by
  refine (Faithful.record
    (.field (.withDefault (Lawful.list (ProjectRow.lawful now)) _ _)
      (.field (.withDefault (Lawful.list (Object.lawful_row now)) _ _)
        (.field (.withDefault (Lawful.list AttributeRow.lawful) _ _)
          (.field (.withDefault (Faithful.list ActionRow.faithful) _ _) Fields.Lawful.done (by simp))
          (by simp)) (by simp)) (by simp))
    _ _ _).congr (fun _ _ => by simp only [true_and, and_true]) fun r s s' => ?_
  constructor
  · rintro ⟨⟨_, _, _, rows, ⟨⟩⟩, ⟨rfl, rfl, rfl, hrows, -⟩, rfl⟩
    exact ⟨rows, hrows, rfl⟩
  · rintro ⟨rows, hrows, rfl⟩
    exact ⟨(s.projects, s.objects, s.attributes, rows, ()), ⟨rfl, rfl, rfl, hrows, rfl⟩, rfl⟩

end SchemaForge
