import SchemaForge.Proofs.Store.Codecs
import SchemaForge.Proofs.Store.Depth
import SchemaForge.Proofs.Store.Loading

/-!
# Dumps that can be loaded

The dump of consistent rows can be loaded exactly if no literal is nested deeper than a dump leaves
levels for, as long as its numbers can be read. Loading asks nothing of the values of an action, so
whatever their literals are read as, the rows are not refused.
-/

namespace SchemaForge

open Json

variable {r : Number → Reading Number}

/-! ### What is read from rows -/

theorem exists_forall₂ {R : α → β → Prop} {as : List α} (h : ∀ a ∈ as, ∃ b, R a b) :
    ∃ bs, List.Forall₂ R as bs := by
  induction as with
  | nil => exact ⟨[], .nil⟩
  | cons a as ih =>
    obtain ⟨⟨b, hb⟩, has⟩ := List.forall_mem_cons.mp h
    obtain ⟨bs, hbs⟩ := ih has
    exact ⟨b :: bs, .cons hb hbs⟩

/-- A value is read as some value if its numbers are read. -/
theorem ReturnValue.exists_readAs {v : ReturnValue} (h : v.OnNumbers (Readable r)) :
    ∃ v', v.ReadAs r v' := by
  cases v with
  | literal value =>
    obtain ⟨content, hcontent⟩ := (Doc.exists_content_iff value).mpr h
    exact ⟨_, _, ⟨content, hcontent, rfl⟩, rfl⟩
  | query source options => exact ⟨_, rfl⟩
  | attributeValue name options => exact ⟨_, rfl⟩

namespace ActionRow

variable {row row' : ActionRow} {rows rows' : List ActionRow}

theorem exists_readAs (h : ∀ v ∈ row.action.returnValues, ReturnValue.OnNumbers (Readable r) v) :
    ∃ row', row.ReadAs r row' := by
  obtain ⟨values, hvalues⟩ := exists_forall₂ fun v hv => ReturnValue.exists_readAs (h v hv)
  exact ⟨_, _, ⟨values, hvalues, rfl⟩, rfl⟩

/-- The row of an action without what it returns. -/
def heading (row : ActionRow) : UserId × Action := (row.owner, { row.action with returnValues := [] })

theorem heading_of_readAs (h : row.ReadAs r row') : row'.heading = row.heading := by
  obtain ⟨action, ⟨values, -, rfl⟩, rfl⟩ := h
  rfl

theorem map_heading_of_readAs (h : List.Forall₂ (ActionRow.ReadAs r) rows rows') :
    rows'.map heading = rows.map heading := by
  induction h with
  | nil => rfl
  | cons hrow _ ih => rw [List.map_cons, List.map_cons, heading_of_readAs hrow, ih]

end ActionRow

/-- Rows stay consistent if actions return something else. -/
theorem Snapshot.Consistent.of_headings {s : Snapshot} {rows : List ActionRow} (h : s.Consistent)
    (hrows : rows.map ActionRow.heading = s.actions.map ActionRow.heading) :
    ({ s with actions := rows } : Snapshot).Consistent := by
  have hold : ∀ row ∈ rows, ∃ old ∈ s.actions, old.heading = row.heading := fun row hrow =>
    List.mem_map.mp (hrows ▸ List.mem_map_of_mem hrow)
  have hids : rows.map (fun row => row.action.id) = s.actions.map fun row => row.action.id := by
    have hheadings := congrArg (List.map fun heading => heading.2.id) hrows
    rwa [List.map_map, List.map_map] at hheadings
  have hnodup : (rows.map fun row => row.action.id).Nodup := hids ▸ h.action_ids
  refine { h with action_ids := hnodup, action_housed := ?_, action_named := ?_, action_unique := ?_ }
  · intro row hrow
    obtain ⟨old, hmem, hheading⟩ := hold row hrow
    obtain ⟨o, ho, hobject, howner⟩ := h.action_housed old hmem
    exact ⟨o, ho, hobject.trans (congrArg (fun heading => heading.2.objectId) hheading),
      howner.trans (congrArg Prod.fst hheading)⟩
  · intro row hrow
    obtain ⟨old, hmem, hheading⟩ := hold row hrow
    rw [← show old.action.identifier = row.action.identifier from
      congrArg (fun heading => heading.2.identifier) hheading]
    exact h.action_named old hmem
  · intro a ha b hb hclash
    obtain ⟨a', ha', haheading⟩ := hold a ha
    obtain ⟨b', hb', hbheading⟩ := hold b hb
    have hsame : a' = b' := h.action_unique a' ha' b' hb'
      ⟨(congrArg (fun heading => heading.2.objectId) haheading).trans
          (hclash.1.trans (congrArg (fun heading => heading.2.objectId) hbheading).symm),
        (congrArg (fun heading => heading.2.identifier) haheading).trans
          (hclash.2.trans (congrArg (fun heading => heading.2.identifier) hbheading).symm)⟩
    have hheading : a.heading = b.heading := by
      rw [← haheading, ← hbheading, hsame]
    exact List.inj_on_of_nodup_map hnodup ha hb (congrArg (fun heading => heading.2.id) hheading)

/-! ### The instant of reading -/

section Instant

variable (now now' : Instant)

theorem ProjectRow.encode_eq_of_instants :
    (ProjectRow.codec now).encode = (ProjectRow.codec now').encode := by
  funext row
  simp only [codec, Codec.record, Fields.write, Field.withDefault]

theorem Object.encode_eq_of_instants :
    (Object.rowCodec now).encode = (Object.rowCodec now').encode := by
  funext o
  simp only [rowCodec, Codec.record, Fields.write, Field.withDefault]

/-- The instant of reading does not show in what is written. -/
theorem Snapshot.encode_eq_of_instants :
    (Snapshot.codec now).encode = (Snapshot.codec now').encode := by
  funext s
  simp only [codec, Codec.record, Fields.write, Field.withDefault, Codec.list,
    ProjectRow.encode_eq_of_instants now now', Object.encode_eq_of_instants now now']

end Instant

/-! ### Dumps -/

namespace Store

variable {s : Store} {now : Instant}

/-- A condition on the numbers in all literals of a store. -/
def LiteralsOn (s : Store) (P : Number → Prop) : Prop :=
  ∀ row ∈ s.actions.rows, ∀ v ∈ row.action.returnValues, ReturnValue.OnNumbers P v

/-- Rows are read from a dump exactly if no literal is too deep. -/
theorem ofBytes_dump_eq_ok_iff (hwritten : s.LiteralsOn Written) {rows : Snapshot} :
    (Snapshot.codec now).ofBytes (Text.utf8 s.dump) = .ok rows ↔
      s.LiteralsWithin 122 ∧ s.snapshot.ReadAs reread rows := by
  have htext := (Snapshot.faithful now).ofText_eq_ok_iff (a := s.snapshot) (b := rows) hwritten
  rwa [Codec.ofText, Codec.toText, Snapshot.encode_eq_of_instants now .epoch, ← dumpValue, ← dump,
    depth_dumpValue_le_iff] at htext

/-- Whatever is read from the dump of consistent rows is loaded. -/
theorem Consistent.exists_ofSnapshot (h : s.Consistent) {rows : Snapshot}
    (hrows : s.snapshot.ReadAs reread rows) : ∃ s', ofSnapshot rows = .ok s' := by
  obtain ⟨actions, hactions, rfl⟩ := hrows
  exact ⟨_, ofSnapshot_eq_ok_iff.mpr
    ⟨h.of_headings (ActionRow.map_heading_of_readAs hactions), rfl⟩⟩

/-- The rows of a dump are never refused. -/
theorem Consistent.ofDump_ne_refused (h : s.Consistent) (hwritten : s.LiteralsOn Written)
    (e : StoreError) : ofDump now (Text.utf8 s.dump) ≠ .error (.refused e) := by
  intro hrefused
  cases hread : (Snapshot.codec now).ofBytes (Text.utf8 s.dump) with
  | error e' =>
    rw [ofDump, hread] at hrefused
    cases hrefused
  | ok rows =>
    obtain ⟨s', hs'⟩ := h.exists_ofSnapshot ((ofBytes_dump_eq_ok_iff hwritten).mp hread).2
    rw [ofDump, hread, mapError_ok] at hrefused
    rw [show (Except.ok rows >>= fun rows => (ofSnapshot rows).mapError DumpError.refused) =
      (ofSnapshot rows).mapError .refused from rfl, hs'] at hrefused
    cases hrefused

theorem Consistent.exists_ofDump_iff (h : s.Consistent) (hwritten : s.LiteralsOn Written)
    (hreadable : s.LiteralsOn (Json.Readable reread)) :
    (∃ s', ofDump now (Text.utf8 s.dump) = .ok s') ↔ s.LiteralsWithin 122 := by
  simp only [ofDump, bind_eq_ok_iff, mapError_eq_ok_iff, ofBytes_dump_eq_ok_iff hwritten]
  constructor
  · rintro ⟨s', rows, ⟨hdepth, -⟩, -⟩
    exact hdepth
  · intro hdepth
    obtain ⟨actions, hactions⟩ :=
      exists_forall₂ fun row hrow => ActionRow.exists_readAs (hreadable row hrow)
    have hrows : s.snapshot.ReadAs reread { s.snapshot with actions } := ⟨actions, hactions, rfl⟩
    obtain ⟨s', hs'⟩ := h.exists_ofSnapshot hrows
    exact ⟨s', _, ⟨hdepth, hrows⟩, hs'⟩

end Store

end SchemaForge
