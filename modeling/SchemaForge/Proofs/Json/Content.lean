import SchemaForge.Json.Codec
import SchemaForge.Proofs.Except
import SchemaForge.Proofs.Json.Rendering

/-!
# What is read from the tree of a value

The generic value that is read from the tree of a value is the value itself, up to its numbers, if
the value is not nested too deep for where the tree comes from.
-/

namespace SchemaForge

open Json

variable {r : Number → Reading Number} {src : Source}

namespace Json

/-! ### Depth -/

/-- May a value of this depth be entered? -/
def Source.Admits : Source → Nat → Prop
  | text levels, depth => depth ≤ levels
  | value, _ | held, _ => True

theorem Source.admits_zero (src : Source) : src.Admits 0 := by
  cases src with
  | text levels => exact Nat.zero_le levels
  | value => trivial
  | held => trivial

theorem Source.admits_max_iff {m n : Nat} : src.Admits (max m n) ↔ src.Admits m ∧ src.Admits n := by
  cases src with
  | text levels => exact Nat.max_le
  | value => simp [Admits]
  | held => simp [Admits]

/-- Going into an array or object takes one level. -/
theorem Source.exists_enter_iff {P : Source → Prop} {depth : Nat}
    (hP : ∀ inner, src.enter = .ok inner → (P inner ↔ inner.Admits depth ∧ Q)) :
    (∃ inner, src.enter = .ok inner ∧ P inner) ↔ src.Admits (1 + depth) ∧ Q := by
  cases src with
  | text levels =>
    cases levels with
    | zero =>
      refine ⟨?_, fun h => absurd h.1 (by simp [Admits])⟩
      rintro ⟨inner, hinner, -⟩
      cases hinner
    | succ levels =>
      have hdepth : (text (levels + 1)).Admits (1 + depth) ↔ (text levels).Admits depth := by
        rw [Admits, Admits]
        omega
      rw [hdepth, ← hP _ rfl]
      exact ⟨fun ⟨_, hinner, h⟩ => Except.ok.inj hinner ▸ h, fun h => ⟨_, rfl, h⟩⟩
  | value =>
    rw [show value.Admits (1 + depth) ↔ value.Admits depth from Iff.rfl, ← hP _ rfl]
    exact ⟨fun ⟨_, hinner, h⟩ => Except.ok.inj hinner ▸ h, fun h => ⟨_, rfl, h⟩⟩
  | held =>
    rw [show held.Admits (1 + depth) ↔ held.Admits depth from Iff.rfl, ← hP _ rfl]
    exact ⟨fun ⟨_, hinner, h⟩ => Except.ok.inj hinner ▸ h, fun h => ⟨_, rfl, h⟩⟩

theorem Source.exists_enter_value_iff {P : Source → Prop} :
    (∃ inner, value.enter = .ok inner ∧ P inner) ↔ P value :=
  ⟨fun ⟨_, hinner, h⟩ => Except.ok.inj hinner ▸ h, fun h => ⟨_, rfl, h⟩⟩

/-! ### Numbers -/

/-- Can the number be read? -/
def Readable (r : Number → Reading Number) (n : Number) : Prop := ∃ m, (r n).value = .ok m

/-- Are whole numbers read as they are? -/
def KeepsWhole (r : Number → Reading Number) : Prop := ∀ i, r (.whole i) = .of (.whole i)

theorem keepsWhole_reread : KeepsWhole reread := reread_whole

/-- The readings of numbers that were read before. -/
def settled (r : Number → Reading Number) (n : Number) : Reading Number :=
  match (r n).value with
  | .ok m => .of m
  | .error _ => r n

theorem KeepsWhole.settled (h : KeepsWhole r) : KeepsWhole (settled r) := by
  intro i
  rw [Json.settled, h i]
  rfl

theorem value_settled (r : Number → Reading Number) (n : Number) :
    (settled r n).value = (r n).value := by
  unfold settled
  split
  · next m hm => exact hm.symm
  · rfl

theorem settled_of_value_eq_ok {n m : Number} (h : (r n).value = .ok m) : settled r n = .of m := by
  rw [settled, h]

end Json

namespace Doc

/-! ### Values -/

theorem content_array_eq_ok_iff {docs : List Doc} {j : Json} :
    content src (.array docs .closed) = .ok j ↔
      ∃ inner, src.enter = .ok inner ∧ ∃ js, contentItems inner docs = .ok js ∧ .array js = j := by
  rw [content]
  exact bind_bind_eq_ok_iff

theorem content_object_eq_ok_iff {docs : List (Reading String × Doc)} {j : Json} :
    content src (.object docs .closed) = .ok j ↔
      ∃ inner, src.enter = .ok inner ∧ ∃ ms, contentMembers inner docs = .ok ms ∧ .object ms = j := by
  rw [content]
  exact bind_bind_eq_ok_iff

theorem contentItems_cons_eq_ok_iff {d : Doc} {docs : List Doc} {js : List Json} :
    contentItems src (d :: docs) = .ok js ↔
      ∃ j, content src d = .ok j ∧ ∃ more, contentItems src docs = .ok more ∧ j :: more = js := by
  rw [contentItems]
  exact bind_bind_eq_ok_iff

theorem contentMembers_cons_eq_ok_iff {k : String} {d : Doc} {docs : List (Reading String × Doc)}
    {ms : List (String × Json)} :
    contentMembers src ((.of k, d) :: docs) = .ok ms ↔
      ∃ j, content src d = .ok j ∧ ∃ more, contentMembers src docs = .ok more ∧
        (k, j) :: more = ms := by
  rw [contentMembers]
  exact bind_bind_eq_ok_iff

mutual

/-- A value is read where it is not nested too deep, and then whatever it comes from. -/
theorem content_ofJsonBy_eq_ok_iff : ∀ (j : Json) {src : Source} {j' : Json},
    content src (ofJsonBy r j) = .ok j' ↔
      src.Admits j.depth ∧ content .value (ofJsonBy r j) = .ok j'
  | .null, src, j' => (and_iff_right src.admits_zero).symm
  | .bool b, src, j' => (and_iff_right src.admits_zero).symm
  | .number n, src, j' => (and_iff_right src.admits_zero).symm
  | .text s, src, j' => (and_iff_right src.admits_zero).symm
  | .array items, src, j' => by
    rw [ofJsonBy, content_array_eq_ok_iff, content_array_eq_ok_iff, Json.depth]
    rw [Source.exists_enter_value_iff]
    apply Source.exists_enter_iff
    intro inner _
    rw [← exists_and_left]
    refine exists_congr fun js => ?_
    rw [contentItems_ofItemsBy_eq_ok_iff items, and_assoc]
  | .object members, src, j' => by
    rw [ofJsonBy, content_object_eq_ok_iff, content_object_eq_ok_iff, Json.depth]
    rw [Source.exists_enter_value_iff]
    apply Source.exists_enter_iff
    intro inner _
    rw [← exists_and_left]
    refine exists_congr fun ms => ?_
    rw [contentMembers_ofMembersBy_eq_ok_iff members, and_assoc]

theorem contentItems_ofItemsBy_eq_ok_iff : ∀ (items : List Json) {src : Source} {js : List Json},
    contentItems src (ofItemsBy r items) = .ok js ↔
      src.Admits (depthItems items) ∧ contentItems .value (ofItemsBy r items) = .ok js
  | [], src, js => (and_iff_right src.admits_zero).symm
  | j :: items, src, js => by
    rw [ofItemsBy, contentItems_cons_eq_ok_iff, contentItems_cons_eq_ok_iff, depthItems,
      Source.admits_max_iff]
    constructor
    · rintro ⟨j', hj, more, hmore, rfl⟩
      obtain ⟨hdepth, hj⟩ := (content_ofJsonBy_eq_ok_iff j).mp hj
      obtain ⟨hdepths, hmore⟩ := (contentItems_ofItemsBy_eq_ok_iff items).mp hmore
      exact ⟨⟨hdepth, hdepths⟩, j', hj, more, hmore, rfl⟩
    · rintro ⟨⟨hdepth, hdepths⟩, j', hj, more, hmore, rfl⟩
      exact ⟨j', (content_ofJsonBy_eq_ok_iff j).mpr ⟨hdepth, hj⟩, more,
        (contentItems_ofItemsBy_eq_ok_iff items).mpr ⟨hdepths, hmore⟩, rfl⟩

theorem contentMembers_ofMembersBy_eq_ok_iff : ∀ (members : List (String × Json)) {src : Source}
    {ms : List (String × Json)},
    contentMembers src (ofMembersBy r members) = .ok ms ↔
      src.Admits (depthMembers members) ∧ contentMembers .value (ofMembersBy r members) = .ok ms
  | [], src, ms => (and_iff_right src.admits_zero).symm
  | (k, v) :: members, src, ms => by
    rw [ofMembersBy, contentMembers_cons_eq_ok_iff, contentMembers_cons_eq_ok_iff, depthMembers,
      Source.admits_max_iff]
    constructor
    · rintro ⟨j, hj, more, hmore, rfl⟩
      obtain ⟨hdepth, hj⟩ := (content_ofJsonBy_eq_ok_iff v).mp hj
      obtain ⟨hdepths, hmore⟩ := (contentMembers_ofMembersBy_eq_ok_iff members).mp hmore
      exact ⟨⟨hdepth, hdepths⟩, j, hj, more, hmore, rfl⟩
    · rintro ⟨⟨hdepth, hdepths⟩, j, hj, more, hmore, rfl⟩
      exact ⟨j, (content_ofJsonBy_eq_ok_iff v).mpr ⟨hdepth, hj⟩, more,
        (contentMembers_ofMembersBy_eq_ok_iff members).mpr ⟨hdepths, hmore⟩, rfl⟩

end

mutual

/-- A value is read exactly if its numbers are. -/
theorem exists_content_iff : ∀ (j : Json),
    (∃ j', content .value (ofJsonBy r j) = .ok j') ↔ j.All (Readable r)
  | .null => iff_of_true ⟨_, rfl⟩ trivial
  | .bool b => iff_of_true ⟨_, rfl⟩ trivial
  | .text s => iff_of_true ⟨_, rfl⟩ trivial
  | .number n => by
    show (∃ j', (r n).value.map Json.number = .ok j') ↔ Readable r n
    simp only [map_eq_ok_iff]
    exact ⟨fun ⟨_, m, hm, _⟩ => ⟨m, hm⟩, fun ⟨m, hm⟩ => ⟨_, m, hm, rfl⟩⟩
  | .array items => by
    rw [All, ← exists_contentItems_iff items]
    simp only [ofJsonBy, content_array_eq_ok_iff, Source.exists_enter_value_iff]
    exact ⟨fun ⟨_, js, hjs, _⟩ => ⟨js, hjs⟩, fun ⟨js, hjs⟩ => ⟨_, js, hjs, rfl⟩⟩
  | .object members => by
    rw [All, ← exists_contentMembers_iff members]
    simp only [ofJsonBy, content_object_eq_ok_iff, Source.exists_enter_value_iff]
    exact ⟨fun ⟨_, ms, hms, _⟩ => ⟨ms, hms⟩, fun ⟨ms, hms⟩ => ⟨_, ms, hms, rfl⟩⟩

theorem exists_contentItems_iff : ∀ (items : List Json),
    (∃ js, contentItems .value (ofItemsBy r items) = .ok js) ↔ AllItems (Readable r) items
  | [] => iff_of_true ⟨_, rfl⟩ trivial
  | j :: items => by
    rw [AllItems, ← exists_content_iff j, ← exists_contentItems_iff items]
    simp only [ofItemsBy, contentItems_cons_eq_ok_iff]
    exact ⟨fun ⟨_, j', hj, more, hmore, _⟩ => ⟨⟨j', hj⟩, more, hmore⟩,
      fun ⟨⟨j', hj⟩, more, hmore⟩ => ⟨_, j', hj, more, hmore, rfl⟩⟩

theorem exists_contentMembers_iff : ∀ (members : List (String × Json)),
    (∃ ms, contentMembers .value (ofMembersBy r members) = .ok ms) ↔
      AllMembers (Readable r) members
  | [] => iff_of_true ⟨_, rfl⟩ trivial
  | (k, v) :: members => by
    rw [AllMembers, ← exists_content_iff v, ← exists_contentMembers_iff members]
    simp only [ofMembersBy, contentMembers_cons_eq_ok_iff]
    exact ⟨fun ⟨_, j', hj, more, hmore, _⟩ => ⟨⟨j', hj⟩, more, hmore⟩,
      fun ⟨⟨j', hj⟩, more, hmore⟩ => ⟨_, j', hj, more, hmore, rfl⟩⟩

end

mutual

/-- What was read has the tree of the value, where the readings of numbers are settled. -/
theorem ofJson_of_content : ∀ (j : Json) {j' : Json},
    content .value (ofJsonBy r j) = .ok j' → ofJson j' = ofJsonBy (settled r) j
  | .null, j', h => by
    obtain rfl := Except.ok.inj h
    rfl
  | .bool b, j', h => by
    obtain rfl := Except.ok.inj h
    rfl
  | .text s, j', h => by
    obtain rfl := Except.ok.inj h
    rfl
  | .number n, j', h => by
    obtain ⟨m, hm, rfl⟩ := map_eq_ok_iff.mp h
    rw [ofJson, ofJsonBy, settled_of_value_eq_ok hm]
  | .array items, j', h => by
    obtain ⟨js, hjs, rfl⟩ := Source.exists_enter_value_iff.mp (content_array_eq_ok_iff.mp h)
    rw [ofJson, ofItems_of_contentItems items hjs, ofJsonBy]
  | .object members, j', h => by
    obtain ⟨ms, hms, rfl⟩ := Source.exists_enter_value_iff.mp (content_object_eq_ok_iff.mp h)
    rw [ofJson, ofMembers_of_contentMembers members hms, ofJsonBy]

theorem ofItems_of_contentItems : ∀ (items : List Json) {js : List Json},
    contentItems .value (ofItemsBy r items) = .ok js → ofItems js = ofItemsBy (settled r) items
  | [], js, h => by
    obtain rfl := Except.ok.inj h
    rfl
  | j :: items, js, h => by
    obtain ⟨j', hj, more, hmore, rfl⟩ := contentItems_cons_eq_ok_iff.mp h
    rw [ofItems, ofJson_of_content j hj, ofItems_of_contentItems items hmore, ofItemsBy]

theorem ofMembers_of_contentMembers : ∀ (members : List (String × Json)) {ms : List (String × Json)},
    contentMembers .value (ofMembersBy r members) = .ok ms →
      ofMembers ms = ofMembersBy (settled r) members
  | [], ms, h => by
    obtain rfl := Except.ok.inj h
    rfl
  | (k, v) :: members, ms, h => by
    obtain ⟨j', hj, more, hmore, rfl⟩ := contentMembers_cons_eq_ok_iff.mp h
    rw [ofMembers, ofJson_of_content v hj, ofMembers_of_contentMembers members hmore, ofMembersBy]

end

mutual

/-- A value whose numbers are read as they are is read as it is. -/
theorem content_eq_of_kept : ∀ (j : Json), j.All (fun n => (r n).value = .ok n) →
    content .value (ofJsonBy r j) = .ok j
  | .null, _ => rfl
  | .bool _, _ => rfl
  | .text _, _ => rfl
  | .number n, h => map_eq_ok_iff.mpr ⟨n, h, rfl⟩
  | .array items, h => content_array_eq_ok_iff.mpr (Source.exists_enter_value_iff.mpr
      ⟨items, contentItems_eq_of_kept items h, rfl⟩)
  | .object members, h => content_object_eq_ok_iff.mpr (Source.exists_enter_value_iff.mpr
      ⟨members, contentMembers_eq_of_kept members h, rfl⟩)

theorem contentItems_eq_of_kept : ∀ (items : List Json),
    AllItems (fun n => (r n).value = .ok n) items →
      contentItems .value (ofItemsBy r items) = .ok items
  | [], _ => rfl
  | j :: items, h => contentItems_cons_eq_ok_iff.mpr
      ⟨j, content_eq_of_kept j h.1, items, contentItems_eq_of_kept items h.2, rfl⟩

theorem contentMembers_eq_of_kept : ∀ (members : List (String × Json)),
    AllMembers (fun n => (r n).value = .ok n) members →
      contentMembers .value (ofMembersBy r members) = .ok members
  | [], _ => rfl
  | (_, v) :: members, h => contentMembers_cons_eq_ok_iff.mpr
      ⟨v, content_eq_of_kept v h.1, members, contentMembers_eq_of_kept members h.2, rfl⟩

end

mutual

/-- Only the values of numbers matter to what is read. -/
theorem content_congr {r' : Number → Reading Number} (h : ∀ n, (r n).value = (r' n).value) :
    ∀ (j : Json) (src : Source), content src (ofJsonBy r j) = content src (ofJsonBy r' j)
  | .null, _ => rfl
  | .bool _, _ => rfl
  | .text _, _ => rfl
  | .number n, _ => congrArg (Except.map Json.number) (h n)
  | .array items, src => by simp only [ofJsonBy, content, contentItems_congr h items]
  | .object members, src => by simp only [ofJsonBy, content, contentMembers_congr h members]

theorem contentItems_congr {r' : Number → Reading Number} (h : ∀ n, (r n).value = (r' n).value) :
    ∀ (items : List Json) (src : Source),
      contentItems src (ofItemsBy r items) = contentItems src (ofItemsBy r' items)
  | [], _ => rfl
  | j :: items, src => by
    simp only [ofItemsBy, contentItems, content_congr h j, contentItems_congr h items]

theorem contentMembers_congr {r' : Number → Reading Number} (h : ∀ n, (r n).value = (r' n).value) :
    ∀ (members : List (String × Json)) (src : Source),
      contentMembers src (ofMembersBy r members) = contentMembers src (ofMembersBy r' members)
  | [], _ => rfl
  | (k, v) :: members, src => by
    simp only [ofMembersBy, contentMembers, content_congr h v, contentMembers_congr h members]

end

/-! ### Members that are read twice -/

section Members

variable {members : List (String × Json)}

/-- What is read from members that were kept as generic values is what is read from the members
themselves, where the readings of numbers are settled. -/
theorem contentMembers_bind_eq_ok_iff (f : Doc → Except JsonError α) {a : α} :
    (contentMembers src (ofMembersBy r members) >>= fun others => f (ofJson (.object others))) =
        .ok a ↔
      src.Admits (depthMembers members) ∧ AllMembers (Readable r) members ∧
        f (ofJsonBy (settled r) (.object members)) = .ok a := by
  rw [bind_eq_ok_iff, ← exists_contentMembers_iff, ofJsonBy]
  constructor
  · rintro ⟨others, hothers, h⟩
    obtain ⟨hdepth, hothers⟩ := (contentMembers_ofMembersBy_eq_ok_iff members).mp hothers
    rw [ofJson, ofMembers_of_contentMembers members hothers] at h
    exact ⟨hdepth, ⟨others, hothers⟩, h⟩
  · rintro ⟨hdepth, ⟨others, hothers⟩, h⟩
    rw [← ofMembers_of_contentMembers members hothers] at h
    exact ⟨others, (contentMembers_ofMembersBy_eq_ok_iff members).mpr ⟨hdepth, hothers⟩, h⟩

/-- A reader that looks for one key keeps the other members as generic values. -/
theorem split_others {key : String}
    {split : α → List (Reading String × Doc) → Except JsonError (α × List (String × Json))}
    {found : α} (hnil : split found [] = .ok (found, []))
    (hcons : ∀ k d docs, k ≠ key → split found ((.of k, d) :: docs) =
      (content src d >>= fun j => split found docs >>= fun (found, others) =>
        .ok (found, (k, j) :: others)))
    (hkeys : ∀ m ∈ members, m.1 ≠ key) :
    split found (ofMembersBy r members) =
      (found, ·) <$> contentMembers src (ofMembersBy r members) := by
  induction members with
  | nil => exact hnil
  | cons m members ih =>
    obtain ⟨k, j⟩ := m
    obtain ⟨hkey, hkeys⟩ := List.forall_mem_cons.mp hkeys
    rw [ofMembersBy, hcons _ _ _ hkey, ih hkeys]
    show (content src (ofJsonBy r j) >>= _) = _ <$> (content src (ofJsonBy r j) >>= _)
    cases content src (ofJsonBy r j) with
    | error e => rfl
    | ok j' =>
      show (_ <$> contentMembers src (ofMembersBy r members)) >>= _ =
        _ <$> (contentMembers src (ofMembersBy r members) >>= _)
      cases contentMembers src (ofMembersBy r members) with
      | error e => rfl
      | ok ms => rfl

end Members

end Doc

end SchemaForge
