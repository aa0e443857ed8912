import SchemaForge.Proofs.Json.Canonical
import SchemaForge.Proofs.Json.Codecs

/-!
# Generic values of records

A record can also be held as a generic value, whose members are sorted by key. A codec recovers what
it has written from there as well: a member finds its field wherever it stands, and a tag its case.
As nothing is read from a text, there is no bound on the nesting, and all numbers are what they are.
-/

namespace SchemaForge

open Json

/-! ### Values at hand -/

/-- Is a tree made of a value at hand? -/
def Json.Source.AtHand : Source → Prop
  | text _ => False
  | value | held => True

namespace Json.Source.AtHand

variable {src : Source}

theorem enter (h : src.AtHand) : src.enter = .ok src := by
  cases src with
  | text => cases h
  | value => rfl
  | held => rfl

theorem admits (h : src.AtHand) (depth : Nat) : src.Admits depth := by
  cases src with
  | text => cases h
  | value => trivial
  | held => trivial

end Json.Source.AtHand

theorem Json.keepsWhole_of : KeepsWhole .of := fun _ => rfl

namespace Doc

mutual

/-- The numbers of a value at hand are what they are. -/
theorem ofJson_eq : ∀ (j : Json), ofJson j = ofJsonBy .of j
  | .null => rfl
  | .bool _ => rfl
  | .number _ => rfl
  | .text _ => rfl
  | .array items => congrArg (Doc.array · .closed) (ofItems_eq items)
  | .object members => congrArg (Doc.object · .closed) (ofMembers_eq members)

theorem ofItems_eq : ∀ (items : List Json), ofItems items = ofItemsBy .of items
  | [] => rfl
  | j :: items => by rw [ofItems, ofItemsBy, ofJson_eq j, ofItems_eq items]

theorem ofMembers_eq : ∀ (members : List (String × Json)),
    ofMembers members = ofMembersBy .of members
  | [] => rfl
  | (k, v) :: members => by rw [ofMembers, ofMembersBy, ofJson_eq v, ofMembers_eq members]

end

theorem ofMembersBy_append (r : Number → Reading Number) (ms ms' : List (String × Json)) :
    ofMembersBy r (ms ++ ms') = ofMembersBy r ms ++ ofMembersBy r ms' := by
  induction ms with
  | nil => rfl
  | cons m ms ih => rw [List.cons_append, ofMembersBy, ih, ofMembersBy, List.cons_append]

variable {src : Source}

/-- A value at hand is read as it is. -/
theorem content_atHand (hsrc : src.AtHand) (j : Json) : content src (ofJsonBy .of j) = .ok j :=
  (content_ofJsonBy_eq_ok_iff j).mpr
    ⟨hsrc.admits _, content_eq_of_kept j (all_of_forall (fun _ => rfl) j)⟩

theorem contentMembers_atHand (hsrc : src.AtHand) (ms : List (String × Json)) :
    contentMembers src (ofMembersBy .of ms) = .ok ms :=
  (contentMembers_ofMembersBy_eq_ok_iff ms).mpr
    ⟨hsrc.admits _, contentMembers_eq_of_kept ms (allMembers_of_forall (fun _ => rfl) ms)⟩

end Doc

/-! ### Codecs -/

/-- The generic value that a value is written as. -/
def Codec.toJson (c : Codec α) (a : α) : Json := (c.encode a).canonical

/-- Is every value that can be held read back from its generic value? -/
def Codec.Recovers (c : Codec α) (Held : α → Prop) : Prop :=
  ∀ src : Source, src.AtHand → ∀ a, Held a → c.decode src (.ofJsonBy .of (c.toJson a)) = .ok a

namespace Codec

variable {c : Codec α} {Held : α → Prop}

theorem Recovers.of_imp (h : c.Recovers Held) {Held' : α → Prop} (himp : ∀ a, Held' a → Held a) :
    c.Recovers Held' :=
  fun src hsrc a ha => h src hsrc a (himp a ha)

theorem Recovers.ofJson_toJson (h : c.Recovers Held) {a : α} (ha : Held a) :
    c.ofJson (c.toJson a) = .ok a := by
  rw [ofJson, Doc.ofJson_eq]
  exact h .value trivial a ha

/-- Leaves are in canonical form anyway. -/
theorem Lawful.recovers (h : c.Lawful) (hleaf : ∀ a, c.toJson a = c.encode a) :
    c.Recovers fun _ => True := by
  intro src hsrc a _
  rw [hleaf]
  exact (h.decode .of keepsWhole_of src a a).mpr ⟨hsrc.admits _, rfl⟩

theorem recovers_text : text.Recovers fun _ => True := lawful_text.recovers fun _ => rfl

/-- A generic value that is in canonical form. -/
theorem recovers_json : json.Recovers fun j => j.canonical = j := by
  intro src hsrc j hj
  have htoJson : json.toJson j = j := hj
  rw [htoJson]
  show (Doc.content src _).map canonical = _
  rw [Doc.content_atHand hsrc, Except.map, hj]

theorem Recovers.list (h : c.Recovers Held) : (list c).Recovers fun as => ∀ a ∈ as, Held a := by
  intro src hsrc as has
  have hitems : decodeItems (c.decode src) (Doc.ofItemsBy .of (as.map c.toJson)) = .ok as := by
    induction as with
    | nil => rfl
    | cons a as ih =>
      obtain ⟨ha, has⟩ := List.forall_mem_cons.mp has
      exact decodeItems_cons_eq_ok_iff.mpr ⟨a, h src hsrc a ha, as, ih has, rfl⟩
  have htoJson : (Codec.list c).toJson as = .array (as.map c.toJson) := by
    show Json.array (canonicalItems (as.map c.encode)) = _
    rw [canonicalItems_eq_map, List.map_map]
    rfl
  rw [htoJson]
  show (src.enter >>= fun inner => decodeItems (c.decode inner) _ >>= _) = _
  rw [hsrc.enter]
  show (decodeItems (c.decode src) _ >>= _) = _
  rw [hitems]
  rfl

end Codec

/-! ### Fields -/

/-- Is the value of a field read back in canonical form, and does it stand for itself where it is
left out? -/
def Field.Recovers (f : Field α) (Held : α → Prop) : Prop :=
  ∀ src : Source, src.AtHand → ∀ a, Held a →
    (∀ j, f.write a = some j → f.read src (.ofJsonBy .of j.canonical) = .ok a) ∧
      (f.write a = none → f.absent = some a)

/-- Are the values of fields read back from their members in canonical form, in whatever order these
stand? -/
def Fields.Recovers (fs : Fields τ) (Held : τ → Prop) : Prop :=
  ∀ src : Source, src.AtHand → ∀ a, Held a → ∀ ms : List (String × Json),
    ms.Perm (withCanonicalValues (fs.write a)) →
      (fs.putAll src fs.empty (Doc.ofMembersBy .of ms) >>= fs.complete) = .ok a

namespace Field

variable {c : Codec α} {Held : α → Prop}

theorem Recovers.required (h : c.Recovers Held) (key : String) :
    (required key c).Recovers Held :=
  fun src hsrc a ha => ⟨fun _ hj => Option.some.inj hj ▸ h src hsrc a ha, nofun⟩

theorem Recovers.withDefault (h : c.Recovers Held) (key : String) (value : α) :
    (withDefault key c value).Recovers Held :=
  fun src hsrc a ha => ⟨fun _ hj => Option.some.inj hj ▸ h src hsrc a ha, nofun⟩

theorem Recovers.optional (h : c.Recovers fun _ => True) (hnull : ∀ a, c.toJson a ≠ .null)
    (key : String) : (optional key c).Recovers fun _ => True := by
  intro src hsrc a? _
  refine ⟨fun j hj => ?_, fun hnone => congrArg some (Option.map_eq_none_iff.mp hnone).symm⟩
  obtain ⟨a, rfl, rfl⟩ := Option.map_eq_some_iff.mp hj
  -- `null` would be read as no value, but nothing is written so
  have hread : (Field.optional key c).read src (.ofJsonBy .of (c.toJson a)) =
      some <$> c.decode src (.ofJsonBy .of (c.toJson a)) := by
    unfold Field.optional
    dsimp only
    cases hj : c.toJson a with
    | null => exact absurd hj (hnull a)
    | bool | number | text | array | object => rfl
  exact hread.trans (congrArg (some <$> ·) (h src hsrc a trivial))

end Field

namespace Fields

theorem not_mem_keys_write {fs : Fields τ} {k : String} (h : k ∉ fs.keys) (a : τ) :
    k ∉ (fs.write a).map Prod.fst := by
  intro hmem
  obtain ⟨m, hm, rfl⟩ := List.mem_map.mp hmem
  exact h (key_mem_of_mem_write fs hm)

/-- The keys of the fields are the keys of the members, without repetition. -/
theorem nodup_keys_write : {τ : Type} → (fs : Fields τ) → fs.keys.Nodup → (a : τ) →
    ((fs.write a).map Prod.fst).Nodup
  | _, done, _, _ => List.nodup_nil
  | _, field f rest, hkeys, (a, b) => by
    obtain ⟨hkey, hrest⟩ := List.nodup_cons.mp hkeys
    have hothers := nodup_keys_write rest hrest b
    rw [write]
    split
    · exact List.nodup_cons.mpr ⟨not_mem_keys_write hkey b, hothers⟩
    · exact hothers

/-- Members in another order have no more keys. -/
theorem key_ne_of_perm {fs : Fields τ} {a : τ} {ms : List (String × Json)} {k : String}
    (hms : ms.Perm (withCanonicalValues (fs.write a))) (h : k ∉ fs.keys) :
    ∀ m ∈ ms, m.1 ≠ k := by
  rintro m hm rfl
  have hmem := (hms.map Prod.fst).mem_iff.mp (List.mem_map.mpr ⟨m, hm, rfl⟩)
  rw [keys_withCanonicalValues] at hmem
  exact not_mem_keys_write h a hmem

theorem putAll_append (src : Source) (fs : Fields τ) (slots : fs.Slots)
    (docs docs' : List (Reading String × Doc)) :
    fs.putAll src slots (docs ++ docs') =
      fs.putAll src slots docs >>= fun slots => fs.putAll src slots docs' := by
  induction docs generalizing slots with
  | nil => rfl
  | cons d docs ih =>
    obtain ⟨key, d⟩ := d
    simp only [List.cons_append, putAll, bind_assoc, ih]

/-- The member of a field is read wherever it stands among the others. -/
theorem putAll_here {f : Field α} {rest : Fields β} {src : Source} {a : α} {j : Json}
    {before after : List (String × Json)} (hread : f.read src (.ofJsonBy .of j) = .ok a)
    (hkeys : ∀ m ∈ before ++ after, m.1 ≠ f.key) (others : rest.Slots) :
    (field f rest).putAll src (slots f none others)
        (Doc.ofMembersBy .of (before ++ (f.key, j) :: after)) =
      slots f (some a) <$> rest.putAll src others (Doc.ofMembersBy .of (before ++ after)) := by
  have hothers : ∀ m ∈ before ++ after, f.key ≠ m.1 := fun m hm => (hkeys m hm).symm
  obtain ⟨hbefore, hafter⟩ := List.forall_mem_append.mp hothers
  rw [Doc.ofMembersBy_append, putAll_append, putAll_others src none others hbefore,
    Doc.ofMembersBy_append, putAll_append]
  cases rest.putAll src others (Doc.ofMembersBy .of before) with
  | error e => rfl
  | ok others' =>
    show (field f rest).putAll src (slots f none others')
      (Doc.ofMembersBy .of ((f.key, j) :: after)) =
        slots f (some a) <$> rest.putAll src others' (Doc.ofMembersBy .of after)
    rw [Doc.ofMembersBy, putAll_cons, put_here, hread]
    exact putAll_others src (some a) others' hafter

/-- The other fields are complete whatever the slot of one of them holds. -/
theorem complete_slots {f : Field α} {rest : Fields β} {slot : Option α} {a : α} {b : β}
    {read : Except JsonError rest.Slots}
    (hslot : ∀ others, (field f rest).complete (slots f slot others) =
      (a, ·) <$> rest.complete others)
    (hrest : read >>= rest.complete = .ok b) :
    (slots f slot <$> read) >>= (field f rest).complete = .ok (a, b) := by
  obtain ⟨others, rfl, hothers⟩ := bind_eq_ok_iff.mp hrest
  show (field f rest).complete (slots f slot others) = .ok (a, b)
  rw [hslot, hothers]
  rfl

theorem Recovers.done : Fields.done.Recovers fun _ => True := by
  rintro src _ ⟨⟩ _ ms hms
  rw [List.perm_nil.mp hms]
  rfl

theorem Recovers.field {f : Field α} {rest : Fields β} {Held : α → Prop} {Held' : β → Prop}
    (hf : f.Recovers Held) (hrest : rest.Recovers Held') (hkey : f.key ∉ rest.keys) :
    (Fields.field f rest).Recovers fun a => Held a.1 ∧ Held' a.2 := by
  rintro src hsrc ⟨a, b⟩ ⟨ha, hb⟩ ms hms
  obtain ⟨hread, habsent⟩ := hf src hsrc a ha
  cases hj : f.write a with
  | some j =>
    have hwrite : withCanonicalValues ((Fields.field f rest).write (a, b)) =
        (f.key, j.canonical) :: withCanonicalValues (rest.write b) := by
      rw [write, hj]
      rfl
    rw [hwrite] at hms
    obtain ⟨before, after, rfl⟩ := List.append_of_mem (hms.mem_iff.mpr List.mem_cons_self)
    replace hms := (List.perm_middle.symm.trans hms).cons_inv
    show (Fields.field f rest).putAll src (slots f none rest.empty) _ >>= _ = _
    rw [putAll_here (hread j hj) (key_ne_of_perm hms hkey)]
    exact complete_slots (fun others => complete_some others a) (hrest src hsrc b hb _ hms)
  | none =>
    have hwrite : (Fields.field f rest).write (a, b) = rest.write b := by
      rw [write, hj]
    rw [hwrite] at hms
    show (Fields.field f rest).putAll src (slots f none rest.empty) _ >>= _ = _
    rw [putAll_others src none _ fun m hm => (key_ne_of_perm hms hkey m hm).symm]
    exact complete_slots (fun others => complete_none others (habsent hj))
      (hrest src hsrc b hb ms hms)

/-- A record is read back from members in canonical form. -/
theorem Recovers.decode {fs : Fields τ} {Held : τ → Prop} (h : fs.Recovers Held)
    (expected : String) {src : Source} (hsrc : src.AtHand) {a : τ} (ha : Held a)
    {ms : List (String × Json)} (hms : ms.Perm (withCanonicalValues (fs.write a))) :
    fs.decode expected src (.ofJsonBy .of (.object ms)) = .ok a := by
  have hread := h src hsrc a ha ms hms
  show (src.enter >>= fun inner => fs.putAll inner fs.empty (Doc.ofMembersBy .of ms) >>= _) = _
  rw [hsrc.enter]
  exact hread

end Fields

/-- The generic value of a record has the members of the record. -/
theorem Codec.Recovers.record {fs : Fields τ} {Held : τ → Prop} (h : fs.Recovers Held)
    (hkeys : fs.keys.Nodup) {expected : String} {values : α → τ} {make : τ → α}
    (hmake : ∀ a, make (values a) = a) :
    (Codec.record expected fs values make).Recovers fun a => Held (values a) := by
  intro src hsrc a ha
  have hms := canonicalMembers_perm (Fields.nodup_keys_write fs hkeys (values a))
  show make <$> fs.decode expected src
    (.ofJsonBy .of (.object (canonicalMembers [] (fs.write (values a))))) = .ok a
  rw [h.decode expected hsrc ha hms]
  exact congrArg Except.ok (hmake a)

/-! ### Tagged choices -/

section Tagged

variable {key tag : String} {variants : List (Variant α)} {v : Variant α} {src : Source}

/-- A tag is found wherever it stands among the members, and the others are kept as they are. -/
theorem splitTag_atHand (hsrc : src.AtHand)
    (hv : variants.find? (fun v => v.tag == tag) = some v) {before after : List (String × Json)}
    (hkeys : ∀ m ∈ before ++ after, m.1 ≠ key) :
    splitTag key variants src none
        (Doc.ofMembersBy .of (before ++ (key, .text tag) :: after)) =
      .ok (some v, before ++ after) := by
  induction before with
  | nil =>
    rw [List.nil_append] at hkeys ⊢
    rw [splitTag_tag hv hkeys, Doc.contentMembers_atHand hsrc]
    rfl
  | cons m before ih =>
    obtain ⟨k, j⟩ := m
    obtain ⟨hkey, hkeys⟩ := List.forall_mem_cons.mp hkeys
    show (if k = key then _ else Doc.content src (.ofJsonBy .of j) >>= fun j => _) = _
    rw [if_neg hkey, Doc.content_atHand hsrc]
    show (splitTag key variants src none
      (Doc.ofMembersBy .of (before ++ (key, .text tag) :: after)) >>= _) = _
    rw [ih hkeys]
    rfl

/-- A case with fields is read back from the generic value of its tag and its fields. -/
theorem decodeTagged_canonical {fs : Fields τ} {Held : τ → Prop} (h : fs.Recovers Held)
    (hkeys : (key :: fs.keys).Nodup) {expected' tag' : String} {make : τ → α}
    (hv : variants.find? (fun v => v.tag == tag) = some (.ofFields tag' expected' fs make))
    (expected : String) (hsrc : src.AtHand) {t : τ} (ht : Held t) {a : α} (hmake : make t = a) :
    decodeTagged expected key variants src
        (.ofJsonBy .of (Json.object ((key, .text tag) :: fs.write t)).canonical) = .ok a := by
  obtain ⟨hkey, hfields⟩ := List.nodup_cons.mp hkeys
  have hnodup : (((key, Json.text tag) :: fs.write t).map Prod.fst).Nodup :=
    List.nodup_cons.mpr
      ⟨Fields.not_mem_keys_write hkey t, Fields.nodup_keys_write fs hfields t⟩
  have hperm := canonicalMembers_perm hnodup
  obtain ⟨before, after, hsplit⟩ := List.append_of_mem (hperm.mem_iff.mpr List.mem_cons_self)
  rw [Json.canonical, hsplit]
  rw [hsplit] at hperm
  have hothers : (before ++ after).Perm (withCanonicalValues (fs.write t)) :=
    (List.perm_middle.symm.trans hperm).cons_inv
  have hheld : Source.held.AtHand := trivial
  show (src.enter >>= fun inner => splitTag key variants inner none
    (Doc.ofMembersBy .of (before ++ (key, .text tag) :: after)) >>= _) = _
  rw [hsrc.enter]
  show (splitTag key variants src none
    (Doc.ofMembersBy .of (before ++ (key, .text tag) :: after)) >>= _) = _
  rw [splitTag_atHand hsrc hv (Fields.key_ne_of_perm hothers hkey)]
  show make <$> fs.decode expected' .held (.ofJson (.object (before ++ after))) = _
  rw [Doc.ofJson_eq, h.decode expected' hheld ht hothers]
  exact congrArg Except.ok hmake

end Tagged

end SchemaForge
