import Mathlib.Data.List.Forall2
import SchemaForge.Json.Record
import SchemaForge.Proofs.Json.Content

/-!
# Codecs read what they write

A codec is faithful if a value that it has written is read back exactly where the tree of the value
may be entered, and as the same value. What the same value is depends on how numbers are read as far
as the value has generic parts; for all other values it is the value itself.
-/

namespace SchemaForge

open Json

/-- A condition on the numbers in the generic parts of values. -/
abbrev OnNumbers (α : Type) := (Number → Prop) → α → Prop

/-- What a value may be read as, given how numbers are read. -/
abbrev ReadAs (α : Type) := (Number → Reading Number) → α → α → Prop

/-- Is a value read as something only if its numbers can be read, and then as the same when they are
settled? -/
structure Settles (On : OnNumbers α) (Same : ReadAs α) : Prop where
  readable : ∀ r a b, Same r a b → On (Readable r) a
  settled : ∀ r a b, Same (settled r) a b ↔ Same r a b

/-- Is a value read back from its tree exactly where that may be entered, and as one that is the
same? Numbers outside of the generic parts are whole. -/
structure Codec.Faithful (c : Codec α) (On : OnNumbers α) (Same : ReadAs α) : Prop
    extends Settles On Same where
  numbers : ∀ P : Number → Prop, (∀ i, P (.whole i)) → ∀ a, On P a → (c.encode a).All P
  decode : ∀ r, KeepsWhole r → ∀ src a b, c.decode src (.ofJsonBy r (c.encode a)) = .ok b ↔
    src.Admits (c.encode a).depth ∧ Same r a b

/-- Is a value without generic parts read back as it is? -/
abbrev Codec.Lawful (c : Codec α) : Prop := c.Faithful (fun _ _ => True) fun _ => Eq

/-- Is the value of a field read back, and does it stand for itself where it is left out? -/
structure Field.Faithful (f : Field α) (On : OnNumbers α) (Same : ReadAs α) : Prop
    extends Settles On Same where
  numbers : ∀ P : Number → Prop, (∀ i, P (.whole i)) → ∀ a, On P a →
    ∀ j, f.write a = some j → j.All P
  read : ∀ r, KeepsWhole r → ∀ a j, f.write a = some j → ∀ src b,
    f.read src (.ofJsonBy r j) = .ok b ↔ src.Admits j.depth ∧ Same r a b
  absent : ∀ a, f.write a = none → ∃ b, f.absent = some b ∧ ∀ r c, b = c ↔ Same r a c

/-- Is the value of a field without generic parts read back as it is? -/
abbrev Field.Lawful (f : Field α) : Prop := f.Faithful (fun _ _ => True) fun _ => Eq

/-- Are the values of fields read back from their members? -/
structure Fields.Faithful (fs : Fields τ) (On : OnNumbers τ) (Same : ReadAs τ) : Prop
    extends Settles On Same where
  numbers : ∀ P : Number → Prop, (∀ i, P (.whole i)) → ∀ a, On P a → AllMembers P (fs.write a)
  decode : ∀ r, KeepsWhole r → ∀ src a b,
    (fs.putAll src fs.empty (Doc.ofMembersBy r (fs.write a)) >>= fs.complete) = .ok b ↔
      src.Admits (depthMembers (fs.write a)) ∧ Same r a b

/-- Are the values of fields without generic parts read back as they are? -/
abbrev Fields.Lawful (fs : Fields τ) : Prop := fs.Faithful (fun _ _ => True) fun _ => Eq

variable {On : OnNumbers α} {Same : ReadAs α}

/-- Values without generic parts have no numbers to settle. -/
theorem settles_eq : Settles (α := α) (fun _ _ => True) fun _ => Eq where
  readable _ _ _ _ := trivial
  settled _ _ _ := Iff.rfl

theorem Settles.congr (h : Settles On Same) {On' : OnNumbers α} {Same' : ReadAs α}
    (hon : ∀ P a, On P a ↔ On' P a) (hsame : ∀ r a b, Same r a b ↔ Same' r a b) :
    Settles On' Same' where
  readable r a b hab := (hon _ a).mp (h.readable r a b ((hsame r a b).mpr hab))
  settled r a b := by rw [← hsame, ← hsame, h.settled]

/-! ### Plain codecs -/

namespace Codec

theorem Faithful.congr {c : Codec α} (h : c.Faithful On Same) {On' : OnNumbers α}
    {Same' : ReadAs α} (hon : ∀ P a, On P a ↔ On' P a)
    (hsame : ∀ r a b, Same r a b ↔ Same' r a b) : c.Faithful On' Same' where
  toSettles := h.toSettles.congr hon hsame
  numbers P hP a ha := h.numbers P hP a ((hon P a).mpr ha)
  decode r hr src a b := by rw [h.decode r hr, hsame]

/-- Leaves may be entered everywhere. -/
theorem Lawful.of_leaf {c : Codec α}
    (hnumbers : ∀ P : Number → Prop, (∀ i, P (.whole i)) → ∀ a, (c.encode a).All P)
    (hdepth : ∀ a, (c.encode a).depth = 0)
    (hread : ∀ r, KeepsWhole r → ∀ src a, c.decode src (.ofJsonBy r (c.encode a)) = .ok a) :
    c.Lawful where
  toSettles := settles_eq
  numbers P hP a _ := hnumbers P hP a
  decode r hr src a b := by
    rw [hread r hr, hdepth]
    exact ⟨fun h => ⟨src.admits_zero, Except.ok.inj h⟩, fun h => congrArg Except.ok h.2⟩

theorem lawful_text : text.Lawful :=
  .of_leaf (fun _ _ _ => trivial) (fun _ => rfl) fun _ _ _ _ => rfl

theorem lawful_bool : bool.Lawful :=
  .of_leaf (fun _ _ _ => trivial) (fun _ => rfl) fun _ _ _ _ => rfl

/-- Words are whole numbers within bounds. -/
theorem decodeBelow_ofWord {r : Number → Reading Number} (hr : KeepsWhole r) {w : UInt64}
    {bound : Nat} (h : w.toNat < bound) (expected : String) :
    decodeBelow bound expected (.ofJsonBy r (.ofWord w)) = .ok w.toNat := by
  rw [Json.ofWord, Doc.ofJsonBy, hr, decodeBelow]
  exact if_pos ⟨Int.natCast_nonneg _, Int.ofNat_lt.mpr h⟩

theorem lawful_word64 : word64.Lawful := by
  refine .of_leaf (fun _ hP _ => hP _) (fun _ => rfl) fun r hr src w => ?_
  show UInt64.ofNat <$> decodeBelow _ _ (.ofJsonBy r (.ofWord w)) = _
  rw [decodeBelow_ofWord hr w.toNat_lt]
  exact congrArg Except.ok UInt64.ofNat_toNat

theorem lawful_word32 : word32.Lawful := by
  refine .of_leaf (fun _ hP _ => hP _) (fun _ => rfl) fun r hr src w => ?_
  have hw : w.toUInt64.toNat = w.toNat := UInt32.toNat_toUInt64 w
  show UInt32.ofNat <$> decodeBelow _ _ (.ofJsonBy r (.ofWord w.toUInt64)) = _
  rw [decodeBelow_ofWord hr (hw ▸ w.toNat_lt), hw]
  exact congrArg Except.ok UInt32.ofNat_toNat

theorem lawful_word8 : word8.Lawful := by
  refine .of_leaf (fun _ hP _ => hP _) (fun _ => rfl) fun r hr src w => ?_
  have hw : w.toUInt64.toNat = w.toNat := UInt8.toNat_toUInt64 w
  show UInt8.ofNat <$> decodeBelow _ _ (.ofJsonBy r (.ofWord w.toUInt64)) = _
  rw [decodeBelow_ofWord hr (hw ▸ w.toNat_lt), hw]
  exact congrArg Except.ok UInt8.ofNat_toNat

/-- A name of one case alone picks the case. -/
theorem pick_name {cases : List α} {name : α → String} (hmem : ∀ a, a ∈ cases)
    (hinj : ∀ a b, name a = name b → a = b) (a : α) : pick cases name (name a) = .ok a := by
  unfold pick
  split
  · next b hb =>
    have hname : name b = name a := by simpa using List.find?_some hb
    rw [hinj b a hname]
  · next hnone =>
    exact absurd (beq_self_eq_true (name a)) (List.find?_eq_none.mp hnone a (hmem a))

theorem lawful_choice {cases : List α} {name : α → String} (hmem : ∀ a, a ∈ cases)
    (hinj : ∀ a b, name a = name b → a = b) : (choice cases name).Lawful := by
  refine .of_leaf (fun _ _ _ => trivial) (fun _ => rfl) fun r _ src a => ?_
  cases src with
  | text levels => exact pick_name hmem hinj a
  | value => exact pick_name hmem hinj a
  | held => exact pick_name hmem hinj a

/-! ### Texts -/

/-- A value is read back from its text exactly if that is not nested too deep. -/
theorem Faithful.ofText_eq_ok_iff {c : Codec α} (h : c.Faithful On Same) {a b : α}
    (ha : On Written a) :
    c.ofText (c.toText a) = .ok b ↔ (c.encode a).depth ≤ 127 ∧ Same reread a b := by
  have hread : c.ofText (c.toText a) = c.decode .wholeText (.ofJsonBy reread (c.encode a)) := by
    rw [ofText, ofBytes, toText, Doc.ofBytes_render (h.numbers Written written_whole a ha)]
    dsimp only
    cases c.decode .wholeText (.ofJsonBy reread (c.encode a)) with
    | error e => rfl
    | ok b => rfl
  rw [hread]
  exact h.decode reread keepsWhole_reread .wholeText a b

/-! ### Generic values and lists -/

/-- A generic value is read as what its numbers are read as, in canonical form. -/
def json.ReadAs : ReadAs Json := fun r j j' =>
  ∃ j'', (Doc.ofJsonBy r j).content .value = .ok j'' ∧ j''.canonical = j'

theorem faithful_json : json.Faithful (fun P j => j.All P) json.ReadAs where
  readable _ j _ h := (Doc.exists_content_iff j).mp (h.imp fun _ h => h.1)
  settled r j _ := by
    unfold json.ReadAs
    rw [Doc.content_congr (value_settled r) j]
  numbers _ _ _ h := h
  decode r _ src j j' := by
    show ((Doc.ofJsonBy r j).content src).map canonical = .ok j' ↔ _
    rw [map_eq_ok_iff, json.ReadAs, ← exists_and_left]
    refine exists_congr fun j'' => ?_
    rw [Doc.content_ofJsonBy_eq_ok_iff, and_assoc]
    rfl

theorem decodeItems_cons_eq_ok_iff {decode : Doc → Except JsonError α} {d : Doc} {docs : List Doc}
    {as : List α} :
    decodeItems decode (d :: docs) = .ok as ↔
      ∃ a, decode d = .ok a ∧ ∃ more, decodeItems decode docs = .ok more ∧ a :: more = as := by
  rw [decodeItems, bind_eq_ok_iff]
  refine exists_congr fun a => and_congr_right fun _ => ?_
  rw [bind_eq_ok_iff]
  refine exists_congr fun more => and_congr_right fun _ => ?_
  exact ⟨Except.ok.inj, congrArg Except.ok⟩

theorem Faithful.decodeItems {c : Codec α} (h : c.Faithful On Same) {r : Number → Reading Number}
    (hr : KeepsWhole r) (src : Source) (as bs : List α) :
    Codec.decodeItems (c.decode src) (Doc.ofItemsBy r (as.map c.encode)) = .ok bs ↔
      src.Admits (depthItems (as.map c.encode)) ∧ List.Forall₂ (Same r) as bs := by
  induction as generalizing bs with
  | nil =>
    rw [List.forall₂_nil_left_iff]
    exact ⟨fun h => ⟨src.admits_zero, (Except.ok.inj h).symm⟩, fun h => congrArg Except.ok h.2.symm⟩
  | cons a as ih =>
    rw [List.map_cons, Doc.ofItemsBy, decodeItems_cons_eq_ok_iff, depthItems,
      Source.admits_max_iff, List.forall₂_cons_left_iff]
    constructor
    · rintro ⟨b, hb, more, hmore, rfl⟩
      obtain ⟨hdepth, hsame⟩ := (h.decode r hr src a b).mp hb
      obtain ⟨hdepths, hall⟩ := (ih more).mp hmore
      exact ⟨⟨hdepth, hdepths⟩, b, more, hsame, hall, rfl⟩
    · rintro ⟨⟨hdepth, hdepths⟩, b, more, hsame, hall, rfl⟩
      exact ⟨b, (h.decode r hr src a b).mpr ⟨hdepth, hsame⟩, more, (ih more).mpr ⟨hdepths, hall⟩, rfl⟩

theorem Faithful.list {c : Codec α} (h : c.Faithful On Same) :
    (list c).Faithful (fun P as => ∀ a ∈ as, On P a) fun r => List.Forall₂ (Same r) where
  readable r as bs hall := by
    induction hall with
    | nil => exact nofun
    | cons hab _ ih => exact List.forall_mem_cons.mpr ⟨h.readable r _ _ hab, ih⟩
  settled r as bs := by
    rw [show Same (Json.settled r) = Same r from funext₂ fun a b => propext (h.settled r a b)]
  numbers P hP as has := by
    show AllItems P (as.map c.encode)
    induction as with
    | nil => trivial
    | cons a as ih =>
      obtain ⟨ha, has⟩ := List.forall_mem_cons.mp has
      exact ⟨h.numbers P hP a ha, ih has⟩
  decode r hr src as bs := by
    show (src.enter >>= _) = .ok bs ↔ src.Admits (1 + depthItems (as.map c.encode)) ∧ _
    rw [bind_eq_ok_iff]
    apply Source.exists_enter_iff
    intro inner _
    rw [← h.decodeItems hr]
    cases Codec.decodeItems (c.decode inner) (Doc.ofItemsBy r (as.map c.encode)) with
    | ok _ => rfl
    | error _ => rfl

theorem Lawful.list {c : Codec α} (h : c.Lawful) : (list c).Lawful :=
  (Faithful.list h).congr (fun _ _ => ⟨fun _ => trivial, fun _ _ _ => trivial⟩)
    fun _ as bs => by rw [List.forall₂_eq_eq_eq]

end Codec

/-! ### Fields -/

namespace Field

@[simp]
theorem key_required (key : String) (c : Codec α) : (required key c).key = key := rfl

@[simp]
theorem key_withDefault (key : String) (c : Codec α) (value : α) :
    (withDefault key c value).key = key := rfl

@[simp]
theorem key_optional (key : String) (c : Codec α) : (optional key c).key = key := rfl

theorem Faithful.required {c : Codec α} (h : c.Faithful On Same) (key : String) :
    (required key c).Faithful On Same where
  toSettles := h.toSettles
  numbers P hP a ha _ hj := Option.some.inj hj ▸ h.numbers P hP a ha
  read r hr a _ hj src b := Option.some.inj hj ▸ h.decode r hr src a b
  absent _ := nofun

theorem Faithful.withDefault {c : Codec α} (h : c.Faithful On Same) (key : String) (value : α) :
    (withDefault key c value).Faithful On Same where
  toSettles := h.toSettles
  numbers P hP a ha _ hj := Option.some.inj hj ▸ h.numbers P hP a ha
  read r hr a _ hj src b := Option.some.inj hj ▸ h.decode r hr src a b
  absent _ := nofun

theorem Lawful.optional {c : Codec α} (h : c.Lawful) (hnull : ∀ a, c.encode a ≠ .null)
    (key : String) : (Field.optional key c).Lawful where
  toSettles := settles_eq
  numbers P hP a? _ j hj := by
    obtain ⟨a, rfl, rfl⟩ := Option.map_eq_some_iff.mp hj
    exact h.numbers P hP a trivial
  read r hr a? j hj src b? := by
    obtain ⟨a, rfl, rfl⟩ := Option.map_eq_some_iff.mp hj
    -- `null` would be read as no value, but nothing is written so
    have hread : (Field.optional key c).read src (.ofJsonBy r (c.encode a)) =
        some <$> c.decode src (.ofJsonBy r (c.encode a)) := by
      unfold Field.optional
      dsimp only
      cases hj : c.encode a with
      | null => exact absurd hj (hnull a)
      | bool | number | text | array | object => rfl
    rw [hread]
    constructor
    · intro hsome
      obtain ⟨b, hb, rfl⟩ := map_eq_ok_iff.mp (show (c.decode src _).map some = _ from hsome)
      obtain ⟨hdepth, rfl⟩ := (h.decode r hr src a b).mp hb
      exact ⟨hdepth, rfl⟩
    · rintro ⟨hdepth, rfl⟩
      show (c.decode src _).map some = _
      exact map_eq_ok_iff.mpr ⟨a, (h.decode r hr src a a).mpr ⟨hdepth, rfl⟩, rfl⟩
  absent a? ha := by
    obtain rfl := Option.map_eq_none_iff.mp ha
    exact ⟨none, rfl, fun _ _ => Iff.rfl⟩

end Field

namespace Fields

@[simp]
theorem keys_done : done.keys = [] := rfl

@[simp]
theorem keys_field (f : Field α) (rest : Fields β) : (field f rest).keys = f.key :: rest.keys := rfl

/-- The members of a record have keys of its fields. -/
theorem key_mem_of_mem_write : {τ : Type} → (fs : Fields τ) → {a : τ} → {m : String × Json} →
    m ∈ fs.write a → m.1 ∈ fs.keys
  | _, done, _, _, hm => absurd hm List.not_mem_nil
  | _, field f rest, (a, b), m, hm => by
    rw [write] at hm
    split at hm
    · rcases List.mem_cons.mp hm with rfl | hm
      · exact List.mem_cons_self
      · exact List.mem_cons_of_mem _ (key_mem_of_mem_write rest hm)
    · exact List.mem_cons_of_mem _ (key_mem_of_mem_write rest hm)

/-- The slot of a field beside those of the others. -/
def slots (f : Field α) {rest : Fields β} (slot : Option α) (others : rest.Slots) :
    (field f rest).Slots := (slot, others)

section Slots

variable {f : Field α} {rest : Fields β} {r : Number → Reading Number} (src : Source)
  (slot : Option α) (others : rest.Slots)

theorem put_other {key : String} (h : f.key ≠ key) (d : Doc) :
    (field f rest).put src key d (slots f slot others) =
      slots f slot <$> rest.put src key d others :=
  if_neg h

theorem put_here (d : Doc) : (field f rest).put src f.key d (slots f none others) =
    (fun a => slots f (some a) others) <$> f.read src d :=
  if_pos rfl

theorem putAll_cons (fs : Fields τ) (others : fs.Slots) (k : String) (d : Doc)
    (docs : List (Reading String × Doc)) :
    fs.putAll src others ((.of k, d) :: docs) =
      (fs.put src k d others >>= fun others => fs.putAll src others docs) := rfl

/-- Members of other keys leave the slot of a field as it is. -/
theorem putAll_others {ms : List (String × Json)} (hkeys : ∀ m ∈ ms, f.key ≠ m.1) :
    (field f rest).putAll src (slots f slot others) (Doc.ofMembersBy r ms) =
      slots f slot <$> rest.putAll src others (Doc.ofMembersBy r ms) := by
  induction ms generalizing others with
  | nil => rfl
  | cons m ms ih =>
    obtain ⟨k, v⟩ := m
    obtain ⟨hkey, hkeys⟩ := List.forall_mem_cons.mp hkeys
    rw [Doc.ofMembersBy, putAll_cons, putAll_cons, put_other src slot others hkey]
    cases rest.put src k (.ofJsonBy r v) others with
    | error e => rfl
    | ok others => exact ih others hkeys

/-- A value that was read stands in its slot. -/
theorem complete_some (a : α) :
    (field f rest).complete (slots f (some a) others) = (a, ·) <$> rest.complete others :=
  rfl

/-- A field without a value stands for what it does where it is absent. -/
theorem complete_none {a : α} (h : f.absent = some a) :
    (field f rest).complete (slots f none others) = (a, ·) <$> rest.complete others := by
  obtain ⟨key, write, read, absent⟩ := f
  obtain rfl : absent = some a := h
  rfl

end Slots

theorem Lawful.done : Fields.done.Lawful where
  toSettles := settles_eq
  numbers _ _ _ _ := trivial
  decode _ _ src _ _ := ⟨fun _ => ⟨src.admits_zero, rfl⟩, fun _ => rfl⟩

/-- The other fields are read whatever the slot of one of them holds. -/
theorem Faithful.read_others {f : Field α} {rest : Fields β} {On' : OnNumbers β}
    {Same' : ReadAs β} {r : Number → Reading Number} (hrest : rest.Faithful On' Same')
    (hr : KeepsWhole r) (src : Source) {slot : Option α} {a c : α} {b d : β}
    (hkeys : ∀ m ∈ rest.write b, f.key ≠ m.1)
    (hslot : ∀ others, (Fields.field f rest).complete (slots f slot others) =
      (a, ·) <$> rest.complete others) :
    ((Fields.field f rest).putAll src (slots f slot rest.empty)
        (Doc.ofMembersBy r (rest.write b)) >>= (Fields.field f rest).complete) = .ok (c, d) ↔
      a = c ∧ src.Admits (depthMembers (rest.write b)) ∧ Same' r b d := by
  rw [putAll_others src slot _ hkeys, ← hrest.decode r hr]
  cases rest.putAll src rest.empty (Doc.ofMembersBy r (rest.write b)) with
  | error e => exact ⟨nofun, fun h => nomatch h.2⟩
  | ok others =>
    show (Fields.field f rest).complete (slots f slot others) = _ ↔ _ ∧ rest.complete others = _
    rw [hslot]
    cases rest.complete others with
    | error e => exact ⟨nofun, fun h => nomatch h.2⟩
    | ok others =>
      show Except.ok (a, others) = Except.ok (c, d) ↔ a = c ∧ Except.ok others = Except.ok d
      simp

theorem Faithful.field {f : Field α} {rest : Fields β} {On' : OnNumbers β} {Same' : ReadAs β}
    (hf : f.Faithful On Same) (hrest : rest.Faithful On' Same') (hkey : f.key ∉ rest.keys) :
    (Fields.field f rest).Faithful (fun P a => On P a.1 ∧ On' P a.2)
      fun r a b => Same r a.1 b.1 ∧ Same' r a.2 b.2 where
  readable r _ _ h := ⟨hf.readable r _ _ h.1, hrest.readable r _ _ h.2⟩
  settled r _ _ := and_congr (hf.settled r _ _) (hrest.settled r _ _)
  numbers P hP := by
    rintro ⟨a, b⟩ ⟨ha, hb⟩
    rw [write]
    split
    · next j hj => exact ⟨hf.numbers P hP a ha j hj, hrest.numbers P hP b hb⟩
    · exact hrest.numbers P hP b hb
  decode r hr src := by
    rintro ⟨a, b⟩ ⟨c, d⟩
    -- no member of the other fields has this key, so each slot is filled by its own member alone
    have hothers : ∀ m ∈ rest.write b, f.key ≠ m.1 :=
      fun m hm heq => hkey (heq ▸ key_mem_of_mem_write rest hm)
    cases hj : f.write a with
    | some j =>
      have hwrite : (Fields.field f rest).write (a, b) = (f.key, j) :: rest.write b := by
        rw [write, hj]
      rw [hwrite, Doc.ofMembersBy, depthMembers, Source.admits_max_iff, putAll_cons]
      show ((Fields.field f rest).put src f.key (.ofJsonBy r j) (slots f none rest.empty) >>= _)
        >>= _ = _ ↔ _
      have hhere := hf.read r hr a j hj src c
      rw [put_here]
      cases hread : f.read src (.ofJsonBy r j) with
      | error e =>
        rw [hread] at hhere
        exact ⟨nofun, fun ⟨hdepth, hsame⟩ => nomatch hhere.mpr ⟨hdepth.1, hsame.1⟩⟩
      | ok a' =>
        rw [hread, Except.ok.injEq] at hhere
        refine (hrest.read_others hr src hothers fun others => complete_some others a').trans ?_
        rw [hhere]
        exact ⟨fun ⟨⟨hj, ha⟩, hms, hb⟩ => ⟨⟨hj, hms⟩, ha, hb⟩,
          fun ⟨⟨hj, hms⟩, ha, hb⟩ => ⟨⟨hj, ha⟩, hms, hb⟩⟩
    | none =>
      obtain ⟨c', hc', hsame⟩ := hf.absent a hj
      have hwrite : (Fields.field f rest).write (a, b) = rest.write b := by
        rw [write, hj]
      rw [hwrite]
      refine (hrest.read_others hr src hothers fun others => complete_none others hc').trans ?_
      rw [hsame r c]
      exact ⟨fun ⟨ha, hdepth, hb⟩ => ⟨hdepth, ha, hb⟩, fun ⟨hdepth, ha, hb⟩ => ⟨ha, hdepth, hb⟩⟩

theorem Faithful.congr {fs : Fields τ} {On On' : OnNumbers τ} {Same Same' : ReadAs τ}
    (h : fs.Faithful On Same) (hon : ∀ P a, On P a ↔ On' P a)
    (hsame : ∀ r a b, Same r a b ↔ Same' r a b) : fs.Faithful On' Same' where
  toSettles := h.toSettles.congr hon hsame
  numbers P hP a ha := h.numbers P hP a ((hon P a).mpr ha)
  decode r hr src a b := by rw [h.decode r hr, hsame]

theorem Lawful.field {f : Field α} {rest : Fields β} (hf : f.Lawful) (hrest : rest.Lawful)
    (hkey : f.key ∉ rest.keys) : (Fields.field f rest).Lawful :=
  (Faithful.field hf hrest hkey).congr (fun _ _ => and_self_iff) fun _ _ _ => Prod.ext_iff.symm

/-- A record is read back from the object of its members. -/
theorem Faithful.decode_object {fs : Fields τ} {On : OnNumbers τ} {Same : ReadAs τ}
    (h : fs.Faithful On Same) {r : Number → Reading Number} (hr : KeepsWhole r) (expected : String)
    (src : Source) (a b : τ) :
    fs.decode expected src (.ofJsonBy r (.object (fs.write a))) = .ok b ↔
      src.Admits (1 + depthMembers (fs.write a)) ∧ Same r a b := by
  show (src.enter >>= _) = .ok b ↔ _
  rw [bind_eq_ok_iff]
  apply Source.exists_enter_iff
  intro inner _
  rw [← h.decode r hr inner a b]
  rfl

end Fields

namespace Codec

/-- The values that a record is read as are made of those of its fields. -/
theorem Faithful.record {fs : Fields τ} {On : OnNumbers τ} {Same : ReadAs τ}
    (h : fs.Faithful On Same) (expected : String) (values : α → τ) (make : τ → α) :
    (record expected fs values make).Faithful (fun P a => On P (values a))
      fun r a b => ∃ t, Same r (values a) t ∧ make t = b where
  readable r a _ := fun ⟨t, hsame, _⟩ => h.readable r (values a) t hsame
  settled r a _ := exists_congr fun t => and_congr_left' (h.settled r (values a) t)
  numbers P hP a ha := h.numbers P hP (values a) ha
  decode r hr src a b := by
    show (fs.decode expected src (.ofJsonBy r (.object (fs.write (values a))))).map make = .ok b ↔
      src.Admits (1 + depthMembers (fs.write (values a))) ∧ _
    rw [map_eq_ok_iff, ← exists_and_left]
    refine exists_congr fun t => ?_
    rw [h.decode_object hr, and_assoc]

theorem Lawful.record {fs : Fields τ} (h : fs.Lawful) {expected : String} {values : α → τ}
    {make : τ → α} (hmake : ∀ a, make (values a) = a) :
    (record expected fs values make).Lawful := by
  refine (Faithful.record h expected values make).congr (fun _ _ => Iff.rfl) fun r a b => ?_
  constructor
  · rintro ⟨t, rfl, rfl⟩
    exact (hmake a).symm
  · rintro rfl
    exact ⟨_, rfl, hmake a⟩

end Codec

/-! ### Tagged choices -/

section Tagged

variable {r : Number → Reading Number} {key tag : String} {variants : List (Variant α)}
  {v : Variant α} {members : List (String × Json)}

/-- Members beside the tag are kept as generic values. -/
theorem splitTag_others (src : Source) (found : Option (Variant α))
    (hkeys : ∀ m ∈ members, m.1 ≠ key) :
    splitTag key variants src found (Doc.ofMembersBy r members) =
      (found, ·) <$> Doc.contentMembers src (Doc.ofMembersBy r members) :=
  Doc.split_others rfl (fun _ _ _ hkey => if_neg hkey) hkeys

/-- A tag that stands first picks its case. -/
theorem splitTag_tag (hv : variants.find? (fun v => v.tag == tag) = some v)
    (hkeys : ∀ m ∈ members, m.1 ≠ key) (src : Source) :
    splitTag key variants src none (Doc.ofMembersBy r ((key, .text tag) :: members)) =
      (some v, ·) <$> Doc.contentMembers src (Doc.ofMembersBy r members) := by
  have hread : readTag variants src (.ofJsonBy r (.text tag)) = .ok v := by
    unfold readTag
    simp only [Doc.ofJsonBy, Reading.of, ok_bind, hv, pure_eq_ok]
  show (if key = key then readTag variants src (.ofJsonBy r (.text tag)) >>= _ else _) = _
  rw [if_pos rfl, hread]
  exact splitTag_others src (some v) hkeys

/-- A tagged choice is read by the case of its tag, whose members are read before. -/
theorem decodeTagged_eq_ok_iff {expected : String} {src : Source} {a : α}
    (hv : variants.find? (fun v => v.tag == tag) = some v) (hkeys : ∀ m ∈ members, m.1 ≠ key) :
    decodeTagged expected key variants src (.ofJsonBy r (.object ((key, .text tag) :: members))) =
        .ok a ↔
      src.Admits (1 + depthMembers members) ∧ AllMembers (Readable r) members ∧
        v.decode (.ofJsonBy (settled r) (.object members)) = .ok a := by
  show (src.enter >>= fun inner => splitTag key variants inner none
    (Doc.ofMembersBy r ((key, .text tag) :: members)) >>= _) = _ ↔ _
  rw [bind_eq_ok_iff]
  apply Source.exists_enter_iff
  intro inner _
  rw [splitTag_tag hv hkeys, bind_map_left]
  exact Doc.contentMembers_bind_eq_ok_iff v.decode

/-- A case with fields is read as what its fields are read as. -/
theorem decodeTagged_ofFields_eq_ok_iff {fs : Fields τ} {On : OnNumbers τ} {Same : ReadAs τ}
    (h : fs.Faithful On Same) (hr : KeepsWhole r) {expected' tag' : String} {make : τ → α}
    (hv : variants.find? (fun v => v.tag == tag) = some (.ofFields tag' expected' fs make))
    (hkey : key ∉ fs.keys) (expected : String) (src : Source) (t : τ) {a : α} :
    decodeTagged expected key variants src
        (.ofJsonBy r (.object ((key, .text tag) :: fs.write t))) = .ok a ↔
      src.Admits (Json.object ((key, .text tag) :: fs.write t)).depth ∧
        ∃ t', Same r t t' ∧ make t' = a := by
  have hdepth : (Json.object ((key, .text tag) :: fs.write t)).depth =
      1 + depthMembers (fs.write t) := congrArg (1 + ·) (Nat.zero_max _)
  have hkeys : ∀ m ∈ fs.write t, m.1 ≠ key :=
    fun m hm heq => hkey (heq ▸ Fields.key_mem_of_mem_write fs hm)
  rw [decodeTagged_eq_ok_iff hv hkeys, hdepth]
  refine and_congr_right fun _ => ?_
  show _ ∧ (fs.decode expected' .held (.ofJsonBy (settled r) (.object (fs.write t)))).map make = _ ↔ _
  rw [map_eq_ok_iff]
  constructor
  · rintro ⟨-, t', ht', rfl⟩
    exact ⟨t', (h.settled r t t').mp ((h.decode_object hr.settled _ _ t t').mp ht').2, rfl⟩
  · rintro ⟨t', ht', rfl⟩
    exact ⟨h.numbers _ (fun i => ⟨.whole i, by rw [hr i]; rfl⟩) t (h.readable r t t' ht'), t',
      (h.decode_object hr.settled _ _ t t').mpr ⟨trivial, (h.settled r t t').mpr ht'⟩, rfl⟩

end Tagged

end SchemaForge
