import SchemaForge.Proofs.Json.Origin
import SchemaForge.Proofs.Schema.Codecs

/-!
# Where the literals of return values come from

A value that is read from a tree has no numbers but those of the tree. The fields of a tagged choice
are read from what is held of it, which is read from the tree in turn.
-/

namespace SchemaForge

open Json

variable {P : Number → Prop} {Q : α → Prop}

/-- Do all values that are read meet a condition, if the numbers of the tree do? -/
def Codec.Carries (c : Codec α) (P : Number → Prop) (Q : α → Prop) : Prop :=
  ∀ src d a, d.Numbers P → c.decode src d = .ok a → Q a

namespace Codec

variable {c : Codec α}

theorem carries_json : json.Carries P (All P) := fun _ _ _ hd h => all_of_decode hd h

theorem Carries.decodeItems (hc : c.Carries P Q) {src : Source} {docs : List Doc} {as : List α}
    (hdocs : Doc.ItemNumbers P docs) (h : Codec.decodeItems (c.decode src) docs = .ok as) :
    ∀ a ∈ as, Q a := by
  induction docs generalizing as with
  | nil =>
    obtain rfl := Except.ok.inj h
    exact fun a ha => absurd ha List.not_mem_nil
  | cons d docs ih =>
    obtain ⟨a, ha, more, hmore, rfl⟩ := decodeItems_cons_eq_ok_iff.mp h
    exact List.forall_mem_cons.mpr ⟨hc src d a hdocs.1 ha, ih hdocs.2 hmore⟩

theorem Carries.list (hc : c.Carries P Q) : (list c).Carries P fun as => ∀ a ∈ as, Q a := by
  intro src d as hd h
  cases d with
  | array items stop =>
    obtain ⟨inner, -, h⟩ := bind_eq_ok_iff.mp h
    obtain ⟨as', has, h⟩ := bind_eq_ok_iff.mp h
    obtain rfl := Except.ok.inj (check_bind_eq_ok_iff.mp h).2
    exact hc.decodeItems hd has
  | null | bool | number | string | object | fault =>
    obtain ⟨found, -, h⟩ := bind_eq_ok_iff.mp h
    cases h

/-! ### The first field of a record -/

section First

variable {rest : Fields β} {key expected : String} {src : Source}

theorem Carries.put (hc : c.Carries P Q) {k : String} {d : Doc} (hd : d.Numbers P)
    {slot : Option α} {others : rest.Slots} {after : (Fields.field (.required key c) rest).Slots}
    (hslot : ∀ a, slot = some a → Q a)
    (h : Fields.put src k d _ (Fields.slots (.required key c) slot others) = .ok after) :
    ∃ slot' others', after = Fields.slots (.required key c) slot' others' ∧
      ∀ a, slot' = some a → Q a := by
  by_cases hkey : key = k
  · subst hkey
    cases slot with
    | some a =>
      rw [show Fields.put src key d _ (Fields.slots (.required key c) (some a) others) =
        .error (.duplicateField key) from if_pos rfl] at h
      cases h
    | none =>
      have hput := Fields.put_here (f := .required key c) src others d
      obtain ⟨a, ha, rfl⟩ := map_eq_ok_iff.mp (hput.symm.trans h)
      exact ⟨some a, others, rfl, fun b hb => Option.some.inj hb ▸ hc src d a hd ha⟩
  · rw [Fields.put_other src slot others hkey] at h
    obtain ⟨others', -, rfl⟩ := map_eq_ok_iff.mp h
    exact ⟨slot, others', rfl, hslot⟩

theorem Carries.putAll (hc : c.Carries P Q) {members : List (Reading String × Doc)}
    (hmembers : Doc.MemberNumbers P members) {slot : Option α} {others : rest.Slots}
    {after : (Fields.field (.required key c) rest).Slots} (hslot : ∀ a, slot = some a → Q a)
    (h : Fields.putAll src _ (Fields.slots (.required key c) slot others) members = .ok after) :
    ∃ slot' others', after = Fields.slots (.required key c) slot' others' ∧
      ∀ a, slot' = some a → Q a := by
  induction members generalizing slot others with
  | nil => exact ⟨slot, others, (Except.ok.inj h).symm, hslot⟩
  | cons member members ih =>
    obtain ⟨k, -, h⟩ := bind_eq_ok_iff.mp h
    obtain ⟨between, hput, h⟩ := bind_eq_ok_iff.mp h
    obtain ⟨slot', others', rfl, hslot'⟩ := hc.put hmembers.1 hslot hput
    exact ih hmembers.2 hslot' h

/-- The first field of a record is read from one of the members, or from the first item. -/
theorem Carries.first (hc : c.Carries P Q) {d : Doc} (hd : d.Numbers P) {a : α} {b : β}
    (h : (Fields.field (.required key c) rest).decode expected src d = .ok (a, b)) : Q a := by
  unfold Fields.decode at h
  split at h
  · next members stop =>
    obtain ⟨inner, -, h⟩ := bind_eq_ok_iff.mp h
    obtain ⟨after, hafter, h⟩ := bind_eq_ok_iff.mp h
    have hempty : ∀ a, (none : Option α) = some a → Q a := nofun
    obtain ⟨slot, others, rfl, hslot⟩ := hc.putAll hd hempty hafter
    replace h := (check_bind_eq_ok_iff.mp h).2
    cases slot with
    | none => cases h
    | some a' =>
      rw [Fields.complete_some] at h
      obtain ⟨b', -, hpair⟩ := map_eq_ok_iff.mp h
      obtain ⟨rfl, -⟩ := Prod.mk.inj hpair
      exact hslot a' rfl
  · next items stop =>
    obtain ⟨inner, -, h⟩ := bind_eq_ok_iff.mp h
    obtain ⟨⟨value, left⟩, hvalue, h⟩ := bind_eq_ok_iff.mp h
    obtain rfl := Except.ok.inj (check_bind_eq_ok_iff.mp h).2
    cases items with
    | nil => cases (check_bind_eq_ok_iff.mp hvalue).2
    | cons item items =>
      obtain ⟨a', ha', hvalue⟩ := bind_eq_ok_iff.mp hvalue
      obtain ⟨⟨b', left'⟩, -, hvalue⟩ := bind_eq_ok_iff.mp hvalue
      obtain ⟨hpair, -⟩ := Prod.mk.inj (Except.ok.inj hvalue)
      obtain ⟨rfl, -⟩ := Prod.mk.inj hpair
      exact hc inner item a' hd.1 ha'
  · obtain ⟨found, -, h⟩ := bind_eq_ok_iff.mp h
    cases h

end First

end Codec

/-! ### Tagged choices -/

/-- Do all values that a case reads meet a condition, if the numbers of the tree do? -/
def Variant.Carries (v : Variant α) (P : Number → Prop) (Q : α → Prop) : Prop :=
  ∀ d a, d.Numbers P → v.decode d = .ok a → Q a

section Tagged

variable {variants : List (Variant α)} {v : Variant α} {src : Source} {key expected : String}

theorem mem_of_readTag {d : Doc} (h : readTag variants src d = .ok v) : v ∈ variants := by
  unfold readTag at h
  split at h
  · obtain ⟨s, -, h⟩ := bind_eq_ok_iff.mp h
    split at h
    · next v' hv =>
      obtain rfl := Except.ok.inj h
      exact List.mem_of_find?_eq_some hv
    · cases h
  · obtain ⟨n, -, h⟩ := bind_eq_ok_iff.mp h
    split at h
    · split at h
      · cases h
      · split at h
        · next v' hv =>
          obtain rfl := Except.ok.inj h
          exact List.mem_of_getElem? hv
        · cases h
    · cases h
  · obtain ⟨found, -, h⟩ := bind_eq_ok_iff.mp h
    cases h

/-- The members beside the tag are read from the tree. -/
theorem carries_splitTag {members : List (Reading String × Doc)} {tag tag' : Option (Variant α)}
    {others : List (String × Json)} (hmembers : Doc.MemberNumbers P members)
    (htag : ∀ v, tag = some v → v ∈ variants)
    (h : splitTag key variants src tag members = .ok (tag', others)) :
    (∀ v, tag' = some v → v ∈ variants) ∧ AllMembers P others := by
  induction members generalizing tag others with
  | nil =>
    obtain ⟨rfl, rfl⟩ := Prod.mk.inj (Except.ok.inj h)
    exact ⟨htag, trivial⟩
  | cons member members ih =>
    obtain ⟨k, -, h⟩ := bind_eq_ok_iff.mp h
    split at h
    · split at h
      · cases h
      · obtain ⟨v, hv, h⟩ := bind_eq_ok_iff.mp h
        exact ih hmembers.2 (fun v' hv' => Option.some.inj hv' ▸ mem_of_readTag hv) h
    · obtain ⟨j, hj, h⟩ := bind_eq_ok_iff.mp h
      obtain ⟨⟨tag'', more⟩, hmore, h⟩ := bind_eq_ok_iff.mp h
      obtain ⟨rfl, rfl⟩ := Prod.mk.inj (Except.ok.inj h)
      obtain ⟨hvariant, hothers⟩ := ih hmembers.2 htag hmore
      exact ⟨hvariant, Doc.all_of_content _ hmembers.1 hj, hothers⟩

/-- A tagged choice is read from the tree if each of its cases is. -/
theorem carries_decodeTagged {d : Doc} {a : α} (hvariants : ∀ v ∈ variants, v.Carries P Q)
    (hd : d.Numbers P) (h : decodeTagged expected key variants src d = .ok a) : Q a := by
  unfold decodeTagged at h
  split at h
  · next members stop =>
    obtain ⟨inner, -, h⟩ := bind_eq_ok_iff.mp h
    obtain ⟨⟨tag, others⟩, hsplit, h⟩ := bind_eq_ok_iff.mp h
    obtain ⟨hvariant, hothers⟩ := carries_splitTag hd (fun v (hv : none = some v) => nomatch hv) hsplit
    replace h := (check_bind_eq_ok_iff.mp h).2
    split at h
    · next v =>
      exact hvariants v (hvariant v rfl) (.ofJson (.object others)) a
        (Doc.numbers_ofMembers others hothers) h
    · cases h
  · obtain ⟨inner, -, h⟩ := bind_eq_ok_iff.mp h
    cases (check_bind_eq_ok_iff.mp h).2
  · next first rest stop =>
    obtain ⟨inner, -, h⟩ := bind_eq_ok_iff.mp h
    obtain ⟨v, hv, h⟩ := bind_eq_ok_iff.mp h
    obtain ⟨others, hothers, h⟩ := bind_eq_ok_iff.mp h
    replace h := (check_bind_eq_ok_iff.mp h).2
    exact hvariants v (mem_of_readTag hv) (.ofJson (.array others)) a
      (Doc.numbers_ofItems others (Doc.allItems_of_contentItems rest hd.2 hothers)) h
  · obtain ⟨found, -, h⟩ := bind_eq_ok_iff.mp h
    cases h

end Tagged

/-- A literal has no numbers but those of the tree that the return value is read from. -/
theorem ReturnValue.carries : codec.Carries P (OnNumbers P) := by
  intro src d v hd h
  refine carries_decodeTagged ?_ hd h
  refine List.forall_mem_cons.mpr ⟨?_, List.forall_mem_cons.mpr ⟨?_, List.forall_mem_singleton.mpr ?_⟩⟩
  · intro d v hd h
    obtain ⟨⟨value, ⟨⟩⟩, hvalue, rfl⟩ := map_eq_ok_iff.mp h
    exact Codec.carries_json.first hd hvalue
  · intro d v _ h
    obtain ⟨⟨source, options, ⟨⟩⟩, -, rfl⟩ := map_eq_ok_iff.mp h
    trivial
  · intro d v _ h
    obtain ⟨⟨name, options, ⟨⟩⟩, -, rfl⟩ := map_eq_ok_iff.mp h
    trivial

end SchemaForge
