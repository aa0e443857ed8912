import Mathlib.Data.List.Forall2
import SchemaForge.Model.File
import SchemaForge.Proofs.Schema.Naming
import SchemaForge.Proofs.Text.Lines

/-!
# What model files tell

The text of a model file depends on the name of the object and on the names, the words for the types
and the required flags of the attributes, in their order. Nothing of these is lost either. Names
stand unquoted in the text, but an identifier has no line break, no colon and no quote: so the lines
are those that were put together, and each entry is cut at its first colon and at the quotes.
-/

namespace SchemaForge

/-! ### What is alike -/

/-- Members of two lists that are not told apart by what is made of them. -/
theorem map_eq_of_forall₂ {α β γ : Type} {alike : α → β → Prop} {f : α → γ} {g : β → γ}
    {as : List α} {bs : List β} (h : List.Forall₂ alike as bs)
    (hsame : ∀ a b, alike a b → f a = g b) : as.map f = bs.map g := by
  rw [← List.forall₂_eq_eq_eq, List.forall₂_map_left_iff, List.forall₂_map_right_iff]
  exact h.imp hsame

/-- Attributes that are not told apart in a model file. -/
structure Attribute.Alike (a a' : Attribute) : Prop where
  name : a.name = a'.name
  type : a.type.token = a'.type.token
  required : a.required = a'.required

theorem Attribute.Alike.entryLine_eq {a a' : Attribute} (h : a.Alike a') :
    ModelFile.entryLine a = ModelFile.entryLine a' := by
  rw [ModelFile.entryLine, ModelFile.entryLine, h.name, h.type, h.required]

/-- The text of a model file does not depend on more than the name of the object and what of the
attributes is alike. -/
theorem ModelFile.ofObject_eq {o o' : Object} {attributes attributes' : List Attribute}
    (hname : o.name = o'.name) (h : List.Forall₂ Attribute.Alike attributes attributes') :
    ModelFile.ofObject o attributes = ModelFile.ofObject o' attributes' := by
  have hpath : pathOf o = pathOf o' := by rw [pathOf, pathOf, nameOf, nameOf, hname]
  have hentries : attributes.map entryLine = attributes'.map entryLine :=
    map_eq_of_forall₂ h fun _ _ => Attribute.Alike.entryLine_eq
  rw [ofObject, ofObject, lines, lines, opening, opening, hpath, hentries]

namespace ModelFile

/-! ### Lines -/

/-- Lines without line breaks are the lines of the text that is made of them. -/
theorem lines_ofLines {ls : List String} (h : ∀ line ∈ ls, '\n' ∉ line.toList) :
    Text.lines (ofLines ls) = ls ++ [""] := by
  induction ls with
  | nil => rfl
  | cons line ls ih =>
    obtain ⟨hline, hls⟩ := List.forall_mem_cons.mp h
    have hcons : ofLines (line :: ls) = line ++ "\n" ++ ofLines ls := String.join_cons
    rw [hcons, Text.lines_append_break, Text.lines_of_not_mem hline, ih hls]
    rfl

section

variable {o : Object} {attributes : List Attribute}

theorem not_mem_entryLine {a : Attribute} (h : Naming.checkAttributeName a.name = .ok ()) :
    '\n' ∉ (entryLine a).toList := by
  have htoken : '\n' ∉ a.type.token.toList := by cases a.type <;> decide
  have hrequired : '\n' ∉ (toString a.required).toList := by cases a.required <;> decide
  have hname : '\n' ∉ a.name.toList := Naming.not_mem_of_checkIdentifier h (by decide)
  simp only [entryLine, String.toList_append, List.mem_append, htoken, hrequired, hname, or_false]
  decide

/-- What holds of the lines around the attributes and of those of the attributes holds of all. -/
theorem forall_mem_lines {P : String → Prop} (hopening : ∀ line ∈ opening o, P line)
    (hentries : ∀ a ∈ attributes, P (entryLine a)) (hclosing : ∀ line ∈ closing, P line) :
    ∀ line ∈ lines o attributes, P line := by
  intro line hline
  rcases List.mem_append.mp hline with hline | hline
  · rcases List.mem_append.mp hline with hline | hline
    · exact hopening line hline
    · obtain ⟨a, ha, rfl⟩ := List.mem_map.mp hline
      exact hentries a ha
  · exact hclosing line hline

/-- No line of a model file has a line break in it. -/
theorem not_mem_of_mem_lines (ho : Naming.checkObjectName o.name = .ok ())
    (hattributes : ∀ a ∈ attributes, Naming.checkAttributeName a.name = .ok ()) :
    ∀ line ∈ lines o attributes, '\n' ∉ line.toList := by
  have hopening : ∀ line ∈ opening o, '\n' ∉ line.toList := by
    refine List.forall_mem_cons.mpr ⟨?_, by decide⟩
    have hname : '\n' ∉ o.name.toList := Naming.not_mem_of_checkIdentifier ho (by decide)
    simp only [pathOf, nameOf, String.toList_append, List.mem_append, hname, false_or]
    decide
  exact forall_mem_lines hopening (fun a ha => not_mem_entryLine (hattributes a ha)) (by decide)

/-- The text of a model file is cut into the lines that it is made of. -/
theorem lines_source (ho : Naming.checkObjectName o.name = .ok ())
    (hattributes : ∀ a ∈ attributes, Naming.checkAttributeName a.name = .ok ()) :
    Text.lines (ofObject o attributes).source = lines o attributes ++ [""] :=
  lines_ofLines (not_mem_of_mem_lines ho hattributes)

theorem length_lines : (lines o attributes).length = attributes.length + 6 := by
  rw [lines, List.length_append, List.length_append, List.length_map]
  show 4 + attributes.length + 2 = _
  omega

/-- Behind the opening there is one line for each attribute. -/
theorem getElem?_lines {i : Nat} (hi : i < attributes.length) :
    (lines o attributes)[4 + i]? = some (entryLine attributes[i]) := by
  have hopening : (opening o).length = 4 := rfl
  have hmap : i < (attributes.map entryLine).length := by rwa [List.length_map]
  rw [lines, List.append_assoc, List.getElem?_append_right (by omega), hopening,
    Nat.add_sub_cancel_left, List.getElem?_append_left hmap, List.getElem?_map,
    List.getElem?_eq_getElem hi, Option.map_some]

end

/-! ### Reading entries back -/

/-- The line of an attribute around its colon and its quotes. -/
theorem toList_entryLine (a : Attribute) :
    (entryLine a).toList = "        ".toList ++ (a.name.toList ++ ':' :: (" \x7b type: ".toList ++
      '\'' :: (a.type.token.toList ++ '\'' :: (", required: ".toList ++
        ((toString a.required).toList ++ " \x7d,".toList))))) := by
  simp only [entryLine, String.toList_append, List.append_assoc]
  rfl

/-- Lines of attributes are different unless the attributes are alike. -/
theorem alike_of_entryLine_eq {a a' : Attribute}
    (ha : Naming.checkAttributeName a.name = .ok ())
    (ha' : Naming.checkAttributeName a'.name = .ok ()) (h : entryLine a = entryLine a') :
    a.Alike a' := by
  have hcolon (b : Attribute) (hb : Naming.checkAttributeName b.name = .ok ()) :
      ':' ∉ b.name.toList := Naming.not_mem_of_checkIdentifier hb (by decide)
  have hquote (t : AttributeType) : '\'' ∉ t.token.toList := by cases t <;> decide
  have hchars := congrArg String.toList h
  rw [toList_entryLine, toList_entryLine] at hchars
  obtain ⟨hname, hbehind⟩ := Text.eq_of_append_cons_eq (hcolon a ha) (hcolon a' ha')
    (List.append_cancel_left hchars)
  obtain ⟨htoken, hbehind⟩ := Text.eq_of_append_cons_eq (hquote _) (hquote _)
    (List.tail_eq_of_cons_eq (List.append_cancel_left hbehind))
  have hrequired := List.append_cancel_right (List.append_cancel_left hbehind)
  refine ⟨String.toList_inj.mp hname, String.toList_inj.mp htoken, ?_⟩
  revert hrequired
  cases a.required <;> cases a'.required <;> decide

theorem forall₂_of_map_entryLine_eq {as as' : List Attribute}
    (has : ∀ a ∈ as, Naming.checkAttributeName a.name = .ok ())
    (has' : ∀ a ∈ as', Naming.checkAttributeName a.name = .ok ())
    (h : as.map entryLine = as'.map entryLine) : List.Forall₂ Attribute.Alike as as' := by
  induction as generalizing as' with
  | nil =>
    rw [List.map_eq_nil_iff.mp h.symm]
    exact .nil
  | cons a as ih =>
    obtain ⟨a', as', rfl, hfirst, hrest⟩ := List.map_eq_cons_iff.mp h.symm
    obtain ⟨ha, has⟩ := List.forall_mem_cons.mp has
    obtain ⟨ha', has'⟩ := List.forall_mem_cons.mp has'
    exact .cons (alike_of_entryLine_eq ha ha' hfirst.symm) (ih has has' hrest.symm)

section

variable {o o' : Object} {as as' : List Attribute}

theorem name_eq_of_opening_eq (h : opening o = opening o') : o.name = o'.name := by
  have hpath : "// " ++ (directory ++ "/" ++ (o.name ++ ".js")) =
      "// " ++ (directory ++ "/" ++ (o'.name ++ ".js")) := List.head_eq_of_cons_eq h
  have hchars := congrArg String.toList hpath
  simp only [String.toList_append, List.append_assoc] at hchars
  exact String.toList_inj.mp (List.append_cancel_right (List.append_cancel_left
    (List.append_cancel_left (List.append_cancel_left hchars))))

/-- The text of a model file determines the name of the object and, position by position, the names,
the words for the types and the required flags of the attributes; it has no more to tell. It
consists of six lines and one for each attribute, each ended by a line break. The first four are the
opening, and the entries of the attributes follow in order. -/
theorem source_determines_name_and_attributes (ho : Naming.checkObjectName o.name = .ok ())
    (ho' : Naming.checkObjectName o'.name = .ok ())
    (has : ∀ a ∈ as, Naming.checkAttributeName a.name = .ok ())
    (has' : ∀ a ∈ as', Naming.checkAttributeName a.name = .ok ()) :
    ((ofObject o as).source = (ofObject o' as').source ↔
      o.name = o'.name ∧ List.Forall₂ Attribute.Alike as as') ∧
    ∃ ls : List String, (ofObject o as).source = String.join (ls.map (· ++ "\n")) ∧
      (∀ line ∈ ls, '\n' ∉ line.toList) ∧ ls.length = as.length + 6 ∧
      ∀ (i : Nat) (hi : i < as.length), ls[4 + i]? = some (entryLine as[i]) := by
  refine ⟨⟨fun hsource => ?_, fun halike => ?_⟩,
    lines o as, rfl, not_mem_of_mem_lines ho has, length_lines, fun _ => getElem?_lines⟩
  · have hlines : lines o as ++ [""] = lines o' as' ++ [""] := by
      rw [← lines_source ho has, hsource, lines_source ho' has']
    have hbody := List.append_cancel_right (List.append_cancel_right hlines)
    obtain ⟨hopening, hentries⟩ := List.append_inj hbody rfl
    exact ⟨name_eq_of_opening_eq hopening, forall₂_of_map_entryLine_eq has has' hentries⟩
  · rw [ofObject_eq halike.1 halike.2]

/-- Integers and decimals have one word in a model file, so these two files are the same. -/
theorem integers_and_decimals_have_one_source :
    ∃ o o' : Object, ∃ as as' : List Attribute, o.id ≠ o'.id ∧
      as.map Attribute.type = [.integer, .text] ∧ as'.map Attribute.type = [.decimal, .text] ∧
      (ofObject o as).source = (ofObject o' as').source ∧
      ∃ ls : List String, (ofObject o as).source = String.join (ls.map (· ++ "\n")) ∧
        ls.length = 8 ∧ ls[4]? = some "        $x: \x7b type: 'number', required: true \x7d," := by
  let o : Object := ⟨1, "Item", 3, 7, .epoch⟩
  let o' : Object := ⟨5, "Item", 9, 8, .epoch⟩
  let as : List Attribute :=
    [⟨2, 1, "$x", .integer, true, none⟩, ⟨3, 1, "y", .text, false, some "kept"⟩]
  let as' : List Attribute := [⟨6, 5, "$x", .decimal, true, none⟩, ⟨7, 5, "y", .text, false, none⟩]
  have halike : List.Forall₂ Attribute.Alike as as' :=
    .cons ⟨rfl, rfl, rfl⟩ (.cons ⟨rfl, rfl, rfl⟩ .nil)
  obtain ⟨hsame, ls, hsource, -, hlength, hentry⟩ :=
    @source_determines_name_and_attributes o o' as as' (by decide) (by decide) (by decide)
      (by decide)
  exact ⟨o, o', as, as', by decide, rfl, rfl, hsame.mpr ⟨rfl, halike⟩, ls, hsource, hlength,
    hentry 0 (by decide)⟩

end

end ModelFile

end SchemaForge
