import SchemaForge.Archive.Reader
import SchemaForge.Archive.Writer
import SchemaForge.Proofs.Except

/-!
# Archives are read back

An archive says of every member twice where it is and what it is like. A reader that starts at the
end record, walks the directory and follows each record of it to the local record of the member
finds what was packed, in the order in which it was packed, whatever the contents look like.
-/

namespace SchemaForge.Archive

/-! ### Numbers at their places -/

section Places

variable {start width n : Nat} {front rest : Bytes}

theorem field_number (hn : n < Nat.pow 256 width) : field 0 width (number width n ++ rest) = n := by
  rw [field, List.drop_zero, List.take_left' (length_number width n), value_number hn]

theorem drop_append_of_length_le (h : front.length ≤ start) :
    (front ++ rest).drop start = rest.drop (start - front.length) := by
  rw [List.drop_append, List.drop_eq_nil_of_le h, List.nil_append]

/-- What stands before the place of a number does not matter. -/
theorem field_append (h : front.length ≤ start) :
    field start width (front ++ rest) = field (start - front.length) width rest := by
  rw [field, field, drop_append_of_length_le h]

theorem afterMark?_append (mark rest : Bytes) : afterMark? mark (mark ++ rest) = some rest := by
  have hmark : mark.isPrefixOf (mark ++ rest) = true :=
    List.isPrefixOf_iff_prefix.mpr (List.prefix_append mark rest)
  rw [afterMark?, if_pos hmark, List.drop_left]

end Places

/-! ### Records -/

/-- Can the records of a member hold its numbers? -/
structure Member.Fits (m : Member) : Prop where
  name : m.name.length < Nat.pow 256 2
  data : m.data.length < Nat.pow 256 4
  size : m.size < Nat.pow 256 4

section Records

variable {m : Member} {before rest behind : Bytes} {offset : Nat}

theorem length_common (m : Member) : m.common.length = 24 := by
  simp [Member.common]

theorem fields_common (hm : m.Fits) :
    field 4 2 (m.common ++ rest) = m.compression.method ∧
      field 6 2 (m.common ++ rest) = recordedTime ∧
      field 8 2 (m.common ++ rest) = recordedDate ∧
      field 10 4 (m.common ++ rest) = m.crc.toNat ∧
      field 14 4 (m.common ++ rest) = m.data.length ∧
      field 18 4 (m.common ++ rest) = m.size ∧
      field 22 2 (m.common ++ rest) = m.name.length := by
  have hmethod : m.compression.method < Nat.pow 256 2 := by cases m.compression <;> decide
  have htime : recordedTime < Nat.pow 256 2 := by decide
  have hdate : recordedDate < Nat.pow 256 2 := by decide
  have hcrc : m.crc.toNat < Nat.pow 256 4 := m.crc.toNat_lt
  simp only [Member.common, List.append_assoc]
  refine ⟨?_, ?_, ?_, ?_, ?_, ?_, ?_⟩
  all_goals
    simp [field_append, field_number, *, hm.name, hm.data, hm.size]

/-- What stands behind the part that both kinds of records have. -/
theorem field_common_append {start width : Nat} (h : 24 ≤ start) :
    field start width (m.common ++ rest) = field (start - 24) width rest := by
  rw [field_append (by rwa [length_common]), length_common]

theorem drop_common {start : Nat} (h : 24 ≤ start) :
    (m.common ++ rest).drop start = rest.drop (start - 24) := by
  rw [drop_append_of_length_le (by rwa [length_common]), length_common]

/-- The bytes behind the mark of a local record. -/
def Member.afterLocalMark (m : Member) (behind : Bytes) : Bytes :=
  m.common ++ (number 2 0 ++ (m.name ++ (m.data ++ behind)))

theorem afterMark?_localRecord (before : Bytes) :
    afterMark? localMark ((before ++ (localRecord m ++ behind)).drop before.length) =
      some (m.afterLocalMark behind) := by
  rw [List.drop_left, localRecord]
  simp only [List.append_assoc]
  exact afterMark?_append _ _

theorem dataAt?_localRecord (hm : m.Fits) :
    dataAt? (before ++ (localRecord m ++ behind)) before.length m.data.length = some m.data := by
  have hname : field 22 2 (m.common ++ (number 2 0 ++ (m.name ++ (m.data ++ behind)))) =
      m.name.length := (fields_common hm).2.2.2.2.2.2
  have hextra : field 24 2 (m.afterLocalMark behind) = 0 := by
    rw [Member.afterLocalMark, field_common_append (Nat.le_refl 24), field_number (by decide)]
  have hdata : (m.afterLocalMark behind).drop (26 + m.name.length) = m.data ++ behind := by
    rw [Member.afterLocalMark, drop_common (by omega), drop_append_of_length_le (by simp; omega),
      List.drop_left' (by simp; omega)]
  have hlength : 26 + m.name.length + m.data.length ≤ (m.afterLocalMark behind).length := by
    simp only [Member.afterLocalMark, List.length_append, length_common, length_number]
    omega
  rw [Member.afterLocalMark] at hextra hdata hlength
  rw [dataAt?, afterMark?_localRecord, Member.afterLocalMark]
  simp only [Option.bind_eq_bind, Option.bind_some, hname, hextra, Nat.add_zero, if_pos hlength,
    hdata, List.take_left]

/-- Do bytes read as those that stand behind the mark of a record of the directory? -/
structure Describes (rest : Bytes) (m : Member) (offset : Nat) (behind : Bytes) : Prop where
  method : field 6 2 rest = m.compression.method
  time : field 8 2 rest = recordedTime
  date : field 10 2 rest = recordedDate
  crc : field 12 4 rest = m.crc.toNat
  length : field 16 4 rest = m.data.length
  size : field 20 4 rest = m.size
  nameLength : field 24 2 rest = m.name.length
  noExtra : field 26 2 rest = 0
  noComment : field 28 2 rest = 0
  mode : field 36 2 rest = recordedMode
  place : field 38 4 rest = offset
  name : rest.drop 42 = m.name ++ behind

theorem Describes.drop_name (h : Describes rest m offset behind) :
    rest.drop (42 + m.name.length) = behind := by
  rw [← List.drop_drop, h.name, List.drop_left]

theorem exists_describes (hm : m.Fits) (hoffset : offset < Nat.pow 256 4) (behind : Bytes) :
    ∃ rest, directoryRecord m offset ++ behind = directoryMark ++ rest ∧
      Describes rest m offset behind := by
  have hmode : recordedMode < Nat.pow 256 2 := by decide
  -- the permissions stand in the upper half of a number of four bytes
  have hattributes : number 4 (recordedMode * 0x10000) = number 2 0 ++ number 2 recordedMode := by
    decide
  refine ⟨number 2 (0x0300 + m.compression.version) ++ (m.common ++ (number 2 0 ++ (number 2 0 ++
    (number 2 0 ++ (number 2 0 ++ (number 2 0 ++ (number 2 recordedMode ++ (number 4 offset ++
      (m.name ++ behind))))))))), ?_, ?_⟩
  · simp only [directoryRecord, hattributes, List.append_assoc]
  · constructor
    all_goals
      simp [field_append, field_number, drop_append_of_length_le, length_common, fields_common hm,
        hmode, hoffset]

end Records

/-! ### Headings -/

/-- What a record says of its member: the name, how long the data and the content are, and the
checksum of the content. -/
structure Heading where
  name : Bytes
  length : Nat
  size : Nat
  crc : Nat
  deriving DecidableEq

/-- The heading in the bytes behind the mark of a record: the numbers stand where the part starts
that both kinds of records have, and the name stands behind them. -/
def headingIn (common name : Nat) (rest : Bytes) : Heading :=
  ⟨(rest.drop name).take (field (common + 22) 2 rest), field (common + 14) 4 rest,
    field (common + 18) 4 rest, field (common + 10) 4 rest⟩

/-- The heading in the local record that starts at `offset`. -/
def localHeading? (archive : Bytes) (offset : Nat) : Option Heading :=
  (afterMark? localMark (archive.drop offset)).map (headingIn 0 26)

/-- The headings in so many records of the directory, each with that in the local record which it
points to. -/
def headings? (archive : Bytes) : Nat → Bytes → Option (List (Heading × Heading))
  | 0, _ => some []
  | count + 1, bytes => do
    let rest ← afterMark? directoryMark bytes
    let found ← localHeading? archive (field 38 4 rest)
    let more ← headings? archive count
      (rest.drop (42 + field 24 2 rest + field 26 2 rest + field 28 2 rest))
    return (headingIn 2 42 rest, found) :: more

/-- The headings in the directory of an archive, each with that in the local record. -/
def allHeadings? (archive : Bytes) : Option (List (Heading × Heading)) := do
  let (count, offset) ← findEnd? archive
  headings? archive count (archive.drop offset)

/-- The heading of a stored entry. -/
def Entry.heading (e : Entry) : Heading :=
  ⟨Text.utf8 e.name, e.content.length, e.content.length, (crc32 e.content).toNat⟩

/-- A stored entry as a reader finds it. -/
def Entry.found (e : Entry) : Found :=
  ⟨e.name, .stored, e.content.length, (crc32 e.content).toNat, recordedMode, recordedTime,
    recordedDate, e.content⟩

section Entries

variable {e : Entry} {before behind archive : Bytes} {offset count size : Nat}

theorem localHeading?_localRecord (hm : (e.member .stored).Fits) :
    localHeading? (before ++ (localRecord (e.member .stored) ++ behind)) before.length =
      some e.heading := by
  have hname : ((e.member .stored).afterLocalMark behind).drop 26 =
      Text.utf8 e.name ++ (e.content ++ behind) := by
    simp [Member.afterLocalMark, drop_common, Entry.member]
  rw [localHeading?, afterMark?_localRecord, Option.map_some, headingIn, hname]
  simp only [Member.afterLocalMark, fields_common hm]
  exact congrArg (fun name => some (Heading.mk name _ _ _)) List.take_left

theorem member?_directoryRecord (hm : (e.member .stored).Fits) (hoffset : offset < Nat.pow 256 4)
    (hdata : dataAt? archive offset e.content.length = some e.content) :
    member? archive (directoryRecord (e.member .stored) offset ++ behind) =
      some (e.found, behind) := by
  obtain ⟨rest, hrecord, hrest⟩ := exists_describes hm hoffset behind
  have hmethod : Compression.ofMethod? (e.member .stored).compression.method = some .stored := rfl
  have hname : Text.ofUtf8? (e.member .stored).name = some e.name := Text.ofUtf8?_utf8 e.name
  have hcontent : dataAt? archive offset (e.member .stored).data.length = some e.content := hdata
  rw [member?, hrecord, afterMark?_append]
  simp only [Option.bind_eq_bind, Option.bind_some, hrest.method, hrest.time, hrest.date, hrest.crc,
    hrest.length, hrest.size, hrest.nameLength, hrest.noExtra, hrest.noComment, hrest.mode,
    hrest.place, hrest.name, hrest.drop_name, hmethod, List.take_left, hname, hcontent,
    Nat.add_zero]
  exact if_pos ⟨rfl, rfl⟩

/-- A record of the directory and the local record that it points to have the same heading. -/
theorem headings?_directoryRecord (hm : (e.member .stored).Fits) (hoffset : offset < Nat.pow 256 4)
    (hlocal : localHeading? archive offset = some e.heading) :
    headings? archive (count + 1) (directoryRecord (e.member .stored) offset ++ behind) =
      (headings? archive count behind).map ((e.heading, e.heading) :: ·) := by
  obtain ⟨rest, hrecord, hrest⟩ := exists_describes hm hoffset behind
  have hheading : headingIn 2 42 rest = e.heading := by
    simp only [headingIn, hrest.name, hrest.nameLength, hrest.length, hrest.size, hrest.crc,
      List.take_left]
    rfl
  rw [headings?, hrecord, afterMark?_append]
  simp only [Option.bind_eq_bind, Option.bind_some, hrest.place, hrest.nameLength, hrest.noExtra,
    hrest.noComment, hrest.drop_name, hlocal, hheading, Nat.add_zero]
  cases headings? archive count behind <;> rfl

/-- The directory is walked to its end, and leads to all entries. -/
theorem walk_directory {entries : List Entry} (hfits : ∀ e ∈ entries, (e.member .stored).Fits)
    (before : List Member) (tail : Bytes)
    (harchive : archive = localRecords (before ++ entries.map (Entry.member .stored)) ++ behind)
    (hlength : (localRecords (before ++ entries.map (Entry.member .stored))).length <
      Nat.pow 256 4) :
    members? archive entries.length
        (directory (localRecords before).length (entries.map (Entry.member .stored)) ++ tail) =
          some (entries.map Entry.found) ∧
      headings? archive entries.length
        (directory (localRecords before).length (entries.map (Entry.member .stored)) ++ tail) =
          some (entries.map fun e => (e.heading, e.heading)) := by
  -- on the entries to come; `before` are the members that the walk has passed
  induction entries generalizing before with
  | nil => exact ⟨rfl, rfl⟩
  | cons e entries ih =>
    obtain ⟨hm, hfits⟩ := List.forall_mem_cons.mp hfits
    have hsplit : localRecords (before ++ (e :: entries).map (Entry.member .stored)) =
        localRecords before ++ (localRecord (e.member .stored) ++
          localRecords (entries.map (Entry.member .stored))) := by
      simp [localRecords]
    have hoffset : (localRecords before).length < Nat.pow 256 4 := by
      rw [hsplit, List.length_append] at hlength
      exact Nat.lt_of_le_of_lt (Nat.le_add_right _ _) hlength
    have hpassed : (localRecords (before ++ [e.member .stored])).length =
        (localRecords before).length + (localRecord (e.member .stored)).length := by
      simp [localRecords]
    obtain ⟨hmembers, hheadings⟩ := ih hfits (before ++ [e.member .stored])
      (by simpa using harchive) (by simpa using hlength)
    rw [hpassed] at hmembers hheadings
    rw [hsplit, List.append_assoc, List.append_assoc] at harchive
    have hdata : dataAt? archive (localRecords before).length e.content.length = some e.content :=
      harchive ▸ dataAt?_localRecord hm
    have hlocal : localHeading? archive (localRecords before).length = some e.heading :=
      harchive ▸ localHeading?_localRecord hm
    rw [List.map_cons, directory, List.append_assoc, List.length_cons]
    constructor
    · rw [members?, member?_directoryRecord hm hoffset hdata]
      simp only [Option.bind_eq_bind, Option.bind_some, hmembers]
      rfl
    · rw [headings?_directoryRecord hm hoffset hlocal, hheadings]
      rfl

/-- The end record stands where a reader looks first. -/
theorem findEnd?_endRecord (front : Bytes) (hcount : count < Nat.pow 256 2)
    (hoffset : offset < Nat.pow 256 4) :
    findEnd? (front ++ endRecord count size offset) = some (count, offset) := by
  have hlength : (endRecord count size offset).length = 22 := by
    simp [endRecord, endMark]
  have hfields : endFields? (endRecord count size offset) = some (count, offset) := by
    simp only [endRecord, List.append_assoc, endFields?, afterMark?_append, Option.bind_eq_bind,
      Option.bind_some]
    -- nothing stands behind the length of the comment
    have hcomment : field 0 2 (number 2 0) = 0 := by decide
    simp [field_append, field_number, hcount, hoffset, hcomment]
  obtain ⟨places, hplaces⟩ :
      ∃ places, min 65536 ((front ++ endRecord count size offset).length - 21) = places + 1 :=
    ⟨min 65535 front.length, by rw [List.length_append, hlength]; omega⟩
  have hstart : (front ++ endRecord count size offset).length - 22 - 0 = front.length := by
    rw [List.length_append, hlength]
    omega
  rw [findEnd?, hplaces, List.range_succ_eq_map, List.findSome?_cons, hstart, List.drop_left,
    hfields]

theorem length_localRecord (m : Member) :
    (localRecord m).length = 30 + m.name.length + m.data.length := by
  simp only [localRecord, List.length_append, length_common, length_number]
  rfl

theorem length_localRecords_le {entries : List Entry}
    (hnames : ∀ e ∈ entries, (Text.utf8 e.name).length ≤ 1000) :
    (localRecords (entries.map (Entry.member .stored))).length ≤
      1030 * entries.length + (entries.flatMap Entry.content).length := by
  induction entries with
  | nil => exact Nat.zero_le _
  | cons e entries ih =>
    obtain ⟨hname, hnames⟩ := List.forall_mem_cons.mp hnames
    have hrest := ih hnames
    have hrecord : (localRecord (e.member .stored)).length =
        30 + (Text.utf8 e.name).length + e.content.length := length_localRecord _
    have hcons : (localRecords ((e :: entries).map (Entry.member .stored))).length =
        (localRecord (e.member .stored)).length +
          (localRecords (entries.map (Entry.member .stored))).length := by
      simp [localRecords]
    rw [hcons, hrecord, List.flatMap_cons, List.length_append, List.length_cons]
    omega

end Entries

/-! ### Archives -/

/-- The entries that a reader finds in an archive. -/
def entries? (bytes : Bytes) : Option (List Entry) :=
  (unpack? bytes).map fun members => members.map fun m => ⟨m.name, m.content⟩

/-- Does a reader find the entries in the archive that a packer makes of them? -/
def Faithful (pack : Packer) (read? : Bytes → Option (List Entry)) (compression : Compression)
    (entries : List Entry) : Prop :=
  ∀ bytes, pack compression entries = .ok bytes → read? bytes = some entries

/-- Names are refused only if one comes twice or is too long. -/
theorem checkNames_eq_ok_iff {before : List String} {entries : List Entry} :
    checkNames before entries = .ok () ↔
      (entries.map Entry.name).Nodup ∧ (∀ e ∈ entries, e.name ∉ before) ∧
        ∀ e ∈ entries, (Text.utf8 e.name).length ≤ 65535 := by
  induction entries generalizing before with
  | nil => simp [checkNames]
  | cons e rest ih =>
    rw [checkNames, List.map_cons, List.nodup_cons, List.forall_mem_cons, List.forall_mem_cons]
    dsimp only
    by_cases hbefore : e.name ∈ before
    · rw [if_pos (by simpa using hbefore)]
      constructor
      · intro h
        cases h
      · rintro ⟨-, ⟨hnew, -⟩, -⟩
        exact absurd hbefore hnew
    rw [if_neg (by simpa using hbefore)]
    by_cases hlong : 65535 < (Text.utf8 e.name).length
    · rw [if_pos hlong]
      constructor
      · intro h
        cases h
      · rintro ⟨-, -, hshort, -⟩
        exact absurd hshort (Nat.not_le.mpr hlong)
    rw [if_neg hlong]
    -- the rest avoid this name as well, and so the first name is distinct from theirs
    show checkNames (e.name :: before) rest = _ ↔ _
    rw [ih]
    constructor
    · rintro ⟨hnodup, hnew, hshort⟩
      refine ⟨⟨fun hmem => ?_, hnodup⟩, ⟨hbefore, fun e' he' hmem => ?_⟩, Nat.not_lt.mp hlong,
        hshort⟩
      · obtain ⟨e', he', heq⟩ := List.mem_map.mp hmem
        exact hnew e' he' (heq ▸ List.mem_cons_self)
      · exact hnew e' he' (List.mem_cons_of_mem _ hmem)
    · rintro ⟨⟨hfirst, hnodup⟩, ⟨-, hnew⟩, -, hshort⟩
      refine ⟨hnodup, fun e' he' hmem => ?_, hshort⟩
      rcases List.mem_cons.mp hmem with heq | hmem
      · exact hfirst (heq ▸ List.mem_map_of_mem he')
      · exact hnew e' he' hmem

theorem pack_eq_ok_iff {compression : Compression} {entries : List Entry} {bytes : Bytes} :
    pack compression entries = .ok bytes ↔
      (entries.map Entry.name).Nodup ∧ (∀ e ∈ entries, (Text.utf8 e.name).length ≤ 65535) ∧
        contents (entries.map (Entry.member compression)) = bytes := by
  rw [pack, check_bind_eq_ok_iff, checkNames_eq_ok_iff]
  simp only [List.not_mem_nil, not_false_eq_true, implies_true, true_and, and_assoc]
  exact and_congr_right fun _ => and_congr_right fun _ => ⟨Except.ok.inj, congrArg _⟩

section Archives

variable {entries : List Entry}

/-- A reader finds all entries in the bytes of an archive, if its records can hold their numbers. -/
theorem read_contents (hfits : ∀ e ∈ entries, (e.member .stored).Fits)
    (hcount : entries.length < Nat.pow 256 2)
    (hlength : (localRecords (entries.map (Entry.member .stored))).length < Nat.pow 256 4) :
    unpack? (contents (entries.map (Entry.member .stored))) = some (entries.map Entry.found) ∧
      allHeadings? (contents (entries.map (Entry.member .stored))) =
        some (entries.map fun e => (e.heading, e.heading)) := by
  let members := entries.map (Entry.member .stored)
  let behind := directory 0 members ++
    endRecord members.length (directory 0 members).length (localRecords members).length
  have hcontents : contents members = localRecords members ++ behind := List.append_assoc _ _ _
  have hend : findEnd? (contents members) =
      some (entries.length, (localRecords members).length) := by
    rw [contents, List.length_map]
    exact findEnd?_endRecord _ hcount hlength
  have hdrop : (contents members).drop (localRecords members).length = behind := by
    rw [hcontents, List.drop_left]
  have hwalk : members? (contents members) entries.length behind = some (entries.map Entry.found) ∧
      headings? (contents members) entries.length behind =
        some (entries.map fun e => (e.heading, e.heading)) :=
    walk_directory hfits [] _ hcontents hlength
  rw [unpack?, allHeadings?, hend]
  simp only [Option.bind_eq_bind, Option.bind_some]
  rw [hdrop]
  exact hwalk

/-- Few entries with short names and not much content: the records of an archive can hold all
numbers. -/
structure Modest (entries : List Entry) : Prop where
  count : entries.length < 65535
  names : ∀ e ∈ entries, (Text.utf8 e.name).length ≤ 1000
  size : (entries.flatMap Entry.content).length < 2147483648

theorem Modest.fits (h : Modest entries) (e : Entry) (he : e ∈ entries) :
    (e.member .stored).Fits := by
  have hname := h.names e he
  have hcontent : e.content.length ≤ (entries.flatMap Entry.content).length := by
    obtain ⟨front, back, hsplit⟩ := List.append_of_mem he
    rw [hsplit, List.flatMap_append, List.flatMap_cons, List.length_append, List.length_append]
    omega
  have hsize := h.size
  exact {
    name := show (Text.utf8 e.name).length < 65536 by omega
    data := show e.content.length < 4294967296 by omega
    size := show e.content.length < 4294967296 by omega }

theorem Modest.read_contents (h : Modest entries) :
    unpack? (contents (entries.map (Entry.member .stored))) = some (entries.map Entry.found) ∧
      allHeadings? (contents (entries.map (Entry.member .stored))) =
        some (entries.map fun e => (e.heading, e.heading)) := by
  have hcount := h.count
  have hsize := h.size
  have hlength := length_localRecords_le h.names
  exact Archive.read_contents h.fits (show entries.length < 65536 by omega)
    (show _ < 4294967296 by omega)

/-- What is stored is read back. -/
theorem Modest.faithful (h : Modest entries) : Faithful pack entries? .stored entries := by
  intro bytes hbytes
  obtain ⟨-, -, rfl⟩ := pack_eq_ok_iff.mp hbytes
  rw [entries?, h.read_contents.1, Option.map_some, List.map_map]
  exact congrArg some (List.map_id entries)

/-- Fewer than 65535 entries with names of at most a thousand bytes and less than two gigabytes of
content together are packed exactly if no name comes twice; and then a reader finds the names and
the contents, in order, and what the directory says of an entry is what its local record says. -/
theorem stored_entries_are_read_back (hcount : entries.length < 65535)
    (hnames : ∀ e ∈ entries, (Text.utf8 e.name).length ≤ 1000)
    (hsize : (entries.flatMap Entry.content).length < 2147483648) :
    ((∃ bytes, pack .stored entries = .ok bytes) ↔ (entries.map Entry.name).Nodup) ∧
      ∀ bytes, pack .stored entries = .ok bytes →
        entries? bytes = some entries ∧
          allHeadings? bytes = some (entries.map fun e => (e.heading, e.heading)) := by
  have hmodest : Modest entries := ⟨hcount, hnames, hsize⟩
  have hshort : ∀ e ∈ entries, (Text.utf8 e.name).length ≤ 65535 :=
    fun e he => Nat.le_trans (hnames e he) (by decide)
  refine ⟨⟨fun ⟨bytes, hbytes⟩ => (pack_eq_ok_iff.mp hbytes).1,
    fun hnodup => ⟨_, pack_eq_ok_iff.mpr ⟨hnodup, hshort, rfl⟩⟩⟩, fun bytes hbytes => ?_⟩
  refine ⟨hmodest.faithful bytes hbytes, ?_⟩
  obtain ⟨-, -, rfl⟩ := pack_eq_ok_iff.mp hbytes
  exact hmodest.read_contents.2

/-- An entry whose content is an end record, and one without content whose name is not ASCII. -/
theorem entry_like_end_record_is_read_back :
    ∃ (entries : List Entry) (bytes : Bytes),
      entries = [⟨"a", endRecord 1 60 40⟩, ⟨"é/b", []⟩] ∧ entries.length < 65535 ∧
      (∀ e ∈ entries, (Text.utf8 e.name).length ≤ 1000) ∧
      (entries.flatMap Entry.content).length < 2147483648 ∧
      pack .stored entries = .ok bytes ∧ entries? bytes = some entries ∧
      allHeadings? bytes = some (entries.map fun e => (e.heading, e.heading)) := by
  let entries : List Entry := [⟨"a", endRecord 1 60 40⟩, ⟨"é/b", []⟩]
  have hcount : entries.length < 65535 := by decide
  have hnames : ∀ e ∈ entries, (Text.utf8 e.name).length ≤ 1000 := by decide
  have hsize : (entries.flatMap Entry.content).length < 2147483648 := by decide
  obtain ⟨hpacked, hread⟩ := stored_entries_are_read_back hcount hnames hsize
  obtain ⟨bytes, hbytes⟩ := hpacked.mpr (by decide)
  exact ⟨entries, bytes, rfl, hcount, hnames, hsize, hbytes, hread bytes hbytes⟩

end Archives

end SchemaForge.Archive
