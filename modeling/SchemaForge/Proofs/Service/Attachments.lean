import SchemaForge.Proofs.Compile.Entries
import SchemaForge.Proofs.Service.Runs

/-!
# Names of downloaded files

The name of a downloaded file is put into a header as a quoted string. A reader of such a string takes
a backslash and the character behind it as one; for this reader the string ends where it should, and
what is between its quotation marks is the name. Names of projects have no control characters, so that
a header stays on its line.
-/

namespace SchemaForge

namespace Response

/-! ### Quoted strings -/

/-- The places of the quotation marks without a backslash that goes with them, counted from `n`. -/
def bareQuotesFrom : Nat → List Char → List Nat
  | _, [] => []
  | n, '\\' :: _ :: rest => bareQuotesFrom (n + 2) rest
  | n, c :: rest =>
    if c = '"' then n :: bareQuotesFrom (n + 1) rest else bareQuotesFrom (n + 1) rest

/-- The places of the quotation marks in a text without a backslash that goes with them. -/
def bareQuotes (cs : List Char) : List Nat := bareQuotesFrom 0 cs

/-- The text that is meant where a backslash goes with the character behind it. -/
def unescaped : List Char → List Char
  | [] => []
  | '\\' :: c :: rest => c :: unescaped rest
  | c :: rest => c :: unescaped rest

/-- The text with a backslash before each of these characters. -/
def escaping (c : Char) (cs : List Char) : List Char :=
  cs.flatMap fun d => if d = c then ['\\', d] else [d]

section

variable {c : Char} {cs rest : List Char} {n : Nat}

theorem bareQuotesFrom_cons (hc : c ≠ '\\') :
    bareQuotesFrom n (c :: rest) =
      if c = '"' then n :: bareQuotesFrom (n + 1) rest else bareQuotesFrom (n + 1) rest := by
  rw [bareQuotesFrom]
  exact fun d ds h _ => hc h

theorem unescaped_cons (hc : c ≠ '\\') : unescaped (c :: rest) = c :: unescaped rest := by
  rw [unescaped]
  exact fun d ds h _ => hc h

/-- The characters of a quoted string are of two kinds: two with a backslash before them, and all
others. -/
theorem quotedChar_cases (c : Char) :
    quotedChar c = ['\\', c] ∨ quotedChar c = [c] ∧ c ≠ '\\' ∧ c ≠ '"' := by
  unfold quotedChar
  split
  · exact .inl rfl
  · next h => exact .inr ⟨rfl, not_or.mp h⟩

/-- There is no bare quotation mark in quoted characters. -/
theorem bareQuotesFrom_flatMap_append :
    bareQuotesFrom n (cs.flatMap quotedChar ++ rest) =
      bareQuotesFrom (n + (cs.flatMap quotedChar).length) rest := by
  induction cs generalizing n with
  | nil => rfl
  | cons c cs ih =>
    rw [List.flatMap_cons, List.append_assoc, List.length_append]
    rcases quotedChar_cases c with h | ⟨h, hslash, hquote⟩
    · rw [h, List.cons_append, List.singleton_append, bareQuotesFrom, ih, Nat.add_assoc]
      rfl
    · rw [h, List.singleton_append, bareQuotesFrom_cons hslash, if_neg hquote, ih, Nat.add_assoc]
      rfl

theorem unescaped_flatMap : unescaped (cs.flatMap quotedChar) = cs := by
  induction cs with
  | nil => rfl
  | cons c cs ih =>
    rw [List.flatMap_cons]
    rcases quotedChar_cases c with h | ⟨h, hslash, -⟩
    · rw [h, List.cons_append, List.singleton_append, unescaped, ih]
    · rw [h, List.singleton_append, unescaped_cons hslash, ih]

/-- One pass does what two do, in which the backslashes come first. -/
theorem flatMap_quotedChar_eq : cs.flatMap quotedChar = escaping '"' (escaping '\\' cs) := by
  induction cs with
  | nil => rfl
  | cons c cs ih =>
    rw [List.flatMap_cons, ih]
    unfold escaping
    rw [List.flatMap_cons, List.flatMap_append]
    congr 1
    by_cases hslash : c = '\\'
    · subst hslash
      rfl
    · by_cases hquote : c = '"'
      · subst hquote
        rfl
      · simp [quotedChar, hslash, hquote]

theorem mem_flatMap_quotedChar (h : c ∈ cs.flatMap quotedChar) : c ∈ cs ∨ c = '\\' := by
  obtain ⟨d, hd, hc⟩ := List.mem_flatMap.mp h
  rcases quotedChar_cases d with hcase | ⟨hcase, -⟩
  · rw [hcase] at hc
    rcases List.mem_cons.mp hc with rfl | hc
    · exact .inr rfl
    · exact .inl (List.mem_singleton.mp hc ▸ hd)
  · rw [hcase] at hc
    exact .inl (List.mem_singleton.mp hc ▸ hd)

end

/-! ### Headers of a response -/

theorem toList_quotedString (s : String) :
    (quotedString s).toList = '"' :: s.toList.flatMap quotedChar ++ ['"'] := by
  unfold quotedString
  exact String.toList_ofList

theorem toList_disposition (fileName : String) :
    (disposition fileName).toList =
      "attachment; filename=".toList ++ (quotedString fileName).toList := by
  unfold disposition
  exact String.toList_append

theorem header?_attachment (fileName : String) (content : Bytes) :
    (attachment fileName content).header? "Content-Disposition" = some (disposition fileName) := by
  have htype : Text.sameIgnoringCase "Content-Type" "Content-Disposition" = false := by decide
  have hsame : Text.sameIgnoringCase "Content-Disposition" "Content-Disposition" = true := by decide
  rw [header?, attachment, List.find?_cons_of_neg (by simp [htype]),
    List.find?_cons_of_pos (by exact hsame)]
  rfl

theorem header?_ofJson (status : Nat) (value : Json) :
    (ofJson status value).header? "Content-Disposition" = none := by
  have htype : Text.sameIgnoringCase "Content-Type" "Content-Disposition" = false := by decide
  rw [header?, ofJson, List.find?_cons_of_neg (by simp [htype])]
  rfl

theorem isControl_disposition {fileName : String}
    (h : ∀ c ∈ fileName.toList, Text.isControl c = false) :
    ∀ c ∈ (disposition fileName).toList, Text.isControl c = false := by
  have hfront : ∀ c ∈ "attachment; filename=".toList, Text.isControl c = false :=
    Text.forall_mem_of_all (by decide)
  rw [toList_disposition, toList_quotedString]
  intro c hc
  rw [List.mem_append, List.mem_append, List.mem_cons, List.mem_singleton] at hc
  rcases hc with hc | ((rfl | hc) | rfl)
  · exact hfront c hc
  · decide
  · rcases mem_flatMap_quotedChar hc with hc | rfl
    · exact h c hc
    · decide
  · decide

/-- No header of the response has a control character in it, so that each stays on its line. -/
def KeepsLines (r : Response) : Prop :=
  ∀ header ∈ r.headers, ∀ c ∈ header.1.toList ++ header.2.toList, Text.isControl c = false

theorem keepsLines_empty (status : Nat) : (empty status).KeepsLines := nofun

theorem keepsLines_ofJson (status : Nat) (value : Json) : (ofJson status value).KeepsLines := by
  intro header hheader
  obtain rfl := List.mem_singleton.mp hheader
  exact Text.forall_mem_of_all (by decide)

theorem keepsLines_attachment {fileName : String} (content : Bytes)
    (h : ∀ c ∈ fileName.toList, Text.isControl c = false) :
    (attachment fileName content).KeepsLines := by
  have hlength : ∀ c ∈ (toString content.length).toList, Text.isControl c = false := by
    intro c hc
    have hdigits : (toString content.length).toList = Nat.toDigits 10 content.length :=
      Nat.toList_repr
    rw [hdigits] at hc
    have hdigit := Nat.isDigit_of_mem_toDigits (by decide) (by decide) hc
    rw [Text.isDigit_iff] at hdigit
    simp only [Text.isControl, Bool.or_eq_false_iff, Bool.and_eq_false_iff, decide_eq_false_iff_not]
    omega
  have htype : ∀ c ∈ "Content-Type".toList ++ "application/zip".toList,
      Text.isControl c = false := Text.forall_mem_of_all (by decide)
  have hdisposition : ∀ c ∈ "Content-Disposition".toList, Text.isControl c = false :=
    Text.forall_mem_of_all (by decide)
  have hlengthName : ∀ c ∈ "Content-Length".toList, Text.isControl c = false :=
    Text.forall_mem_of_all (by decide)
  intro header hheader c hc
  simp only [attachment, List.mem_cons, List.not_mem_nil, or_false] at hheader
  rcases hheader with rfl | rfl | rfl
  · exact htype c hc
  · exact (List.mem_append.mp hc).elim (hdisposition c) (isControl_disposition h c)
  · exact (List.mem_append.mp hc).elim (hlengthName c) (hlength c)

end Response

namespace Service

open Response (bareQuotes unescaped escaping disposition)

variable {w : Service} {now : Instant} {user : UserId} {c : Command} {id : ProjectId}

/-- A command that succeeds is answered with JSON, or it is a download. -/
theorem perform_eq_ok_cases {response : Response} (h : (w.perform now user c).1 = .ok response) :
    ((∀ id, c ≠ .download id) ∧ ∃ status value, response = .ofJson status value) ∨
      ∃ id a files, c = .download id ∧ w.store.compileOn w.config user id w.files = (.ok a, files) ∧
        response = .attachment a.fileName a.bytes := by
  have hreading {α : Type} {r : Except StoreError α} {members : α → List (String × Json)}
      (h : reading r members = .ok response) : ∃ status value, response = .ofJson status value := by
    cases r with
    | error e => cases h
    | ok a =>
      cases h
      exact ⟨_, _, rfl⟩
  have hwriting {α : Type} {r : Except StoreError α × Store} {answer : α → Response}
      (hanswer : ∀ a, ∃ status value, answer a = .ofJson status value)
      (h : (w.writing r answer).1 = .ok response) :
      ∃ status value, response = .ofJson status value := by
    obtain ⟨outcome, s⟩ := r
    cases outcome with
    | error e => cases h
    | ok a =>
      cases h
      exact hanswer a
  cases c with
  | listProjects | getProject | listObjects | getObject | listActions => exact .inl ⟨nofun, hreading h⟩
  | createProject | renameProject | deleteProject | createObject | deleteObject | createAction =>
    exact .inl ⟨nofun, hwriting (fun a => ⟨_, _, rfl⟩) h⟩
  | download id =>
    simp only [perform, download] at h
    split at h
    · next a files hrun =>
      cases h
      exact .inr ⟨id, a, files, rfl, hrun, rfl⟩
    · cases h

/-- Every store that can be reached names a downloaded file after the project, and a project has no
name that would not keep a header on its line. -/
theorem of_download (hs : w.store.Reachable) {a : CompiledArchive} {files : FileTree}
    (h : w.store.compileOn w.config user id w.files = (.ok a, files)) :
    ∃ p, w.store.getProject user id = .ok p ∧ a.fileName = p.name ++ ".zip" ∧
      ∀ c ∈ a.fileName.toList, Text.isControl c = false := by
  unfold Store.compileOn Store.compileOnWith Store.compileWith at h
  rcases hg : w.store.generate user id with e | g
  · rw [hg] at h
    cases h
  rw [hg] at h
  have hproject := (hs.consistent.generate_eq_ok hg).1
  have hname := (Generation.archive_of_compileWith h).1
  have hnamed := Naming.checkProjectName_eq_ok_iff.mp
    (hs.consistent.checkProjectName_of_getProject hproject)
  have hending : ∀ c ∈ ".zip".toList, Text.isControl c = false :=
    Text.forall_mem_of_all (by decide)
  refine ⟨g.project, hproject, hname, ?_⟩
  rw [hname, String.toList_append]
  intro c hc
  rcases List.mem_append.mp hc with hc | hc
  · exact (hnamed.2.2.2 c hc).2.2
  · exact hending c hc

theorem keepsLines_answer (hs : w.store.Reachable) (now : Instant) (r : Request) :
    (w.answer now r).1.KeepsLines := by
  rcases hd : r.demand with e | _ | ⟨user, c⟩
  · rw [answer_of_refused hd]
    exact Response.keepsLines_ofJson _ _
  · rw [answer_of_preflight hd]
    exact Response.keepsLines_empty 200
  · rw [answer_of_command hd]
    rcases hc : (w.perform now user c).1 with e | response
    · exact Response.keepsLines_ofJson _ _
    · rcases perform_eq_ok_cases hc with ⟨-, status, value, rfl⟩ | ⟨id, a, files, -, hrun, rfl⟩
      · exact Response.keepsLines_ofJson status value
      · obtain ⟨p, -, -, hplain⟩ := of_download hs hrun
        exact Response.keepsLines_attachment a.bytes hplain

/-- A file to be saved under any name is announced by a quoted string, in which first the backslashes
and then the quotation marks of the name have a backslash before them: it has bare quotation marks at
both ends only, and what it means is the name. Of a service with a store that can be reached, no
header has a control character in it, and a download that is not refused is announced under the name
of the project. -/
theorem file_names_survive_quoting :
    (∀ (fileName : String) (content : Bytes), ∃ inside : List Char,
      (Response.attachment fileName content).header? "Content-Disposition" =
          some ("attachment; filename=" ++ String.ofList ('"' :: inside ++ ['"'])) ∧
        inside = escaping '"' (escaping '\\' fileName.toList) ∧
        bareQuotes ('"' :: inside ++ ['"']) = [0, inside.length + 1] ∧
        unescaped inside = fileName.toList) ∧
      ∀ (w : Service) (now : Instant) (r : Request), w.store.Reachable →
        (w.answer now r).1.KeepsLines ∧
          ∀ user id, r.demand = .ok (.command user (.download id)) →
            400 ≤ (w.answer now r).1.status ∧
                (w.answer now r).1.header? "Content-Disposition" = none ∨
              ∃ p, w.store.getProject user id = .ok p ∧
                (w.answer now r).1.header? "Content-Disposition" =
                  some (disposition (p.name ++ ".zip")) ∧
                ∀ c ∈ (disposition (p.name ++ ".zip")).toList, Text.isControl c = false := by
  refine ⟨fun fileName content => ?_, fun w now r hs => ⟨keepsLines_answer hs now r, ?_⟩⟩
  · refine ⟨fileName.toList.flatMap Response.quotedChar, Response.header?_attachment _ _,
      Response.flatMap_quotedChar_eq, ?_, Response.unescaped_flatMap⟩
    rw [bareQuotes, List.cons_append, Response.bareQuotesFrom_cons (by decide), if_pos rfl,
      Response.bareQuotesFrom_flatMap_append, Response.bareQuotesFrom_cons (by decide), if_pos rfl,
      Nat.zero_add, Nat.add_comm]
    rfl
  · intro user id hd
    rw [answer_of_command hd]
    rcases hc : (w.perform now user (.download id)).1 with e | response
    · exact .inl ⟨le_status e, Response.header?_ofJson _ _⟩
    · rcases perform_eq_ok_cases hc with ⟨hother, -⟩ | ⟨id', a, files, heq, hrun, rfl⟩
      · exact absurd rfl (hother id)
      · cases heq
        obtain ⟨p, hp, hname, hplain⟩ := of_download hs hrun
        rw [hname] at hplain
        refine .inr ⟨p, hp, ?_, Response.isControl_disposition hplain⟩
        rw [← hname]
        exact Response.header?_attachment _ _

/-- A project with quotation marks in its name is downloaded. -/
theorem quoted_name_of_project_is_announced :
    ∃ (w : Service) (r : Request), w.store.Reachable ∧
      r = ⟨.download 3, "GET", .authenticated 7, none⟩ ∧
      (w.answer .epoch r).1.header? "Content-Disposition" =
        some "attachment; filename=\"Pet \\\"Store\\\".zip\"" ∧
      (w.answer .epoch r).1.KeepsLines := by
  let s : Store := ⟨⟨[⟨3, "Pet \"Store\"", 7, 1, .epoch⟩], by decide⟩, .empty, .empty, .empty⟩
  let w : Service := ⟨s, ⟨[([.text "out"], .directory)], []⟩, ⟨⟨"/out"⟩, .stored, false⟩⟩
  let r : Request := ⟨.download 3, "GET", .authenticated 7, none⟩
  have hs : w.store.Reachable := Store.reachable_of_isOk (by decide +kernel)
  have hd : r.demand = .ok (.command 7 (.download 3)) :=
    demand_download rfl (by decide +kernel) rfl
  have hstatus : ¬400 ≤ (w.answer .epoch r).1.status := by decide +kernel
  obtain ⟨-, hanswer⟩ := file_names_survive_quoting
  obtain ⟨hlines, hdownload⟩ := hanswer w .epoch r hs
  obtain ⟨hrefused, -⟩ | ⟨p, hp, hheader, -⟩ := hdownload 7 3 hd
  · exact absurd hrefused hstatus
  · have hproject : s.getProject 7 3 = .ok ⟨3, "Pet \"Store\"", 7, .sailsJs, .epoch⟩ := rfl
    obtain rfl := Except.ok.inj (hp.symm.trans hproject)
    exact ⟨w, r, hs, rfl, hheader, hlines⟩

end Service

end SchemaForge
