import Mathlib.Logic.Function.Basic
import Mathlib.Logic.Relation
import SchemaForge.Proofs.Compile.Interference
import SchemaForge.Proofs.Compile.Success
import SchemaForge.Proofs.Staging.Exclusion

/-!
# Compiles that take turns

Any number of compiles share a store, an area and the locks. One step after the other, in any order,
a compile generates its models, asks for the lock of its project, makes one more request while it
holds the lock, or gives the lock back; in between there are requests to the store. Whatever the order
is, each compile answers with the archive of the models that it has generated.
-/

namespace SchemaForge

/-! ### Steps -/

/-- How far a compile has come. -/
inductive Phase
  | begun
  /-- The models could not be generated, and that was all. -/
  | refused (e : CompileError)
  | generated (g : Generation)
  /-- The lock is asked for; these calls are left, to be made while it is held. -/
  | staging (g : Generation) (rest : Script StagingCall (Except CompileError CompiledArchive))
  /-- The lock is given back. -/
  | returned (g : Generation) (r : Except CompileError CompiledArchive)

namespace Phase

/-- The phase behind the attempt to generate the models. -/
def ofGeneration : Except CompileError Generation → Phase
  | .error e => refused e
  | .ok g => generated g

/-- The models that a compile has generated. -/
def generation? : Phase → Option Generation
  | begun | refused _ => none
  | generated g | staging g _ | returned g _ => some g

theorem generation?_ofGeneration {r : Except CompileError Generation} {g : Generation} :
    (ofGeneration r).generation? = some g ↔ r = .ok g := by
  rcases r with e | g'
  · exact iff_of_false nofun nofun
  · exact ⟨fun h => congrArg Except.ok (Option.some.inj h), fun h => congrArg some (Except.ok.inj h)⟩

theorem ofGeneration_ne_staging {r : Except CompileError Generation} {g : Generation}
    {rest : Script StagingCall (Except CompileError CompiledArchive)} :
    ofGeneration r ≠ staging g rest := by
  rcases r with e | g'
  · nofun
  · nofun

theorem ofGeneration_ne_returned {r : Except CompileError Generation} {g : Generation}
    {result : Except CompileError CompiledArchive} : ofGeneration r ≠ returned g result := by
  rcases r with e | g'
  · nofun
  · nofun

end Phase

/-- What compiles share, and how far the compile of each label has come. -/
structure Workshop where
  store : Store
  tree : FileTree
  locks : Locks
  phase : String → Phase

namespace Workshop

/-- The compile of a label goes on to another phase. -/
def enter (w : Workshop) (label : String) (p : Phase) : Workshop :=
  { w with phase := Function.update w.phase label p }

variable {pack : Archive.Packer} {config : CompilerConfig} {keys : String → LockKey}
  {w w' w₀ : Workshop} {b : Location} {label label' : String} {g : Generation}

/-- One step of somebody. The compile of a label is that of the project with the label's key. -/
inductive Step (pack : Archive.Packer) (config : CompilerConfig) (keys : String → LockKey) :
    Workshop → Workshop → Prop
  /-- A request changes the store. -/
  | write {w : Workshop} (c : Store.Write) (room : c.HasRoom w.store) :
      Step pack config keys w { w with store := (c.run w.store).2 }
  | generate {w : Workshop} {label : String} (phase : w.phase label = .begun) :
      Step pack config keys w (w.enter label
        (.ofGeneration (w.store.generate (keys label).owner (keys label).project)))
  | acquire {w : Workshop} {label : String} {g : Generation}
      (phase : w.phase label = .generated g) :
      Step pack config keys w
        { w.enter label (.staging g
            (g.compileWith pack config (keys label).owner (keys label).project).run) with
          locks := w.locks.acquire label (keys label) }
  /-- A compile looks whether the lock is given to it. -/
  | poll {w : Workshop} {label : String} {g : Generation}
      {rest : Script StagingCall (Except CompileError CompiledArchive)}
      (phase : w.phase label = .staging g rest) :
      Step pack config keys w { w with locks := w.locks.poll label }
  | call {w : Workshop} {label : String} {g : Generation} {β : Type} {c : StagingCall β}
      {next : β → Script StagingCall (Except CompileError CompiledArchive)}
      (phase : w.phase label = .staging g (.call c next)) (holds : label ∈ w.locks.holding) :
      Step pack config keys w
        { w.enter label
            (.staging g (next ((StagingArea.mk config.stagingRoot).perform c w.tree).1)) with
          tree := ((StagingArea.mk config.stagingRoot).perform c w.tree).2 }
  | release {w : Workshop} {label : String} {g : Generation}
      {r : Except CompileError CompiledArchive}
      (phase : w.phase label = .staging g (.done r)) (holds : label ∈ w.locks.holding) :
      Step pack config keys w
        { w.enter label (.returned g r) with locks := w.locks.release label }

/-- Any number of steps. -/
abbrev Run (pack : Archive.Packer) (config : CompilerConfig) (keys : String → LockKey) :
    Workshop → Workshop → Prop :=
  Relation.ReflTransGen (Step pack config keys)

@[simp]
theorem enter_phase_self (p : Phase) : (w.enter label p).phase label = p :=
  Function.update_self ..

theorem enter_phase_of_ne (h : label' ≠ label) (p : Phase) :
    (w.enter label p).phase label' = w.phase label' :=
  Function.update_of_ne h ..

/-- The compile of a label is in its new phase, all others are where they were. -/
theorem enter_phase_cases {p q : Phase} (h : (w.enter label p).phase label' = q) :
    label' = label ∧ p = q ∨ label' ≠ label ∧ w.phase label' = q := by
  by_cases hlabel : label' = label
  · rw [hlabel, enter_phase_self] at h
    exact .inl ⟨hlabel, h⟩
  · rw [enter_phase_of_ne hlabel] at h
    exact .inr ⟨hlabel, h⟩

/-- A compile that goes on with the models that it has generated. -/
theorem generation?_of_enter {p : Phase} {g' : Generation}
    (h : ((w.enter label p).phase label').generation? = some g')
    (hold : (w.phase label).generation? = some g) (hnew : p.generation? = some g) :
    (w.phase label').generation? = some g' := by
  by_cases hlabel : label' = label
  · rw [hlabel, enter_phase_self, hnew] at h
    rw [hlabel, hold, h]
  · rwa [enter_phase_of_ne hlabel] at h

/-! ### What is kept -/

/-- Nothing has happened yet. -/
structure Initial (config : CompilerConfig) (b : Location) (w : Workshop) : Prop where
  store : w.store.Reachable
  tree : (StagingArea.mk config.stagingRoot).Unobstructed w.tree b
  locks : w.locks = .empty
  phase : ∀ label, w.phase label = .begun

/-- The result is the archive of the models. -/
def Answers (pack : Archive.Packer) (config : CompilerConfig) (g : Generation)
    (r : Except CompileError CompiledArchive) : Prop :=
  ∃ bytes, pack config.compression (g.models.map (Generation.entry g.project.name)) = .ok bytes ∧
    r = .ok (g.archive bytes)

/-- The steps of a compile answer with the archive of the models, whatever others do. -/
theorem safe_compileWith {key : LockKey} (hpack : Archive.Able pack) (config : CompilerConfig)
    {s : Store} (hs : s.Reachable) (hgenerate : s.generate key.owner key.project = .ok g)
    (b : Location) (t : FileTree) :
    (StagingArea.mk config.stagingRoot).Safe b key (fun r _ => Answers pack config g r)
      (g.compileWith pack config key.owner key.project).run t := by
  obtain ⟨hproject, hmodels⟩ := hs.consistent.generate_eq_ok hgenerate
  have hname := hs.consistent.checkProjectName_of_getProject hproject
  obtain ⟨bytes, hbytes⟩ := hmodels.exists_pack_eq_ok hs.consistent
    (Naming.length_le_of_checkProjectName hname) hpack config.compression
  refine StagingArea.Safe.imp (Generation.succeeds_compileWith hname (fun m hm => ?_)
    (hmodels.nodup_fileNames hs.consistent) hbytes t) ?_
  · exact hs.consistent.object_named _ (Store.mem_objectsOf_iff.mp (hmodels.object_mem hm)).1
  · rintro r t ⟨a, rfl, rfl⟩
    exact ⟨bytes, hbytes, rfl⟩

/-- What is left of a compile. It holds the lock, or has not begun to stage. -/
structure Stages (pack : Archive.Packer) (config : CompilerConfig) (keys : String → LockKey)
    (b : Location) (t : FileTree) (l : Locks) (label : String) (g : Generation)
    (rest : Script StagingCall (Except CompileError CompiledArchive)) : Prop where
  safe : (StagingArea.mk config.stagingRoot).Safe b (keys label)
    (fun r _ => Answers pack config g r) rest t
  ticket : ∃ ticket ∈ l.tickets, ticket.label = label ∧ (ticket.state ≠ .held → ∀ t',
    (StagingArea.mk config.stagingRoot).Safe b (keys label)
      (fun r _ => Answers pack config g r) rest t')

/-- What every step keeps. -/
structure Sound (pack : Archive.Packer) (config : CompilerConfig) (keys : String → LockKey)
    (b : Location) (w : Workshop) : Prop where
  store : w.store.Reachable
  tree : (StagingArea.mk config.stagingRoot).Unobstructed w.tree b
  locks : w.locks.Sound
  /-- Tickets are those of compiles that stage. -/
  ticket : ∀ t ∈ w.locks.tickets, t.key = keys t.label ∧ ∃ g rest, w.phase t.label = .staging g rest
  /-- Models are those of some store. -/
  generated : ∀ label g, (w.phase label).generation? = some g → ∃ s : Store, s.Reachable ∧
    s.generate (keys label).owner (keys label).project = .ok g
  staging : ∀ label g rest, w.phase label = .staging g rest →
    Stages pack config keys b w.tree w.locks label g rest
  returned : ∀ label g r, w.phase label = .returned g r → Answers pack config g r

theorem Initial.sound (h : Initial config b w) : Sound pack config keys b w where
  store := h.store
  tree := h.tree
  locks := h.locks ▸ Locks.sound_empty
  ticket t ht := by
    rw [h.locks] at ht
    exact absurd ht List.not_mem_nil
  generated label g hg := by
    rw [h.phase] at hg
    cases hg
  staging label g rest hphase := by
    rw [h.phase] at hphase
    cases hphase
  returned label g r hphase := by
    rw [h.phase] at hphase
    cases hphase

namespace Sound

variable (h : Sound pack config keys b w)

include h

/-- A compile that does not stage has no ticket. -/
theorem label_ne (hphase : ∀ g rest, w.phase label ≠ .staging g rest) :
    ∀ t ∈ w.locks.tickets, t.label ≠ label := by
  rintro t ht rfl
  obtain ⟨-, g, rest, hstaging⟩ := h.ticket t ht
  exact hphase g rest hstaging

theorem returned_enter {p : Phase} {r : Except CompileError CompiledArchive}
    (hp : ∀ g r, p = .returned g r → Answers pack config g r)
    (hr : (w.enter label p).phase label' = .returned g r) : Answers pack config g r := by
  rcases enter_phase_cases hr with ⟨-, hnew⟩ | ⟨-, hold⟩
  · exact hp g r hnew
  · exact h.returned label' g r hold

theorem generate (hphase : w.phase label = .begun) :
    Sound pack config keys b (w.enter label
      (.ofGeneration (w.store.generate (keys label).owner (keys label).project))) where
  store := h.store
  tree := h.tree
  locks := h.locks
  ticket t ht := by
    obtain ⟨hkey, g, rest, hstaging⟩ := h.ticket t ht
    refine ⟨hkey, g, rest, ?_⟩
    rw [enter_phase_of_ne, hstaging]
    exact h.label_ne (by simp [hphase]) t ht
  generated label' g hg := by
    by_cases hlabel : label' = label
    · subst hlabel
      rw [enter_phase_self] at hg
      exact ⟨w.store, h.store, Phase.generation?_ofGeneration.mp hg⟩
    · rw [enter_phase_of_ne hlabel] at hg
      exact h.generated label' g hg
  staging label' g rest hstaging := by
    rcases enter_phase_cases hstaging with ⟨-, hnew⟩ | ⟨-, hold⟩
    · exact absurd hnew Phase.ofGeneration_ne_staging
    · exact h.staging label' g rest hold
  returned _ _ _ := h.returned_enter fun _ _ hnew => absurd hnew Phase.ofGeneration_ne_returned

theorem acquire (hpack : Archive.Able pack) (hphase : w.phase label = .generated g) :
    Sound pack config keys b { w.enter label (.staging g
        (g.compileWith pack config (keys label).owner (keys label).project).run) with
      locks := w.locks.acquire label (keys label) } := by
  have hfresh : ∀ t ∈ w.locks.tickets, t.label ≠ label := h.label_ne (by simp [hphase])
  obtain ⟨ticket, htickets, hlabel, hkey, -, -⟩ := h.locks.exists_acquire hfresh (keys label)
  have hg : (w.phase label).generation? = some g := by
    rw [hphase]
    rfl
  refine ⟨h.store, h.tree, h.locks.acquire label (keys label), fun t ht => ?_,
    fun _ _ hg' => h.generated _ _ (generation?_of_enter hg' hg rfl), fun label' g' rest hstaging => ?_,
    fun _ _ _ hreturned => h.returned_enter (fun _ _ hnew => by cases hnew) hreturned⟩
  · rw [htickets] at ht
    rcases List.mem_append.mp ht with ht | ht
    · obtain ⟨hkey', g', rest, hstaging⟩ := h.ticket t ht
      exact ⟨hkey', g', rest, (enter_phase_of_ne (hfresh t ht) _).trans hstaging⟩
    · obtain rfl := List.mem_singleton.mp ht
      rw [hlabel]
      exact ⟨hkey, g, _, enter_phase_self _⟩
  · rcases enter_phase_cases hstaging with ⟨rfl, hnew⟩ | ⟨-, hold⟩
    · obtain ⟨rfl, rfl⟩ := Phase.staging.inj hnew
      obtain ⟨s, hs, hgenerate⟩ := h.generated label' g hg
      -- it waits for the lock, so its calls must be safe from whatever tree it finds then
      have hsafe := safe_compileWith hpack config hs hgenerate b
      refine ⟨hsafe w.tree, ticket, ?_, hlabel, fun _ => hsafe⟩
      exact htickets ▸ List.mem_append_right _ (List.mem_singleton_self ticket)
    · obtain ⟨hsafe, t, ht, hrest⟩ := h.staging label' g' rest hold
      exact ⟨hsafe, t, htickets ▸ List.mem_append_left _ ht, hrest⟩

theorem poll (label : String) :
    Sound pack config keys b { w with locks := w.locks.poll label } := by
  refine ⟨h.store, h.tree, h.locks.poll label, fun t ht => ?_, h.generated,
    fun label' g rest hstaging => ?_, h.returned⟩
  · obtain ⟨t₀, ht₀, rfl⟩ := Locks.mem_poll.mp ht
    rw [Locks.key_looked, Locks.label_looked]
    exact h.ticket t₀ ht₀
  · obtain ⟨hsafe, t, ht, hlabel, hwaits⟩ := h.staging label' g rest hstaging
    refine ⟨hsafe, _, Locks.mem_poll.mpr ⟨t, ht, rfl⟩, (Locks.label_looked label t).trans hlabel,
      fun hstate => hwaits fun hheld => hstate (Locks.state_looked_of_held hheld)⟩

/-- One compile at a time holds the lock of a key; the others that stage have not begun to. -/
theorem safe_of_other {rest : Script StagingCall (Except CompileError CompiledArchive)}
    {t' : FileTree} (hheld : label ∈ w.locks.holding)
    (hrespects : (StagingArea.mk config.stagingRoot).Respects b (keys label) w.tree t')
    (hother : label' ≠ label) (hstaging : w.phase label' = .staging g rest) :
    Stages pack config keys b t' w.locks label' g rest := by
  obtain ⟨hsafe, t, ht, hlabel, hwaits⟩ := h.staging label' g rest hstaging
  refine ⟨?_, t, ht, hlabel, hwaits⟩
  by_cases hkey : keys label' = keys label
  · -- two that hold the lock of one key would be one
    apply hwaits
    intro hstate
    obtain ⟨t₀, ht₀, hlabel₀, hstate₀⟩ := Locks.mem_holding_iff.mp hheld
    have hkeys : t.key = t₀.key := by
      rw [(h.ticket t ht).1, (h.ticket t₀ ht₀).1, hlabel, hlabel₀, hkey]
    have heq := h.locks.eq_of_mutex_eq ht ht₀ ((h.locks.mutex_eq_iff ht ht₀).mpr hkeys)
      (by rw [hstate]; nofun) (by rw [hstate₀]; nofun)
    exact hother (hlabel.symm.trans ((congrArg Ticket.label heq).trans hlabel₀))
  · exact hsafe.untouched (hrespects.others _ hkey) fun _ hr => hr

theorem call {β : Type} {c : StagingCall β}
    {next : β → Script StagingCall (Except CompileError CompiledArchive)}
    (hphase : w.phase label = .staging g (.call c next)) (hheld : label ∈ w.locks.holding) :
    Sound pack config keys b
      { w.enter label
          (.staging g (next ((StagingArea.mk config.stagingRoot).perform c w.tree).1)) with
        tree := ((StagingArea.mk config.stagingRoot).perform c w.tree).2 } := by
  obtain ⟨hsafe, -⟩ := h.staging label g _ hphase
  obtain ⟨hrespects, hnext⟩ := hsafe w.tree (.refl h.tree)
  have hg : (w.phase label).generation? = some g := by
    rw [hphase]
    rfl
  refine ⟨h.store, hrespects.unobstructed, h.locks, fun t ht => ?_,
    fun _ _ hg' => h.generated _ _ (generation?_of_enter hg' hg rfl), fun label' g' rest hstaging => ?_,
    fun _ _ _ hreturned => h.returned_enter (fun _ _ hnew => by cases hnew) hreturned⟩
  · obtain ⟨hkey, g', rest, hstaging⟩ := h.ticket t ht
    by_cases hlabel : t.label = label
    · rw [hlabel] at hkey ⊢
      exact ⟨hkey, g, _, enter_phase_self _⟩
    · exact ⟨hkey, g', rest, (enter_phase_of_ne hlabel _).trans hstaging⟩
  · rcases enter_phase_cases hstaging with ⟨rfl, hnew⟩ | ⟨hother, hold⟩
    · obtain ⟨rfl, rfl⟩ := Phase.staging.inj hnew
      obtain ⟨t, ht, hlabel, hstate⟩ := Locks.mem_holding_iff.mp hheld
      exact ⟨hnext, t, ht, hlabel, fun hwaits => absurd hstate hwaits⟩
    · exact h.safe_of_other hheld hrespects hother hold

theorem release {r : Except CompileError CompiledArchive}
    (hphase : w.phase label = .staging g (.done r)) :
    Sound pack config keys b
      { w.enter label (.returned g r) with locks := w.locks.release label } := by
  obtain ⟨hsafe, ticket, hticket, hlabel, -⟩ := h.staging label g _ hphase
  have hg : (w.phase label).generation? = some g := by
    rw [hphase]
    rfl
  obtain ⟨found, hfound, hrelease⟩ : ∃ t ∈ w.locks.tickets,
      w.locks.release label = (w.locks.without label).grant t.mutex := by
    unfold Locks.release
    split
    · next hnone => exact absurd hlabel (by simpa using List.find?_eq_none.mp hnone ticket hticket)
    · next t ht => exact ⟨t, List.mem_of_find?_eq_some ht, rfl⟩
  refine ⟨h.store, h.tree, h.locks.release label, fun t ht => ?_,
    fun _ _ hg' => h.generated _ _ (generation?_of_enter hg' hg rfl), fun label' g' rest hstaging => ?_,
    fun _ _ _ hreturned => h.returned_enter (fun g' r' hnew => ?_) hreturned⟩
  · dsimp only at ht
    rw [hrelease] at ht
    obtain ⟨t₀, ht₀, hlabel₀, hkey₀, -⟩ := Locks.mem_grant ht
    obtain ⟨ht₀, hne⟩ := Locks.mem_without.mp ht₀
    obtain ⟨hkey, g', rest, hstaging⟩ := h.ticket t₀ ht₀
    rw [← hlabel₀, ← hkey₀]
    exact ⟨hkey, g', rest, (enter_phase_of_ne hne _).trans hstaging⟩
  · rcases enter_phase_cases hstaging with ⟨-, hnew⟩ | ⟨hother, hold⟩
    · cases hnew
    · obtain ⟨hsafe', t, ht, hlabel', hwaits⟩ := h.staging label' g' rest hold
      have hmem : t ∈ (w.locks.without label).tickets :=
        Locks.mem_without.mpr ⟨ht, hlabel'.symm ▸ hother⟩
      obtain ⟨t', ht', hsame, -, -, hstate⟩ := Locks.exists_mem_grant (m := found.mutex) hmem
      -- who is given the lock has only waited for it until now
      refine ⟨hsafe', t', hrelease ▸ ht', hsame.trans hlabel', fun hheld => hwaits ?_⟩
      rcases hstate with rfl | ⟨hqueued, -⟩
      · exact hheld
      · rw [hqueued]
        nofun
  · obtain ⟨rfl, rfl⟩ := Phase.returned.inj hnew
    exact hsafe

/-- Every step keeps the workshop sound. -/
theorem step (hpack : Archive.Able pack) (hstep : Step pack config keys w w') :
    Sound pack config keys b w' := by
  cases hstep with
  | write c room =>
    exact ⟨h.store.written c room, h.tree, h.locks, h.ticket, h.generated, h.staging, h.returned⟩
  | generate hphase => exact h.generate hphase
  | acquire hphase => exact h.acquire hpack hphase
  | poll hphase => exact h.poll _
  | call hphase hholds => exact h.call hphase hholds
  | release hphase hholds => exact h.release hphase

theorem run (hpack : Archive.Able pack) (hrun : Run pack config keys w w') :
    Sound pack config keys b w' := by
  induction hrun with
  | refl => exact h
  | tail _ hstep ih => exact ih.step hpack hstep

end Sound

/-! ### Every compile can return -/

/-- Models that are generated stay the models of the compile. -/
theorem Step.generation? (hstep : Step pack config keys w w')
    (hg : (w.phase label).generation? = some g) : (w'.phase label).generation? = some g := by
  have henter : ∀ {label' : String} {p : Phase},
      (∀ g', (w.phase label').generation? = some g' → p.generation? = some g') →
        ((w.enter label' p).phase label).generation? = some g := by
    intro label' p hp
    by_cases hlabel : label = label'
    · rw [hlabel, enter_phase_self]
      exact hp g (hlabel ▸ hg)
    · rwa [enter_phase_of_ne hlabel]
  cases hstep with
  | write c room => exact hg
  | generate hphase =>
    apply henter
    rw [hphase]
    exact fun _ h => nomatch h
  | acquire hphase | call hphase _ | release hphase _ =>
    apply henter
    rw [hphase]
    exact fun _ h => h
  | poll hphase => exact hg

theorem Step.returned {r : Except CompileError CompiledArchive}
    (hstep : Step pack config keys w w') (hr : w.phase label = .returned g r) :
    w'.phase label = .returned g r := by
  have henter : ∀ {label' : String} {p : Phase},
      w.phase label' ≠ .returned g r → (w.enter label' p).phase label = .returned g r := by
    rintro label' p hne
    rw [enter_phase_of_ne, hr]
    rintro rfl
    exact hne hr
  cases hstep with
  | write c room => exact hr
  | generate hphase | acquire hphase | call hphase _ | release hphase _ =>
    apply henter
    rw [hphase]
    nofun
  | poll hphase => exact hr

theorem generation?_of_run (hrun : Run pack config keys w w')
    (hg : (w.phase label).generation? = some g) : (w'.phase label).generation? = some g := by
  induction hrun with
  | refl => exact hg
  | tail _ hstep ih => exact hstep.generation? ih

theorem returned_of_run {r : Except CompileError CompiledArchive}
    (hrun : Run pack config keys w w') (hr : w.phase label = .returned g r) :
    w'.phase label = .returned g r := by
  induction hrun with
  | refl => exact hr
  | tail _ hstep ih => exact hstep.returned ih

/-- A compile that holds the lock returns when it makes its calls one after the other. -/
theorem exists_run_of_holding {rest : Script StagingCall (Except CompileError CompiledArchive)}
    (hphase : w.phase label = .staging g rest) (hheld : label ∈ w.locks.holding) :
    ∃ r w', Run pack config keys w w' ∧ w'.phase label = .returned g r ∧
      (∀ label', label' ≠ label → w'.phase label' = w.phase label') ∧
      w'.locks = w.locks.release label := by
  induction rest generalizing w with
  | done r =>
    exact ⟨r, _, .single (.release hphase hheld), enter_phase_self _,
      fun _ hne => enter_phase_of_ne hne _, rfl⟩
  | call c next ih =>
    obtain ⟨r, w', hrun, hreturned, hothers, hlocks⟩ := ih _
      (w := { w.enter label
        (.staging g (next ((StagingArea.mk config.stagingRoot).perform c w.tree).1)) with
          tree := ((StagingArea.mk config.stagingRoot).perform c w.tree).2 })
      (enter_phase_self _) hheld
    exact ⟨r, w', .head (.call hphase hheld) hrun, hreturned,
      fun label' hne => (hothers label' hne).trans (enter_phase_of_ne hne _), hlocks⟩

namespace Sound

/-- A compile that stages can return: those that have the lock before it can. -/
theorem exists_run_of_staging (h : Sound pack config keys b w) (hpack : Archive.Able pack)
    {rest : Script StagingCall (Except CompileError CompiledArchive)}
    (hphase : w.phase label = .staging g rest) :
    ∃ r w', Run pack config keys w w' ∧ w'.phase label = .returned g r := by
  -- the tickets get fewer with every compile that returns
  induction hlength : w.locks.tickets.length using Nat.strong_induction_on generalizing w with
  | h n ih =>
    obtain ⟨-, t, ht, hlabel, -⟩ := h.staging label g rest hphase
    obtain ⟨t', ht', hkey, hstate⟩ := h.locks.exists_taker ht
    obtain ⟨-, g', rest', hphase'⟩ := h.ticket t' ht'
    have hpoll : Step pack config keys w { w with locks := w.locks.poll t'.label } := .poll hphase'
    obtain ⟨r, w₁, hrun, hreturned, hothers, hlocks⟩ := exists_run_of_holding
      (w := { w with locks := w.locks.poll t'.label }) hphase'
      (Locks.mem_holding_poll ht' hstate)
    by_cases hsame : t'.label = label
    · rw [hsame] at hphase' hreturned
      obtain ⟨rfl, -⟩ := Phase.staging.inj (hphase'.symm.trans hphase)
      exact ⟨r, w₁, .head hpoll hrun, hreturned⟩
    · have hrun₁ : Run pack config keys w w₁ := .head hpoll hrun
      have hphase₁ : w₁.phase label = .staging g rest :=
        (hothers label (Ne.symm hsame)).trans hphase
      have hfewer : w₁.locks.tickets.length < n := by
        rw [hlocks, ← hlength, ← Locks.length_poll w.locks t'.label]
        exact Locks.length_release_lt (Locks.mem_holding_poll ht' hstate)
      obtain ⟨r', w', hrun', hreturned'⟩ := ih _ hfewer (h.run hpack hrun₁) hphase₁ rfl
      exact ⟨r', w', hrun₁.trans hrun', hreturned'⟩

/-- A compile that has generated its models can return. -/
theorem exists_run (h : Sound pack config keys b w) (hpack : Archive.Able pack)
    (hg : (w.phase label).generation? = some g) :
    ∃ r w', Run pack config keys w w' ∧ w'.phase label = .returned g r := by
  rcases hphase : w.phase label with _ | e | g' | ⟨g', rest⟩ | ⟨g', r⟩
  · rw [hphase] at hg
    cases hg
  · rw [hphase] at hg
    cases hg
  · rw [hphase] at hg
    obtain rfl := Option.some.inj hg
    have hstep : Step pack config keys w _ := .acquire hphase
    obtain ⟨r, w', hrun, hreturned⟩ :=
      (h.step hpack hstep).exists_run_of_staging hpack (enter_phase_self _)
    exact ⟨r, w', .head hstep hrun, hreturned⟩
  · rw [hphase] at hg
    obtain rfl := Option.some.inj hg
    exact h.exists_run_of_staging hpack hphase
  · rw [hphase] at hg
    obtain rfl := Option.some.inj hg
    exact ⟨r, w, .refl, hphase⟩

/-- So can any number of them. -/
theorem exists_run_all (h : Sound pack config keys b w) (hpack : Archive.Able pack)
    (labels : List String) :
    ∃ w', Run pack config keys w w' ∧ ∀ label ∈ labels, ∀ g,
      (w.phase label).generation? = some g → ∃ r, w'.phase label = .returned g r := by
  induction labels with
  | nil => exact ⟨w, .refl, nofun⟩
  | cons label rest ih =>
    obtain ⟨w₁, hrun₁, hrest⟩ := ih
    rcases hg : (w.phase label).generation? with _ | g
    · refine ⟨w₁, hrun₁, List.forall_mem_cons.mpr ⟨fun g hg' => ?_, hrest⟩⟩
      rw [hg] at hg'
      cases hg'
    · obtain ⟨r, w', hrun, hreturned⟩ :=
        (h.run hpack hrun₁).exists_run hpack (generation?_of_run hrun₁ hg)
      refine ⟨w', hrun₁.trans hrun, List.forall_mem_cons.mpr ⟨fun g' hg' => ?_, ?_⟩⟩
      · rw [hg] at hg'
        exact ⟨r, Option.some.inj hg' ▸ hreturned⟩
      · intro label' hlabel' g' hg'
        obtain ⟨r', hr'⟩ := hrest label' hlabel' g' hg'
        exact ⟨r', returned_of_run hrun hr'⟩

end Sound

/-- A step after which a compile has other models has generated them. -/
theorem Step.generate_of_new (hstep : Step pack config keys w w')
    (hg : (w'.phase label).generation? = some g) :
    (w.phase label).generation? = some g ∨
      w.store.generate (keys label).owner (keys label).project = .ok g := by
  cases hstep with
  | write c room => exact .inl hg
  | @generate label' hphase =>
    by_cases hlabel : label = label'
    · subst hlabel
      rw [enter_phase_self] at hg
      exact .inr (Phase.generation?_ofGeneration.mp hg)
    · rw [enter_phase_of_ne hlabel] at hg
      exact .inl hg
  | acquire hphase | call hphase _ | release hphase _ =>
    exact .inl (generation?_of_enter hg (by rw [hphase]; rfl) rfl)
  | poll hphase => exact .inl hg

/-- The models of a compile were generated at some time. -/
theorem exists_store (hstart : Initial config b w₀) (hrun : Run pack config keys w₀ w)
    (hg : (w.phase label).generation? = some g) :
    ∃ w₁, Run pack config keys w₀ w₁ ∧ Run pack config keys w₁ w ∧
      w₁.store.generate (keys label).owner (keys label).project = .ok g := by
  induction hrun with
  | refl =>
    rw [hstart.phase] at hg
    cases hg
  | @tail w₂ w hrun hstep ih =>
    rcases hstep.generate_of_new hg with hold | hnew
    · obtain ⟨w₁, hbefore, hafter, hgenerate⟩ := ih hold
      exact ⟨w₁, hbefore, hafter.tail hstep, hgenerate⟩
    · exact ⟨w₂, hrun, .single hstep, hnew⟩

/-- Whatever the steps and their order are: A compile that has generated its models returns with
nothing but the archive of these models, as it would if there were nobody else. No compile is ever
stuck, so that any number of them can still return. -/
theorem compiles_do_not_mix (hpack : Archive.Able pack) (hstart : Initial config b w₀)
    (hrun : Run pack config keys w₀ w) :
    (∀ label g, (w.phase label).generation? = some g → ∃ (bytes : Bytes) (w₁ : Workshop),
      Run pack config keys w₀ w₁ ∧ Run pack config keys w₁ w ∧
      w₁.store.generate (keys label).owner (keys label).project = .ok g ∧
      pack config.compression (g.models.map (Generation.entry g.project.name)) = .ok bytes ∧
      (∀ r, w.phase label = .returned g r → r = .ok (g.archive bytes)) ∧
      ∀ t b', (StagingArea.mk config.stagingRoot).Unobstructed t b' → ∃ t',
        w₁.store.compileOnWith pack config (keys label).owner (keys label).project t =
          (.ok (g.archive bytes), t')) ∧
    ∀ labels : List String, ∃ w', Run pack config keys w w' ∧ ∀ label ∈ labels, ∀ g,
      (w.phase label).generation? = some g → ∃ a, w'.phase label = .returned g (.ok a) := by
  have h := hstart.sound.run hpack hrun
  refine ⟨fun label g hg => ?_, fun labels => ?_⟩
  · obtain ⟨w₁, hbefore, hafter, hgenerate⟩ := exists_store hstart hrun hg
    have hsafe := safe_compileWith hpack config (hstart.sound.run hpack hbefore).store hgenerate
    obtain ⟨bytes, hbytes, -⟩ := (hsafe b w.tree).run h.tree
    refine ⟨bytes, w₁, hbefore, hafter, hgenerate, hbytes, fun r hr => ?_, fun t b' ht => ?_⟩
    · obtain ⟨bytes', hbytes', rfl⟩ := h.returned label g r hr
      rw [Except.ok.inj (hbytes'.symm.trans hbytes)]
    · -- alone, it makes the same calls with nobody in between
      obtain ⟨bytes', hbytes', hr⟩ := (hsafe b' t).run ht
      obtain rfl := Except.ok.inj (hbytes'.symm.trans hbytes)
      refine ⟨_, Prod.ext ?_ rfl⟩
      unfold Store.compileOnWith Store.compileWith
      rw [hgenerate]
      exact hr
  · obtain ⟨w', hrun', hreturned⟩ := h.exists_run_all hpack labels
    refine ⟨w', hrun', fun label hlabel g hg => ?_⟩
    obtain ⟨r, hr⟩ := hreturned label hlabel g hg
    obtain ⟨bytes, -, rfl⟩ := (h.run hpack hrun').returned label g r hr
    exact ⟨_, hr⟩

/-- Two compiles of one project, of which an object is deleted in between, where the staging
directory is not there yet. -/
theorem compiles_of_changing_project_return :
    ∃ (config : CompilerConfig) (b : Location) (w₀ w : Workshop) (g g' : Generation)
      (a a' : CompiledArchive), Initial config b w₀ ∧
      Run Archive.pack config (fun _ => ⟨7, 3⟩) w₀ w ∧
      g.models.map GeneratedModel.fileName = ["Item.js"] ∧ g'.models = [] ∧
      w.phase "a" = .returned g (.ok a) ∧ w.phase "b" = .returned g' (.ok a') ∧
      a.members = ["Shop/api/models/Item.js"] ∧ a'.members = [] := by
  let item : Object := ⟨1, "Item", 3, 7, .epoch⟩
  let s : Store := ⟨⟨[⟨3, "Shop", 7, 1, .epoch⟩], by decide⟩, ⟨[item], by decide⟩, .empty, .empty⟩
  let config : CompilerConfig := ⟨⟨"/out"⟩, .stored, true⟩
  let project : Project := ⟨3, "Shop", 7, .sailsJs, .epoch⟩
  let g : Generation := ⟨project, [⟨item, ModelFile.ofObject item []⟩]⟩
  let g' : Generation := ⟨project, []⟩
  let deletion : Store.Write := .deleteObject 7 3 1
  let w₀ : Workshop := ⟨s, ⟨[], []⟩, .empty, fun _ => .begun⟩
  let w₁ : Workshop := w₀.enter "a" (.ofGeneration (s.generate 7 3))
  let w₂ : Workshop := { w₁ with store := (deletion.run s).2 }
  let w₃ : Workshop := w₂.enter "b" (.ofGeneration ((deletion.run s).2.generate 7 3))
  have hempty : ∀ l n, w₀.tree.get? l = some n → n = .directory := by
    intro l n hn
    unfold FileTree.get? at hn
    split at hn
    · exact (Option.some.inj hn).symm
    · cases hn
  have happroach : (StagingArea.mk config.stagingRoot).Approach w₀.tree [.text "out"] := by
    refine ⟨⟨"/"⟩, [], ["out"], ⟨by decide, .stay⟩, by decide, by decide, ?_,
      fun _ _ n hn => hempty _ n hn, rfl⟩
    exact List.forall_mem_singleton.mpr ⟨by decide, by decide⟩
  have hvacant : ∀ rest n, w₀.tree.get? ([.text "out"] ++ rest) = some n →
      rest = [] ∧ n = .directory := fun _ _ hn => nomatch hn
  have hstart : Initial config [.text "out"] w₀ := ⟨Store.reachable_of_isOk (by decide +kernel),
    StagingArea.unobstructed_of_vacant happroach (by decide +kernel) (by decide) hvacant, rfl,
    fun _ => rfl⟩
  have hrun : Run Archive.pack config (fun _ => ⟨7, 3⟩) w₀ w₃ :=
    .tail (.tail (.single (.generate rfl)) (.write deletion fun _ => trivial)) (.generate rfl)
  have hg : (w₃.phase "a").generation? = some g := rfl
  have hg' : (w₃.phase "b").generation? = some g' := rfl
  obtain ⟨w, hrun', hreturned⟩ :=
    (compiles_do_not_mix Archive.able_pack hstart hrun).2 ["a", "b"]
  obtain ⟨a, ha⟩ := hreturned "a" (by simp) g hg
  obtain ⟨a', ha'⟩ := hreturned "b" (by simp) g' hg'
  have hresults := (compiles_do_not_mix Archive.able_pack hstart (hrun.trans hrun')).1
  obtain ⟨bytes, -, -, -, -, -, hresult, -⟩ := hresults "a" g (by rw [ha]; rfl)
  obtain ⟨bytes', -, -, -, -, -, hresult', -⟩ := hresults "b" g' (by rw [ha']; rfl)
  obtain rfl := Except.ok.inj (hresult _ ha)
  obtain rfl := Except.ok.inj (hresult' _ ha')
  exact ⟨config, _, w₀, w, g, g', _, _, hstart, hrun.trans hrun', rfl, rfl, ha, ha', rfl, rfl⟩

end Workshop

end SchemaForge
