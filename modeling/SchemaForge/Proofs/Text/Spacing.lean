import Mathlib.Data.List.Chain
import Mathlib.Data.List.DropRight
import SchemaForge.Proofs.Text.Segments
import SchemaForge.Text.Blank

/-!
# Single separators

Characters are `Spaced` if separators stand only where one word ends and the next begins: neither at
the front nor at the end, and no two in a row. Cutting at a separator then leaves no empty piece,
and no other characters have that property. Behind the first character of a word only the end and
the pairs matter: this is what `Continues` says, and the inductions are over it.
-/

namespace SchemaForge.Text

/-- What follows in a word has separators only where the word ends and another one begins. -/
structure Continues (isSep : Char → Bool) (cs : List Char) : Prop where
  last : ∀ c, cs.getLast? = some c → isSep c = false
  chain : cs.IsChain fun c d => isSep c = true → isSep d = false

/-- Separators stand only where a word ends and another one begins. -/
structure Spaced (isSep : Char → Bool) (cs : List Char) : Prop extends Continues isSep cs where
  head : ∃ c, cs.head? = some c ∧ isSep c = false

section

variable {isSep : Char → Bool} {c : Char} {cs : List Char}

theorem continues_nil : Continues isSep [] := ⟨nofun, .nil⟩

theorem not_spaced_nil : ¬Spaced isSep [] := by
  rintro ⟨-, c, hc, -⟩
  cases hc

/-- Behind a separator a word has to begin. -/
theorem continues_cons_of_isSep (hc : isSep c = true) :
    Continues isSep (c :: cs) ↔ Spaced isSep cs := by
  cases cs with
  | nil =>
    refine iff_of_false (fun h => ?_) not_spaced_nil
    rw [h.last c rfl] at hc
    cases hc
  | cons d ds =>
    constructor
    · rintro ⟨hlast, hchain⟩
      obtain ⟨hd, hchain⟩ := List.isChain_cons_cons.mp hchain
      exact ⟨⟨fun e he => hlast e (List.getLast?_cons_cons.trans he), hchain⟩, d, rfl, hd hc⟩
    · rintro ⟨⟨hlast, hchain⟩, e, he, hd⟩
      obtain rfl := Option.some.inj he
      exact ⟨fun e he => hlast e (List.getLast?_cons_cons.symm.trans he),
        List.isChain_cons_cons.mpr ⟨fun _ => hd, hchain⟩⟩

/-- Any other character continues a word. -/
theorem continues_cons_of_not_isSep (hc : isSep c = false) :
    Continues isSep (c :: cs) ↔ Continues isSep cs := by
  cases cs with
  | nil =>
    refine iff_of_true ⟨fun d hd => ?_, .singleton c⟩ continues_nil
    rwa [← Option.some.inj hd]
  | cons d ds =>
    have hpair : isSep c = true → isSep d = false := by
      rw [hc]
      exact nofun
    constructor
    · rintro ⟨hlast, hchain⟩
      exact ⟨fun e he => hlast e (List.getLast?_cons_cons.trans he),
        (List.isChain_cons_cons.mp hchain).2⟩
    · rintro ⟨hlast, hchain⟩
      exact ⟨fun e he => hlast e (List.getLast?_cons_cons.symm.trans he),
        List.isChain_cons_cons.mpr ⟨hpair, hchain⟩⟩

theorem spaced_cons_iff :
    Spaced isSep (c :: cs) ↔ isSep c = false ∧ Continues isSep (c :: cs) := by
  constructor
  · rintro ⟨hrest, d, hd, hc⟩
    obtain rfl := Option.some.inj hd
    exact ⟨hc, hrest⟩
  · rintro ⟨hc, hrest⟩
    exact ⟨hrest, c, rfl, hc⟩

end

/-! ### Pieces that are not empty -/

section

variable {separator : Char} {cs : List Char}

theorem nil_not_mem_tail_pieces_iff :
    [] ∉ (pieces separator cs).tail ↔ Continues (· == separator) cs := by
  induction cs with
  | nil => exact iff_of_true List.not_mem_nil continues_nil
  | cons c rest ih =>
    rw [pieces]
    split
    · next hc =>
      refine Iff.trans ?_ (continues_cons_of_isSep (by simpa using hc)).symm
      rw [List.tail_cons]
      -- the piece after a separator is empty at the end of the text or before another separator
      cases rest with
      | nil => exact iff_of_false (fun h => h List.mem_cons_self) not_spaced_nil
      | cons d rest =>
        rw [spaced_cons_iff, ← ih, pieces]
        split
        · next hd =>
          exact iff_of_false (fun h => h List.mem_cons_self) fun h =>
            beq_eq_false_iff_ne.mp h.1 hd
        · next hd =>
          obtain ⟨p, ps, hps⟩ := List.exists_cons_of_ne_nil (pieces_ne_nil separator rest)
          rw [hps, List.modifyHead_cons, List.tail_cons, List.mem_cons,
            and_iff_right (beq_eq_false_iff_ne.mpr hd)]
          simp
    · next hc =>
      refine Iff.trans ?_ (continues_cons_of_not_isSep (by simpa using hc)).symm
      rw [← ih, List.tail_modifyHead]

/-- No piece is empty exactly if separators stand only between other characters. -/
theorem nil_not_mem_pieces_iff : [] ∉ pieces separator cs ↔ Spaced (· == separator) cs := by
  refine Iff.trans ?_ (continues_cons_of_isSep (beq_self_eq_true separator))
  rw [← nil_not_mem_tail_pieces_iff, pieces, if_pos rfl, List.tail_cons]

end

/-! ### Characters without those at either end -/

section

variable {drop : Char → Bool} {c : Char} {cs : List Char}

theorem head?_dropWhile (h : (cs.dropWhile drop).head? = some c) : drop c = false := by
  have := List.head?_dropWhile_not drop cs
  rwa [h] at this

theorem getLast?_stripped (h : (stripped drop cs).getLast? = some c) : drop c = false := by
  rw [stripped, List.getLast?_reverse] at h
  exact head?_dropWhile h

theorem head?_stripped (h : (stripped drop cs).head? = some c) : drop c = false := by
  rw [stripped, List.head?_reverse] at h
  obtain ⟨front, hfront⟩ := List.dropWhile_suffix (l := (cs.dropWhile drop).reverse) drop
  have hlast := congrArg List.getLast? hfront
  rw [List.getLast?_append, h, Option.some_or, List.getLast?_reverse] at hlast
  exact head?_dropWhile hlast.symm

theorem mem_of_mem_stripped (h : c ∈ stripped drop cs) : c ∈ cs :=
  (List.dropWhile_sublist drop).subset
    (List.mem_reverse.mp ((List.dropWhile_sublist drop).subset (List.mem_reverse.mp h)))

theorem stripped_eq_self (hhead : ∀ c, cs.head? = some c → drop c = false)
    (hlast : ∀ c, cs.getLast? = some c → drop c = false) : stripped drop cs = cs := by
  have hnone (ds : List Char) (hds : ∀ c, ds.head? = some c → drop c = false) :
      ds.dropWhile drop = ds := by
    cases ds with
    | nil => rfl
    | cons d ds => rw [List.dropWhile_cons_of_neg (by simp [hds d rfl])]
  rw [stripped, hnone cs hhead, hnone cs.reverse fun c hc => hlast c (List.head?_reverse ▸ hc),
    List.reverse_reverse]

theorem stripped_eq_rdropWhile (drop : Char → Bool) (cs : List Char) :
    stripped drop cs = (cs.dropWhile drop).rdropWhile drop := rfl

/-- Nothing is left exactly where all characters are dropped. -/
theorem stripped_eq_nil_iff : stripped drop cs = [] ↔ ∀ c ∈ cs, drop c = true := by
  rw [stripped_eq_rdropWhile, List.rdropWhile_eq_nil_iff]
  refine ⟨fun h c hc => ?_, fun h c hc => h c ((List.dropWhile_sublist drop).subset hc)⟩
  rw [← List.takeWhile_append_dropWhile (p := drop) (l := cs)] at hc
  exact (List.mem_append.mp hc).elim List.mem_takeWhile_imp (h c)

/-- Slashes at either end add no segments. -/
theorem segments_stripped (cs : List Char) :
    segments (String.ofList (stripped (· == '/') cs)) = segments (String.ofList cs) := by
  rw [stripped_eq_rdropWhile, ← segments_dropWhile cs]
  generalize cs.dropWhile (· == '/') = ds
  have hslashes : ∀ c ∈ ds.rtakeWhile (· == '/'), c = '/' :=
    fun c hc => by simpa using List.mem_rtakeWhile_imp hc
  conv_rhs =>
    rw [← List.rdropWhile_append_rtakeWhile (p := (· == '/')) (l := ds),
      List.eq_replicate_of_mem hslashes]
  rw [segments_append_replicate]

end

end SchemaForge.Text
