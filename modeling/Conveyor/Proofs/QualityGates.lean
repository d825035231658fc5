import Conveyor.Proofs.Rendering
import Conveyor.Provision.Gates
import Mathlib.Data.List.SplitBy

/-!
Quality gates in the text for the release job. Between brackets the text is a JSON array, and each
of its elements is a block: gates of one type that are neighbours, as an array of objects, or a gate
without such a neighbour, as an object. The text can be read back (`Tells`), so it tells lists of
gates apart exactly by the types and steps of the gates in order.
-/

namespace Conveyor.Gates

open Json
open Text.Separated (join weave)

/-- What the release job is told about a gate: its type and its step. -/
abbrev Mark := String × String

def mark (g : QualityGate) : Mark := (g.type, g.stepName)

def markJson (p : Mark) : Json := .object [("name", .string p.1), ("step_name", .string p.2)]

theorem ascending_markJson (p : Mark) : Entries.Ascending (markJson p).members :=
  have hnames : "name" < "step_name" := by decide
  List.pairwise_pair.2 hnames

/-- How the gates of a block are written: a single one as an object, several as an array of objects.
-/
inductive IsBlock : Json → List Mark → Prop where
  | single (p : Mark) : IsBlock (markJson p) [p]
  | several (ps : List Mark) (h : 2 ≤ ps.length) : IsBlock (.array (ps.map markJson)) ps

/-- Between brackets, the text is that of an array of these blocks. -/
def Tells (t : String) (blocks : List (List Mark)) : Prop :=
  ∃ elements, read ("[" ++ t ++ "]") = .ok (.array elements) ∧ List.Forall₂ IsBlock elements blocks

/-- The blocks of a list of gates. -/
def blocks (gates : List QualityGate) : List (List Mark) :=
  (gates.map mark).splitBy fun p q => p.1 == q.1

/-! ### Reading blocks -/

theorem markJson_injective : Function.Injective markJson := by
  intro p q h
  simp only [markJson, object.injEq, List.cons.injEq, Prod.mk.injEq, string.injEq] at h
  exact Prod.ext h.1.2 h.2.1.2

theorem IsBlock.unique {j : Json} {b c : List Mark} (hb : IsBlock j b) (hc : IsBlock j c) :
    b = c := by
  cases hb with
  | single p =>
      generalize hj : markJson p = j at hc
      cases hc with
      | single q => rw [markJson_injective hj]
      | several => cases hj
  | several =>
      generalize hj : array (b.map markJson) = j at hc
      cases hc with
      | single q => cases hj
      | several => exact (List.map_injective_iff.2 markJson_injective) (array.inj hj)

/-- A text tells one list of blocks only. -/
theorem Tells.unique {t : String} {bs cs : List (List Mark)} (hb : Tells t bs) (hc : Tells t cs) :
    bs = cs := by
  obtain ⟨xs, hxs, hbs⟩ := hb
  obtain ⟨ys, hys, hcs⟩ := hc
  obtain rfl : xs = ys := array.inj (Except.ok.inj (hxs.symm.trans hys))
  clear hxs hys
  induction hbs generalizing cs with
  | nil => cases hcs; rfl
  | cons hblock _ ih =>
      cases hcs with
      | cons hblock' hrest => rw [hblock.unique hblock', ih hrest]

/-! ### Writing blocks -/

def blockJson : List Mark → Json
  | [p] => markJson p
  | ps => .array (ps.map markJson)

theorem isBlock_blockJson {b : List Mark} (h : b ≠ []) : IsBlock (blockJson b) b := by
  match b, h with
  | [p], _ => exact .single p
  | p :: q :: ps, _ => exact .several _ (by simp)

/-- The text of blocks. -/
def blocksText (bs : List (List Mark)) : String :=
  join ',' (bs.map fun b => (blockJson b).render)

theorem weave_write (xs : List Json) : weave ',' (xs.map write) = writeElements xs := by
  induction xs with
  | nil => rfl
  | cons x xs ih =>
      cases xs with
      | nil => rfl
      | cons y ys => rw [List.map_cons, List.map_cons, weave, ← List.map_cons, ih, writeElements]

theorem bracketed_blocksText (bs : List (List Mark)) :
    "[" ++ blocksText bs ++ "]" = (array (bs.map blockJson)).render := by
  have hinner : blocksText bs = String.ofList (writeElements (bs.map blockJson)) := by
    simp only [blocksText, join, ← weave_write, render, List.map_map, Function.comp_def,
      String.toList_ofList]
  rw [hinner, render, write, List.cons_append, String.ofList_cons]
  simp [String.ext_iff]

theorem plain_markJson {depth : Nat} (h : 1 < depth) (p : Mark) : (markJson p).Plain depth :=
  ⟨h, ascending_markJson p, trivial, trivial, trivial⟩

theorem plain_blockJson {depth : Nat} (h : 2 < depth) (b : List Mark) :
    (blockJson b).Plain depth := by
  unfold blockJson
  split
  · exact plain_markJson (by omega) _
  · refine ⟨by omega, plainElements_iff.2 fun x hx => ?_⟩
    obtain ⟨p, -, rfl⟩ := List.mem_map.1 hx
    exact plain_markJson (by omega) p

/-- What is written of blocks is told by the text. -/
theorem tells_blocksText {bs : List (List Mark)} (h : ∀ b ∈ bs, b ≠ []) :
    Tells (blocksText bs) bs := by
  refine ⟨bs.map blockJson, ?_, ?_⟩
  · rw [bracketed_blocksText]
    refine read_render ⟨by decide, plainElements_iff.2 fun x hx => ?_⟩
    obtain ⟨b, -, rfl⟩ := List.mem_map.1 hx
    exact plain_blockJson (by decide) b
  · rw [List.forall₂_map_left_iff, List.forall₂_same]
    exact fun b hb => isBlock_blockJson (h b hb)

theorem weave_append {sep : Char} {ps qs : List (List Char)} (hp : ps ≠ []) (hq : qs ≠ []) :
    weave sep (ps ++ qs) = weave sep ps ++ sep :: weave sep qs := by
  induction ps with
  | nil => exact absurd rfl hp
  | cons p ps ih =>
      cases ps with
      | nil => exact Text.Separated.weave_cons sep p hq
      | cons q ps =>
          rw [List.cons_append, Text.Separated.weave_cons sep p (by simp), ih (by simp),
            Text.Separated.weave_cons sep p (by simp), List.append_assoc, List.cons_append]

theorem blocksText_append {bs cs : List (List Mark)} (hb : bs ≠ []) (hc : cs ≠ []) :
    blocksText (bs ++ cs) = blocksText bs ++ "," ++ blocksText cs := by
  simp only [blocksText, join, List.map_append]
  rw [weave_append (by simpa using hb) (by simpa using hc)]
  simp [String.ext_iff]

/-! ### The blocks of gates -/

variable {gates : List QualityGate}

theorem runs_map_mark (gates : List QualityGate) : (runs gates).map (·.map mark) = blocks gates := by
  refine (List.splitBy_eq_iff.2 ⟨?_, ?_, fun b hb => ?_, ?_⟩).symm
  · rw [← List.map_flatten, runs, List.flatten_splitBy]
  · intro h
    obtain ⟨run, hrun, hnil⟩ := List.mem_map.1 h
    exact List.ne_nil_of_mem_splitBy hrun (List.map_eq_nil_iff.1 hnil)
  · obtain ⟨run, hrun, rfl⟩ := List.mem_map.1 hb
    exact (List.isChain_map mark).2 (List.isChain_of_mem_splitBy hrun)
  · refine (List.isChain_map _).2 ((List.isChain_getLast_head_splitBy _ gates).imp ?_)
    rintro run next ⟨hrun, hnext, h⟩
    refine ⟨by simpa using hrun, by simpa using hnext, ?_⟩
    rw [List.getLast_map, List.head_map]
    exact h

theorem gateJson_eq (g : QualityGate) : gateJson g = markJson (mark g) :=
  congrArg object (Entries.ofList_of_ascending (ascending_markJson (mark g)))

theorem runJson_eq (run : List QualityGate) : runJson run = blockJson (run.map mark) := by
  match run with
  | [] => rfl
  | [g] => exact gateJson_eq g
  | g :: h :: rest =>
      have hgates : gateJson = markJson ∘ mark := funext gateJson_eq
      rw [runJson, hgates, ← List.map_map]
      · rfl
      · exact nofun

theorem toText_eq (h : gates ≠ []) : toText gates = some (blocksText (blocks gates)) := by
  have hnonempty : gates.isEmpty = false := by simpa using h
  simp only [toText, hnonempty, Bool.false_eq_true, if_false, blocksText, ← runs_map_mark,
    List.map_map, Function.comp_def, runJson_eq]

theorem tells_blocks (gates : List QualityGate) : Tells (blocksText (blocks gates)) (blocks gates) :=
  tells_blocksText fun _ hb => List.ne_nil_of_mem_splitBy hb

theorem toText_eq_ite (gates : List QualityGate) :
    toText gates = if gates.map mark = [] then none else some (blocksText (blocks gates)) := by
  cases gates with
  | nil => rfl
  | cons g gates =>
      rw [toText_eq (List.cons_ne_nil g gates), if_neg]
      simp

/-- The text of blocks gives the types and steps of the gates. -/
theorem marks_eq_of_blocksText {others : List QualityGate}
    (h : blocksText (blocks gates) = blocksText (blocks others)) :
    gates.map mark = others.map mark := by
  have htells := tells_blocks others
  rw [← h] at htells
  have hblocks := congrArg List.flatten ((tells_blocks gates).unique htells)
  rwa [blocks, blocks, List.flatten_splitBy, List.flatten_splitBy] at hblocks

/-- The gates of a block have one type. -/
theorem type_eq_of_mem_blocks {b : List Mark} (hb : b ∈ blocks gates) {p q : Mark} (hp : p ∈ b)
    (hq : q ∈ b) : p.1 = q.1 := by
  have hchain : (b.map Prod.fst).IsChain (· = ·) :=
    (List.isChain_map _).2 ((List.isChain_of_mem_splitBy hb).imp fun _ _ h => eq_of_beq h)
  exact hchain.pairwise.forall_of_forall (fun _ _ => rfl) (List.mem_map_of_mem hp)
    (List.mem_map_of_mem hq)

/-- Blocks that are neighbours have different types. -/
def Apart (b c : List Mark) : Prop := ∀ p ∈ b, ∀ q ∈ c, p.1 ≠ q.1

theorem isChain_blocks (gates : List QualityGate) : (blocks gates).IsChain Apart := by
  have hmem : ∀ b ∈ blocks gates, ∀ p ∈ b, ∀ q ∈ b, p.1 = q.1 :=
    fun b hb p hp q hq => type_eq_of_mem_blocks hb hp hq
  refine (List.isChain_getLast_head_splitBy _ (gates.map mark)).imp_of_mem_imp ?_
  rintro b c hb hc ⟨hb', hc', h⟩ p hp q hq heq
  refine ne_of_beq_false h ?_
  rw [hmem b hb _ (List.getLast_mem hb') p hp, heq, hmem c hc q hq _ (List.head_mem hc')]

/-- Where the types change between two lists of gates, no block goes over from one to the other. -/
theorem blocks_append_iff {a b : List QualityGate} (ha : a ≠ []) (hb : b ≠ []) :
    blocks (a ++ b) = blocks a ++ blocks b ↔ (a.getLast ha).type ≠ (b.head hb).type := by
  have ha' : a.map mark ≠ [] := by simpa using ha
  have hb' : b.map mark ≠ [] := by simpa using hb
  constructor
  · intro h
    have hchain := isChain_blocks (a ++ b)
    rw [h, List.isChain_append] at hchain
    have hlast : mark (a.getLast ha) ∈ (blocks a).getLast (List.splitBy_ne_nil.2 ha') := by
      rw [← List.getLast_map ha', ← List.getLast_getLast_splitBy (fun p q : Mark => p.1 == q.1) ha']
      exact List.getLast_mem _
    have hhead : mark (b.head hb) ∈ (blocks b).head (List.splitBy_ne_nil.2 hb') := by
      rw [← List.head_map hb', ← List.head_head_splitBy (fun p q : Mark => p.1 == q.1) hb']
      exact List.head_mem _
    exact hchain.2.2 _ (List.getLast_mem_getLast? _) _ (List.head_mem_head? _) _ hlast _ hhead
  · intro h
    rw [blocks, List.map_append]
    refine List.splitBy_append fun p hp q hq => ?_
    rw [List.getLast?_eq_some_getLast ha', Option.mem_some_iff] at hp
    rw [List.head?_eq_some_head hb', Option.mem_some_iff] at hq
    rw [← hp, ← hq, List.getLast_map, List.head_map]
    exact beq_false_of_ne h

/-- A text goes on behind a comma when no block goes over from one list to the other. -/
theorem blocksText_append_iff {a b : List QualityGate} (ha : a ≠ []) (hb : b ≠ []) :
    blocksText (blocks (a ++ b)) = blocksText (blocks a) ++ "," ++ blocksText (blocks b) ↔
      blocks (a ++ b) = blocks a ++ blocks b := by
  have hjoined : blocksText (blocks a ++ blocks b) =
      blocksText (blocks a) ++ "," ++ blocksText (blocks b) := by
    refine blocksText_append ?_ ?_
    · exact List.splitBy_ne_nil.2 (by simpa using ha)
    · exact List.splitBy_ne_nil.2 (by simpa using hb)
  rw [← hjoined]
  refine ⟨fun h => ?_, congrArg blocksText⟩
  have htells := tells_blocks (a ++ b)
  rw [h] at htells
  refine htells.unique (tells_blocksText fun c hc => ?_)
  rcases List.mem_append.1 hc with hc | hc <;> exact List.ne_nil_of_mem_splitBy hc

/-- **The text tells the gates.** Between brackets it is a JSON array of blocks that give the types
and steps of the gates in order; the gates of a block have one type, and the next block has another
one. So two texts are the same exactly for the same types and steps, and a text is continued behind
a comma exactly where the type changes. -/
theorem text_tells_gates :
    (∀ gates : List QualityGate, gates ≠ [] → ∃ t bs, toText gates = some t ∧ Tells t bs ∧
      bs.flatten = gates.map mark ∧ (∀ b ∈ bs, ∀ p ∈ b, ∀ q ∈ b, p.1 = q.1) ∧
      bs.IsChain Apart) ∧
    (∀ gates others : List QualityGate,
      toText gates = toText others ↔ gates.map mark = others.map mark) ∧
    ∀ (a b : List QualityGate) (ha : a ≠ []) (hb : b ≠ []), ∃ t u, toText a = some t ∧
      toText b = some u ∧
      (toText (a ++ b) = some (t ++ "," ++ u) ↔ (a.getLast ha).type ≠ (b.head hb).type) := by
  refine ⟨fun gates h => ?blocks, fun gates others => ?same, fun a b ha hb => ?continued⟩
  case blocks =>
    exact ⟨_, _, toText_eq h, tells_blocks gates, List.flatten_splitBy _ _,
      fun b hb p hp q hq => type_eq_of_mem_blocks hb hp hq, isChain_blocks gates⟩
  case same =>
    rw [toText_eq_ite, toText_eq_ite]
    refine ⟨fun h => ?_, fun h => by rw [blocks, blocks, h]⟩
    split at h
    · next hgates =>
      split at h
      · next hothers => rw [hgates, hothers]
      · cases h
    · split at h
      · cases h
      · exact marks_eq_of_blocksText (Option.some.inj h)
  case continued =>
    have hab : a ++ b ≠ [] := List.append_ne_nil_of_left_ne_nil ha b
    refine ⟨_, _, toText_eq ha, toText_eq hb, ?_⟩
    rw [toText_eq hab, Option.some.injEq, blocksText_append_iff ha hb, blocks_append_iff ha hb]

/-- Two gates of one type are followed by a third of another; the words have quotes, commas,
brackets and line ends in them. -/
theorem text_tells_gates_of_odd_words :
    let a : List QualityGate := [⟨"auto,\"tests", "]\n", none, none⟩, ⟨"auto,\"tests", "\\", none, none⟩]
    let b : List QualityGate := [⟨"[", "\x01", some "suite", none⟩]
    ∃ t u bs, toText a = some t ∧ toText b = some u ∧ toText (a ++ b) = some (t ++ "," ++ u) ∧
      Tells (t ++ "," ++ u) bs ∧
      bs.flatten = [("auto,\"tests", "]\n"), ("auto,\"tests", "\\"), ("[", "\x01")] := by
  intro a b
  obtain ⟨t, u, ht, hu, hcontinued⟩ := text_tells_gates.2.2 a b (by simp [a]) (by simp [b])
  have htext := hcontinued.2 (by decide)
  obtain ⟨v, bs, hv, htells, hflatten, -⟩ := text_tells_gates.1 (a ++ b) (by simp [a])
  obtain rfl : v = t ++ "," ++ u := Option.some.inj (hv.symm.trans htext)
  exact ⟨t, u, bs, ht, hu, htext, htells, hflatten⟩

end Conveyor.Gates
