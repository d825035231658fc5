/-!
Lists of texts written with one character between neighbours. Splitting undoes joining on every
non-empty list whose members are free of the separator (`split_join`), and joining always undoes
splitting (`join_split`).
-/

namespace Conveyor.Text.Separated

/-- The pieces between the separators; text without a separator is one piece. -/
def pieces (sep : Char) : List Char → List (List Char)
  | [] => [[]]
  | c :: cs =>
    if c = sep then [] :: pieces sep cs
    else
      match pieces sep cs with
      | [] => [[c]]
      | p :: ps => (c :: p) :: ps

/-- The pieces with the separator between neighbours. -/
def weave (sep : Char) : List (List Char) → List Char
  | [] => []
  | [p] => p
  | p :: q :: ps => p ++ sep :: weave sep (q :: ps)

theorem pieces_ne_nil (sep : Char) (cs : List Char) : pieces sep cs ≠ [] := by
  induction cs with
  | nil => simp [pieces]
  | cons c cs ih =>
    simp only [pieces]
    split
    · simp
    · split <;> simp

theorem weave_cons (sep : Char) (p : List Char) {ps : List (List Char)} (h : ps ≠ []) :
    weave sep (p :: ps) = p ++ sep :: weave sep ps := by
  cases ps with
  | nil => exact absurd rfl h
  | cons q qs => rfl

theorem weave_pieces (sep : Char) (cs : List Char) : weave sep (pieces sep cs) = cs := by
  induction cs with
  | nil => rfl
  | cons c cs ih =>
    simp only [pieces]
    split
    · next h => rw [weave_cons sep [] (pieces_ne_nil sep cs), ih, h]; rfl
    · split
      · next h => exact absurd h (pieces_ne_nil sep cs)
      · next p ps h =>
        rw [h] at ih
        cases ps with
        | nil => simpa [weave] using ih
        | cons q qs => simpa [weave] using ih

theorem pieces_of_not_mem {sep : Char} {p : List Char} (h : sep ∉ p) : pieces sep p = [p] := by
  induction p with
  | nil => rfl
  | cons c p ih =>
    have hc : ¬ c = sep := fun e => h (by simp [e])
    have hp : sep ∉ p := fun e => h (by simp [e])
    simp [pieces, hc, ih hp]

theorem pieces_append {sep : Char} {p : List Char} (h : sep ∉ p) (cs : List Char) :
    pieces sep (p ++ sep :: cs) = p :: pieces sep cs := by
  induction p with
  | nil => simp [pieces]
  | cons c p ih =>
    have hc : ¬ c = sep := fun e => h (by simp [e])
    have hp : sep ∉ p := fun e => h (by simp [e])
    simp [pieces, hc, ih hp]

/-- Members without the separator are read as they were written, whatever comes last. -/
theorem pieces_weave_append {sep : Char} {ps : List (List Char)} (h : ∀ p ∈ ps, sep ∉ p)
    (q : List Char) : pieces sep (weave sep (ps ++ [q])) = ps ++ pieces sep q := by
  induction ps with
  | nil => rfl
  | cons p ps ih =>
    obtain ⟨hp, hps⟩ := List.forall_mem_cons.1 h
    rw [List.cons_append, weave_cons sep p (by simp), pieces_append hp, ih hps, List.cons_append]

theorem pieces_weave {sep : Char} {ps : List (List Char)} (hne : ps ≠ []) (h : ∀ p ∈ ps, sep ∉ p) :
    pieces sep (weave sep ps) = ps := by
  have hinit (p : List Char) (hp : p ∈ ps.dropLast) : sep ∉ p := h p (List.dropLast_subset ps hp)
  have hlast : sep ∉ ps.getLast hne := h _ (List.getLast_mem hne)
  have hread := pieces_weave_append hinit (ps.getLast hne)
  rwa [pieces_of_not_mem hlast, List.dropLast_concat_getLast] at hread

/-- A character that is not the separator is in one of the pieces. -/
theorem exists_mem_pieces {sep ch : Char} {cs : List Char} (hmem : ch ∈ cs) (hne : ch ≠ sep) :
    ∃ p ∈ pieces sep cs, ch ∈ p := by
  induction cs with
  | nil => cases hmem
  | cons c cs ih =>
    rw [pieces]
    split
    · next hc =>
      obtain ⟨p, hp, hch⟩ := ih ((List.mem_cons.1 hmem).resolve_left fun h => hne (h.trans hc))
      exact ⟨p, List.mem_cons_of_mem _ hp, hch⟩
    · split
      · next hnil => exact absurd hnil (pieces_ne_nil sep cs)
      · next p ps hps =>
        rcases List.mem_cons.1 hmem with rfl | hmem
        · exact ⟨_, List.mem_cons_self, List.mem_cons_self⟩
        obtain ⟨q, hq, hch⟩ := ih hmem
        rcases List.mem_cons.1 (hps ▸ hq) with rfl | hq
        · exact ⟨_, List.mem_cons_self, List.mem_cons_of_mem _ hch⟩
        · exact ⟨q, List.mem_cons_of_mem _ hq, hch⟩

/-- The texts between the separators. -/
def split (sep : Char) (s : String) : List String := (pieces sep s.toList).map String.ofList

/-- The texts with the separator between neighbours. -/
def join (sep : Char) (ts : List String) : String :=
  String.ofList (weave sep (ts.map String.toList))

theorem join_split (sep : Char) (s : String) : join sep (split sep s) = s := by
  simp [join, split, Function.comp_def, weave_pieces]

theorem split_join {sep : Char} {ts : List String} (hne : ts ≠ []) (h : ∀ t ∈ ts, sep ∉ t.toList) :
    split sep (join sep ts) = ts := by
  have : pieces sep (weave sep (ts.map String.toList)) = ts.map String.toList :=
    pieces_weave (by simpa using hne) (by simpa using h)
  simp [split, join, this, Function.comp_def]

theorem split_join_append {sep : Char} {ts : List String} (h : ∀ t ∈ ts, sep ∉ t.toList)
    (t : String) : split sep (join sep (ts ++ [t])) = ts ++ split sep t := by
  have hpieces : pieces sep (weave sep (ts.map String.toList ++ [t.toList])) =
      ts.map String.toList ++ pieces sep t.toList :=
    pieces_weave_append (by simpa using h) t.toList
  simp [split, join, hpieces, Function.comp_def]

end Conveyor.Text.Separated
