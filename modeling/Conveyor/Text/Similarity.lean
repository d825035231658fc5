/-!
How alike two words are, by Jaro's measure: characters are paired when they are equal and not far
apart, and the measure counts how many find a partner and how many partners stand in another order.
-/

namespace Conveyor.Text

/-- The first place from `low` to `high` that holds `c`, with the places left without it. -/
def takePlace (c : Char) (low high : Nat) : List (Nat × Char) → Option (Nat × List (Nat × Char))
  | [] => none
  | (j, d) :: ps =>
    if low ≤ j ∧ j ≤ high ∧ c = d then some (j, ps)
    else (takePlace c low high ps).map fun (found, rest) => (found, (j, d) :: rest)

/-- The characters of the first word that find a partner among the places of the second, in order,
and the places of their partners. -/
def pairUp (reach i : Nat) (places : List (Nat × Char)) : List Char → List (Char × Nat)
  | [] => []
  | c :: cs =>
    match takePlace c (i - reach) (i + reach) places with
    | some (j, rest) => (c, j) :: pairUp reach (i + 1) rest cs
    | none => pairUp reach (i + 1) places cs

/-- From zero for nothing in common up to one for the same word. -/
def similarity (a b : String) : Float :=
  let (as, bs) := (a.toList, b.toList)
  let reach := max as.length bs.length / 2 - 1
  let places := (List.range bs.length).zip bs
  let pairs := pairUp reach 0 places as
  let partners := (places.filter fun p => pairs.any fun q => q.2 = p.1).map Prod.snd
  let crossed := (((pairs.map Prod.fst).zip partners).filter fun p => p.1 ≠ p.2).length / 2
  let share (m n : Nat) : Float := m.toFloat / n.toFloat
  if as.isEmpty && bs.isEmpty then 1
  else if pairs.isEmpty then 0
  else (share pairs.length as.length + share pairs.length bs.length +
    share (pairs.length - crossed) pairs.length) / 3

/-- Puts a measured word after every one that is not more alike. -/
def insertMeasured (m : Float × String) : List (Float × String) → List (Float × String)
  | [] => [m]
  | n :: ns => if n.1 > m.1 then m :: n :: ns else n :: insertMeasured m ns

/-- The known words that are so like `s` that it may be a slip for them, the likest last. -/
def similarTo (known : List String) (s : String) : List String :=
  let measured := (known.map fun k => (similarity s k, k)).filter fun m => m.1 > 0.7
  (measured.foldl (fun sorted m => insertMeasured m sorted) []).map Prod.snd

end Conveyor.Text
