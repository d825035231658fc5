import Conveyor.Text.CaseTables

/-!
Lower case by the full Unicode rules: a capital sigma at the end of a word becomes the final sigma,
and a capital dotted I becomes an i with a dot above.
-/

namespace Conveyor.Text

/-- The lower case partner of one character, itself when it has none. -/
def lowerChar (c : Char) : Char :=
  match lowerShifts.find? fun (first, last, step, _) =>
      first ≤ c.toNat && c.toNat ≤ last && (c.toNat - first) % step == 0 with
  | some (_, _, _, shift) => Char.ofNat (c.toNat + shift).toNat
  | none => c

/-- Whether the nearest character that counts is a letter with case. -/
def meetsCased (cs : List Char) : Bool :=
  match cs.dropWhile caseIgnorable.contains with
  | [] => false
  | c :: _ => cased.contains c

/-- Lower case of the text `cs`, given the characters before it, nearest first. -/
def lowerFrom (before : List Char) : List Char → List Char
  | [] => []
  | c :: cs =>
    (if c = 'Σ' then if meetsCased before && !meetsCased cs then ['ς'] else ['σ']
      else if c = 'İ' then ['i', '\u0307']
      else [lowerChar c]) ++ lowerFrom (c :: before) cs

def lowercase (s : String) : String := String.ofList (lowerFrom [] s.toList)

/-- Lower case for the letters `A` to `Z` only. -/
def lowercaseAscii (s : String) : String := String.ofList (s.toList.map Char.toLower)

end Conveyor.Text
