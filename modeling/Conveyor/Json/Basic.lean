import Conveyor.Dict
import Conveyor.Json.Real

/-!
JSON values. The members of an object are kept in ascending key order, each key once:
`Json.WellFormed` says so at every level, and `Json.ofMembers` builds such an object from members in
any order. Only a text that is read loosely gives objects with their members as they stand there.
-/

namespace Conveyor

/-- A JSON number: a whole number of the 64 bit ranges, or a floating point number. -/
inductive Number where
  | int (n : Int)
  | real (x : Real64)
  deriving DecidableEq, Repr

/-- A JSON value. -/
inductive Json where
  | null
  | bool (b : Bool)
  | number (n : Number)
  | string (s : String)
  | array (elements : List Json)
  | object (members : List (String × Json))
  deriving Repr

namespace Json

instance : Inhabited Json := ⟨null⟩

mutual

def decEq : (a b : Json) → Decidable (a = b)
  | null, b => by cases b <;> first | exact isTrue rfl | exact isFalse nofun
  | bool x, b => by
    cases b with
    | bool y => exact decidable_of_iff (x = y) (by simp)
    | _ => exact isFalse nofun
  | number x, b => by
    cases b with
    | number y => exact decidable_of_iff (x = y) (by simp)
    | _ => exact isFalse nofun
  | string x, b => by
    cases b with
    | string y => exact decidable_of_iff (x = y) (by simp)
    | _ => exact isFalse nofun
  | array xs, b => by
    cases b with
    | array ys =>
      haveI := decEqElements xs ys
      exact decidable_of_iff (xs = ys) (by simp)
    | _ => exact isFalse nofun
  | object xs, b => by
    cases b with
    | object ys =>
      haveI := decEqMembers xs ys
      exact decidable_of_iff (xs = ys) (by simp)
    | _ => exact isFalse nofun

def decEqElements : (xs ys : List Json) → Decidable (xs = ys)
  | [], [] => isTrue rfl
  | [], _ :: _ | _ :: _, [] => isFalse nofun
  | x :: xs, y :: ys =>
    haveI := decEq x y
    haveI := decEqElements xs ys
    decidable_of_iff (x = y ∧ xs = ys) (by simp)

def decEqMembers : (xs ys : List (String × Json)) → Decidable (xs = ys)
  | [], [] => isTrue rfl
  | [], _ :: _ | _ :: _, [] => isFalse nofun
  | (k, x) :: xs, (l, y) :: ys =>
    haveI := decEq x y
    haveI := decEqMembers xs ys
    decidable_of_iff (k = l ∧ x = y ∧ xs = ys) (by simp [and_assoc])

end

instance : DecidableEq Json := decEq

def int (n : Int) : Json := number (.int n)

def nat (n : Nat) : Json := int n

/-- The object with these members; the last of several with one key stays. -/
def ofMembers (ms : List (String × Json)) : Json := object (Entries.ofList ms)

/-- The object of those members that are there. -/
def ofPresent (ms : List (String × Option Json)) : Json :=
  ofMembers (ms.filterMap fun m => m.2.map (m.1, ·))

def strings (ss : List String) : Json := array (ss.map string)

/-- A text, or null when there is none. -/
def text? (s : Option String) : Json := (s.map string).getD null

/-- A dictionary of texts as an object. -/
def ofDict (d : Dict String String) : Json := object (d.toList.map fun e => (e.1, string e.2))

/-- The members of an object; other values have none. -/
def members : Json → List (String × Json)
  | object ms => ms
  | _ => []

/-- The member with a key; null when it is missing or the value is no object. -/
def member (j : Json) (k : String) : Json := (Entries.get? k j.members).getD null

def isObject : Json → Bool
  | object _ => true
  | _ => false

def isNull : Json → Bool
  | null => true
  | _ => false

/-- Stands for what has the form of a value but is none, such as a number out of range. It is the
floating point number that is no number, and of no type that values are read as. -/
def unreadable : Json := number (.real .notANumber)

mutual

/-- The value with its objects' members in ascending key order, the last of several with one key
staying; nothing when a part of it is unreadable. -/
def settled? (j : Json) : Option Json :=
  match j with
  | array xs => (settledElements? xs).map array
  | object ms => (settledMembers? ms).map ofMembers
  | j => if j = unreadable then none else some j

def settledElements? : List Json → Option (List Json)
  | [] => some []
  | x :: xs => do return (← settled? x) :: (← settledElements? xs)

def settledMembers? : List (String × Json) → Option (List (String × Json))
  | [] => some []
  | (k, v) :: ms => do return (k, ← settled? v) :: (← settledMembers? ms)

end

mutual

/-- Keys ascend strictly in every object of the value. -/
def WellFormed : Json → Prop
  | array xs => WellFormedElements xs
  | object ms => Entries.Ascending ms ∧ WellFormedMembers ms
  | _ => True

def WellFormedElements : List Json → Prop
  | [] => True
  | x :: xs => WellFormed x ∧ WellFormedElements xs

def WellFormedMembers : List (String × Json) → Prop
  | [] => True
  | (_, v) :: ms => WellFormed v ∧ WellFormedMembers ms

end

end Json

end Conveyor
