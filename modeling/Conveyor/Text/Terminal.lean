import Conveyor.Text.Styled

/-!
Text as it shows where there is no terminal: without control sequences and without control
characters that are no white space. A terminal goes through phases as it reads: outside of control
sequences (`ground`) characters show, inside of one they do not. Text outside of control sequences
stays as it is (`plain_eq`).
-/

namespace Conveyor.Text.Terminal

/-- What a terminal is reading. -/
inductive Phase where
  | ground
  /-- A control sequence of which only its first character, escape, is read. -/
  | escape
  /-- A short control sequence before its last character. -/
  | short
  /-- A sequence with parameters before its last character. -/
  | parameters
  /-- A command to the terminal's surroundings, such as a title, which a bell ends. -/
  | command
  /-- A string for a device or a program. -/
  | message
  deriving DecidableEq, Repr

/-- Controls that count as white space: tab, line feed, form feed and carriage return. -/
def isSpacing (c : Char) : Bool := c == '\t' || c == '\n' || c == '\x0c' || c == '\r'

namespace Phase

/-- Whether an ASCII character shows. White space also shows within the shorter sequences. -/
def shows (p : Phase) (c : Char) : Bool :=
  match p with
  | ground => isSpacing c || (' ' ≤ c && c ≤ '~')
  | escape | short | parameters => isSpacing c
  | command | message => false

/-- The phase after the character of an escape sequence that says which kind it is. -/
def ofKind (c : Char) : Phase :=
  if c < ' ' || c == '\x7f' then escape
  else if c < '0' then short
  else if c = '[' then parameters
  else if c = ']' then command
  else if ['P', 'X', '^', '_'].contains c then message
  else ground

/-- The phase after an ASCII character that does not show. Escape begins a new sequence in every
phase, and two other controls, cancel and substitute, end the sequence under way. -/
def next (p : Phase) (c : Char) : Phase :=
  if c = '\x1b' then escape
  else if c = '\x18' ∨ c = '\x1a' then ground
  else match p with
    | ground => ground
    | escape => ofKind c
    | short => if '0' ≤ c ∧ c ≤ '~' then ground else short
    | parameters => if '@' ≤ c ∧ c ≤ '~' then ground else parameters
    | command => if c = '\x07' then ground else command
    | message => message

/-- The phase after a character outside of ASCII within a sequence. A byte of it may be the one that
ends a message. -/
def nextWide (p : Phase) (c : Char) : Phase :=
  if p = message ∧ (String.utf8EncodeChar c).contains 0x9C then ground else p

end Phase

/-- The characters that show. The phase is left as it is while characters show, so that white space
within a sequence makes what follows it show up to the next control. -/
def shown (phase : Phase) (showing : Bool) : List Char → List Char
  | [] => []
  | c :: cs =>
    if c.toNat < 0x80 then
      if (if showing then Phase.ground else phase).shows c then c :: shown phase true cs
      else shown (phase.next c) false cs
    else if showing ∨ phase = .ground then c :: shown .ground true cs
    else shown (phase.nextWide c) false cs

/-- The text without what does not show. -/
def plain (s : String) : String := String.ofList (shown .ground false s.toList)

theorem shown_eq (showing : Bool) (cs : List Char)
    (h : ∀ c ∈ cs, 0x80 ≤ c.toNat ∨ Phase.ground.shows c = true) :
    shown .ground showing cs = cs := by
  induction cs generalizing showing with
  | nil => rfl
  | cons c cs ih =>
    have hc := h c (by simp)
    have hcs := fun b => ih b fun d hd => h d (by simp [hd])
    unfold shown
    by_cases hw : c.toNat < 0x80
    · have hs : Phase.ground.shows c = true := hc.resolve_left (by omega)
      simp [hw, hs, hcs]
    · simp [hw, hcs]

/-- Text without control characters other than white space stays as it is. -/
theorem plain_eq (s : String)
    (h : ∀ c ∈ s.toList, 0x80 ≤ c.toNat ∨ Phase.ground.shows c = true) : plain s = s := by
  simp [plain, shown_eq false s.toList h]

end Conveyor.Text.Terminal
