import Conveyor.CommandLine.UsageError

/-!
Reading of the command line. Flags come first and then perhaps a command; a flag that takes a value
is settled when the next flag begins or the line ends, so that of two mistakes the earlier one is
told. What the line leaves open the environment decides.
-/

namespace Conveyor

/-- How the controller is to run. -/
structure Settings where
  config : Config := {}
  plainLogs : Bool := false

/-- What a command line asks for. -/
inductive Invocation where
  | help (command : Command)
  | version
  | definitions
  | control (settings : Settings)

/-- Why reading stops before the line's end: a mistake, or a question that is answered at once. -/
inductive Halt where
  | refused (error : UsageError)
  | answered (invocation : Invocation)

/-- What the flags have said so far. -/
structure Given where
  /-- The flags on the command line, in order. -/
  used : List Flag := []
  settings : Settings := {}
  definitions : Bool := false

namespace Given

def switch (f : Flag) (value : String) : Except UsageError Bool :=
  if value = Flag.switchText true then .ok true
  else if value = Flag.switchText false then .ok false
  else .error (.impossibleValue f value)

/-- Takes over the value of a flag. -/
def set (g : Given) (f : Flag) (value : String) : Except UsageError Given :=
  let s := g.settings
  match f with
  | .platform =>
    match Platform.ofText value with
    | .ok p => .ok { g with settings := { s with config := { s.config with platform := p } } }
    | .error e => .error (.badPlatform value e)
  | .managesNamespaces =>
    (switch f value).map fun b =>
      { g with settings := { s with config := { s.config with managesNamespaces := b } } }
  | .usesSpaces =>
    (switch f value).map fun b =>
      { g with settings := { s with config := { s.config with usesSpaces := b } } }
  | .plainLogs => (switch f value).map fun b => { g with settings := { s with plainLogs := b } }
  | .definitions => (switch f value).map fun b => { g with definitions := b }
  | .help | .version => .ok g

/-- Takes over a flag of the command line, which may be there once only. -/
def accept (g : Given) (f : Flag) (value : String) : Except UsageError Given :=
  if g.used.contains f then .error (.repeated f)
  else ({ g with used := g.used ++ [f] }).set f value

/-- Takes over the environment's value of a flag that the command line does not have. -/
def consult (env : Variables) (g : Given) (f : Flag) : Except UsageError Given :=
  if g.used.contains f then .ok g
  else match f.variableName.bind env with
    | some value => g.set f value
    | none => .ok g

def invocation (g : Given) : Invocation :=
  if g.definitions then .definitions else .control g.settings

end Given

/-- One argument by its shape. -/
inductive Argument where
  /-- Two dashes alone, which end the flags. -/
  | dashes
  | long (name : String) (value : Option String)
  | letters (first : Char)
  | word

def Argument.ofText (s : String) : Argument :=
  match s.toList with
  | ['-', '-'] => dashes
  | '-' :: '-' :: cs =>
    let name := cs.takeWhile (· ≠ '=')
    let value := (cs.drop name.length).tail?.map String.ofList
    long (String.ofList name) value
  | '-' :: c :: _ => letters c
  | _ => word

/-- A reading of the line under way. -/
structure Progress where
  given : Given := {}
  /-- The last flag with a value, which waits for it if there is none yet. -/
  pending : Option (Flag × Option String) := none
  /-- Whether the flags are at an end. -/
  closed : Bool := false

namespace Progress

def awaitsValue (p : Progress) : Bool := p.pending.any fun (_, value) => value.isNone

/-- Settles the pending flag. -/
def settle (p : Progress) : Except UsageError Given :=
  match p.pending with
  | none => .ok p.given
  | some (f, none) => .error (.valueMissing f)
  | some (f, some value) => p.given.accept f value

/-- The flags used, with the pending one if it has its value. A flag that is there once more does
not count at all. -/
def used (p : Progress) : List Flag :=
  match p.pending with
  | some (f, some _) =>
    if p.given.used.contains f then p.given.used.filter (· ≠ f) else p.given.used ++ [f]
  | _ => p.given.used

end Progress

namespace Invocation

/-- A mistake stops the reading. -/
def orRefuse {α : Type} : Except UsageError α → Except Halt α
  | .ok a => .ok a
  | .error e => .error (.refused e)

def refuse {α : Type} (e : UsageError) : Except Halt α := .error (.refused e)

/-- What help is asked about by the names after the help command. -/
def helpTopic (c : Command) : List String → Except UsageError Command
  | [] => .ok c
  | name :: names =>
    match c, Command.ofName? name with
    | .program, some d => helpTopic d names
    | _, _ => .error (.unknownCommand c name [])

def askedHelp (names : List String) : Halt :=
  match helpTopic .program names with
  | .ok c => .answered (.help c)
  | .error e => .refused e

/-- The flag that a name of no flag may be a slip for. -/
def similarFlag (c : Command) (name : String) : Option Flag :=
  (Text.similarTo ((Flag.of c).map Flag.long) name).getLast?.bind (Flag.ofLong? c)

/-- Help and version are answered at once. -/
def answerOf (c : Command) : Flag → Option Invocation
  | .help => some (.help c)
  | .version => some .version
  | _ => none

/-- A flag by its name. -/
def readLong (c : Command) (p : Progress) (name : String) (value : Option String) :
    Except Halt Progress :=
  match Flag.ofLong? c name, value with
  | none, _ => refuse (.unexpectedArgument c ("--" ++ name) (similarFlag c name) p.used)
  | some f, some v =>
    if f.takesValue then do
      let given ← orRefuse p.settle
      pure { p with given := ← orRefuse (given.accept f v), pending := none }
    else refuse (.unexpectedValue c f v p.given.used)
  | some f, none => do
    let given ← orRefuse p.settle
    match answerOf c f with
    | some i => .error (.answered i)
    | none =>
      if f.takesValue then pure { p with given, pending := some (f, none) }
      else do
        let given ← orRefuse (given.accept f (Flag.switchText true))
        pure { p with given, pending := none }

/-- A flag by its letter. All flags with a letter are answered at once, so that no later letter
counts. -/
def readLetter (c : Command) (p : Progress) (letter : Char) : Halt :=
  match (Flag.ofLetter? c letter).bind (answerOf c), p.settle with
  | some i, .ok _ => .answered i
  | some _, .error e => .refused e
  | none, _ => .refused (.unexpectedArgument c ("-" ++ String.singleton letter) none [])

/-- A word where only a command can stand. -/
def misplaced (closed : Bool) (word : String) : UsageError :=
  if closed && (Command.ofName? word).isSome then .commandAfterDashes word
  else .unknownCommand .program word (Text.similarTo (Command.named.map Command.name) word)

/-- The arguments of the controller command, which has nothing but flags. -/
def readController (closed : Bool) : List String → Except Halt Unit
  | [] => .ok ()
  | a :: as =>
    let unexpected := UsageError.unexpectedArgument .controller a none []
    if closed then refuse unexpected
    else match Argument.ofText a with
      | .dashes => readController true as
      | .long name value => do
        let _ ← readLong .controller {} name value
        readController closed as
      | .letters c => .error (readLetter .controller {} c)
      | .word => refuse unexpected

/-- The arguments of the program. -/
def readArguments (p : Progress) : List String → Except Halt Given
  | [] => orRefuse p.settle
  | a :: as =>
    if p.closed then refuse (misplaced true a)
    else match if p.awaitsValue then none else Command.ofName? a with
      | some .controller => do
        readController false as
        orRefuse p.settle
      | some _ => .error (askedHelp as)
      | none =>
        match Argument.ofText a with
        | .dashes => readArguments { p with closed := true } as
        | .long name value => do
          readArguments (← readLong .program p name value) as
        | .letters c => .error (readLetter .program p c)
        | .word =>
          match p.pending with
          | some (f, none) => readArguments { p with pending := some (f, some a) } as
          | _ => refuse (misplaced false a)

/-- What the arguments ask for, with the environment's values for the flags that are not among them.
-/
def read (env : Variables) (arguments : List String) : Except UsageError Invocation :=
  match readArguments {} arguments with
  | .error (.refused e) => .error e
  | .error (.answered i) => .ok i
  | .ok given => (Flag.all.foldlM (Given.consult env) given).map Given.invocation

end Invocation

end Conveyor
