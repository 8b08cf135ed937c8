/-
Rendezvous/Cli/Usage.lean

Words of a command line.

A level of the command line has flags that take one value each, and perhaps
commands.  Words are read from left to right.  The value of a flag is looked
at when the next flag begins or the words end, so of two faults the earlier
one is reported, except that an unknown word is reported at once.  A flag that
was not given takes its value from the environment, then its default.
-/
import Rendezvous.Table

namespace Rendezvous.Cli

/-- Why a command line is not carried out. -/
inductive UsageError where
  | help
  | version
  | helpForMissing
  | missingSubcommand
  | invalidSubcommand
  | missingRequired
  | unknownArgument
  | invalidValue
  | valueValidation
  | conflict
  | tooManyValues
  deriving DecidableEq, Repr

/-- A flag that takes one value; `check` tells what is wrong with a value. -/
structure Flag where
  name : String
  envName : Option String := none
  fallback : Option String := none
  required : Bool := false
  check : String → Option UsageError := fun _ => none

/-- The flags and commands that are known at one place of a command line. -/
structure Level where
  flags : List Flag
  commands : List String := []
  versioned : Bool := false

namespace Level

/-- The flag with a name. -/
def flag? (l : Level) (name : String) : Option Flag := l.flags.find? fun f => f.name = name

end Level

/-! ### Words -/

/-- A word by its form. -/
inductive Word where
  | escape
  | long (name : String) (attached : Option String)
  | short (letter : Char)
  | plain

/-- Cut at the first equality sign. -/
def splitAttached (w : List Char) : String × Option String :=
  let name := w.takeWhile (· != '=')
  match w.dropWhile (· != '=') with
  | [] => (String.ofList name, none)
  | _ :: value => (String.ofList name, some (String.ofList value))

/-- The form of a word. -/
def Word.of (w : String) : Word :=
  match w.toList with
  | ['-', '-'] => escape
  | '-' :: '-' :: rest =>
    let (name, attached) := splitAttached rest
    long name attached
  | '-' :: c :: _ => short c
  | _ => plain

/-! ### Reading -/

/-- What has been read: the values given, and the flag that is still open with
its value, if one was given. -/
structure Reading where
  given : Table String := Table.empty
  pending : Option (Flag × Option String) := none

namespace Reading

/-- Take in the value of a flag. -/
def accept (r : Reading) (f : Flag) (value : String) : Except UsageError Reading :=
  if r.given.contains f.name then .error .conflict
  else match f.check value with
    | some e => .error e
    | none => .ok { given := r.given.insert f.name value }

/-- Close the open flag. -/
def settle (r : Reading) : Except UsageError Reading :=
  match r.pending with
  | none => .ok r
  | some (_, none) => .error .invalidValue
  | some (f, some value) => accept { r with pending := none } f value

/-- The flag that waits for its value. -/
def awaiting (r : Reading) : Option Flag :=
  match r.pending with
  | some (f, none) => some f
  | _ => none

end Reading

/-- What stands after the words of a level: nothing, or a command with its own
words. -/
abbrev Command := Option (String × List String)

/-- A word that belongs nowhere. -/
def Level.stray (l : Level) : UsageError :=
  if l.commands.isEmpty then .unknownArgument else .invalidSubcommand

/-- The answer to a request for help on some commands. -/
def Level.helpOn (l : Level) : List String → UsageError
  | [] => .help
  | [c] => if c ∈ l.commands then .help else .invalidSubcommand
  | _ => .invalidSubcommand

/-- The first word after the mark that ends the flags. -/
def Level.afterEscape (l : Level) : List String → Option UsageError
  | [] => none
  | w :: _ => some (if w ∈ l.commands then .unknownArgument else l.stray)

/-- Read the words of a level. -/
def Level.read (l : Level) (r : Reading) : List String → Except UsageError (Reading × Command)
  | [] => .ok (r, none)
  | w :: rest =>
    if r.awaiting.isNone ∧ w ∈ l.commands then
      if w = "help" then .error (l.helpOn rest) else .ok (r, some (w, rest))
    else match Word.of w with
      | .escape =>
        match l.afterEscape rest with
        | some e => .error e
        | none => .ok (r, none)
      | .long name attached =>
        match l.flag? name, attached with
        | some f, some value => do
          let r ← r.settle
          let r ← r.accept f value
          l.read r rest
        | some f, none => do
          let r ← r.settle
          l.read { r with pending := some (f, none) } rest
        | none, attached =>
          if name = "help" ∨ (name = "version" ∧ l.versioned) then
            if attached.isSome then .error .tooManyValues
            else do
              let _ ← r.settle
              .error (if name = "help" then .help else .version)
          else .error .unknownArgument
      | .short c =>
        if c = 'h' ∨ (c = 'V' ∧ l.versioned) then do
          let _ ← r.settle
          .error (if c = 'h' then .help else .version)
        else .error .unknownArgument
      | .plain =>
        match r.awaiting with
        | some f => l.read { r with pending := some (f, some w) } rest
        | none => .error l.stray

/-! ### Values that were not given -/

/-- Take values from the environment for the flags that were not given. -/
def fromEnvironment (env : Table String) : List Flag → Reading → Except UsageError Reading
  | [], r => .ok r
  | f :: rest, r =>
    match r.given.contains f.name, f.envName.bind env.get? with
    | false, some value => do
      let r ← r.accept f value
      fromEnvironment env rest r
    | _, _ => fromEnvironment env rest r

/-- Put in the defaults of the flags that have no value. -/
def withDefaults (flags : List Flag) (given : Table String) : Table String :=
  flags.foldl (fun t f =>
    match t.contains f.name, f.fallback with
    | false, some value => t.insert f.name value
    | _, _ => t) given

/-- The values of a level whose words have been read. -/
def Level.finish (l : Level) (env : Table String) (r : Reading) :
    Except UsageError (Table String) := do
  let r ← r.settle
  let r ← fromEnvironment env l.flags r
  if l.flags.any fun f => f.required && !r.given.contains f.name then .error .missingRequired
  else .ok (withDefaults l.flags r.given)

end Rendezvous.Cli
