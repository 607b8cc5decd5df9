import CallContext.Collection.Table
import CallContext.Text.Cut
import CallContext.Text.Numeral

/-!
Reading the arguments of a program that has commands.

An option is written with two dashes and its name, a flag also with one dash and its letter; the value
of an option is the next argument, or what follows an equals sign. All other arguments are operands,
and so is everything after an argument of two dashes.

A value is looked at when the next argument has been understood, so an argument that nothing takes is
reported before a wrong value in front of it.
-/

namespace CallContext.CommandLine

inductive ValueForm where
  | text
  | path
  | number
  | choice (words : List String)
  deriving DecidableEq, Repr

inductive UsageError where
  | nothingGiven
  | noCommand
  | unknownCommand (written : String)
  | unknownArgument (written : String)
  | repeated (name : String)
  | exclusive (first second : String)
  | missingValue (name : String)
  | badValue (name value : String)
  | badNumber (name value : String)
  | needlessValue (name : String)
  | missing (names : List String)
  deriving DecidableEq, Repr

/-- Why reading arguments ends without a command. -/
inductive Halt where
  | help
  | version
  | misuse (error : UsageError)
  deriving DecidableEq, Repr

inductive OptionKind where
  | flag
  | value (form : ValueForm)
  | halt (reason : Halt)
  deriving DecidableEq, Repr

structure OptionForm where
  name : String
  letter : Option Char := none
  kind : OptionKind
  deriving DecidableEq, Repr

structure CommandForm where
  name : String
  options : List OptionForm
  operands : List (String × ValueForm) := []
  required : List String := []
  /-- Options of which at most one may be given. -/
  exclusive : List (String × String) := []
  deriving Repr

/-- The values of the options and operands that are given, by name. Flags have no text. -/
abbrev Given := Table String String

structure Pending where
  name : String
  form : ValueForm
  value : Option String
  deriving DecidableEq, Repr

structure Progress where
  given : Given
  pending : Option Pending
  operands : List (String × ValueForm)
  /-- Whether everything is an operand from here on. -/
  plain : Bool

namespace ValueForm

def misuse? (form : ValueForm) (name value : String) : Option UsageError :=
  match form with
  | text => none
  | path => if value.isEmpty then some (.badValue name value) else none
  | number => if (Text.readNumber value.toList).isNone then some (.badNumber name value) else none
  | choice words => if words.contains value then none else some (.badValue name value)

end ValueForm

namespace Progress

def start (operands : List (String × ValueForm)) : Progress :=
  ⟨Table.empty, none, operands, false⟩

def give (progress : Progress) (name value : String) : Except Halt Progress :=
  if progress.given.contains name then .error (.misuse (.repeated name))
  else .ok { progress with given := progress.given.put name value }

def giveValue (progress : Progress) (name : String) (form : ValueForm) (value : String) :
    Except Halt Progress := do
  let next ← progress.give name value
  match form.misuse? name value with
  | some error => .error (.misuse error)
  | none => .ok next

def settle (progress : Progress) : Except Halt Progress :=
  match progress.pending with
  | none => .ok progress
  | some ⟨name, _, none⟩ => .error (.misuse (.missingValue name))
  | some ⟨name, form, some value⟩ => ({ progress with pending := none }).giveValue name form value

def takeOption (progress : Progress) (option : OptionForm) (attached : Option String) :
    Except Halt Progress :=
  match option.kind, attached with
  | .value form, some value => do (← progress.settle).giveValue option.name form value
  | .value form, none => do
    return { ← progress.settle with pending := some ⟨option.name, form, none⟩ }
  | _, some _ => .error (.misuse (.needlessValue option.name))
  | .flag, none => do (← progress.settle).give option.name ""
  | .halt reason, none => do
    let _ ← progress.settle
    .error reason

def takeLetters (options : List OptionForm) : Progress → List Char → Except Halt Progress
  | progress, [] => .ok progress
  | progress, letter :: rest =>
    match options.find? (·.letter == some letter) with
    | some option => do takeLetters options (← progress.takeOption option none) rest
    | none => .error (.misuse (.unknownArgument ("-" ++ String.singleton letter)))

def takeNamed (options : List OptionForm) (progress : Progress) (written : List Char) :
    Except Halt Progress :=
  let (name, attached) := match Text.cutFirst '=' written with
    | some (name, value) => (String.ofList name, some (String.ofList value))
    | none => (String.ofList written, none)
  match options.find? (·.name == name) with
  | some option => progress.takeOption option attached
  | none => .error (.misuse (.unknownArgument ("--" ++ name)))

def takeOperand (progress : Progress) (written : String) : Except Halt Progress :=
  match progress.operands with
  | [] => .error (.misuse (.unknownArgument written))
  | (name, form) :: operands => do
    return { ← progress.settle with pending := some ⟨name, form, some written⟩, operands }

def takeText (progress : Progress) (written : String) : Except Halt Progress :=
  match progress.pending with
  | some ⟨name, form, none⟩ => .ok { progress with pending := some ⟨name, form, some written⟩ }
  | _ => progress.takeOperand written

def take (options : List OptionForm) (progress : Progress) (written : String) :
    Except Halt Progress :=
  if progress.plain then progress.takeOperand written
  else match written.toList with
    | ['-', '-'] => .ok { progress with plain := true }
    | '-' :: '-' :: name => progress.takeNamed options name
    | '-' :: letter :: letters => progress.takeLetters options (letter :: letters)
    | _ => progress.takeText written

end Progress

namespace CommandForm

def misuse? (form : CommandForm) (given : Given) : Option UsageError :=
  match form.exclusive.find? fun (first, second) => given.contains first && given.contains second with
  | some (first, second) => some (.exclusive first second)
  | none =>
    let absent := form.required.filter (!given.contains ·)
    if absent.isEmpty then none else some (.missing absent)

def read (form : CommandForm) (arguments : List String) : Except Halt Given := do
  let progress ← arguments.foldlM (Progress.take form.options) (Progress.start form.operands)
  let given := (← progress.settle).given
  match form.misuse? given with
  | some error => .error (.misuse error)
  | none => .ok given

end CommandForm

structure ProgramForm where
  options : List OptionForm
  commands : List CommandForm
  deriving Repr

structure Chosen where
  own : Given
  command : String
  given : Given

namespace ProgramForm

def helpCommand : String := "help"

def command? (form : ProgramForm) (name : String) : Option CommandForm :=
  form.commands.find? (·.name == name)

def isCommand (form : ProgramForm) (name : String) : Bool :=
  (form.command? name).isSome || name == helpCommand

/-- Reads the operands of the help command: the name of a command, which has no commands itself. -/
def readHelp (form : ProgramForm) : List String → Halt
  | [] => .help
  | name :: rest =>
    if !form.isCommand name then .misuse (.unknownCommand name)
    else match rest with
      | [] => .help
      | other :: _ => .misuse (.unknownCommand other)

/-- What is wrong with an argument that is neither an option nor a command. After two dashes not even
the name of a command counts as one. -/
def stray (form : ProgramForm) (written : String) : UsageError :=
  if form.isCommand written then .unknownArgument written else .unknownCommand written

def readFrom (form : ProgramForm) : Progress → List String → Except Halt Chosen
  | progress, [] => .error (.misuse (if progress.given.isEmpty then .nothingGiven else .noCommand))
  | progress, written :: rest =>
    if progress.plain then .error (.misuse (form.stray written))
    else if written = helpCommand then .error (form.readHelp rest)
    else match form.command? written with
      | some command => do return ⟨progress.given, written, ← command.read rest⟩
      | none =>
        if written.toList.head? == some '-' && written != "-" then do
          form.readFrom (← progress.take form.options written) rest
        else .error (.misuse (form.stray written))

def read (form : ProgramForm) (arguments : List String) : Except Halt Chosen :=
  form.readFrom (Progress.start []) arguments

end ProgramForm

end CallContext.CommandLine
