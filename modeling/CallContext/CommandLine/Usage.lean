import CallContext.CommandLine.Command

namespace CallContext.CommandLine

namespace UsageError

def message : UsageError → String
  | nothingGiven => "a command is required"
  | noCommand => "a command is required"
  | unknownCommand written => "unrecognized command '" ++ written ++ "'"
  | unknownArgument written => "unexpected argument '" ++ written ++ "'"
  | repeated name => "'" ++ name ++ "' cannot be given more than once"
  | exclusive first second => "'" ++ first ++ "' cannot be given together with '" ++ second ++ "'"
  | missingValue name => "a value is required for '" ++ name ++ "'"
  | badValue name value => "invalid value '" ++ value ++ "' for '" ++ name ++ "'"
  | badNumber name value => "invalid number '" ++ value ++ "' for '" ++ name ++ "'"
  | needlessValue name => "'" ++ name ++ "' takes no value"
  | missing names => "required but not given: " ++ Text.joinWith ", " names

end UsageError

def OptionForm.usage (option : OptionForm) : String :=
  match option.kind with
  | .value _ => "[--" ++ option.name ++ " VALUE]"
  | _ => "[--" ++ option.name ++ "]"

def CommandForm.usage (form : CommandForm) : String :=
  Text.joinWith " " (form.name :: form.operands.map (·.1) ++ form.options.map (·.usage))

def ProgramForm.usage (form : ProgramForm) : String :=
  "Usage: " ++ programName ++ " COMMAND\n\n" ++
    String.join (form.commands.map fun command => "  " ++ command.usage ++ "\n")

end CallContext.CommandLine
