import CallContext.Text.Cut

namespace CallContext

inductive Shell where
  | bash
  | zsh
  | fish
  | powerShell
  | elvish
  deriving DecidableEq, Inhabited, Repr

namespace Shell

def all : List Shell := [bash, zsh, fish, powerShell, elvish]

def name : Shell → String
  | bash => "bash"
  | zsh => "zsh"
  | fish => "fish"
  | powerShell => "power-shell"
  | elvish => "elvish"

def ofName? (name : String) : Option Shell :=
  all.find? (·.name == name)

def scriptName (shell : Shell) (program : String) : String :=
  match shell with
  | bash => program ++ ".bash"
  | zsh => "_" ++ program
  | fish => program ++ ".fish"
  | powerShell => "_" ++ program ++ ".ps1"
  | elvish => program ++ ".elv"

def script (shell : Shell) (program : String) (commands : List String) : String :=
  let names := Text.joinWith " " commands
  match shell with
  | bash => "complete -W \"" ++ names ++ "\" " ++ program ++ "\n"
  | zsh => "#compdef " ++ program ++ "\ncompadd " ++ names ++ "\n"
  | fish => "complete -c " ++ program ++ " -f -a \"" ++ names ++ "\"\n"
  | powerShell =>
    "Register-ArgumentCompleter -Native -CommandName " ++ program ++
      " -ScriptBlock \x7b -split '" ++ names ++ "' \x7d\n"
  | elvish =>
    "set edit:completion:arg-completer[" ++ program ++ "] = \x7b|@words| all [" ++ names ++ "] \x7d\n"

end Shell

end CallContext
