import Eaf.Program.CommandLine

/-!
# Help and completions

## Main definitions

* `Eaf.programName`, `Eaf.versionLine` — the program and its version.
* `Eaf.helpLines` — how the program is used.
* `Eaf.Shell.script` — what a shell is told so that it completes the names of the commands.
-/

namespace Eaf

/-- The name of the program. -/
def programName : String := "elandoc"

/-- The line that tells the version. -/
def versionLine : String :=
  programName ++ " 1.0.0"

/-- How the program is used. -/
def helpLines : List String :=
  [s!"{programName} reads, validates and rewrites ELAN Annotation Format (EAF) files.",
   "",
   s!"Usage: {programName} [OPTIONS] <COMMAND>",
   "",
   "Commands:",
   "  inspect [--json] <FILE>          Print a summary of an EAF file",
   "  validate <PATH>                  Check the references in a file or a directory of files",
   "  normalize [OPTIONS] <INPUT>      Write a file anew with orphan time slots pruned",
   "  tree <FILE>                      Print the tier hierarchy of an EAF file",
   "  completions <SHELL>              Generate shell completions",
   "",
   "Options:",
   "  -c, --config-path <CONFIG_PATH>  Configuration file path [default: elandoc.json]",
   "  -l, --log-level <LOG_LEVEL>      Set logging level [error, warn, info, debug, trace]",
   "      --strict                     Report unresolved references while importing",
   "  -h, --help                       Print help",
   "  -V, --version                    Print version",
   "",
   "Options of normalize:",
   "  -o, --output <OUTPUT>            Output path [default: <stem>.normalized.eaf]",
   "  -f, --force-overwrite            Force overwrite of an existing output file",
   "      --include-ref                Keep referential annotations in the output"]

/-- The line that is shown when the arguments are wrong. -/
def misuseLine : String :=
  s!"missing, unknown or repeated argument; try {programName} --help"

/-- The names of the commands with spaces between them. -/
def commandWords : String :=
  " ".intercalate (Verb.all.map (·.name))

/-- What a shell is told so that it completes the names of the commands. -/
def Shell.script : Shell → String
  | bash => "complete -W '" ++ commandWords ++ "' -o default " ++ programName
  | fish => "complete -c " ++ programName ++ " -n __fish_use_subcommand -a '" ++ commandWords ++ "'"
  | zsh => "compctl -k '(" ++ commandWords ++ ")' -x 'p[2,-1]' -f -- " ++ programName
  | elvish =>
    "set edit:completion:arg-completer[" ++ programName ++ "] = \x7b|@words| put " ++
      commandWords ++ " \x7d"
  | powershell =>
    "Register-ArgumentCompleter -Native -CommandName " ++ programName ++
      " -ScriptBlock \x7b '" ++ commandWords ++ "' -split ' ' \x7d"

end Eaf
