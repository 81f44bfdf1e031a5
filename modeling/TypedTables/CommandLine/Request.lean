import TypedTables.CommandLine.Arguments

/-!
What the user asks for. Options in front of the command belong to the program, options behind it to
the command. A fault of the latter is reported in the name of the command.
-/

namespace TypedTables.CommandLine

open Text

inductive Command where
  | generate (dry : Bool)
  | schema (asJson : Bool)
  | watch (delay? : Option Int)
  deriving DecidableEq, Repr

structure Request where
  config? : Option String
  verbose : Bool
  command : Command
  roots : List String
  output? : Option String
  deriving DecidableEq, Repr

structure UsageError where
  reporter : String
  cause : ArgumentError
  deriving DecidableEq, Repr

def UsageError.message (e : UsageError) : String :=
  s!"{e.reporter}: error: {e.cause.message}"

def programName : String := "tablegen"

def helpOption : OptionSpec := ⟨"help", ["-h", "--help"], .help⟩

def outputOption : OptionSpec := ⟨"output", ["--out"], .text⟩

def programOptions : List OptionSpec := [
  helpOption, ⟨"config", ["--config"], .text⟩, ⟨"verbose", ["--verbose", "-v"], .flag⟩]

def commandOptions : List (String × List OptionSpec) := [
  ("generate", [helpOption, outputOption, ⟨"dry", ["--dry-run"], .flag⟩]),
  ("schema", [helpOption, ⟨"json", ["--json"], .flag⟩]),
  ("watch", [helpOption, outputOption, ⟨"delay", ["--debounce-ms"], .number⟩])]

def commandOf (name : String) (p : Parsed) : Command :=
  if name = "generate" then .generate (p.get? "dry").isSome
  else if name = "schema" then .schema (p.get? "json").isSome
  else .watch ((p.get? "delay").bind (fun value => intOfDigits? (trim value.toList)))

def readCommand (program : Parsed) (name : String) (specs : List OptionSpec)
    (texts : List String) : Except UsageError Request := do
  let behalf := programName ++ " " ++ name
  let looks ← (pieces specs texts).mapError (⟨behalf, ·⟩)
  let (p, _) ← (Parsed.read specs false {} looks).mapError (⟨behalf, ·⟩)
  let extras := program.extras ++ p.extras
  if extras.isEmpty then
    .ok {
      config? := program.get? "config"
      verbose := (program.get? "verbose").isSome
      command := commandOf name p
      roots := p.words
      output? := p.get? "output" }
  else .error ⟨programName, .unrecognized extras⟩

def Request.ofArguments (texts : List String) : Except UsageError Request := do
  let fault := fun (e : ArgumentError) => (⟨programName, e⟩ : UsageError)
  let looks ← (pieces programOptions texts).mapError fault
  let (program, rest) ← (Parsed.read programOptions true {} looks).mapError fault
  match rest with
  | [] | [.separator] => .error (fault .missingCommand)
  | command :: arguments =>
      match commandOptions.lookup command.text with
      | some specs => readCommand program command.text specs (arguments.map Piece.text)
      | none => .error (fault (.unknownCommand command.text (commandOptions.map Prod.fst)))

end TypedTables.CommandLine
