import XmlOutline.CommandLine.Arguments
import XmlOutline.Document.Format
import XmlOutline.Document.Parser
import XmlOutline.Style.Overrides

/-!
# A run of the program

A run takes the arguments, the environment and the bytes of the standard input,
and has an exit code and what is written to the two outputs.  It is all or
nothing: the standard output gets the whole outline, or stays empty.

What can go wrong is looked for in a fixed order: the arguments, the overrides
(even if they end up unused), the input as a text, the text as a document, the
document as an outline.
-/

namespace XmlOutline.CommandLine

/-- What a run finds around it. -/
structure Environment where
  /-- The values of the environment variables. -/
  valueOf : String → Option String := fun _ => none
  /-- Is the standard input a terminal? -/
  inputIsTerminal : Bool := false
  /-- Is the standard output a terminal? -/
  outputIsTerminal : Bool := false

/-- What a run leaves behind. -/
structure Result where
  exitCode : Nat
  output : String := ""
  errors : String := ""
deriving DecidableEq

/-- The line that tells the name and the version of the program. -/
def versionLine : String := "xmlpretty 0.1.0\n"

/-- A short explanation of the options.  Its wording is free: nothing else depends on it. -/
def helpText : String :=
  "Indent and colorize XML read from standard input\n\n" ++
  "Usage: xmlpretty [OPTIONS]\n\n" ++
  "Options:\n" ++
  "      --color <COLOR>       auto, always or never\n" ++
  "      --indent <N>          Spaces of indentation per nesting level\n" ++
  "      --keep-whitespace     Keep text nodes made only of whitespace\n" ++
  "      --colors <OVERRIDES>  Color overrides per role\n" ++
  "  -v, --verbose...          Print diagnostics to standard error\n" ++
  "  -h, --help                Print help\n" ++
  "  -V, --version             Print version\n"

/-- The list of overrides in effect: the option counts before the environment. -/
def overridesInEffect (arguments : Arguments) (environment : Environment) : Option Text :=
  arguments.overrides.or ((environment.valueOf "XMLPRETTY_COLORS").map String.toList)

/-- Is the output to be decorated? -/
def isDecorated (arguments : Arguments) (environment : Environment) : Bool :=
  match arguments.color.getD .auto with
  | .always => true
  | .never => false
  | .auto => environment.outputIsTerminal && (environment.valueOf "NO_COLOR").all (·.isEmpty)

/-- How the output is formatted.  Wrong overrides are an error even if the output
is not decorated. -/
def formatOptions (arguments : Arguments) (environment : Environment) :
    Except Error FormatOptions := do
  let decorated ←
    match overridesInEffect arguments environment with
    | none => pure Style.decorated
    | some overrides =>
        match Style.decorated.withOverrides overrides with
        | .ok style => pure style
        | .error fault => throw ⟨.invalidStyle fault.message, none⟩
  let style := if isDecorated arguments environment then decorated else Style.plain
  return ({ style } : FormatOptions).withIndentWidth (arguments.indentWidth.getD 2)

/-- The input as a text. -/
def readInput (environment : Environment) (input : ByteArray) : Except Error Text :=
  if environment.inputIsTerminal then .error ⟨.inputNotPiped, none⟩
  else match String.fromUTF8? input with
    | some text => .ok text.toList
    | none => .error ⟨.io "stream did not contain valid UTF-8", none⟩

/-- The outline of the input. -/
def outline (arguments : Arguments) (environment : Environment) (input : ByteArray) :
    Except Error Text := do
  let options ← formatOptions arguments environment
  let source ← readInput environment input
  let document ← Document.parse source { keepWhitespace := arguments.keepWhitespace }
  document.toPretty options

/-- The exit code of a run that fails with an error of this kind. -/
def exitCode : ErrorKind → Nat
  | .invalidStyle _ => 2
  | _ => 1

/-- A run that fails with an error.  Blanks at the end of its message are
dropped. -/
def failure (error : Error) : Result :=
  { exitCode := exitCode error.kind
    errors := String.ofList (Text.trimEnd error.message.toList ++ ['\n']) }

/-- A run with arguments that could be read. -/
def format (arguments : Arguments) (environment : Environment) (input : ByteArray) : Result :=
  match outline arguments environment input with
  | .ok text => { exitCode := 0, output := String.ofList (text ++ ['\n']) }
  | .error error => failure error

/-- Does a run with these arguments read the standard input? -/
def needsInput (arguments : List String) : Bool :=
  match readArguments (arguments.map String.toList) with
  | .ok (.format _) => true
  | _ => false

/-- A run of the program. -/
def run (arguments : List String) (environment : Environment) (input : ByteArray) : Result :=
  match readArguments (arguments.map String.toList) with
  | .ok (.format arguments) => format arguments environment input
  | .ok .showVersion => { exitCode := 0, output := versionLine }
  | .ok .showHelp => { exitCode := 0, output := helpText }
  | .error fault => { exitCode := 2, errors := "error: " ++ fault.message ++ "\n" }

end XmlOutline.CommandLine
