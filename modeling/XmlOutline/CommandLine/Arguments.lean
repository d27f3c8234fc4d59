import XmlOutline.Text.Quoted

/-!
# Arguments of the command line

Arguments are read from left to right, and the first one that settles the matter
decides: a mistake, or a request for the version or for help.  An option with a
value takes it behind an equals sign or as the next argument; a value in the
next argument does not start with a hyphen, unless it is a lone hyphen.  There
are no other arguments, though `--` may end the options.
-/

namespace XmlOutline.CommandLine

/-- When the output is decorated. -/
inductive ColorChoice where
  /-- On a terminal, unless the environment says otherwise. -/
  | auto
  | always
  | never
deriving DecidableEq

/-- What the options say.  A missing value stands for an option that was not
given. -/
structure Arguments where
  color : Option ColorChoice := none
  indentWidth : Option Nat := none
  overrides : Option Text := none
  keepWhitespace : Bool := false
  verbosity : Nat := 0

/-- What is asked for. -/
inductive Request where
  | format (arguments : Arguments)
  | showVersion
  | showHelp

/-- Why arguments cannot be used. -/
inductive UsageFault where
  | unknownArgument (argument : Text)
  | missingValue (option : Text)
  | unexpectedValue (switch : Text)
  | badValue (option value : Text)
  | repeated (argument : Text)
deriving DecidableEq

namespace UsageFault

/-- The wording of a fault, which is free: a usage error is told by the exit code. -/
def message : UsageFault → String
  | unknownArgument argument => "unexpected argument " ++ Text.quote argument
  | missingValue option => "a value is required for " ++ Text.quote option
  | unexpectedValue switch => "no value may be given for " ++ Text.quote switch
  | badValue option value =>
      "invalid value " ++ Text.quote value ++ " for " ++ Text.quote option
  | repeated argument => Text.quote argument ++ " cannot be used multiple times"

end UsageFault

/-! ## Options with a value -/

/-- The options that take a value. -/
inductive ValueOption where
  | color
  | indent
  | colors
deriving DecidableEq

namespace ValueOption

/-- The name of an option, without the hyphens. -/
def name : ValueOption → Text
  | color => "color".toList
  | indent => "indent".toList
  | colors => "colors".toList

/-- The option of a given name. -/
def ofName? (text : Text) : Option ValueOption :=
  [color, indent, colors].find? fun option => option.name == text

end ValueOption

/-- The value of a run of digits. -/
def digitsValue (digits : Text) : Nat :=
  digits.foldl (fun value c => 10 * value + (c.toNat - '0'.toNat)) 0

/-- Reads a number below 2^64: digits, possibly with a plus sign before them. -/
def readNumber? (text : Text) : Option Nat :=
  let digits := match text with
    | '+' :: digits => digits
    | digits => digits
  if !digits.isEmpty && digits.all Char.isDigit && digitsValue digits < 0x10000000000000000 then
    some (digitsValue digits)
  else none

/-- The choice of a given name. -/
def readColorChoice? (text : Text) : Option ColorChoice :=
  if text == "auto".toList then some .auto
  else if text == "always".toList then some .always
  else if text == "never".toList then some .never
  else none

/-- Sets an option to a value, which it must not have yet. -/
def Arguments.set (arguments : Arguments) (option : ValueOption) (value : Text) :
    Except UsageFault Arguments :=
  match option with
  | .color =>
      if arguments.color.isSome then .error (.repeated option.name)
      else match readColorChoice? value with
        | some choice => .ok { arguments with color := some choice }
        | none => .error (.badValue option.name value)
  | .indent =>
      if arguments.indentWidth.isSome then .error (.repeated option.name)
      else match readNumber? value with
        | some width => .ok { arguments with indentWidth := some width }
        | none => .error (.badValue option.name value)
  | .colors =>
      if arguments.overrides.isSome then .error (.repeated option.name)
      else .ok { arguments with overrides := some value }

/-! ## Switches -/

/-- The options without a value. -/
inductive Switch where
  | keepWhitespace
  | verbose
  | version
  | help
deriving DecidableEq

namespace Switch

/-- The name of a switch, without the hyphens. -/
def name : Switch → Text
  | keepWhitespace => "keep-whitespace".toList
  | verbose => "verbose".toList
  | version => "version".toList
  | help => "help".toList

/-- The switch of a given name. -/
def ofName? (text : Text) : Option Switch :=
  [keepWhitespace, verbose, version, help].find? fun switch => switch.name == text

/-- The switch of a given letter. -/
def ofLetter? (c : Char) : Option Switch :=
  if c = 'v' then some verbose
  else if c = 'V' then some version
  else if c = 'h' then some help
  else none

end Switch

/-- What a switch leads to: arguments to go on with, or a request that settles
the matter. -/
inductive Outcome where
  | goOn (arguments : Arguments)
  | settle (request : Request)

/-- Applies a switch. -/
def Arguments.turnOn (arguments : Arguments) (switch : Switch) : Except UsageFault Outcome :=
  match switch with
  | .keepWhitespace =>
      if arguments.keepWhitespace then .error (.repeated switch.name)
      else .ok (.goOn { arguments with keepWhitespace := true })
  | .verbose => .ok (.goOn { arguments with verbosity := arguments.verbosity + 1 })
  | .version => .ok (.settle .showVersion)
  | .help => .ok (.settle .showHelp)

/-- Applies the switches of a run of letters, up to one that settles the matter. -/
def Arguments.turnOnLetters (arguments : Arguments) : Text → Except UsageFault Outcome
  | [] => .ok (.goOn arguments)
  | c :: rest =>
      match Switch.ofLetter? c with
      | none => .error (.unknownArgument ['-', c])
      | some switch => do
          match ← arguments.turnOn switch with
          | .goOn arguments => arguments.turnOnLetters rest
          | .settle request => return .settle request

/-! ## Arguments one after the other -/

/-- What one argument says, before it is looked up what it means. -/
inductive Shape where
  /-- `--` -/
  | separator
  /-- `--name` or `--name=value` -/
  | long (name : Text) (value? : Option Text)
  /-- `-letters` -/
  | short (letters : Text)
  /-- Anything else. -/
  | positional

/-- The shape of an argument. -/
def Shape.ofArgument : Text → Shape
  | ['-', '-'] => separator
  | '-' :: '-' :: body =>
      match body.dropWhile (· != '=') with
      | [] => long body none
      | _ :: value => long (body.takeWhile (· != '=')) (some value)
  | '-' :: c :: letters => short (c :: letters)
  | _ => positional

/-- May an argument be the value of the option before it? -/
def isValue : Text → Bool
  | '-' :: _ :: _ => false
  | _ => true

/-- Reads arguments, given what those before them said. -/
def Arguments.readOn (arguments : Arguments) : List Text → Except UsageFault Request
  | [] => .ok (.format arguments)
  | argument :: rest =>
      match Shape.ofArgument argument with
      | .separator =>
          match rest with
          | [] => .ok (.format arguments)
          | next :: _ => .error (.unknownArgument next)
      | .positional => .error (.unknownArgument argument)
      | .short letters => do
          match ← arguments.turnOnLetters letters with
          | .goOn arguments => arguments.readOn rest
          | .settle request => return request
      | .long name value? =>
          match ValueOption.ofName? name, Switch.ofName? name, value? with
          | some option, _, some value => do
              if value.isEmpty && option != .colors then throw (.missingValue name)
              (← arguments.set option value).readOn rest
          | some option, _, none =>
              match rest with
              | [] => .error (.missingValue name)
              | value :: rest => do
                  unless isValue value do throw (.missingValue name)
                  (← arguments.set option value).readOn rest
          | none, some switch, none => do
              match ← arguments.turnOn switch with
              | .goOn arguments => arguments.readOn rest
              | .settle request => return request
          | none, some _, some _ => .error (.unexpectedValue name)
          | none, none, _ => .error (.unknownArgument argument)

/-- Reads all arguments. -/
def readArguments (arguments : List Text) : Except UsageFault Request :=
  ({} : Arguments).readOn arguments

end XmlOutline.CommandLine
