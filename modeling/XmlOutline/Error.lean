import XmlOutline.Node
import XmlOutline.Token.SyntaxError

/-!
# Errors

What can go wrong on the way from a text to its outline.  An error has a kind,
and possibly a context: the source and the span in it that the error is about.
-/

namespace XmlOutline

/-- Why a text is no document. -/
inductive ParseFault where
  /-- The text cannot be cut into tokens. -/
  | badSyntax (error : SyntaxError)
  /-- The text ends before there was a root element. -/
  | unexpectedEnd
  /-- The text ends inside an element. -/
  | unclosedTag (name : String)
  /-- A closing tag has another name than the element that it would close. -/
  | mismatchedTag (expected found : String)
  /-- The declaration stands behind other parts of the document. -/
  | declarationNotFirst
  /-- A token stands where it must not. -/
  | unexpected (message : String)
  /-- A span reaches outside the source. -/
  | spanOutsideSource
deriving DecidableEq

namespace ParseFault

/-- The wording of a fault. -/
def message : ParseFault → String
  | badSyntax error => error.message
  | unexpectedEnd => "End of file reached unexpectedly"
  | unclosedTag name => "Unclosed tag: " ++ name
  | mismatchedTag expected found =>
      "Mismatched closing tag: expected </" ++ expected ++ ">, found </" ++ found ++ ">"
  | declarationNotFirst => "The <?xml> declaration must appear at the start of the document"
  | unexpected message => message
  | spanOutsideSource => "A span reaches outside the source"

end ParseFault

/-- What went wrong. -/
inductive ErrorKind where
  /-- The input is a terminal. -/
  | inputNotPiped
  /-- The input is no document. -/
  | parse (fault : ParseFault)
  /-- The document has a node without a layout. -/
  | unsupportedNode (kind : UnsupportedKind)
  /-- A style was described wrongly. -/
  | invalidStyle (reason : String)
  /-- Reading or writing failed. -/
  | io (reason : String)
deriving DecidableEq

namespace ErrorKind

/-- The wording of a kind of error. -/
def message : ErrorKind → String
  | inputNotPiped => "Input must be piped in, but standard input is a terminal"
  | parse fault => "Your input XML could not be parsed: " ++ fault.message
  | unsupportedNode kind => "Unsupported node kind: " ++ kind.label
  | invalidStyle reason => "Invalid style: " ++ reason
  | io reason => "IO error: " ++ reason

/-- The wordings of the errors that caused an error of this kind. -/
def causes : ErrorKind → List String
  | parse fault => [fault.message]
  | io reason => [reason]
  | _ => []

end ErrorKind

/-- The place that an error is about. -/
structure ErrorContext where
  source : Text
  span : Span
deriving DecidableEq

namespace ErrorContext

/-- The row and the column of the place. -/
def position (context : ErrorContext) : Position := context.span.position context.source

/-- The first line of the span, unless it is empty, and where it stands, unless
that is at the very start. -/
def message (context : ErrorContext) : String :=
  let line := context.span.text.takeWhile (· != '\n')
  let quotation := if line.isEmpty then "" else "| " ++ String.ofList line ++ "\n"
  let place :=
    if context.span.start = 0 then "" else "= At " ++ context.position.display ++ "\n"
  quotation ++ place

end ErrorContext

/-- An error with the place that it is about, if it has one. -/
structure Error where
  kind : ErrorKind
  context : Option ErrorContext := none
deriving DecidableEq

namespace Error

/-- An error about a span of a source. -/
def located (source : Text) (span : Span) (kind : ErrorKind) : Error :=
  ⟨kind, some ⟨source, span⟩⟩

/-- The full wording.  With a context it is a block of lines: the context, then
each line of the kind's wording. -/
def message (error : Error) : String :=
  match error.context with
  | none => error.kind.message
  | some context =>
      let lines := (Text.lines error.kind.message.toList).map fun line =>
        "= " ++ String.ofList line ++ "\n"
      context.message ++ String.join lines

end Error

end XmlOutline
