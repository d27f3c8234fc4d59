import XmlOutline.Document.Draft
import XmlOutline.Error
import XmlOutline.Text.Blank
import XmlOutline.Token.Stream

/-!
# From tokens to a document

The tokens of a text are taken one after the other into a draft.  What a token
may be depends on the stage that the draft is in; a token that may not come is
an error at its span.  Where the tokens end, the draft has to be complete.

The declaration leaves nothing in the document, and a document type declaration
is kept as one node, whatever its subset holds.
-/

namespace XmlOutline

/-- How a text becomes a document. -/
structure ParseOptions where
  /-- Keep runs of text in elements even if they are blank. -/
  keepWhitespace : Bool := false

/-- How far a document has come. -/
inductive Stage where
  /-- Before the root element. -/
  | prolog
  /-- In the subset of a document type declaration that starts with `opening`. -/
  | subset (opening : Span)
  /-- In a start tag. -/
  | tag
  /-- Inside an element. -/
  | content
  /-- Behind the root element. -/
  | epilog
deriving DecidableEq

/-- A document that is being read from a source. -/
structure Builder where
  source : Text
  draft : Draft := {}
  stage : Stage := .prolog

namespace Builder

/-- Gives up with a fault at a span of the source. -/
def fail {α : Type} (builder : Builder) (span : Span) (fault : ParseFault) : Except Error α :=
  .error (.located builder.source span (.parse fault))

/-- Gives up because a token may not stand here. -/
def refuse {α : Type} (builder : Builder) (token : Token) (place : String) : Except Error α :=
  builder.fail token.span (.unexpected ("Unexpected " ++ token.label ++ " " ++ place))

/-- Gives up because a token belongs into an element and none is open. -/
def failUnopened {α : Type} (builder : Builder) (token : Token) : Except Error α :=
  builder.fail token.span
    (.unexpected ("Bug; Cannot apply " ++ token.label ++ "; stack is empty!"))

/-- Adds a node to what is being built. -/
def add (builder : Builder) (node : Node) : Builder :=
  { builder with draft := builder.draft.add node }

/-- Adds a node to an element; there has to be an open one. -/
def addInside (builder : Builder) (token : Token) (node : Node) : Except Error Builder :=
  if builder.draft.opened.isEmpty then builder.failUnopened token
  else .ok (builder.add node)

/-- The span that covers two spans of the source. -/
def hull (builder : Builder) (first second : Span) : Except Error Span :=
  match Span.hull? builder.source first second with
  | some span => .ok span
  | none => builder.fail second .spanOutsideSource

/-- Opens an element. -/
def openElement (builder : Builder) (span : Span) (name : Name) : Builder :=
  { builder with draft := builder.draft.openElement { span, name }, stage := .tag }

/-- Closes the innermost element at the span of its last tag.  If the tag has a
name, it has to be the name of the element. -/
def closeElement (builder : Builder) (last : Span) (name? : Option Name) :
    Except Error Builder := do
  match builder.draft.opened with
  | [] => builder.fail last (.unexpected "Bug; Cannot close tag; stack is empty!")
  | inner :: outer =>
      if let some name := name? then
        unless inner.name == name do
          builder.fail last
            (.mismatchedTag (String.ofList inner.name.display) (String.ofList name.display))
      let span ← builder.hull inner.span last
      let draft := { builder.draft with opened := outer }.add { inner with span }.toNode
      return { builder with draft, stage := if outer.isEmpty then .epilog else .content }

/-! ## One token in each stage -/

/-- Takes a token before the root element. -/
def takeInProlog (builder : Builder) : Token → Except Error Builder
  | .tagStart span name => .ok (builder.openElement span name)
  | .declaration span =>
      if builder.draft.children.isEmpty then .ok builder
      else builder.fail span .declarationNotFirst
  | .comment _ content => .ok (builder.add (.comment content))
  | .instruction span target content => .ok (builder.add (.instruction span target content))
  | .doctype span => .ok (builder.add (.unsupported span .documentType))
  | .subsetOpen span => .ok { builder with stage := .subset span }
  | token@(.text run) =>
      if Text.isBlank run.text then .ok builder else builder.refuse token "in prolog section"
  | token => builder.refuse token "in prolog section"

/-- Takes a token in the subset of a document type declaration. -/
def takeInSubset (builder : Builder) (opening : Span) : Token → Except Error Builder
  | .subsetClose span => do
      let whole ← builder.hull opening span
      return { builder.add (.unsupported whole .documentType) with stage := .prolog }
  | .entity _ => .ok builder
  | .comment _ _ => .ok builder
  | .instruction _ _ _ => .ok builder
  | token => builder.refuse token "inside document type declaration"

/-- Takes a token in a start tag. -/
def takeInTag (builder : Builder) : Token → Except Error Builder
  | token@(.tagAttribute attr) =>
      match builder.draft.addAttribute? attr with
      | some draft => .ok { builder with draft }
      | none => builder.failUnopened token
  | .tagEnd _ => .ok { builder with stage := .content }
  | .emptyTagEnd span => builder.closeElement span none
  | token => builder.refuse token "in tag attributes"

/-- Takes a token inside an element. -/
def takeInContent (builder : Builder) (options : ParseOptions) : Token → Except Error Builder
  | .tagStart span name => .ok (builder.openElement span name)
  | token@(.text run) =>
      if !options.keepWhitespace && Text.isBlank run.text then .ok builder
      else builder.addInside token (.text run run)
  | token@(.cdata span content) => builder.addInside token (.cdata span content)
  | token@(.comment _ content) => builder.addInside token (.comment content)
  | token@(.instruction span target content) =>
      builder.addInside token (.instruction span target content)
  | .closeTag span name => builder.closeElement span (some name)
  | token => builder.refuse token "inside tag"

/-- Takes a token behind the root element. -/
def takeInEpilog (builder : Builder) : Token → Except Error Builder
  | .comment _ content => .ok (builder.add (.comment content))
  | .instruction span target content => .ok (builder.add (.instruction span target content))
  | token@(.text run) =>
      if Text.isBlank run.text then .ok builder else builder.refuse token "after root"
  | token => builder.refuse token "after root"

/-- Takes the next token. -/
def take (options : ParseOptions) (builder : Builder) (token : Token) : Except Error Builder :=
  match builder.stage with
  | .prolog => builder.takeInProlog token
  | .subset opening => builder.takeInSubset opening token
  | .tag => builder.takeInTag token
  | .content => builder.takeInContent options token
  | .epilog => builder.takeInEpilog token

/-! ## The end of the tokens -/

/-- What is wrong if the text ends here, and where. -/
def missing? (builder : Builder) : Option (Span × ParseFault) :=
  match builder.draft.opened, builder.stage with
  | inner :: _, _ => some (inner.span, .unclosedTag (String.ofList inner.name.display))
  | [], .epilog => none
  | [], .subset opening => some (opening, .unexpectedEnd)
  | [], _ => some (Span.endOf builder.source, .unexpectedEnd)

/-- Completes the document where the tokens end, be it at the end of the text or
at a syntax error. -/
def finish (builder : Builder) (error? : Option SyntaxError) : Except Error Document :=
  match error?, builder.missing? with
  | none, none => .ok (builder.draft.toDocument builder.source)
  | none, some (span, fault) => builder.fail span fault
  | some error, _ =>
      match builder.stage with
      | .subset opening => builder.fail opening (.badSyntax error)
      | _ => builder.fail (Span.endOf builder.source) (.badSyntax error)

/-- Takes tokens one after the other, and then their end. -/
def build (options : ParseOptions) (source : Text) (tokens : List Token)
    (error? : Option SyntaxError) : Except Error Document := do
  let builder ← tokens.foldlM (take options) { source }
  builder.finish error?

end Builder

namespace Document

/-- Reads a document. -/
def parse (source : Text) (options : ParseOptions := {}) : Except Error Document :=
  let (tokens, error?) := Token.ofSource source
  Builder.build options source tokens error?

end Document

end XmlOutline
