import XmlOutline.Document.Basic
import XmlOutline.Error
import XmlOutline.Layout.Basic
import XmlOutline.Text.Blank

/-!
# Documents as text

A document is written as the lines of its nodes, indented and decorated.  Lines
that come out blank are left out at both ends, but not in between.
-/

namespace XmlOutline

/-- The indentation of one level, unless another one is asked for. -/
def defaultIndent : Text := [' ', ' ']

/-- How a document is written. -/
structure FormatOptions where
  /-- Written once for each level at the start of a line. -/
  indent : Text := defaultIndent
  /-- How pieces are decorated. -/
  style : Style := Style.plain

namespace FormatOptions

/-- Indents each level by a number of spaces. -/
def withIndentWidth (options : FormatOptions) (width : Nat) : FormatOptions :=
  { options with indent := List.replicate width ' ' }

end FormatOptions

/-- Leaves out the blank texts at both ends of a list. -/
def dropBlankEnds (texts : List Text) : List Text :=
  ((texts.reverse.dropWhile Text.isBlank).reverse).dropWhile Text.isBlank

namespace Document

/-- The lines of a document.  A document with an unsupported node has none, and
the error tells the first such node. -/
def toLines (document : Document) (options : FormatOptions := {}) : Except Error (List Text) :=
  match Layout.lines document.children with
  | .ok lines => .ok (dropBlankEnds (lines.map (Line.render options.indent options.style)))
  | .error (span, kind) => .error (.located document.source span (.unsupportedNode kind))

/-- The lines of a document with line feeds in between. -/
def toPretty (document : Document) (options : FormatOptions := {}) : Except Error Text :=
  (fun lines => ['\n'].intercalate lines) <$> document.toLines options

end Document

end XmlOutline
