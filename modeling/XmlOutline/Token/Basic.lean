import XmlOutline.Name

/-!
# Tokens

The tokens of a document, in the sense of its markup: a tag is several of them,
everything else is one.  Each carries the spans of its parts, and `Token.span`
is the whole of what it was read from.
-/

namespace XmlOutline

/-- A piece of markup, or a run of text between markup. -/
inductive Token where
  /-- The declaration `<?xml … ?>` at the start of a document. -/
  | declaration (span : Span)
  /-- A processing instruction `<?target content?>`. -/
  | instruction (span target : Span) (content : Option Span)
  /-- A comment; `content` is what stands between the markers. -/
  | comment (span content : Span)
  /-- A document type declaration without an internal subset. -/
  | doctype (span : Span)
  /-- The part of a document type declaration up to the `[` of its subset. -/
  | subsetOpen (span : Span)
  /-- The declaration of an entity in a subset. -/
  | entity (span : Span)
  /-- The end of a subset and of its document type declaration. -/
  | subsetClose (span : Span)
  /-- The beginning `<name` of a start tag. -/
  | tagStart (span : Span) (name : Name)
  /-- An attribute in a start tag. -/
  | tagAttribute (attr : Attribute)
  /-- The end `>` of a start tag. -/
  | tagEnd (span : Span)
  /-- The end `/>` of the tag of an element without content. -/
  | emptyTagEnd (span : Span)
  /-- A closing tag `</name>`. -/
  | closeTag (span : Span) (name : Name)
  /-- A run of text. -/
  | text (run : Span)
  /-- A section `<![CDATA[content]]>`. -/
  | cdata (span content : Span)

namespace Token

/-- The whole piece of source that a token was read from. -/
def span : Token → Span
  | declaration span => span
  | instruction span _ _ => span
  | comment span _ => span
  | doctype span => span
  | subsetOpen span => span
  | entity span => span
  | subsetClose span => span
  | tagStart span _ => span
  | tagAttribute attr => attr.span
  | tagEnd span => span
  | emptyTagEnd span => span
  | closeTag span _ => span
  | text run => run
  | cdata span _ => span

/-- What error messages call a token. -/
def label : Token → String
  | declaration _ => "declaration"
  | instruction _ _ _ => "processing instruction"
  | comment _ _ => "comment"
  | doctype _ => "DTD"
  | subsetOpen _ => "DTD"
  | entity _ => "entity declaration"
  | subsetClose _ => "end of DTD"
  | tagStart _ _ => "element"
  | tagAttribute _ => "attribute"
  | tagEnd _ => "closing tag"
  | emptyTagEnd _ => "closing tag"
  | closeTag _ _ => "closing tag"
  | text _ => "text"
  | cdata _ _ => "CDATA"

end Token

end XmlOutline
