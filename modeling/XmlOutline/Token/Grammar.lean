import XmlOutline.Token.Basic
import XmlOutline.Token.Scanner

/-!
# The grammar of tokens

One scanner for each construct of a document.  Each starts at the first
character of its construct and yields the token, whose span `lexeme` fills in.

Names, values and contents are read and kept as they are written: no reference
is expanded, and no line end is changed.
-/

namespace XmlOutline.Grammar

open Scanner CharClass

/-- Reads a construct and gives its token the span of all that was read. -/
def lexeme (body : Scanner (Span → Token)) : Scanner Token := do
  let start ← get
  let token ← body
  return token (start.spanTo (← get))

/-- Reads any characters between quotes of the same kind. -/
def skipQuoted : Scanner Unit := do
  let quote ← expectQuote
  let _ ← readWhile (· != quote)
  expectChar quote

/-! ## The declaration -/

/-- Between the parts of a declaration there are spaces, unless it ends. -/
def declarationGap : Scanner Unit := do
  let cursor ← get
  match cursor.rest with
  | [] => return ()
  | c :: _ =>
      require (isSpace c || cursor.startsWith "?>") (.expectedSpace c)
      skipSpaces

/-- `encoding="…"` with the gap behind it, if it comes next. -/
def encodingPart : Scanner Unit := do
  if ← lookingAt "encoding" then
    expectWord "encoding"
    expectEquals
    let quote ← expectQuote
    let _ ← readWhile isEncodingChar
    expectChar quote
    declarationGap

/-- `standalone="yes"` or `standalone="no"`, if it comes next. -/
def standalonePart : Scanner Unit := do
  if ← lookingAt "standalone" then
    expectWord "standalone"
    expectEquals
    let quote ← expectQuote
    let place := (← get).position
    let value ← readName
    require (value.text == "yes".toList || value.text == "no".toList)
      fun _ => .expectedWord ["yes", "no"] place
    expectChar quote

/-- `<?xml version="1.…"` with its optional parts and `?>`. -/
def declaration : Scanner Token := lexeme do
  expectWord "<?xml "
  skipSpaces
  expectWord "version"
  expectEquals
  let quote ← expectQuote
  expectWord "1."
  let _ ← readWhile isDigit
  expectChar quote
  declarationGap
  encodingPart
  standalonePart
  skipSpaces
  expectWord "?>"
  return Token.declaration

/-! ## Comments, instructions and sections -/

/-- A comment.  Its content holds no two hyphens in a row and ends with none. -/
def comment : Scanner Token := lexeme do
  expectWord "<!--"
  let content ← readUntilWord "-->"
  expectWord "-->"
  require (!Text.occurs "--".toList content.text) fun _ => .doubleHyphen
  require (content.text.getLast? != some '-') fun _ => .finalHyphen
  return (.comment · content)

/-- A processing instruction.  Empty content is none. -/
def instruction : Scanner Token := lexeme do
  expectWord "<?"
  let target ← readName
  skipSpaces
  let content ← readUntilWord "?>"
  expectWord "?>"
  return (.instruction · target (some content |>.filter fun span => !span.text.isEmpty))

/-- A CDATA section. -/
def cdata : Scanner Token := lexeme do
  expectWord "<![CDATA["
  let content ← readUntilWord "]]>"
  expectWord "]]>"
  return (.cdata · content)

/-- A run of text up to the next markup.  It must not hold the end marker of a
CDATA section. -/
def text : Scanner Token := do
  let run ← readUntilClass (· == '<')
  require (!Text.occurs "]]>".toList run.text) fun _ => .sectionEndInText
  return .text run

/-! ## The document type -/

/-- An external identifier, if one comes next; tells whether it did. -/
def externalId : Scanner Bool := do
  if ← lookingAt "SYSTEM" then
    expectWord "SYSTEM"
    expectSpaces
    skipQuoted
    return true
  else if ← lookingAt "PUBLIC" then
    expectWord "PUBLIC"
    expectSpaces
    skipQuoted
    expectSpaces
    skipQuoted
    return true
  else
    return false

/-- A document type declaration, whole or up to the start of its subset. -/
def doctype : Scanner Token := lexeme do
  expectWord "<!DOCTYPE"
  expectSpaces
  let _ ← readName
  skipSpaces
  let _ ← externalId
  skipSpaces
  let found ← peek
  require (found == '[' || found == '>') (.expectedOneOf ['[', '>'] found)
  expectChar found
  return if found == '[' then Token.subsetOpen else Token.doctype

/-- `NDATA` and a name after an external identifier, if it comes next.  The name
may be missing at the end of the text only. -/
def notationPart : Scanner Unit := do
  skipSpaces
  if ← lookingAt "NDATA" then
    expectWord "NDATA"
    expectSpaces
    unless (← get).rest.isEmpty do
      let _ ← readName

/-- What an entity stands for: a quoted value, or an external identifier. -/
def entityDefinition (isGeneral : Bool) : Scanner Unit := do
  let found ← peek
  if found == '"' || found == '\'' then
    skipQuoted
  else
    require (found == 'S' || found == 'P') (.expectedOneOf ['"', '\'', 'S', 'P'] found)
    let isExternal ← externalId
    require isExternal fun _ => .badExternalId
    if isGeneral then
      notationPart

/-- `%` and spaces, if they come next; tells whether the entity is a general one
instead. -/
def entityKind : Scanner Bool := do
  if ← lookingAt "%" then
    expectWord "%"
    expectSpaces
    return false
  else
    return true

/-- The declaration of an entity in a subset. -/
def entity : Scanner Token := lexeme do
  expectWord "<!ENTITY"
  expectSpaces
  let isGeneral ← entityKind
  let _ ← readName
  expectSpaces
  entityDefinition isGeneral
  skipSpaces
  expectChar '>'
  return Token.entity

/-- A declaration in a subset that leaves no token. -/
def ignoredDeclaration : Scanner Unit := do
  let _ ← readWhile (· != '>')
  expectChar '>'

/-- The end of a subset. -/
def subsetClose : Scanner Token := lexeme do
  expectWord "]"
  skipSpaces
  expectChar '>'
  return Token.subsetClose

/-! ## Tags -/

/-- `<` and the name of an element. -/
def tagStart : Scanner Token := lexeme do
  expectWord "<"
  let name ← readQualifiedName
  return (.tagStart · name)

/-- A closing tag. -/
def closeTag : Scanner Token := lexeme do
  expectWord "</"
  let name ← readQualifiedName
  skipSpaces
  expectChar '>'
  return (.closeTag · name)

/-- An attribute.  Its value holds neither its quote nor a `<`. -/
def tagAttribute : Scanner Token := lexeme do
  let name ← readQualifiedName
  expectEquals
  let quote ← expectQuote
  let value ← readUntilClass fun c => c == quote || c == '<'
  expectChar quote
  return fun span => .tagAttribute ⟨span, name, value⟩

/-- What follows in a start tag: its end, or an attribute with spaces before it. -/
def tagItem : Scanner Token := do
  let spaced ← lookingAtClass isSpace
  skipSpaces
  if ← lookingAt "/" then
    lexeme do
      expectWord "/"
      expectChar '>'
      return Token.emptyTagEnd
  else if ← lookingAt ">" then
    lexeme do
      expectWord ">"
      return Token.tagEnd
  else
    unless spaced do
      let found ← peek
      require false (.expectedSpace found)
    tagAttribute

/-! ## Every construct takes up text -/

theorem Advances.lexeme {body : Scanner (Span → Token)} (h : Advances body) :
    Advances (lexeme body) :=
  consumes_get.bind_advances fun _ => h.bind fun _ => consumes_get.bind fun _ => consumes_pure _

theorem consumes_skipQuoted : Consumes skipQuoted :=
  advances_expectQuote.consumes.bind fun _ => (consumes_readWhile _).bind fun _ =>
    (advances_expectChar _).consumes

theorem consumes_declarationGap : Consumes declarationGap := by
  refine consumes_get.bind fun cursor => ?_
  cases cursor.rest with
  | nil => exact consumes_pure _
  | cons c rest => exact (consumes_require _ _).bind fun _ => consumes_skipSpaces

theorem consumes_encodingPart : Consumes encodingPart := by
  refine (consumes_lookingAt _).bind fun found => ?_
  cases found with
  | false => exact consumes_pure _
  | true =>
      exact (advances_expectWord (by decide)).consumes.bind fun _ =>
        advances_expectEquals.consumes.bind fun _ =>
        advances_expectQuote.consumes.bind fun _ => (consumes_readWhile _).bind fun _ =>
        (advances_expectChar _).consumes.bind fun _ => consumes_declarationGap

theorem consumes_standalonePart : Consumes standalonePart := by
  refine (consumes_lookingAt _).bind fun found => ?_
  cases found with
  | false => exact consumes_pure _
  | true =>
      exact (advances_expectWord (by decide)).consumes.bind fun _ =>
        advances_expectEquals.consumes.bind fun _ =>
        advances_expectQuote.consumes.bind fun _ => consumes_get.bind fun _ =>
        consumes_readName.bind fun _ => (consumes_require _ _).bind fun _ =>
        (advances_expectChar _).consumes

theorem advances_declaration : Advances declaration :=
  Advances.lexeme <| (advances_expectWord (by decide)).bind fun _ =>
    consumes_skipSpaces.bind fun _ => (advances_expectWord (by decide)).consumes.bind fun _ =>
    advances_expectEquals.consumes.bind fun _ => advances_expectQuote.consumes.bind fun _ =>
    (advances_expectWord (by decide)).consumes.bind fun _ =>
    (consumes_readWhile _).bind fun _ => (advances_expectChar _).consumes.bind fun _ =>
    consumes_declarationGap.bind fun _ => consumes_encodingPart.bind fun _ =>
    consumes_standalonePart.bind fun _ => consumes_skipSpaces.bind fun _ =>
    (advances_expectWord (by decide)).consumes.bind fun _ => consumes_pure _

theorem advances_comment : Advances comment :=
  Advances.lexeme <| (advances_expectWord (by decide)).bind fun _ =>
    (consumes_readUntil _).bind fun _ => (advances_expectWord (by decide)).consumes.bind fun _ =>
    (consumes_require _ _).bind fun _ => (consumes_require _ _).bind fun _ => consumes_pure _

theorem advances_instruction : Advances instruction :=
  Advances.lexeme <| (advances_expectWord (by decide)).bind fun _ =>
    consumes_readName.bind fun _ => consumes_skipSpaces.bind fun _ =>
    (consumes_readUntil _).bind fun _ => (advances_expectWord (by decide)).consumes.bind fun _ =>
    consumes_pure _

theorem advances_cdata : Advances cdata :=
  Advances.lexeme <| (advances_expectWord (by decide)).bind fun _ =>
    (consumes_readUntil _).bind fun _ => (advances_expectWord (by decide)).consumes.bind fun _ =>
    consumes_pure _

/-- A run of text is not empty where no markup starts. -/
theorem text_reads {start stop : Cursor} {token : Token}
    (hrun : text start = .ok (token, stop)) (hrest : start.rest ≠ [])
    (hmarkup : start.startsWith "<" = false) :
    ∃ word, start.Reads word stop ∧ word ≠ [] := by
  obtain ⟨run, middle, hread, hrun⟩ := bind_eq_ok_iff.mp hrun
  obtain ⟨_, behind, hrequire, hrun⟩ := bind_eq_ok_iff.mp hrun
  obtain ⟨word, hword⟩ := consumes_require _ _ _ _ _ hrequire
  cases hrun
  have hne : run.text ≠ [] := by
    refine readUntil_reads hread hrest ?_
    cases hstart : start.rest with
    | nil => rfl
    | cons c rest =>
        have hc : c ≠ '<' := by
          rintro rfl
          rw [Cursor.startsWith, hstart] at hmarkup
          exact Bool.noConfusion hmarkup
        simpa using hc
  exact ⟨_, (readUntil_eq_ok hread).1.trans hword, by simp [hne]⟩

theorem consumes_externalId : Consumes externalId := by
  refine (consumes_lookingAt _).bind fun system => ?_
  cases system with
  | true =>
      exact (advances_expectWord (by decide)).consumes.bind fun _ =>
        consumes_expectSpaces.bind fun _ => consumes_skipQuoted.bind fun _ => consumes_pure _
  | false =>
      refine (consumes_lookingAt _).bind fun isPublic => ?_
      cases isPublic with
      | true =>
          exact (advances_expectWord (by decide)).consumes.bind fun _ =>
            consumes_expectSpaces.bind fun _ => consumes_skipQuoted.bind fun _ =>
            consumes_expectSpaces.bind fun _ => consumes_skipQuoted.bind fun _ => consumes_pure _
      | false => exact consumes_pure _

theorem advances_doctype : Advances doctype :=
  Advances.lexeme <| (advances_expectWord (by decide)).bind fun _ =>
    consumes_expectSpaces.bind fun _ => consumes_readName.bind fun _ =>
    consumes_skipSpaces.bind fun _ => consumes_externalId.bind fun _ =>
    consumes_skipSpaces.bind fun _ => consumes_peek.bind fun _ =>
    (consumes_require _ _).bind fun _ => (advances_expectChar _).consumes.bind fun _ =>
    consumes_pure _

theorem consumes_notationPart : Consumes notationPart := by
  refine consumes_skipSpaces.bind fun _ => (consumes_lookingAt _).bind fun found => ?_
  cases found with
  | false => exact consumes_pure _
  | true =>
      refine (advances_expectWord (by decide)).consumes.bind fun _ =>
        consumes_expectSpaces.bind fun _ => consumes_get.bind fun cursor => ?_
      cases cursor.rest.isEmpty with
      | true => exact consumes_pure _
      | false => exact consumes_readName.bind fun _ => consumes_pure _

theorem consumes_entityDefinition (isGeneral : Bool) : Consumes (entityDefinition isGeneral) := by
  refine consumes_peek.bind fun found => ?_
  split
  · exact consumes_skipQuoted
  · refine (consumes_require _ _).bind fun _ => consumes_externalId.bind fun _ =>
      (consumes_require _ _).bind fun _ => ?_
    cases isGeneral with
    | true => exact consumes_notationPart
    | false => exact consumes_pure _

theorem consumes_entityKind : Consumes entityKind := by
  refine (consumes_lookingAt _).bind fun found => ?_
  cases found with
  | false => exact consumes_pure _
  | true =>
      exact (advances_expectWord (by decide)).consumes.bind fun _ =>
        consumes_expectSpaces.bind fun _ => consumes_pure _

theorem advances_entity : Advances entity :=
  Advances.lexeme <| (advances_expectWord (by decide)).bind fun _ =>
    consumes_expectSpaces.bind fun _ => consumes_entityKind.bind fun _ =>
    consumes_readName.bind fun _ => consumes_expectSpaces.bind fun _ =>
    (consumes_entityDefinition _).bind fun _ => consumes_skipSpaces.bind fun _ =>
    (advances_expectChar _).consumes.bind fun _ => consumes_pure _

theorem advances_ignoredDeclaration : Advances ignoredDeclaration :=
  (consumes_readWhile _).bind_advances fun _ => advances_expectChar _

theorem advances_subsetClose : Advances subsetClose :=
  Advances.lexeme <| (advances_expectWord (by decide)).bind fun _ =>
    consumes_skipSpaces.bind fun _ => (advances_expectChar _).consumes.bind fun _ =>
    consumes_pure _

theorem advances_tagStart : Advances tagStart :=
  Advances.lexeme <| (advances_expectWord (by decide)).bind fun _ =>
    consumes_readQualifiedName.bind fun _ => consumes_pure _

theorem advances_closeTag : Advances closeTag :=
  Advances.lexeme <| (advances_expectWord (by decide)).bind fun _ =>
    consumes_readQualifiedName.bind fun _ => consumes_skipSpaces.bind fun _ =>
    (advances_expectChar _).consumes.bind fun _ => consumes_pure _

theorem advances_tagAttribute : Advances tagAttribute :=
  Advances.lexeme <| consumes_readQualifiedName.bind_advances fun _ =>
    advances_expectEquals.bind fun _ => advances_expectQuote.consumes.bind fun _ =>
    (consumes_readUntil _).bind fun _ => (advances_expectChar _).consumes.bind fun _ =>
    consumes_pure _

theorem advances_tagItem : Advances tagItem := by
  refine (consumes_lookingAtClass _).bind_advances fun spaced =>
    consumes_skipSpaces.bind_advances fun _ => (consumes_lookingAt _).bind_advances fun slash => ?_
  cases slash with
  | true =>
      exact Advances.lexeme <| (advances_expectWord (by decide)).bind fun _ =>
        (advances_expectChar _).consumes.bind fun _ => consumes_pure _
  | false =>
      refine (consumes_lookingAt _).bind_advances fun angle => ?_
      cases angle with
      | true =>
          exact Advances.lexeme <| (advances_expectWord (by decide)).bind fun _ =>
            consumes_pure _
      | false =>
          cases spaced with
          | true => exact advances_tagAttribute
          | false =>
              exact consumes_peek.bind_advances fun _ =>
                (consumes_require _ _).bind_advances fun _ => advances_tagAttribute

end XmlOutline.Grammar
