import XmlOutline.Position
import XmlOutline.Text.Quoted

/-!
# Why a text is no sequence of tokens

A `Cause` says what was missing or wrong at one place.  A `SyntaxError` says in
which construct it went wrong and where that construct started, or that no
construct starts there at all.

A message repeats what was found at the place.  A character that XML does not have is
quoted there, so that it cannot spoil the message: `Cause.isVisible_notXmlChar`.
-/

namespace XmlOutline

/-- What is wrong at one place of a text. -/
inductive Cause where
  /-- The text ends although something has to follow. -/
  | endOfText
  /-- No name stands where one has to, or it has more than one colon. -/
  | badName
  /-- This character may occur in no document. -/
  | notXmlChar (found : Char) (place : Position)
  /-- Another character stands in the place of the expected one. -/
  | expectedChar (expected found : Char) (place : Position)
  /-- Another character stands in the place of one of these. -/
  | expectedOneOf (expected : List Char) (found : Char) (place : Position)
  /-- Neither kind of quote stands here. -/
  | expectedQuote (found : Char) (place : Position)
  /-- No space stands here. -/
  | expectedSpace (found : Char) (place : Position)
  /-- None of these words stands here. -/
  | expectedWord (expected : List String) (place : Position)
  /-- An external identifier is neither `SYSTEM` nor `PUBLIC`. -/
  | badExternalId
  /-- A comment holds two hyphens in a row. -/
  | doubleHyphen
  /-- A comment ends with a hyphen. -/
  | finalHyphen
  /-- Text holds the end marker of a CDATA section. -/
  | sectionEndInText
deriving DecidableEq

namespace Cause

/-- What a message shows of the character found: the first byte of its UTF-8
encoding, as the code point of that number. -/
def shownByte (found : Char) : Char :=
  Char.ofNat ((String.utf8EncodeChar found).headD 0).toNat

/-- Alternatives, each between single quotes, with commas in between. -/
def alternatives (expected : List String) : String :=
  ", ".intercalate (expected.map fun word => "'" ++ word ++ "'")

/-- `expected …, found … at …`, as all messages on a wrong character say it. -/
def mismatch (expected : String) (found : Char) (place : Position) : String :=
  "expected " ++ expected ++ " not '" ++ String.singleton (shownByte found) ++ "' at " ++
    place.display

/-- The wording of a cause. -/
def message : Cause → String
  | endOfText => "unexpected end of stream"
  | badName => "invalid name token"
  | notXmlChar found place =>
      "a non-XML character " ++ Text.quoteChar found ++ " found at " ++ place.display
  | expectedChar expected found place =>
      mismatch (alternatives [String.singleton expected]) found place
  | expectedOneOf expected found place =>
      mismatch (alternatives (expected.map String.singleton)) found place
  | expectedQuote found place => mismatch "quote mark" found place
  | expectedSpace found place => mismatch "space" found place
  | expectedWord expected place => "expected " ++ alternatives expected ++ " at " ++ place.display
  | badExternalId => "invalid ExternalID"
  | doubleHyphen => "'--' is not allowed in comments"
  | finalHyphen => "comment cannot end with '-'"
  | sectionEndInText => "']]>' is not allowed inside a character data"

/-- The message on a character that XML does not have is visible, whichever it is. -/
theorem isVisible_notXmlChar (found : Char) (place : Position) :
    Text.IsVisible (message (.notXmlChar found place)) := by
  have hnumber (number : Nat) : Text.IsVisible (toString number) :=
    Text.isVisible_toDigits (by decide) (by decide) number
  have hcolon : Text.IsVisible ":" := Text.isVisible_of_ascii (by simp)
  have hplace : Text.IsVisible place.display := by
    have hdisplay : place.display = toString place.row ++ ":" ++ toString place.column := rfl
    rw [hdisplay]
    exact ((hnumber place.row).append hcolon).append (hnumber place.column)
  have hfront : Text.IsVisible "a non-XML character " := Text.isVisible_of_ascii (by simp)
  have hbetween : Text.IsVisible " found at " := Text.isVisible_of_ascii (by simp)
  exact ((hfront.append (Text.isVisible_quoteChar found)).append hbetween).append hplace

end Cause

/-- The constructs that a text is made of. -/
inductive Construct where
  | declaration
  | comment
  | instruction
  | doctype
  | entity
  | element
  | attributes
  | cdata
  | text
deriving DecidableEq

namespace Construct

/-- What messages call a construct. -/
def label : Construct → String
  | declaration => "XML declaration"
  | comment => "comment"
  | instruction => "processing instruction"
  | doctype => "DTD"
  | entity => "DTD entity"
  | element => "element"
  | attributes => "attribute"
  | cdata => "CDATA"
  | text => "character data"

end Construct

/-- Why a text cannot be cut into tokens. -/
inductive SyntaxError where
  /-- No construct that may stand here starts like this. -/
  | unknownToken (place : Position)
  /-- A construct that starts at `place` goes wrong. -/
  | invalid (construct : Construct) (place : Position) (cause : Cause)
deriving DecidableEq

namespace SyntaxError

/-- The wording of a syntax error. -/
def message : SyntaxError → String
  | unknownToken place => "unknown token at " ++ place.display
  | invalid construct place cause =>
      "invalid " ++ construct.label ++ " at " ++ place.display ++ " cause " ++ cause.message

end SyntaxError

end XmlOutline
