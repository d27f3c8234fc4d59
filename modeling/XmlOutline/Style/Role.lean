import XmlOutline.Text.Basic

/-!
# Roles

Every piece of an outline plays one of sixteen roles, by the kind of node that
it belongs to and by what it is there: a name, data, or the signs around them.
-/

namespace XmlOutline

/-- What a piece of an outline is. -/
inductive Role where
  /-- `ns` in `ns:name="value"`. -/
  | attributeNamespacePrefix
  /-- `name` in `ns:name="value"`. -/
  | attributeNodeName
  /-- The colon, `="` and `"` of an attribute. -/
  | attributeSyntax
  /-- `value` in `name="value"`. -/
  | attributeValue
  /-- The content of a CDATA section. -/
  | cdataData
  /-- `<![CDATA[` and `]]>`. -/
  | cdataSyntax
  /-- The content of a comment. -/
  | commentData
  /-- `<!--` and `-->`. -/
  | commentSyntax
  /-- `ns` in `<ns:name>`. -/
  | elementNamespacePrefix
  /-- `name` in `<ns:name>`. -/
  | elementNodeName
  /-- The signs around the name of an element. -/
  | elementSyntax
  /-- `data` in `<?target data?>`. -/
  | processingInstructionData
  /-- `target` in `<?target data?>`. -/
  | processingInstructionName
  /-- `<?`, the space before the data, and `?>`. -/
  | processingInstructionSyntax
  /-- A run of text. -/
  | textData
  /-- The quotes around a run of text. -/
  | textSyntax
deriving DecidableEq

namespace Role

/-- All roles, in the order of their declaration. -/
def all : List Role :=
  [attributeNamespacePrefix, attributeNodeName, attributeSyntax, attributeValue,
    cdataData, cdataSyntax, commentData, commentSyntax,
    elementNamespacePrefix, elementNodeName, elementSyntax,
    processingInstructionData, processingInstructionName, processingInstructionSyntax,
    textData, textSyntax]

/-- The name that describes the role in a list of overrides. -/
def name : Role → String
  | attributeNamespacePrefix => "attributeNamespacePrefix"
  | attributeNodeName => "attributeNodeName"
  | attributeSyntax => "attributeSyntax"
  | attributeValue => "attributeValue"
  | cdataData => "cdataData"
  | cdataSyntax => "cdataSyntax"
  | commentData => "commentData"
  | commentSyntax => "commentSyntax"
  | elementNamespacePrefix => "elementNamespacePrefix"
  | elementNodeName => "elementNodeName"
  | elementSyntax => "elementSyntax"
  | processingInstructionData => "processingInstructionData"
  | processingInstructionName => "processingInstructionName"
  | processingInstructionSyntax => "processingInstructionSyntax"
  | textData => "textData"
  | textSyntax => "textSyntax"

/-- The role of a given name. -/
def ofName? (text : Text) : Option Role := all.find? fun role => role.name.toList == text

theorem ofName?_name (role : Role) : ofName? role.name.toList = some role := by
  cases role <;> decide

/-- A text names a role exactly if it is the name of that role. -/
theorem ofName?_eq_some_iff {text : Text} {role : Role} :
    ofName? text = some role ↔ text = role.name.toList := by
  constructor
  · intro h
    have := List.find?_some h
    exact (beq_iff_eq.mp this).symm
  · rintro rfl
    exact ofName?_name role

end Role

end XmlOutline
