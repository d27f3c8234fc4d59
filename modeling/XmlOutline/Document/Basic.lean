import XmlOutline.Node

/-!
# Documents

A document is a list of nodes together with the text that they were read from.
A document made by hand has the empty source.
-/

namespace XmlOutline

/-- The nodes at the top level, and the text that they were read from. -/
structure Document where
  children : List Node := []
  source : Text := []
deriving BEq

namespace Document

/-- The root element: the first element at the top level. -/
def root? (document : Document) : Option Node :=
  document.children.find? fun node => node.name?.isSome

end Document

end XmlOutline
