import XmlOutline.Proofs.Stripping.Documents

/-!
# The plain output as one text

The plain output is made of lines, but it is read again as one text, in which an
element goes on over many lines.  `Layout.written` describes that text by recursion
on the tree.  Every node but the first comes after a line feed and its indentation
(`Layout.feed`), and so does a closing tag.

Main statement: `Document.feed_toPretty`, which says that with a line feed before it
the plain output is what the recursion describes.
-/

namespace XmlOutline

namespace Layout

/-- What separates a piece of output from the one before it. -/
def feed (indent : Text) (depth : Nat) : Text := '\n' :: Text.times depth indent

/-- An attribute, with the space before it. -/
def writtenAttribute (attr : Attribute) : Text :=
  ' ' :: (attr.name.display ++ ['=', '"'] ++ attr.value.text ++ ['"'])

/-- A start tag without its end. -/
def writtenStart (name : Name) (attributes : List Attribute) : Text :=
  '<' :: (name.display ++ (attributes.map writtenAttribute).flatten)

/-- A text between two markers. -/
def writtenContent (first last : String) (content : Text) : Text :=
  first.toList ++ content ++ last.toList

/-- An instruction. -/
def writtenInstruction (target : Text) (content : Option Text) : Text :=
  ['<', '?'] ++ target ++ (if (content.getD []).isEmpty then [] else ' ' :: content.getD []) ++
    ['?', '>']

mutual

/-- The output for a node that stands at a depth.  An unsupported node has none. -/
def written (indent : Text) (depth : Nat) : Node → Text
  | .element _ name attributes [] => writtenStart name attributes ++ [' ', '/', '>']
  | .element _ name attributes (child :: children) =>
      writtenStart name attributes ++ [ '>' ] ++
        (feed indent (depth + 1) ++ written indent (depth + 1) child ++
          writtenList indent (depth + 1) children) ++
        feed indent depth ++ (['<', '/'] ++ name.display ++ [ '>' ])
  | .text _ content => writtenContent "\"" "\"" content.text
  | .cdata _ content => writtenContent "<![CDATA[" "]]>" content.text
  | .comment content => writtenContent "<!--" "-->" content.text
  | .instruction _ target content => writtenInstruction target.text (content.map Span.text)
  | .unsupported _ _ => []

/-- The output for siblings, each after a line feed. -/
def writtenList (indent : Text) (depth : Nat) : List Node → Text
  | [] => []
  | node :: rest =>
      feed indent depth ++ written indent depth node ++ writtenList indent depth rest

end

/-! ## Lines without decoration -/

/-- Pieces in the plain style. -/
def plainText (pieces : List Piece) : Text := (pieces.map (Piece.render .plain)).flatten

/-- A line in the plain style, after a line feed. -/
def fed (indent : Text) (line : Line) : Text := '\n' :: line.render indent .plain

theorem fed_eq (indent : Text) (depth : Nat) (pieces : List Piece) :
    fed indent ⟨depth, pieces⟩ = feed indent depth ++ plainText pieces := rfl

theorem plainText_nil : plainText [] = [] := rfl

theorem plainText_gap (pieces : List Piece) :
    plainText (.gap :: pieces) = ' ' :: plainText pieces := rfl

theorem plainText_token (role : Role) (text : Text) (pieces : List Piece) :
    plainText (.token role text :: pieces) = text ++ plainText pieces := by
  show Style.plain.paint role text ++ plainText pieces = _
  rw [Style.paint_plain]

theorem plainText_sign (role : Role) (text : String) (pieces : List Piece) :
    plainText (.sign role text :: pieces) = text.toList ++ plainText pieces :=
  plainText_token role text.toList pieces

theorem plainText_append (first second : List Piece) :
    plainText (first ++ second) = plainText first ++ plainText second := by
  simp [plainText]

theorem plainText_name (name : Name) (qualifierRole localRole colonRole : Role) :
    plainText (Line.namePieces name qualifierRole localRole colonRole) = name.display := by
  unfold Line.namePieces Name.display
  cases name.qualifier with
  | none => simp [plainText_token, plainText_nil]
  | some qualifier => simp [plainText_token, plainText_sign, plainText_nil]

theorem plainText_attributes (attributes : List Attribute) :
    plainText (attributes.map Line.attributePieces).flatten =
      (attributes.map writtenAttribute).flatten := by
  induction attributes with
  | nil => rfl
  | cons attr attributes ih =>
      have hattribute : plainText (Line.attributePieces attr) = writtenAttribute attr := by
        simp [Line.attributePieces, writtenAttribute, plainText_gap, plainText_append,
          plainText_name, plainText_token, plainText_sign, plainText_nil]
      rw [List.map_cons, List.flatten_cons, plainText_append, hattribute, ih, List.map_cons,
        List.flatten_cons]

theorem plainText_startTag (name : Name) (attributes : List Attribute) (hasChildren : Bool) :
    plainText (Line.startTag name attributes hasChildren) =
      writtenStart name attributes ++ (if hasChildren then [ '>' ] else [' ', '/', '>']) := by
  unfold Line.startTag Line.elementName
  rw [plainText_append, plainText_append, plainText_sign, plainText_name, plainText_attributes,
    plainText_sign, plainText_nil]
  cases hasChildren with
  | true => simp [writtenStart]
  | false => simp [writtenStart]

theorem plainText_closeTag (name : Name) :
    plainText (Line.closeTag name) = ['<', '/'] ++ name.display ++ [ '>' ] := by
  unfold Line.closeTag Line.elementName
  rw [plainText_append, plainText_sign, plainText_name, plainText_sign, plainText_nil]
  rfl

theorem plainText_content (role dataRole : Role) (first last : String) (content : Text) :
    plainText [.sign role first, .token dataRole content, .sign role last] =
      writtenContent first last content := by
  unfold writtenContent
  rw [plainText_sign, plainText_token, plainText_sign, plainText_nil, List.append_nil,
    List.append_assoc]

theorem plainText_instruction (target : Text) (content : Option Text) :
    plainText (Line.instruction target content) = writtenInstruction target content := by
  unfold Line.instruction writtenInstruction
  by_cases hempty : (content.getD []).isEmpty = true
  · simp [hempty, plainText_sign, plainText_token, plainText_nil]
  · simp [hempty, plainText_sign, plainText_token, plainText_nil]

/-! ## The recursion on the tree -/

mutual

theorem fed_outline (indent : Text) (node : Node) (hsupported : firstUnsupported? node = none)
    (depth : Nat) :
    ((outline depth node).map (fed indent)).flatten =
      feed indent depth ++ written indent depth node :=
  match node with
  | .element span name attributes [] => by
      rw [outline, List.map_singleton, List.flatten_singleton, fed_eq, plainText_startTag, written]
      rfl
  | .element span name attributes (child :: children) => by
      have hchildren := fed_outlineList indent (child :: children) hsupported (depth + 1)
      rw [outlineList, writtenList] at hchildren
      -- the lines of the children are those of a list one level deeper
      rw [outline, List.map_append, List.map_cons, List.map_singleton, List.flatten_append,
        List.flatten_cons, List.flatten_singleton, hchildren, fed_eq, fed_eq,
        plainText_startTag, plainText_closeTag, written]
      simp
  | .text span content => by
      rw [outline, List.map_singleton, List.flatten_singleton, fed_eq, written, Line.text,
        plainText_content]
  | .cdata span content => by
      rw [outline, List.map_singleton, List.flatten_singleton, fed_eq, written, Line.cdata,
        plainText_content]
  | .comment content => by
      rw [outline, List.map_singleton, List.flatten_singleton, fed_eq, written, Line.comment,
        plainText_content]
  | .instruction span target content => by
      rw [outline, List.map_singleton, List.flatten_singleton, fed_eq, written,
        plainText_instruction]
  | .unsupported span kind => nomatch hsupported

theorem fed_outlineList (indent : Text) (nodes : List Node)
    (hsupported : firstUnsupportedList? nodes = none) (depth : Nat) :
    ((outlineList depth nodes).map (fed indent)).flatten = writtenList indent depth nodes :=
  match nodes with
  | [] => rfl
  | node :: rest => by
      obtain ⟨hnode, hrest⟩ := Option.or_eq_none_iff.mp hsupported
      rw [outlineList, List.map_append, List.flatten_append, fed_outline indent node hnode,
        fed_outlineList indent rest hrest, writtenList]

end

end Layout

/-! ## Documents -/

/-- With a line feed before it, the first line is like all others. -/
theorem feed_intercalate {lines : List Text} (hne : lines ≠ []) :
    '\n' :: ['\n'].intercalate lines = (lines.map ('\n' :: ·)).flatten := by
  induction lines with
  | nil => exact absurd rfl hne
  | cons line lines ih =>
      cases lines with
      | nil => simp
      | cons next lines =>
          have hrest := ih (List.cons_ne_nil _ _)
          rw [List.intercalate_cons_cons, List.map_cons, List.flatten_cons, ← hrest]
          simp

theorem Document.feed_toPretty {document : Document} {indent out : Text}
    (hlawful : Node.AllList Node.Lawful document.children)
    (hpretty : document.toPretty { indent, style := Style.plain } = .ok out)
    (hne : document.children ≠ []) :
    Layout.firstUnsupportedList? document.children = none ∧
      '\n' :: out = Layout.writtenList indent 0 document.children := by
  unfold toPretty at hpretty
  rw [toLines_eq hlawful Style.isRemovable_plain] at hpretty
  cases hsupported : Layout.firstUnsupportedList? document.children with
  | some error =>
      rw [hsupported] at hpretty
      cases hpretty
  | none =>
      rw [hsupported] at hpretty
      obtain rfl := Except.ok.inj hpretty
      refine ⟨rfl, ?_⟩
      have hwritten := Layout.fed_outlineList indent _ hsupported 0
      rw [← hwritten, feed_intercalate]
      · rw [List.map_map]
        rfl
      · -- a document without lines would be written as nothing, but it has a node
        intro hnil
        rw [List.map_eq_nil_iff.mp hnil] at hwritten
        cases hchildren : document.children with
        | nil => exact hne hchildren
        | cons node rest =>
            rw [hchildren, Layout.writtenList] at hwritten
            cases hwritten

end XmlOutline
