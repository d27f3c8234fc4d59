import XmlOutline.Proofs.Derivation.Lawful
import XmlOutline.Proofs.Outline.Documents
import XmlOutline.Proofs.Stripping.Styles

/-!
# Decorated documents

The lines of a document that was read hold no escape character, since none can be
read, and each of them holds a sign that is not blank.  The first makes every line
strip to what it is without decoration.  The second makes sure that the lines that
are left out for being blank are the same with and without decoration: none.

Main statement: `Document.strip_toPretty`.
-/

namespace XmlOutline

open CharClass

/-! ## Texts without escape characters -/

namespace Text

variable {text : Text}

theorem IsXml.escape_notMem (h : text.IsXml) : Sgr.escape ∉ text := by
  intro hmem
  exact absurd (h _ hmem) (by decide)

theorem IsName.escape_notMem (h : text.IsName) : Sgr.escape ∉ text := by
  intro hmem
  exact absurd (h.1 _ hmem) (by decide)

end Text

/-! ## Lines -/

/-- No escape character is in the text of the piece. -/
def Piece.IsClean : Piece → Prop
  | token _ text => Sgr.escape ∉ text
  | gap => True

/-- A line that can be decorated and stripped again. -/
structure Line.IsClean (line : Line) : Prop where
  clean : ∀ piece ∈ line.pieces, piece.IsClean
  shows : ∃ piece ∈ line.pieces, piece.Shows

namespace Line

variable {line : Line} {style : Style} {indent : Text}

theorem IsClean.stripsTo_render (h : line.IsClean) (hstyle : style.IsRemovable)
    (hindent : Sgr.escape ∉ indent) :
    Sgr.StripsTo (line.render indent style) (line.render indent .plain) := by
  have htimes : Sgr.escape ∉ Text.times line.depth indent := by
    intro hmem
    obtain ⟨part, hpart, hmem⟩ := List.mem_flatten.mp hmem
    rw [List.eq_of_mem_replicate hpart] at hmem
    exact hindent hmem
  refine (Sgr.stripsTo_self htimes).append (Sgr.stripsTo_flatten fun piece hpiece => ?_)
  have hclean := h.clean piece hpiece
  cases piece with
  | token role text =>
      show Sgr.StripsTo (style.paint role text) (Style.plain.paint role text)
      rw [Style.paint_plain]
      exact hstyle.stripsTo_paint role hclean
  | gap =>
      have hspace : Sgr.escape ∉ [' '] := by decide
      exact Sgr.stripsTo_self hspace

/-- Decorated or not, the line is not blank. -/
theorem IsClean.not_blank (h : line.IsClean) (hstyle : style.IsRemovable) :
    Text.isBlank (line.render indent style) = false :=
  Line.Shows.not_blank h.shows hstyle.subset_paint

/-! ## The lines of a tree -/

private theorem clean_of_name {name : Name} (h : name.IsProper)
    {qualifierRole localRole colonRole : Role} :
    ∀ piece ∈ namePieces name qualifierRole localRole colonRole, piece.IsClean := by
  intro piece hpiece
  unfold namePieces at hpiece
  cases hqualifier : name.qualifier with
  | none =>
      rw [hqualifier] at hpiece
      obtain rfl := List.mem_singleton.mp hpiece
      exact h.localPart.1.escape_notMem
  | some qualifier =>
      rw [hqualifier] at hpiece
      simp only [List.mem_cons, List.not_mem_nil, or_false] at hpiece
      rcases hpiece with rfl | rfl | rfl
      · exact (h.qualifier qualifier hqualifier).1.escape_notMem
      · show Sgr.escape ∉ _
        decide
      · exact h.localPart.1.escape_notMem

/-- A sign is clean, and it shows. -/
private theorem isClean_of_signs {depth : Nat} {role : Role} {sign : String} {last : Piece}
    (inner : List Piece) (hsign : Sgr.escape ∉ sign.toList)
    (hshows : Text.isBlank sign.toList = false)
    (hinner : ∀ piece ∈ inner, piece.IsClean) (hlast : last.IsClean) :
    IsClean ⟨depth, .sign role sign :: inner ++ [last]⟩ where
  clean piece hpiece := by
    rcases List.mem_append.mp hpiece with hpiece | hpiece
    · rcases List.mem_cons.mp hpiece with rfl | hpiece
      · exact hsign
      · exact hinner piece hpiece
    · rw [List.mem_singleton.mp hpiece]
      exact hlast
  shows := by
    obtain ⟨c, hc, hblank⟩ := List.all_eq_false.mp hshows
    exact ⟨.sign role sign, by simp, c, hc, Bool.eq_false_iff.mpr hblank⟩

variable {depth : Nat} {name : Name} {attributes : List Attribute} {content : Text}

theorem isClean_startTag (hname : name.IsProper) (hattributes : ∀ attr ∈ attributes, attr.Lawful)
    (hasChildren : Bool) : IsClean ⟨depth, startTag name attributes hasChildren⟩ := by
  unfold startTag
  refine isClean_of_signs _ (by decide) (by decide) (fun piece hpiece => ?_) ?_
  · rcases List.mem_append.mp hpiece with hpiece | hpiece
    · exact clean_of_name hname piece hpiece
    · obtain ⟨_, hmap, hpiece⟩ := List.mem_flatten.mp hpiece
      obtain ⟨attr, hattr, rfl⟩ := List.mem_map.mp hmap
      obtain ⟨hproper, quote, hvalue⟩ := hattributes attr hattr
      simp only [attributePieces, List.mem_append, List.mem_cons, List.not_mem_nil,
        or_false] at hpiece
      rcases hpiece with (rfl | hpiece) | rfl | rfl | rfl
      · trivial
      · exact clean_of_name hproper piece hpiece
      · show Sgr.escape ∉ _
        decide
      · exact hvalue.isXml.escape_notMem
      · show Sgr.escape ∉ _
        decide
  · cases hasChildren with
    | true =>
        show Sgr.escape ∉ _
        decide
    | false =>
        show Sgr.escape ∉ _
        decide

theorem isClean_closeTag (hname : name.IsProper) : IsClean ⟨depth, closeTag name⟩ :=
  isClean_of_signs _ (by decide) (by decide) (clean_of_name hname)
    (show Sgr.escape ∉ _ by decide)

/-- A line of one text between two signs. -/
private theorem isClean_of_content {role dataRole : Role} {first last : String}
    (hfirst : Sgr.escape ∉ first.toList) (hshows : Text.isBlank first.toList = false)
    (hlast : Sgr.escape ∉ last.toList) (hcontent : content.IsXml) :
    IsClean ⟨depth, [.sign role first, .token dataRole content, .sign role last]⟩ := by
  refine isClean_of_signs [.token dataRole content] hfirst hshows ?_ hlast
  intro piece hpiece
  rw [List.mem_singleton.mp hpiece]
  exact hcontent.escape_notMem

theorem isClean_instruction {target : Text} {data : Option Text} (htarget : target.IsName)
    (hdata : ∀ content ∈ data, content.IsXml) : IsClean ⟨depth, instruction target data⟩ := by
  unfold instruction
  refine isClean_of_signs (.token .processingInstructionName target :: _) (by decide)
    (by decide) ?_ (show Sgr.escape ∉ _ by decide)
  intro piece hpiece
  rcases List.mem_cons.mp hpiece with rfl | hpiece
  · exact htarget.escape_notMem
  · split at hpiece
    · cases hpiece
    · cases data with
      | none => exact absurd rfl ‹_›
      | some content =>
          simp only [List.mem_cons, List.not_mem_nil, or_false] at hpiece
          rcases hpiece with rfl | rfl
          · show Sgr.escape ∉ _
            decide
          · exact (hdata content rfl).escape_notMem

end Line

/-- The lines of a node that was read are clean. -/
theorem Node.isClean_of_mem_ownLines {node : Node} (hnode : node.Lawful) {depth : Nat} :
    ∀ line ∈ node.ownLines depth, line.IsClean := by
  intro line hline
  cases node with
  | element span name attributes children =>
      obtain ⟨hname, hattributes⟩ := hnode
      cases children with
      | nil =>
          rw [List.mem_singleton.mp hline]
          exact Line.isClean_startTag hname hattributes false
      | cons child children =>
          simp only [ownLines, List.mem_cons, List.not_mem_nil, or_false] at hline
          rcases hline with rfl | rfl
          · exact Line.isClean_startTag hname hattributes true
          · exact Line.isClean_closeTag hname
  | text span content =>
      rw [List.mem_singleton.mp hline]
      exact Line.isClean_of_content (by decide) (by decide) (by decide) hnode.1.isXml
  | cdata span content | comment content =>
      rw [List.mem_singleton.mp hline]
      exact Line.isClean_of_content (by decide) (by decide) (by decide) hnode.isXml
  | instruction span target content =>
      obtain ⟨htarget, hcontent⟩ := hnode
      rw [List.mem_singleton.mp hline]
      refine Line.isClean_instruction htarget fun data hdata => ?_
      obtain ⟨content, hmem, rfl⟩ := Option.map_eq_some_iff.mp hdata
      exact (hcontent content hmem).1.isXml
  | unsupported span kind => cases hline

/-- All lines of nodes that were read are clean. -/
theorem Layout.isClean_of_allList (nodes : List Node) (hnodes : Node.AllList Node.Lawful nodes)
    (depth : Nat) : ∀ line ∈ outlineList depth nodes, line.IsClean :=
  forall_mem_outlineList fun entry hentry =>
    Node.isClean_of_mem_ownLines ((Node.allList_iff nodes depth).mp hnodes entry hentry)

/-! ## Documents -/

theorem Sgr.stripsTo_intercalate {α : Type} {separator : Text} {written text : α → Text}
    {items : List α} (hseparator : escape ∉ separator)
    (h : ∀ item ∈ items, StripsTo (written item) (text item)) :
    StripsTo (separator.intercalate (items.map written))
      (separator.intercalate (items.map text)) := by
  induction items with
  | nil => exact stripsTo_self List.not_mem_nil
  | cons item items ih =>
      have hitem := h item List.mem_cons_self
      cases items with
      | nil => simpa using hitem
      | cons next items =>
          have hitems := ih fun other hother => h other (List.mem_cons_of_mem _ hother)
          rw [List.map_cons, List.map_cons, List.map_cons, List.map_cons,
            List.intercalate_cons_cons, List.intercalate_cons_cons]
          exact (hitem.append (stripsTo_self hseparator)).append hitems

namespace Document

variable {source : Text} {options : ParseOptions} {document : Document} {style : Style}

/-- Of a document that was read, no line is left out for being blank. -/
theorem toLines_eq (hlawful : Node.AllList Node.Lawful document.children)
    (hstyle : style.IsRemovable) (indent : Text) :
    document.toLines { indent, style } =
      match Layout.firstUnsupportedList? document.children with
      | some (span, kind) => .error (.located document.source span (.unsupportedNode kind))
      | none => .ok ((Layout.outlineList 0 document.children).map (Line.render indent style)) :=
  toLines_eq_of_not_blank fun line hline =>
    (Layout.isClean_of_allList _ hlawful 0 line hline).not_blank hstyle

/-- For a document that was read, removing the control sequences from what is written
in a style gives what is written in the plain style, and where the one is an error so
is the other. -/
theorem strip_toPretty (hparse : Document.parse source options = .ok document)
    (hstyle : style.Reachable) (width : Nat) :
    Sgr.strip <$> document.toPretty (({ style } : FormatOptions).withIndentWidth width) =
      document.toPretty (({} : FormatOptions).withIndentWidth width) := by
  have hlawful := lawful_of_parse hparse
  have hremovable := hstyle.isRemovable
  have hindent : Sgr.escape ∉ List.replicate width ' ' := by
    intro hmem
    exact absurd (List.eq_of_mem_replicate hmem) (by decide)
  have hlines := toLines_eq hlawful hremovable (List.replicate width ' ')
  have hplainLines := toLines_eq hlawful Style.isRemovable_plain (List.replicate width ' ')
  show Sgr.strip <$> document.toPretty { indent := List.replicate width ' ', style } =
    document.toPretty { indent := List.replicate width ' ', style := Style.plain }
  unfold toPretty
  rw [hlines, hplainLines]
  cases Layout.firstUnsupportedList? document.children with
  | some error => rfl
  | none =>
      have hfeed : Sgr.escape ∉ ['\n'] := by decide
      have hstrips := Sgr.stripsTo_intercalate hfeed
        fun line hline => (Layout.isClean_of_allList _ hlawful 0 line hline).stripsTo_render
          hremovable hindent
      exact congrArg Except.ok hstrips.strip_eq

theorem strip_toPretty_overridden :
    ∃ (document : Document) (style : Style),
      Document.parse "<a b='c'>x<?y z?></a>".toList = .ok document ∧
      Style.decorated.withOverrides "textData=1;31: commentData=".toList = .ok style ∧
      Sgr.strip <$> document.toPretty (({ style } : FormatOptions).withIndentWidth 4) =
        document.toPretty (({} : FormatOptions).withIndentWidth 4) := by
  obtain ⟨document, hparse⟩ : ∃ document, Document.parse "<a b='c'>x<?y z?></a>".toList =
      .ok document := exists_eq_ok_of_isOk (by decide +kernel)
  obtain ⟨style, hstyle⟩ : ∃ style, Style.decorated.withOverrides
      "textData=1;31: commentData=".toList = .ok style := exists_eq_ok_of_isOk (by decide +kernel)
  exact ⟨document, style, hparse, hstyle,
    strip_toPretty hparse (.withOverrides _ .decorated hstyle) 4⟩

end Document

end XmlOutline
