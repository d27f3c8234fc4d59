import Mathlib.Data.List.Chain
import XmlOutline.Proofs.Outline.Documents
import XmlOutline.Proofs.Stripping.Styles

/-!
# Where pieces meet

A name or a text made by hand may hold anything, an unfinished control sequence too.
Stripping is then no longer done piece by piece: what one piece begins the next one may
finish, and decoration puts escape characters between them.

It does no harm, because in a line no two pieces of data stand side by side
(`Piece.Punctuated`).  What separates them are signs: they begin no control sequence,
and none goes on in them.  Neither does any in a control sequence that decoration puts
there, since an escape character cuts off whatever was begun before it
(`Sgr.strip_append_of_cutsOff`).

Main statement: `Document.strip_toLines`.
-/

namespace XmlOutline

/-! ## Cutting off what was begun -/

namespace Sgr

variable {text tail : Text}

/-- Characters that a control sequence goes on with once it has begun. -/
def isContinuation (c : Char) : Bool := c == '[' || isParameter c || c == 'm'

/-- No control sequence goes on into the text. -/
def CutsOff (text : Text) : Prop := ∀ c ∈ text.head?, isContinuation c = false

theorem cutsOff_cons {c : Char} (hc : isContinuation c = false) (rest : Text) :
    CutsOff (c :: rest) := by
  intro first hfirst
  rw [List.head?_cons, Option.mem_some_iff] at hfirst
  rw [← hfirst]
  exact hc

/-- Behind its escape character a control sequence is made of continuations. -/
theorem isContinuation_of_mem {parameters : Text} {c : Char}
    (hparameters : ∀ c ∈ parameters, isParameter c = true)
    (hc : c ∈ '[' :: parameters ++ ['m']) : isContinuation c = true := by
  unfold isContinuation
  rcases List.mem_append.mp hc with hc | hc
  · rcases List.mem_cons.mp hc with rfl | hc
    · rfl
    · simp [hparameters c hc]
  · rw [List.mem_singleton.mp hc]
    rfl

/-- What begins no complete sequence begins none together with a text that cuts off. -/
theorem dropSequence?_append_eq_none {c : Char} {rest : Text}
    (hnone : dropSequence? (c :: rest) = none) (hcut : CutsOff tail) :
    dropSequence? (c :: (rest ++ tail)) = none := by
  cases hdrop : dropSequence? (c :: (rest ++ tail)) with
  | none => rfl
  | some after =>
      exfalso
      obtain ⟨word, ⟨parameters, hparameters, rfl⟩, htext⟩ := dropSequence?_eq_some_iff.mp hdrop
      obtain ⟨rfl, hrest⟩ : c = escape ∧ rest ++ tail = '[' :: parameters ++ ['m'] ++ after :=
        List.cons.inj htext
      -- without `tail` the sequence is not complete
      have hincomplete (later : Text) : rest ≠ '[' :: parameters ++ ['m'] ++ later := by
        intro heq
        have hsome : dropSequence? (escape :: rest) = some later :=
          dropSequence?_eq_some_iff.mpr ⟨sequence parameters, ⟨parameters, hparameters, rfl⟩,
            congrArg (List.cons escape) heq⟩
        rw [hnone] at hsome
        cases hsome
      rcases List.append_eq_append_iff.mp hrest with ⟨between, hword, htail⟩ | ⟨later, hword, _⟩
      · cases between with
        | nil => exact hincomplete [] (by simpa using hword.symm)
        | cons d between =>
            have hcontinues : isContinuation d = true := by
              apply isContinuation_of_mem hparameters
              rw [hword]
              exact List.mem_append_right _ List.mem_cons_self
            rw [htail] at hcut
            exact Bool.false_ne_true ((hcut d rfl).symm.trans hcontinues)
      · exact hincomplete later hword

/-- In front of a text that cuts off, a text is stripped as if it were alone. -/
theorem strip_append_of_cutsOff (text : Text) (hcut : CutsOff tail) :
    strip (text ++ tail) = strip text ++ strip tail := by
  fun_induction strip text with
  | case1 text after hdrop _ ih =>
      obtain ⟨word, hword, rfl⟩ := dropSequence?_eq_some_iff.mp hdrop
      rw [List.append_assoc, strip_sequence_append hword, ih]
  | case2 => rfl
  | case3 c rest hnone ih =>
      have hnone' := dropSequence?_append_eq_none hnone hcut
      rw [List.cons_append, strip_cons_of_none hnone', ih, List.cons_append]

/-- The sequences around a text are removed, whatever the text holds. -/
theorem strip_wrap_append {parameters : Text}
    (hparameters : ∀ c ∈ parameters, isParameter c = true) (text tail : Text) :
    strip (wrap parameters text ++ tail) = strip text ++ strip tail := by
  have hreset : IsSequence (sequence ['0']) := ⟨['0'], by simp [isParameter], rfl⟩
  have hcut : CutsOff (sequence ['0'] ++ tail) := cutsOff_cons (by decide) _
  calc strip (wrap parameters text ++ tail)
      = strip (sequence parameters ++ (text ++ (sequence ['0'] ++ tail))) := by
        simp [wrap]
    _ = strip (text ++ (sequence ['0'] ++ tail)) :=
        strip_sequence_append ⟨parameters, hparameters, rfl⟩ _
    _ = strip text ++ strip (sequence ['0'] ++ tail) := strip_append_of_cutsOff text hcut
    _ = strip text ++ strip tail := by rw [strip_sequence_append hreset]

end Sgr

/-! ## Signs -/

namespace Piece

variable {piece : Piece} {pieces pieces' : List Piece} {style : Style}

/-- The piece begins no control sequence, and none goes on in it. -/
def isSign : Piece → Bool
  | token _ text => text.head?.any (fun c => !Sgr.isContinuation c) && !text.elem Sgr.escape
  | gap => true

/-- A sign is stripped to itself, whatever comes behind it. -/
theorem stripsTo_of_isSign (hsign : piece.isSign = true) (hstyle : style.IsRemovable) :
    Sgr.StripsTo (piece.render style) (piece.render .plain) := by
  cases piece with
  | token role text =>
      have hescape : Sgr.escape ∉ text := by
        simp only [isSign, Bool.and_eq_true, Bool.not_eq_true'] at hsign
        simpa using hsign.2
      show Sgr.StripsTo (style.paint role text) (Style.plain.paint role text)
      rw [Style.paint_plain]
      exact hstyle.stripsTo_paint role hescape
  | gap =>
      have hescape : Sgr.escape ∉ [' '] := by decide
      exact Sgr.stripsTo_self hescape

/-- A sign cuts off what was begun before it, decorated or not. -/
theorem cutsOff_of_isSign (hsign : piece.isSign = true) (hstyle : style.IsRemovable)
    (tail : Text) : Sgr.CutsOff (piece.render style ++ tail) := by
  cases piece with
  | token role text =>
      cases text with
      | nil => cases hsign
      | cons c rest =>
          show Sgr.CutsOff ((style.decoration role).apply (c :: rest) ++ tail)
          have hremovable := hstyle role
          cases hdecoration : style.decoration role with
          | identity =>
              apply Sgr.cutsOff_cons
              simp only [isSign, Bool.and_eq_true] at hsign
              simpa using hsign.1
          | sgr parameters => exact Sgr.cutsOff_cons (by decide) _
          | custom render =>
              rw [hdecoration] at hremovable
              exact hremovable.elim
  | gap => exact Sgr.cutsOff_cons (by decide) _

/-- In front of what cuts off, a piece of whatever text is stripped alike with and
without decoration. -/
theorem strip_render_append (piece : Piece) (hstyle : style.IsRemovable) {tail : Text}
    (hcut : Sgr.CutsOff tail) :
    Sgr.strip (piece.render style ++ tail) =
      Sgr.strip (piece.render .plain) ++ Sgr.strip tail := by
  cases piece with
  | token role text =>
      show Sgr.strip (style.paint role text ++ tail) =
        Sgr.strip (Style.plain.paint role text) ++ Sgr.strip tail
      rw [Style.paint_plain]
      cases text with
      | nil => simp [Style.paint]
      | cons c rest =>
          show Sgr.strip ((style.decoration role).apply (c :: rest) ++ tail) = _
          have hremovable := hstyle role
          cases hdecoration : style.decoration role with
          | identity => exact Sgr.strip_append_of_cutsOff (c :: rest) hcut
          | sgr parameters =>
              rw [hdecoration] at hremovable
              exact Sgr.strip_wrap_append hremovable (c :: rest) tail
          | custom render =>
              rw [hdecoration] at hremovable
              exact hremovable.elim
  | gap => exact Sgr.strip_append_of_cutsOff [' '] hcut

/-! ## Pieces with signs between them -/

/-- One of two neighbours is a sign. -/
def Parted (piece next : Piece) : Prop := piece.isSign = true ∨ next.isSign = true

/-- The pieces start with a sign, and no two pieces of data stand side by side. -/
structure Punctuated (pieces : List Piece) : Prop where
  first : ∀ piece ∈ pieces.head?, piece.isSign = true
  parted : pieces.IsChain Parted

theorem Punctuated.cons (hsign : piece.isSign = true) (hparted : pieces.IsChain Parted) :
    Punctuated (piece :: pieces) where
  first next hnext := by
    rw [List.head?_cons, Option.mem_some_iff] at hnext
    rw [← hnext]
    exact hsign
  parted := List.isChain_cons.mpr ⟨fun _ _ => Or.inl hsign, hparted⟩

theorem Punctuated.append (h : Punctuated pieces) (h' : Punctuated pieces') :
    Punctuated (pieces ++ pieces') where
  first piece hpiece := by
    cases pieces with
    | nil => exact h'.first piece hpiece
    | cons first rest => exact h.first piece hpiece
  parted := h.parted.append h'.parted fun _ _ next hnext => Or.inr (h'.first next hnext)

theorem Punctuated.flatten {lists : List (List Piece)} (h : ∀ list ∈ lists, Punctuated list) :
    Punctuated lists.flatten := by
  induction lists with
  | nil => exact ⟨by simp, .nil⟩
  | cons list lists ih =>
      rw [List.flatten_cons]
      exact (h list List.mem_cons_self).append
        (ih fun other hother => h other (List.mem_cons_of_mem _ hother))

theorem Punctuated.cutsOff (h : Punctuated pieces) (hstyle : style.IsRemovable) :
    Sgr.CutsOff (pieces.map (render style)).flatten := by
  cases pieces with
  | nil => exact fun _ hnone => nomatch hnone
  | cons piece rest =>
      rw [List.map_cons, List.flatten_cons]
      exact cutsOff_of_isSign (h.first piece rfl) hstyle _

/-- Pieces with signs between them are stripped alike with and without decoration. -/
theorem strip_flatten_of_parted (hstyle : style.IsRemovable) (hparted : pieces.IsChain Parted) :
    Sgr.strip (pieces.map (render style)).flatten =
      Sgr.strip (pieces.map (render .plain)).flatten := by
  induction pieces with
  | nil => rfl
  | cons piece rest ih =>
      obtain ⟨hnext, hrest⟩ := List.isChain_cons.mp hparted
      rw [List.map_cons, List.map_cons, List.flatten_cons, List.flatten_cons]
      by_cases hsign : piece.isSign = true
      · rw [stripsTo_of_isSign hsign hstyle, stripsTo_of_isSign hsign Style.isRemovable_plain,
          ih hrest]
      · -- behind data there is a sign, or nothing
        have hpunctuated : Punctuated rest :=
          ⟨fun next hmem => (hnext next hmem).resolve_left hsign, hrest⟩
        rw [strip_render_append piece hstyle (hpunctuated.cutsOff hstyle),
          strip_render_append piece Style.isRemovable_plain
            (hpunctuated.cutsOff Style.isRemovable_plain), ih hrest]

end Piece

/-! ## Lines -/

namespace Line

open Piece

variable {name : Name} {role dataRole : Role}

private theorem parted_namePieces {qualifierRole localRole colonRole : Role} :
    (namePieces name qualifierRole localRole colonRole).IsChain Parted := by
  have hcolon : (Piece.sign colonRole ":").isSign = true := rfl
  unfold namePieces
  cases name.qualifier with
  | none => exact .singleton _
  | some qualifier => exact .cons_cons (Or.inr hcolon) (.cons_cons (Or.inl hcolon) (.singleton _))

/-- One text between two signs. -/
private theorem punctuated_of_content {first last : String} {content : Text}
    (hfirst : (Piece.sign role first).isSign = true)
    (hlast : (Piece.sign role last).isSign = true) :
    Punctuated [.sign role first, .token dataRole content, .sign role last] :=
  .cons hfirst (.cons_cons (Or.inr hlast) (.singleton _))

private theorem punctuated_attributePieces (attr : Attribute) :
    Punctuated (attributePieces attr) := by
  have hname : Punctuated (.gap :: namePieces attr.name .attributeNamespacePrefix
      .attributeNodeName .attributeSyntax) := .cons rfl parted_namePieces
  exact hname.append (punctuated_of_content (by decide) (by decide))

theorem punctuated_startTag (attributes : List Attribute) (hasChildren : Bool) :
    Punctuated (startTag name attributes hasChildren) := by
  have hname : Punctuated (.sign .elementSyntax "<" :: elementName name) :=
    .cons (by decide) parted_namePieces
  have hattributes : Punctuated (attributes.map attributePieces).flatten := by
    apply Punctuated.flatten
    intro pieces hpieces
    obtain ⟨attr, _, rfl⟩ := List.mem_map.mp hpieces
    exact punctuated_attributePieces attr
  have hend : (Piece.sign .elementSyntax (if hasChildren then ">" else " />")).isSign = true := by
    cases hasChildren <;> decide
  exact (hname.append hattributes).append (.cons hend .nil)

theorem punctuated_closeTag : Punctuated (closeTag name) := by
  have hname : Punctuated (.sign .elementSyntax "</" :: elementName name) :=
    .cons (by decide) parted_namePieces
  exact hname.append (.cons (by decide) .nil)

theorem punctuated_instruction (target : Text) (content : Option Text) :
    Punctuated (instruction target content) := by
  have htarget : Punctuated [.sign .processingInstructionSyntax "<?",
      .token .processingInstructionName target] := .cons (by decide) (.singleton _)
  have hend : Punctuated [.sign .processingInstructionSyntax "?>"] := .cons (by decide) .nil
  dsimp only [instruction]
  split
  · exact htarget.append hend
  · exact htarget.append (punctuated_of_content (by decide) (by decide))

end Line

theorem Node.punctuated_of_mem_ownLines {node : Node} {depth : Nat} :
    ∀ line ∈ node.ownLines depth, Piece.Punctuated line.pieces := by
  intro line hline
  cases node with
  | element span name attributes children =>
      cases children with
      | nil =>
          rw [List.mem_singleton.mp hline]
          exact Line.punctuated_startTag attributes false
      | cons child children =>
          simp only [ownLines, List.mem_cons, List.not_mem_nil, or_false] at hline
          rcases hline with rfl | rfl
          · exact Line.punctuated_startTag attributes true
          · exact Line.punctuated_closeTag
  | text span content | cdata span content | comment content =>
      rw [List.mem_singleton.mp hline]
      exact Line.punctuated_of_content (by decide) (by decide)
  | instruction span target content =>
      rw [List.mem_singleton.mp hline]
      exact Line.punctuated_instruction _ _
  | unsupported span kind => cases hline

/-- The indentation too is cut off by the sign that a line starts with. -/
theorem Line.strip_render {line : Line} {style : Style} (h : Piece.Punctuated line.pieces)
    (hstyle : style.IsRemovable) (indent : Text) :
    Sgr.strip (line.render indent style) = Sgr.strip (line.render indent .plain) := by
  unfold render
  rw [Sgr.strip_append_of_cutsOff _ (h.cutsOff hstyle),
    Sgr.strip_append_of_cutsOff _ (h.cutsOff Style.isRemovable_plain),
    Piece.strip_flatten_of_parted hstyle h.parted]

/-! ## Documents -/

/-- Whatever a document and its indentation hold, its lines are as many with and without
decoration, and after removing the control sequences each is the same.  If the document
cannot be written in a style, the error does not depend on the style. -/
theorem Document.strip_toLines {style : Style} (hstyle : style.IsRemovable)
    (document : Document) (indent : Text) :
    List.map Sgr.strip <$> document.toLines { indent, style } =
      List.map Sgr.strip <$> document.toLines { indent, style := .plain } := by
  have hshown {style : Style} (hstyle : style.IsRemovable) :
      ∀ line ∈ Layout.outlineList 0 document.children,
        Text.isBlank (line.render indent style) = false :=
    Layout.forall_mem_outlineList fun entry _ line hline =>
      (Node.shows_of_mem_ownLines line hline).not_blank hstyle.subset_paint
  rw [toLines_eq_of_not_blank (hshown hstyle),
    toLines_eq_of_not_blank (hshown Style.isRemovable_plain)]
  cases Layout.firstUnsupportedList? document.children with
  | some error => rfl
  | none =>
      have hsame : ∀ line ∈ Layout.outlineList 0 document.children,
          Sgr.strip (line.render indent style) = Sgr.strip (line.render indent .plain) :=
        Layout.forall_mem_outlineList fun entry _ line hline =>
          line.strip_render (Node.punctuated_of_mem_ownLines line hline) hstyle indent
      show Except.ok _ = Except.ok _
      rw [List.map_map, List.map_map]
      exact congrArg Except.ok (List.map_congr_left hsame)

/-- Names, texts and the indentation begin control sequences here, and what follows them
could go on with these. -/
theorem Document.strip_toLines_unfinished :
    let name : Name := ⟨some ⟨"\x1b[".toList, 0⟩, ⟨"1;3".toList, 0⟩⟩
    let attr : Attribute := { name, value := ⟨"m\x1b[0".toList, 0⟩ }
    let document : Document := ⟨[.element {} name [attr] [.text {} ⟨"[2m\x1b".toList, 0⟩]], []⟩
    let style := (Style.decorated.update .textSyntax .identity).update .textData (.sgr [])
    let indent := "\x1b[3".toList
    style.IsRemovable ∧ (document.toLines { indent, style }).isOk = true ∧
      List.map Sgr.strip <$> document.toLines { indent, style } =
        List.map Sgr.strip <$> document.toLines { indent, style := .plain } := by
  intro name attr document style indent
  have hidentity : Decoration.identity.IsRemovable := trivial
  have hempty : (Decoration.sgr []).IsRemovable := by simp [Decoration.IsRemovable]
  have hstyle : style.IsRemovable :=
    (Style.isRemovable_decorated.update hidentity .textSyntax).update hempty .textData
  exact ⟨hstyle, by decide +kernel, Document.strip_toLines hstyle document indent⟩

end XmlOutline
