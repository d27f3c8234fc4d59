import XmlOutline.Document.Format
import XmlOutline.Layout.Lemmas
import XmlOutline.Proofs.Outline.OwnLines

/-!
# The lines of documents

A document without unsupported nodes is written as the lines that the recursion on its
tree describes, at whatever indentation and in whatever style.  A style may well turn a
line into a blank one, and such lines are left out at both ends (`IsTrimmed`).  As many
are left out there as can be, and in between none is.

A document with an unsupported node is not written at all, and the first such node in
document order is the error, however deep it stands.

Main statements: `Document.toLines_of_supported` and `Document.toLines_fails_iff`.
-/

namespace XmlOutline

/-! ## Blank texts at both ends -/

/-- These texts are kept if the blank ones are left out at both ends. -/
structure IsTrimmed (texts kept : List Text) : Prop where
  /-- Only blank texts are left out, before and behind what is kept. -/
  split : ∃ before after : List Text, texts = before ++ kept ++ after ∧
    (∀ text ∈ before, Text.isBlank text = true) ∧ ∀ text ∈ after, Text.isBlank text = true
  /-- The first text kept is not blank. -/
  first : ∀ text ∈ kept.head?, Text.isBlank text = false
  /-- The last text kept is not blank. -/
  last : ∀ text ∈ kept.getLast?, Text.isBlank text = false

private theorem isBlank_of_mem_takeWhile {texts : List Text} :
    ∀ text ∈ texts.takeWhile Text.isBlank, Text.isBlank text = true :=
  List.all_eq_true.mp List.all_takeWhile

theorem isTrimmed_dropBlankEnds (texts : List Text) : IsTrimmed texts (dropBlankEnds texts) := by
  unfold dropBlankEnds
  generalize hfront : (texts.reverse.dropWhile Text.isBlank).reverse = front
  have hback : texts = front ++ (texts.reverse.takeWhile Text.isBlank).reverse := by
    rw [← hfront, ← List.reverse_append, List.takeWhile_append_dropWhile, List.reverse_reverse]
  have hsplit : front.takeWhile Text.isBlank ++ front.dropWhile Text.isBlank = front :=
    List.takeWhile_append_dropWhile
  refine ⟨⟨front.takeWhile Text.isBlank, (texts.reverse.takeWhile Text.isBlank).reverse, ?_,
    isBlank_of_mem_takeWhile, fun text htext => ?_⟩, head?_dropWhile, fun text htext => ?_⟩
  · rw [hsplit]
    exact hback
  · exact isBlank_of_mem_takeWhile text (List.mem_reverse.mp htext)
  · -- what is kept ends as `front` does
    have hlast : front.getLast? = some text := by
      rw [← hsplit, List.getLast?_append, Option.mem_def.mp htext, Option.some_or]
    rw [← hfront, List.getLast?_reverse] at hlast
    exact head?_dropWhile text hlast

theorem IsTrimmed.dropBlankEnds_eq {texts kept : List Text} (h : IsTrimmed texts kept) :
    dropBlankEnds texts = kept := by
  obtain ⟨before, after, rfl, hbefore, hafter⟩ := h.split
  have hreverse : (before ++ kept ++ after).reverse.dropWhile Text.isBlank =
      (before ++ kept).reverse.dropWhile Text.isBlank := by
    rw [List.reverse_append]
    exact List.dropWhile_append_of_pos fun text htext => hafter text (List.mem_reverse.mp htext)
  unfold dropBlankEnds
  rw [hreverse]
  cases hkept : kept.getLast? with
  | none =>
      have hnil : (before ++ []).reverse.dropWhile Text.isBlank = [] := by
        rw [List.append_nil, ← List.append_nil before.reverse]
        exact List.dropWhile_append_of_pos fun text htext =>
          hbefore text (List.mem_reverse.mp htext)
      rw [List.getLast?_eq_none_iff.mp hkept, hnil]
      rfl
  | some text =>
      have hlast : ∀ text ∈ (before ++ kept).reverse.head?, Text.isBlank text = false := by
        rw [List.head?_reverse, List.getLast?_append, hkept, Option.some_or, ← hkept]
        exact h.last
      rw [dropWhile_eq_self hlast, List.reverse_reverse, List.dropWhile_append_of_pos hbefore,
        dropWhile_eq_self h.first]

/-- What is left when blank ends are dropped is determined by the texts alone. -/
theorem dropBlankEnds_eq_iff {texts kept : List Text} :
    dropBlankEnds texts = kept ↔ IsTrimmed texts kept := by
  constructor
  · intro h
    rw [← h]
    exact isTrimmed_dropBlankEnds texts
  · exact IsTrimmed.dropBlankEnds_eq

/-- Where no text is blank, none is left out. -/
theorem dropBlankEnds_eq_self {texts : List Text}
    (h : ∀ text ∈ texts, Text.isBlank text = false) : dropBlankEnds texts = texts := by
  refine dropBlankEnds_eq_iff.mpr ⟨⟨[], [], by simp, by simp, by simp⟩, ?_, ?_⟩
  · intro text htext
    exact h text (List.mem_of_head? htext)
  · intro text htext
    exact h text (List.mem_of_getLast? htext)

/-! ## Unsupported nodes -/

/-- The span and the kind of an unsupported node. -/
def Node.unsupported? : Node → Option (Span × UnsupportedKind)
  | unsupported span kind => some (span, kind)
  | _ => none

namespace Layout

mutual

theorem firstUnsupported?_eq_findSome? (node : Node) (depth : Nat) :
    firstUnsupported? node =
      (node.preorder depth).findSome? fun entry => entry.2.unsupported? :=
  match node with
  | .element span name attributes children => by
      unfold firstUnsupported? Node.preorder
      rw [firstUnsupportedList?_eq_findSome? children (depth + 1)]
      rfl
  | .text _ _ | .cdata _ _ | .comment _ | .instruction _ _ _ | .unsupported _ _ => rfl

/-- The first unsupported node is the first in document order. -/
theorem firstUnsupportedList?_eq_findSome? (nodes : List Node) (depth : Nat) :
    firstUnsupportedList? nodes =
      (Node.preorderList depth nodes).findSome? fun entry => entry.2.unsupported? :=
  match nodes with
  | [] => rfl
  | node :: rest => by
      unfold firstUnsupportedList? Node.preorderList
      rw [List.findSome?_append, firstUnsupported?_eq_findSome? node depth,
        firstUnsupportedList?_eq_findSome? rest depth]

end

/-- No node of the list is unsupported. -/
theorem forall_unsupported?_eq_none_iff {entries : List (Nat × Node)} :
    (∀ entry ∈ entries, entry.2.unsupported? = none) ↔
      ∀ here span kind, (here, .unsupported span kind) ∉ entries := by
  constructor
  · intro h here span kind hmem
    exact Option.some_ne_none _ (h _ hmem)
  · intro h entry hentry
    obtain ⟨here, node⟩ := entry
    cases node with
    | unsupported span kind => exact absurd hentry (h here span kind)
    | _ => rfl

theorem firstUnsupportedList?_eq_none_iff {nodes : List Node} (depth : Nat) :
    firstUnsupportedList? nodes = none ↔
      ∀ here span kind, (here, .unsupported span kind) ∉ Node.preorderList depth nodes := by
  rw [firstUnsupportedList?_eq_findSome? nodes depth, List.findSome?_eq_none_iff,
    forall_unsupported?_eq_none_iff]

/-- The first unsupported node stands somewhere in document order, and none stands before
it. -/
theorem firstUnsupportedList?_eq_some_iff {nodes : List Node} {span : Span}
    {kind : UnsupportedKind} (depth : Nat) :
    firstUnsupportedList? nodes = some (span, kind) ↔
      ∃ before here after,
        Node.preorderList depth nodes = before ++ (here, .unsupported span kind) :: after ∧
          ∀ here span kind, (here, .unsupported span kind) ∉ before := by
  rw [firstUnsupportedList?_eq_findSome? nodes depth, List.findSome?_eq_some_iff]
  constructor
  · intro h
    obtain ⟨before, ⟨here, node⟩, after, hsplit, hfound, hbefore⟩ := h
    obtain rfl : node = .unsupported span kind := by
      cases node with
      | unsupported span kind =>
          obtain ⟨rfl, rfl⟩ := Prod.mk.inj (Option.some.inj hfound)
          rfl
      | _ => cases hfound
    exact ⟨before, here, after, hsplit, forall_unsupported?_eq_none_iff.mp hbefore⟩
  · intro h
    obtain ⟨before, here, after, hsplit, hbefore⟩ := h
    exact ⟨before, _, after, hsplit, rfl, forall_unsupported?_eq_none_iff.mpr hbefore⟩

end Layout

/-! ## Documents -/

namespace Document

variable {document : Document} {indent : Text} {style : Style}

/-- Where no line comes out blank, none is left out. -/
theorem toLines_eq_of_not_blank
    (hshown : ∀ line ∈ Layout.outlineList 0 document.children,
      Text.isBlank (line.render indent style) = false) :
    document.toLines { indent, style } =
      match Layout.firstUnsupportedList? document.children with
      | some (span, kind) => .error (.located document.source span (.unsupportedNode kind))
      | none => .ok ((Layout.outlineList 0 document.children).map (Line.render indent style)) := by
  unfold toLines
  rw [Layout.lines_eq]
  cases Layout.firstUnsupportedList? document.children with
  | some error => rfl
  | none =>
      refine congrArg Except.ok (dropBlankEnds_eq_self fun text htext => ?_)
      obtain ⟨line, hline, rfl⟩ := List.mem_map.mp htext
      exact hshown line hline

/-- What goes wrong is settled by the first unsupported node alone. -/
theorem toLines_eq_error_iff {options : FormatOptions} {error : Error} :
    document.toLines options = .error error ↔
      ∃ span kind, Layout.firstUnsupportedList? document.children = some (span, kind) ∧
        error = .located document.source span (.unsupportedNode kind) := by
  unfold toLines
  rw [Layout.lines_eq]
  cases Layout.firstUnsupportedList? document.children with
  | none => simp
  | some first =>
      obtain ⟨span, kind⟩ := first
      constructor
      · intro h
        exact ⟨span, kind, rfl, (Except.error.inj h).symm⟩
      · intro h
        obtain ⟨_, _, hfirst, rfl⟩ := h
        obtain ⟨rfl, rfl⟩ := Prod.mk.inj (Option.some.inj hfirst)
        rfl

/-- A document cannot be written if and only if there is an unsupported node in it, at any
depth.  The error has the kind and the span of the one that comes first in document order,
and the source of the document; the indentation and the style make no difference. -/
theorem toLines_fails_iff (document : Document) (options : FormatOptions) :
    ((∃ error, document.toLines options = .error error) ↔
      ∃ depth span kind, (depth, .unsupported span kind) ∈ Node.preorderList 0 document.children) ∧
    (∀ error, document.toLines options = .error error ↔
      ∃ before depth span kind after,
        Node.preorderList 0 document.children =
          before ++ (depth, .unsupported span kind) :: after ∧
        (∀ depth span kind, (depth, .unsupported span kind) ∉ before) ∧
        error = ⟨.unsupportedNode kind, some ⟨document.source, span⟩⟩) ∧
    ∀ other error,
      document.toLines options = .error error ↔ document.toLines other = .error error := by
  refine ⟨⟨?_, ?_⟩, fun error => ⟨?_, ?_⟩, fun other error => ?_⟩
  · intro h
    obtain ⟨error, h⟩ := h
    obtain ⟨span, kind, hfirst, _⟩ := toLines_eq_error_iff.mp h
    obtain ⟨before, depth, after, hsplit, _⟩ :=
      (Layout.firstUnsupportedList?_eq_some_iff 0).mp hfirst
    exact ⟨depth, span, kind, by rw [hsplit]; simp⟩
  · intro h
    obtain ⟨depth, span, kind, hmem⟩ := h
    cases hfirst : Layout.firstUnsupportedList? document.children with
    | none => exact absurd hmem ((Layout.firstUnsupportedList?_eq_none_iff 0).mp hfirst _ _ _)
    | some first => exact ⟨_, toLines_eq_error_iff.mpr ⟨first.1, first.2, hfirst, rfl⟩⟩
  · intro h
    obtain ⟨span, kind, hfirst, herror⟩ := toLines_eq_error_iff.mp h
    obtain ⟨before, depth, after, hsplit, hbefore⟩ :=
      (Layout.firstUnsupportedList?_eq_some_iff 0).mp hfirst
    exact ⟨before, depth, span, kind, after, hsplit, hbefore, herror⟩
  · intro h
    obtain ⟨before, depth, span, kind, after, hsplit, hbefore, herror⟩ := h
    have hfirst := (Layout.firstUnsupportedList?_eq_some_iff 0).mpr
      ⟨before, depth, after, hsplit, hbefore⟩
    exact toLines_eq_error_iff.mpr ⟨span, kind, hfirst, herror⟩
  · exact toLines_eq_error_iff.trans toLines_eq_error_iff.symm

end Document

end XmlOutline
