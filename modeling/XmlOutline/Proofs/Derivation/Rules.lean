import XmlOutline.Document.Parser
import XmlOutline.Proofs.Spans.Hulls

/-!
# The grammar of documents

A document is a prolog, one element and an epilog, written as rules over sequences
of tokens.  Each rule says which tokens it takes and which nodes they are read as,
so a derivation determines a tree.  The rules know no stage and no stack; that the
builder of `Document.parse` accepts what they derive, and reads it as they do, is
shown in the modules that follow.

Two rules leave text out: blank text around the root element is never kept, and
blank text in an element only if the options say so.  The span of an element with
several tags, and of a document type declaration with a subset, is put together by
`Span.through`.
-/

namespace XmlOutline

/-- The piece of source from the start of one span to the end of another. -/
def Span.through (source : Text) (first last : Span) : Span :=
  ⟨(source.slice? first.start last.stop).getD [], first.start⟩

/-- What a document type declaration may hold without leaving a trace. -/
def Token.isIgnoredInSubset : Token → Bool
  | entity _ => true
  | comment _ _ => true
  | instruction _ _ _ => true
  | _ => false

/-- The run of text is kept in elements. -/
def ParseOptions.Keeps (options : ParseOptions) (run : Span) : Prop :=
  options.keepWhitespace = true ∨ Text.isBlank run.text = false

instance (options : ParseOptions) (run : Span) : Decidable (options.Keeps run) :=
  inferInstanceAs (Decidable (_ ∨ _))

mutual

/-- The tokens of one element, and the node they are read as. -/
inductive ElementTokens (source : Text) (options : ParseOptions) : List Token → Node → Prop where
  /-- `<name attribute … />` -/
  | empty (first : Span) (name : Name) (attributes : List Attribute) (last : Span) :
      ElementTokens source options
        (.tagStart first name :: (attributes.map .tagAttribute ++ [.emptyTagEnd last]))
        (.element (.through source first last) name attributes [])
  /-- `<name attribute … >content</closing>` -/
  | closed (first : Span) (name : Name) (attributes : List Attribute) (tagEnd : Span)
      {content : List Token} {children : List Node} (last : Span) {closing : Name}
      (hname : (name == closing) = true)
      (hcontent : ContentTokens source options content children) :
      ElementTokens source options
        (.tagStart first name :: (attributes.map .tagAttribute ++
          .tagEnd tagEnd :: (content ++ [.closeTag last closing])))
        (.element (.through source first last) name attributes children)

/-- The tokens between the tags of an element, and the children they are read as. -/
inductive ContentTokens (source : Text) (options : ParseOptions) :
    List Token → List Node → Prop where
  | nil : ContentTokens source options [] []
  | element {first rest : List Token} {node : Node} {nodes : List Node}
      (hfirst : ElementTokens source options first node)
      (hrest : ContentTokens source options rest nodes) :
      ContentTokens source options (first ++ rest) (node :: nodes)
  | text {run : Span} {rest : List Token} {nodes : List Node} (hkeeps : options.Keeps run)
      (hrest : ContentTokens source options rest nodes) :
      ContentTokens source options (.text run :: rest) (.text run run :: nodes)
  | blank {run : Span} {rest : List Token} {nodes : List Node} (hblank : ¬options.Keeps run)
      (hrest : ContentTokens source options rest nodes) :
      ContentTokens source options (.text run :: rest) nodes
  | cdata (span content : Span) {rest : List Token} {nodes : List Node}
      (hrest : ContentTokens source options rest nodes) :
      ContentTokens source options (.cdata span content :: rest) (.cdata span content :: nodes)
  | comment (span content : Span) {rest : List Token} {nodes : List Node}
      (hrest : ContentTokens source options rest nodes) :
      ContentTokens source options (.comment span content :: rest) (.comment content :: nodes)
  | instruction (span target : Span) (content : Option Span) {rest : List Token}
      {nodes : List Node} (hrest : ContentTokens source options rest nodes) :
      ContentTokens source options (.instruction span target content :: rest)
        (.instruction span target content :: nodes)

end

/-- The tokens before the root element, and the nodes they are read as. -/
inductive PrologTokens (source : Text) : List Token → List Node → Prop where
  | nil : PrologTokens source [] []
  /-- A declaration comes before all nodes. -/
  | declaration {before : List Token} (span : Span) (hbefore : PrologTokens source before []) :
      PrologTokens source (before ++ [.declaration span]) []
  | comment {before : List Token} {nodes : List Node} (span content : Span)
      (hbefore : PrologTokens source before nodes) :
      PrologTokens source (before ++ [.comment span content]) (nodes ++ [.comment content])
  | instruction {before : List Token} {nodes : List Node} (span target : Span)
      (content : Option Span) (hbefore : PrologTokens source before nodes) :
      PrologTokens source (before ++ [.instruction span target content])
        (nodes ++ [.instruction span target content])
  | doctype {before : List Token} {nodes : List Node} (span : Span)
      (hbefore : PrologTokens source before nodes) :
      PrologTokens source (before ++ [.doctype span])
        (nodes ++ [.unsupported span .documentType])
  | subset {before inner : List Token} {nodes : List Node} (first last : Span)
      (hbefore : PrologTokens source before nodes)
      (hinner : ∀ token ∈ inner, token.isIgnoredInSubset = true) :
      PrologTokens source (before ++ (.subsetOpen first :: (inner ++ [.subsetClose last])))
        (nodes ++ [.unsupported (.through source first last) .documentType])
  | blank {before : List Token} {nodes : List Node} {run : Span}
      (hbefore : PrologTokens source before nodes) (hblank : Text.isBlank run.text = true) :
      PrologTokens source (before ++ [.text run]) nodes

/-- The tokens behind the root element, and the nodes they are read as. -/
inductive EpilogTokens : List Token → List Node → Prop where
  | nil : EpilogTokens [] []
  | comment {before : List Token} {nodes : List Node} (span content : Span)
      (hbefore : EpilogTokens before nodes) :
      EpilogTokens (before ++ [.comment span content]) (nodes ++ [.comment content])
  | instruction {before : List Token} {nodes : List Node} (span target : Span)
      (content : Option Span) (hbefore : EpilogTokens before nodes) :
      EpilogTokens (before ++ [.instruction span target content])
        (nodes ++ [.instruction span target content])
  | blank {before : List Token} {nodes : List Node} {run : Span}
      (hbefore : EpilogTokens before nodes) (hblank : Text.isBlank run.text = true) :
      EpilogTokens (before ++ [.text run]) nodes

/-- The tokens of a whole document, and the nodes at its top level. -/
inductive DocumentTokens (source : Text) (options : ParseOptions) :
    List Token → List Node → Prop where
  | intro {before middle after : List Token} {nodes later : List Node} {root : Node}
      (hprolog : PrologTokens source before nodes)
      (hroot : ElementTokens source options middle root) (hepilog : EpilogTokens after later) :
      DocumentTokens source options (before ++ middle ++ after) (nodes ++ [root] ++ later)

/-! ## Spans put together -/

variable {source : Text} {first last whole : Span}

/-- The slice from the start of one span to the end of another goes through both. -/
theorem Span.IsSliceOf.through_eq (h : whole.IsSliceOf source) (hstart : whole.start = first.start)
    (hstop : whole.stop = last.stop) : Span.through source first last = whole := by
  have hslice : source.slice? first.start last.stop = some whole.text := by
    rw [← hstart, ← hstop]
    exact h
  rw [Span.through, hslice, ← hstart]
  rfl

/-- The span that covers two pieces of source that follow one another goes through
from the first to the last. -/
theorem Span.hull?_of_le (hfirst : first.IsSliceOf source) (hlast : last.IsSliceOf source)
    (horder : first.stop ≤ last.start) :
    Span.hull? source first last = some (.through source first last) := by
  obtain ⟨whole, hwhole, hslice, hstart, hstop⟩ := hfirst.exists_hull? hlast
  have : first.start ≤ first.stop := Nat.le_add_right _ _
  have : last.start ≤ last.stop := Nat.le_add_right _ _
  rw [hwhole, hslice.through_eq (by omega) (by omega)]

/-- Of two pieces of source that follow one another, the piece that covers both is
a piece of source. -/
theorem Span.through_of_le (hfirst : first.IsSliceOf source) (hlast : last.IsSliceOf source)
    (horder : first.stop ≤ last.start) :
    (Span.through source first last).IsSliceOf source ∧
      (Span.through source first last).stop = last.stop := by
  obtain ⟨whole, hwhole, hslice, _, hstop⟩ := hfirst.exists_hull? hlast
  obtain rfl := Option.some.inj (hwhole.symm.trans (Span.hull?_of_le hfirst hlast horder))
  have : last.start ≤ last.stop := Nat.le_add_right _ _
  exact ⟨hslice, by omega⟩

end XmlOutline
