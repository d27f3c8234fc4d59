import XmlOutline.Proofs.Reading.Markup
import XmlOutline.Token.Stream

/-!
# How tokens are spelled

`Token.Spelled` says of a token alone that its parts are what its text holds, at
the offsets where they stand in it.  Every token that a step of a token stream
yields is spelled, and the step reads the text of the token, with a gap of spaces
before it if the token stands in a start tag (`TokenStream.spelled_of_step`).

Which tokens can come in which region is `Token.mayStandIn`.  A step that yields no
token reads spaces, or a declaration in a subset (`TokenStream.skipped_of_step`).
Together with the region that follows (`TokenStream.step_eq_ok_iff`) this is all
that later proofs need to know of a step.
-/

namespace XmlOutline

open CharClass Scanner

/-- The text is a declaration `<?xml … ?>`. -/
def Text.IsDeclaration (word : Text) : Prop :=
  ∃ start stop token, Grammar.declaration start = .ok (token, stop) ∧ start.Reads word stop

namespace Token

/-- The parts of a token are what its text holds.  Of the parts of a document type
declaration nothing is said. -/
inductive Spelled : Token → Prop where
  | declaration {span : Span} (hword : span.text.IsDeclaration) : Spelled (.declaration span)
  | instruction {start : Nat} {target gap content : Text} (htarget : target.IsName)
      (hgap : gap.IsSpaces) (hcontent : content.IsInstructionContent)
      (hbehind : (gap ++ content).head?.any isNameChar = false) :
      Spelled (.instruction ⟨"<?".toList ++ target ++ gap ++ content ++ "?>".toList, start⟩
        ⟨target, start + 2⟩ (some ⟨content, start + 2 + target.size + gap.size⟩
          |>.filter fun span => !span.text.isEmpty))
  | comment {start : Nat} {content : Text} (hcontent : content.IsCommentContent) :
      Spelled (.comment ⟨"<!--".toList ++ content ++ "-->".toList, start⟩ ⟨content, start + 4⟩)
  | doctype (span : Span) : Spelled (.doctype span)
  | subsetOpen (span : Span) : Spelled (.subsetOpen span)
  | entity (span : Span) : Spelled (.entity span)
  | subsetClose (span : Span) : Spelled (.subsetClose span)
  | tagStart {start : Nat} {raw : Text} {name : Name} (hchars : raw.IsNameChars)
      (hname : Name.ofQualified? ⟨raw, start + 1⟩ = some name) :
      Spelled (.tagStart ⟨"<".toList ++ raw, start⟩ name)
  | tagAttribute {start : Nat} {raw before after value : Text} {name : Name} {quote : Char}
      (hchars : raw.IsNameChars) (hbefore : before.IsSpaces) (hafter : after.IsSpaces)
      (hquote : quote = '"' ∨ quote = '\'') (hvalue : value.IsAttributeValue quote)
      (hname : Name.ofQualified? ⟨raw, start⟩ = some name) :
      Spelled (.tagAttribute
        ⟨⟨raw ++ (before ++ [ '=' ] ++ after) ++ [quote] ++ value ++ [quote], start⟩, name,
          ⟨value, start + raw.size + Text.size (before ++ [ '=' ] ++ after) +
            Text.size [quote]⟩⟩)
  | tagEnd (start : Nat) : Spelled (.tagEnd ⟨[ '>' ], start⟩)
  | emptyTagEnd (start : Nat) : Spelled (.emptyTagEnd ⟨['/', '>'], start⟩)
  | closeTag {start : Nat} {raw gap : Text} {name : Name} (hchars : raw.IsNameChars)
      (hgap : gap.IsSpaces) (hname : Name.ofQualified? ⟨raw, start + 2⟩ = some name) :
      Spelled (.closeTag ⟨"</".toList ++ raw ++ gap ++ [ '>' ], start⟩ name)
  | text {run : Span} (hrun : run.text.IsCharacterData) (hne : run.text ≠ []) :
      Spelled (.text run)
  | cdata {start : Nat} {content : Text} (hcontent : content.IsSectionContent) :
      Spelled (.cdata ⟨"<![CDATA[".toList ++ content ++ "]]>".toList, start⟩
        ⟨content, start + 9⟩)

/-- The token is a run of text. -/
def isText : Token → Bool
  | text _ => true
  | _ => false

/-- The regions in which a token can come. -/
def mayStandIn (region : Region) : Token → Bool
  | declaration _ => region == .start
  | instruction _ _ _ => region != .tag
  | comment _ _ => region != .tag
  | doctype _ => region == .start || region == .beforeDoctype
  | subsetOpen _ => region == .start || region == .beforeDoctype
  | entity _ => region == .subset
  | subsetClose _ => region == .subset
  | tagStart _ _ =>
      region == .start || region == .beforeDoctype || region == .beforeRoot || region == .content
  | tagAttribute _ => region == .tag
  | tagEnd _ => region == .tag
  | emptyTagEnd _ => region == .tag
  | closeTag _ _ => region == .content
  | text _ => region == .content
  | cdata _ _ => region == .content

end Token

/-! ## Constructs that are kept as a whole -/

namespace Grammar

/-- A construct whose token has no parts: only what can become of its span is
known. -/
private theorem exists_of_lexeme {body : Scanner (Span → Token)} {start stop : Cursor}
    {token : Token} (property : (Span → Token) → Prop) (hadvances : Advances (lexeme body))
    (hreturns : Returns body property) (h : lexeme body start = .ok (token, stop)) :
    ∃ (word : Text) (make : Span → Token), start.Reads word stop ∧ property make ∧
      token = make ⟨word, start.offset⟩ := by
  obtain ⟨word, hreads, _⟩ := hadvances _ _ _ h
  obtain ⟨make, hbody, rfl⟩ := lexeme_eq_ok_iff.mp h
  exact ⟨word, make, hreads, hreturns _ _ _ hbody, by rw [hreads.spanTo]⟩

variable {start stop : Cursor} {token : Token}

theorem declaration_eq_ok (h : declaration start = .ok (token, stop)) :
    ∃ word : Text, word.IsDeclaration ∧ start.Reads word stop ∧
      token = .declaration ⟨word, start.offset⟩ := by
  obtain ⟨word, make, hreads, rfl, rfl⟩ := exists_of_lexeme (· = Token.declaration)
    advances_declaration (by
      repeat refine returns_bind fun _ => ?_
      exact returns_pure rfl) h
  exact ⟨word, ⟨start, stop, _, h, hreads⟩, hreads, rfl⟩

theorem doctype_eq_ok (h : doctype start = .ok (token, stop)) :
    ∃ word : Text, start.Reads word stop ∧
      (token = .doctype ⟨word, start.offset⟩ ∨ token = .subsetOpen ⟨word, start.offset⟩) := by
  obtain ⟨word, make, hreads, hmake, rfl⟩ := exists_of_lexeme
    (fun make => make = Token.doctype ∨ make = Token.subsetOpen) advances_doctype (by
      repeat refine returns_bind fun _ => ?_
      refine returns_pure ?_
      split
      · exact Or.inr rfl
      · exact Or.inl rfl) h
  rcases hmake with rfl | rfl
  · exact ⟨word, hreads, Or.inl rfl⟩
  · exact ⟨word, hreads, Or.inr rfl⟩

theorem entity_eq_ok (h : entity start = .ok (token, stop)) :
    ∃ word : Text, start.Reads word stop ∧ token = .entity ⟨word, start.offset⟩ := by
  obtain ⟨word, make, hreads, rfl, rfl⟩ := exists_of_lexeme (· = Token.entity)
    advances_entity (by
      repeat refine returns_bind fun _ => ?_
      exact returns_pure rfl) h
  exact ⟨word, hreads, rfl⟩

theorem subsetClose_eq_ok (h : subsetClose start = .ok (token, stop)) :
    ∃ word : Text, start.Reads word stop ∧ token = .subsetClose ⟨word, start.offset⟩ := by
  obtain ⟨word, make, hreads, rfl, rfl⟩ := exists_of_lexeme (· = Token.subsetClose)
    advances_subsetClose (by
      repeat refine returns_bind fun _ => ?_
      exact returns_pure rfl) h
  exact ⟨word, hreads, rfl⟩

end Grammar

namespace Opening

/-- In which regions a construct can start. -/
def mayStartIn (region : Region) : Opening → Bool
  | declaration => region == .start
  | spaces => region != .content && region != .tag
  | comment => region != .tag
  | instruction => region != .tag
  | doctype => region == .start || region == .beforeDoctype
  | entity => region == .subset
  | ignoredDeclaration => region == .subset
  | subsetClose => region == .subset
  | tagStart =>
      region == .start || region == .beforeDoctype || region == .beforeRoot || region == .content
  | tagItem => region == .tag
  | closeTag => region == .content
  | cdata => region == .content
  | text => region == .content

theorem mayStartIn_of_opening? {region : Region} {cursor : Cursor} {opening : Opening}
    (h : region.opening? cursor = some opening) : opening.mayStartIn region = true := by
  have hafter {opening : Opening} (h : Region.openingAfterRoot? cursor = some opening) :
      opening = .comment ∨ opening = .instruction ∨ opening = .spaces := by
    unfold Region.openingAfterRoot? at h
    grind
  have hbefore {opening : Opening} (h : Region.openingBeforeRoot? cursor = some opening) :
      opening = .comment ∨ opening = .instruction ∨ opening = .spaces ∨ opening = .tagStart := by
    unfold Region.openingBeforeRoot? at h
    grind
  cases region with
  | start =>
      simp only [Region.opening?, Region.openingBeforeDoctype?] at h
      grind [mayStartIn]
  | beforeDoctype =>
      simp only [Region.opening?, Region.openingBeforeDoctype?] at h
      grind [mayStartIn]
  | subset =>
      simp only [Region.opening?, Region.openingInSubset?] at h
      grind [mayStartIn]
  | beforeRoot =>
      simp only [Region.opening?] at h
      grind [mayStartIn]
  | content =>
      simp only [Region.opening?, Region.openingInContent?] at h
      grind [mayStartIn]
  | tag =>
      simp only [Region.opening?, Option.some.injEq] at h
      subst h
      rfl
  | afterRoot =>
      simp only [Region.opening?] at h
      grind [mayStartIn]

/-- A construct that leaves a token is read as the grammar says. -/
theorem map_some_eq_ok_iff {scanner : Scanner Token} {start stop : Cursor}
    {token? : Option Token} :
    (some <$> scanner) start = .ok (token?, stop) ↔
      ∃ token, scanner start = .ok (token, stop) ∧ token? = some token := by
  rw [map_eq_pure_bind, bind_eq_ok_iff]
  constructor
  · intro h
    obtain ⟨token, _, hscanner, hpure⟩ := h
    obtain ⟨rfl, rfl⟩ := pure_eq_ok_iff.mp hpure
    exact ⟨token, hscanner, rfl⟩
  · intro h
    obtain ⟨token, hscanner, rfl⟩ := h
    exact ⟨token, stop, hscanner, pure_eq_ok_iff.mpr ⟨rfl, rfl⟩⟩

/-- The construct leaves this token between two places.  In a start tag there may be
a gap before it.  A run of text goes on as far as it can. -/
structure Leaves (opening : Opening) (start : Cursor) (token : Token) (stop : Cursor) :
    Prop where
  spelled : token.Spelled
  mayStartIn_eq : ∀ region, opening.mayStartIn region = token.mayStandIn region
  behind_text : token.isText = true → stop.rest = [] ∨ stop.rest.head? = some '<'
  gap : ∃ gap : Text, gap.IsSpaces ∧ start.Reads (gap ++ token.span.text) stop ∧
    token.span.start = start.offset + gap.size ∧ (gap ≠ [] → opening = .tagItem)

/-- All but runs of text and the items of a start tag begin and end where they are
read. -/
theorem leaves_whole {opening : Opening} {start stop : Cursor} {token : Token}
    (hspelled : token.Spelled)
    (hregion : ∀ region, opening.mayStartIn region = token.mayStandIn region)
    (htext : token.isText = false) (hreads : start.Reads token.span.text stop)
    (hstart : token.span.start = start.offset) : opening.Leaves start token stop where
  spelled := hspelled
  mayStartIn_eq := hregion
  behind_text h := absurd (htext.symm.trans h) Bool.false_ne_true
  gap := ⟨[], Text.isSpaces_nil, hreads, hstart, fun h => absurd rfl h⟩

/-- Reading a construct that leaves a token reads the text of the token. -/
theorem leaves_of_scanner {opening : Opening} {start stop : Cursor} {token : Token}
    {word : Text} (hreads : start.Reads word stop) (hne : word ≠ [])
    (hrun : opening.scanner start = .ok (some token, stop)) :
    opening.Leaves start token stop := by
  cases opening with
  | spaces =>
      obtain ⟨_, _, _, hpure⟩ := bind_eq_ok_iff.mp hrun
      exact absurd (pure_eq_ok_iff.mp hpure).1 (by simp)
  | ignoredDeclaration =>
      obtain ⟨_, _, _, hpure⟩ := bind_eq_ok_iff.mp hrun
      exact absurd (pure_eq_ok_iff.mp hpure).1 (by simp)
  | declaration =>
      obtain ⟨_, hrun, heq⟩ := map_some_eq_ok_iff.mp hrun
      cases heq
      obtain ⟨word, hword, hreads, rfl⟩ := Grammar.declaration_eq_ok hrun
      exact leaves_whole (.declaration hword) (fun _ => rfl) rfl hreads rfl
  | comment =>
      obtain ⟨_, hrun, heq⟩ := map_some_eq_ok_iff.mp hrun
      cases heq
      obtain ⟨content, hcontent, hreads, rfl⟩ := Grammar.comment_eq_ok_iff.mp hrun
      exact leaves_whole (.comment hcontent) (fun _ => rfl) rfl hreads rfl
  | instruction =>
      obtain ⟨_, hrun, heq⟩ := map_some_eq_ok_iff.mp hrun
      cases heq
      obtain ⟨target, gap, content, htarget, hgap, hcontent, hbehind, hreads, rfl⟩ :=
        Grammar.instruction_eq_ok_iff.mp hrun
      exact leaves_whole (.instruction htarget hgap hcontent hbehind) (fun _ => rfl) rfl hreads rfl
  | doctype =>
      obtain ⟨_, hrun, heq⟩ := map_some_eq_ok_iff.mp hrun
      cases heq
      obtain ⟨word, hreads, rfl | rfl⟩ := Grammar.doctype_eq_ok hrun
      · exact leaves_whole (.doctype _) (fun _ => rfl) rfl hreads rfl
      · exact leaves_whole (.subsetOpen _) (fun _ => rfl) rfl hreads rfl
  | entity =>
      obtain ⟨_, hrun, heq⟩ := map_some_eq_ok_iff.mp hrun
      cases heq
      obtain ⟨word, hreads, rfl⟩ := Grammar.entity_eq_ok hrun
      exact leaves_whole (.entity _) (fun _ => rfl) rfl hreads rfl
  | subsetClose =>
      obtain ⟨_, hrun, heq⟩ := map_some_eq_ok_iff.mp hrun
      cases heq
      obtain ⟨word, hreads, rfl⟩ := Grammar.subsetClose_eq_ok hrun
      exact leaves_whole (.subsetClose _) (fun _ => rfl) rfl hreads rfl
  | tagStart =>
      obtain ⟨_, hrun, heq⟩ := map_some_eq_ok_iff.mp hrun
      cases heq
      obtain ⟨raw, name, hchars, hname, hreads, _, rfl⟩ := Grammar.tagStart_eq_ok_iff.mp hrun
      exact leaves_whole (.tagStart hchars hname) (fun _ => rfl) rfl hreads rfl
  | closeTag =>
      obtain ⟨_, hrun, heq⟩ := map_some_eq_ok_iff.mp hrun
      cases heq
      obtain ⟨raw, gap, name, hchars, hgap, hname, hreads, rfl⟩ :=
        Grammar.closeTag_eq_ok_iff.mp hrun
      exact leaves_whole (.closeTag hchars hgap hname) (fun _ => rfl) rfl hreads rfl
  | cdata =>
      obtain ⟨_, hrun, heq⟩ := map_some_eq_ok_iff.mp hrun
      cases heq
      obtain ⟨content, hcontent, hreads, rfl⟩ := Grammar.cdata_eq_ok_iff.mp hrun
      exact leaves_whole (.cdata hcontent) (fun _ => rfl) rfl hreads rfl
  | text =>
      obtain ⟨_, hrun, heq⟩ := map_some_eq_ok_iff.mp hrun
      cases heq
      obtain ⟨run, hdata, hreadRun, hbehind, rfl⟩ := Grammar.text_eq_ok_iff.mp hrun
      obtain ⟨rfl, _⟩ := hreads.eq_of_rest_eq hreadRun rfl
      exact ⟨.text hdata hne, fun _ => rfl, fun _ => hbehind,
        [], Text.isSpaces_nil, hreadRun, rfl, fun h => absurd rfl h⟩
  | tagItem =>
      obtain ⟨_, hrun, heq⟩ := map_some_eq_ok_iff.mp hrun
      cases heq
      obtain ⟨gap, middle, hgap, hreadGap, hitem⟩ := Grammar.tagItem_eq_ok_iff.mp hrun
      rcases hitem with ⟨hend, rfl⟩ | ⟨hend, rfl⟩ | ⟨_, hattribute⟩
      · exact ⟨.emptyTagEnd _, fun _ => rfl, fun h => Bool.noConfusion h, gap, hgap,
          hreadGap.trans hend, hreadGap.offset_eq, fun _ => rfl⟩
      · exact ⟨.tagEnd _, fun _ => rfl, fun h => Bool.noConfusion h, gap, hgap,
          hreadGap.trans hend, hreadGap.offset_eq, fun _ => rfl⟩
      · obtain ⟨raw, before, after, value, name, quote, hchars, hbefore, hafter, hquote, hvalue,
          hname, hread, rfl⟩ := Grammar.tagAttribute_eq_ok_iff.mp hattribute
        exact ⟨.tagAttribute hchars hbefore hafter hquote hvalue hname, fun _ => rfl,
          fun h => Bool.noConfusion h, gap, hgap, hreadGap.trans hread, hreadGap.offset_eq,
          fun _ => rfl⟩

/-- Reading a construct that leaves no token reads spaces, or a declaration in a
subset. -/
theorem skipped_of_scanner {opening : Opening} {start stop : Cursor}
    (hrun : opening.scanner start = .ok (none, stop)) :
    (opening = .spaces ∧ ∃ gap : Text, gap.IsSpaces ∧ start.Reads gap stop) ∨
      (opening = .ignoredDeclaration ∧ ∃ word : Text, start.Reads word stop) := by
  have hleaves {scanner : Scanner Token} (h : (some <$> scanner) start = .ok (none, stop)) :
      False := by
    obtain ⟨_, _, heq⟩ := map_some_eq_ok_iff.mp h
    exact absurd heq (by simp)
  cases opening with
  | spaces =>
      obtain ⟨_, _, hskip, hpure⟩ := bind_eq_ok_iff.mp hrun
      obtain ⟨_, rfl⟩ := pure_eq_ok_iff.mp hpure
      obtain ⟨gap, hgap, hreads, _⟩ := skipSpaces_eq_ok_iff.mp hskip
      exact Or.inl ⟨rfl, gap, hgap, hreads⟩
  | ignoredDeclaration =>
      obtain ⟨_, _, hskip, hpure⟩ := bind_eq_ok_iff.mp hrun
      obtain ⟨_, rfl⟩ := pure_eq_ok_iff.mp hpure
      obtain ⟨word, hreads, _⟩ := Grammar.advances_ignoredDeclaration _ _ _ hskip
      exact Or.inr ⟨rfl, word, hreads⟩
  | declaration => exact (hleaves hrun).elim
  | comment => exact (hleaves hrun).elim
  | instruction => exact (hleaves hrun).elim
  | doctype => exact (hleaves hrun).elim
  | entity => exact (hleaves hrun).elim
  | subsetClose => exact (hleaves hrun).elim
  | tagStart => exact (hleaves hrun).elim
  | tagItem => exact (hleaves hrun).elim
  | closeTag => exact (hleaves hrun).elim
  | cdata => exact (hleaves hrun).elim
  | text => exact (hleaves hrun).elim

end Opening

namespace TokenStream

variable {stream next : TokenStream} {token : Token}

/-- Behind a closing tag one element less is open. -/
theorem following_closeTag (region : Region) (depth : Nat) (span : Span) (name : Name) :
    following region (depth + 1) (some (.closeTag span name)) =
      (if depth = 0 then .afterRoot else .content, depth) := by
  have hlast : depth + 1 ≤ 1 ↔ depth = 0 := by omega
  show (if depth + 1 ≤ 1 then Region.afterRoot else .content, depth) = _
  simp only [hlast]

/-- What a step does: something starts there, it is read, and the region behind it
follows. -/
theorem step_eq_ok_iff {token? : Option Token} :
    stream.step = .ok (token?, next) ↔
      ∃ opening, stream.region.opening? stream.cursor = some opening ∧
        opening.scanner stream.cursor = .ok (token?, next.cursor) ∧
        following stream.region stream.depth token? = (next.region, next.depth) := by
  cases hopening : stream.region.opening? stream.cursor with
  | none => simp [step, hopening]
  | some opening =>
      cases hrun : opening.scanner stream.cursor with
      | error cause => simp [step, hopening, hrun]
      | ok result =>
          obtain ⟨found?, cursor⟩ := result
          obtain ⟨cursor', region, depth⟩ := next
          simp only [step, hopening, hrun, Except.ok.injEq, TokenStream.mk.injEq,
            Option.some.injEq, exists_eq_left', Prod.ext_iff]
          grind

/-- A step that yields a token reads its text, with a gap before it in a start tag. -/
theorem spelled_of_step (hrest : stream.cursor.rest ≠ [])
    (h : stream.step = .ok (some token, next)) :
    token.Spelled ∧ token.mayStandIn stream.region = true ∧
      ∃ gap : Text, gap.IsSpaces ∧
        stream.cursor.Reads (gap ++ token.span.text) next.cursor ∧
        token.span.start = stream.cursor.offset + gap.size ∧
        (gap ≠ [] → stream.region = .tag) := by
  obtain ⟨word, hreads, hne⟩ := reads_of_step hrest h
  obtain ⟨opening, hopening, hrun, _⟩ := step_eq_ok_iff.mp h
  have hmay := Opening.mayStartIn_of_opening? hopening
  obtain ⟨hspelled, hregion, _, gap, hgap, hread, hstart, htag⟩ :=
    Opening.leaves_of_scanner hreads hne hrun
  refine ⟨hspelled, by rw [← hregion, hmay], gap, hgap, hread, hstart, ?_⟩
  intro hgap
  rw [htag hgap] at hmay
  simpa [Opening.mayStartIn] using hmay

/-- But in a start tag a step reads nothing else. -/
theorem whole_of_step (hregion : stream.region ≠ .tag) (hrest : stream.cursor.rest ≠ [])
    (h : stream.step = .ok (some token, next)) :
    stream.cursor.Reads token.span.text next.cursor ∧
      token.span.start = stream.cursor.offset := by
  obtain ⟨_, _, gap, _, hreads, hstart, htag⟩ := spelled_of_step hrest h
  cases gap with
  | nil => exact ⟨hreads, hstart⟩
  | cons c gap => exact absurd (htag (List.cons_ne_nil c gap)) hregion

/-- Behind a run of text the text ends, or markup follows. -/
theorem behind_text_of_step {run : Span} (hrest : stream.cursor.rest ≠ [])
    (h : stream.step = .ok (some (.text run), next)) :
    next.cursor.rest = [] ∨ next.cursor.rest.head? = some '<' := by
  obtain ⟨word, hreads, hne⟩ := reads_of_step hrest h
  obtain ⟨opening, _, hrun, _⟩ := step_eq_ok_iff.mp h
  exact (Opening.leaves_of_scanner hreads hne hrun).behind_text rfl

/-- The name of a start tag is read as far as it goes. -/
theorem behind_tagStart_of_step {span : Span} {name : Name} (hrest : stream.cursor.rest ≠ [])
    (h : stream.step = .ok (some (.tagStart span name), next)) :
    next.cursor.rest.head?.any isNameChar = false := by
  obtain ⟨word, hreads, hne⟩ := reads_of_step hrest h
  obtain ⟨opening, _, hrun, _⟩ := step_eq_ok_iff.mp h
  -- nothing else leaves a token that can come before the root and not in a subset
  have hbefore := (Opening.leaves_of_scanner hreads hne hrun).mayStartIn_eq .beforeRoot
  have hsubset := (Opening.leaves_of_scanner hreads hne hrun).mayStartIn_eq .subset
  cases opening with
  | tagStart =>
      obtain ⟨_, hrun, _⟩ := Opening.map_some_eq_ok_iff.mp hrun
      obtain ⟨_, _, _, _, _, hbehind, _⟩ := Grammar.tagStart_eq_ok_iff.mp hrun
      exact hbehind
  | spaces | comment | instruction => cases hsubset
  | _ => cases hbefore

/-- A step that yields no token reads spaces, unless it is in a subset, and it is
never in an element. -/
theorem skipped_of_step (h : stream.step = .ok (none, next)) :
    stream.region ≠ .content ∧ stream.region ≠ .tag ∧
      ∃ word : Text, stream.cursor.Reads word next.cursor ∧
        (word.IsSpaces ∨ stream.region = .subset) := by
  obtain ⟨opening, hopening, hrun, _⟩ := step_eq_ok_iff.mp h
  have hmay := Opening.mayStartIn_of_opening? hopening
  rcases Opening.skipped_of_scanner hrun with ⟨rfl, gap, hgap, hreads⟩ | ⟨rfl, word, hreads⟩
  · simp only [Opening.mayStartIn, Bool.and_eq_true, bne_iff_ne] at hmay
    exact ⟨hmay.1, hmay.2, gap, hreads, Or.inl hgap⟩
  · simp only [Opening.mayStartIn, beq_iff_eq] at hmay
    rw [hmay]
    exact ⟨by decide, by decide, word, hreads, Or.inr rfl⟩

end TokenStream

end XmlOutline
