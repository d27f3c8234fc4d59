import XmlOutline.Proofs.Derivation.Slices

/-!
# The declaration

The token stream tells a declaration from an instruction by the word `<?xml` and the space
behind it.  Only at the very start this opens a declaration; in all other regions nothing
starts with it (`TokenStream.start_of_step`), and as the very start is left with the first
step (`TokenStream.Yields.eq_of_start`), such a text is no document.

A declaration leaves no node: what is read from the tokens behind it lies behind it.  But
another character than the space does not make it one.  Behind a tab, a line feed or a
carriage return, or with nothing behind the word at all, it is an instruction with the
target `xml`, and is kept as one (`Document.instruction_of_parse`).

Main statement: `Document.declaration_of_parse`.
-/

namespace XmlOutline

variable {source : Text} {options : ParseOptions} {tokens : List Token} {token : Token}
  {node : Node}

/-! ## What may start with a declaration's mark -/

/-- What a declaration starts with. -/
def Text.declarationMark : Text := ['<', '?', 'x', 'm', 'l', ' ']

namespace TokenStream

variable {start found next stop : TokenStream} {token? : Option Token}

/-- Where the mark stands, only the start tag and the very start have something to read. -/
theorem opening?_of_mark {cursor : Cursor} {region : Region} {opening : Opening}
    (hmark : Text.declarationMark <+: cursor.rest)
    (hopening : region.opening? cursor = some opening) :
    region = .tag ∨ region = .start ∧ opening = .declaration := by
  obtain ⟨rest, hrest⟩ := hmark
  have hcursor : cursor.rest = '<' :: '?' :: 'x' :: 'm' :: 'l' :: ' ' :: rest := hrest.symm
  have hnone : Region.openingAfterRoot? cursor = none := by
    simp [Region.openingAfterRoot?, Cursor.startsWith, hcursor]
  cases region with
  | start =>
      have hdeclaration : Region.opening? .start cursor = some .declaration := by
        simp [Region.opening?, Cursor.startsWith, hcursor]
      exact .inr ⟨rfl, Option.some.inj (hopening.symm.trans hdeclaration)⟩
  | tag => exact .inl rfl
  | beforeDoctype | beforeRoot | subset | content | afterRoot =>
      simp [Region.opening?, Region.openingBeforeDoctype?, Region.openingBeforeRoot?,
        Region.openingInSubset?, Region.openingInContent?, hnone, Cursor.startsWith,
        hcursor] at hopening

/-- No item of a start tag starts with markup. -/
theorem head?_ne_of_step (hregion : start.region = .tag) (hrest : start.cursor.rest ≠ [])
    (hstep : start.step = .ok (token?, next)) : start.cursor.rest.head? ≠ some '<' := by
  cases token? with
  | none => exact absurd hregion (skipped_of_step hstep).2.1
  | some token =>
      obtain ⟨hspelled, hmay, gap, hgap, hreads, _⟩ := spelled_of_step hrest hstep
      rw [hregion] at hmay
      rw [hreads.rest_eq]
      cases gap with
      | cons c gap =>
          intro hhead
          have hspace := hgap c List.mem_cons_self
          rw [Option.some.inj hhead] at hspace
          cases hspace
      | nil =>
          cases hspelled with
          | tagEnd | emptyTagEnd => simp [Token.span]
          | @tagAttribute _ raw _ _ _ _ _ hchars _ _ _ _ hname =>
              cases raw with
              | nil => exact absurd rfl (Name.ne_nil_of_ofQualified? hname)
              | cons c raw =>
                  intro hhead
                  have hchar := hchars c List.mem_cons_self
                  rw [Option.some.inj hhead] at hchar
                  cases hchar
          | _ => cases hmay

/-- Where the mark stands, something can be read only at the very start, and it is a
declaration. -/
theorem start_of_step (hmark : Text.declarationMark <+: start.cursor.rest)
    (hstep : start.step = .ok (token?, next)) :
    start.region = .start ∧ ∃ span, token? = some (.declaration span) := by
  obtain ⟨rest, hrest⟩ := hmark
  have hne : start.cursor.rest ≠ [] := by
    rw [← hrest]
    exact List.cons_ne_nil _ _
  obtain ⟨opening, hopening, hrun, _⟩ := step_eq_ok_iff.mp hstep
  rcases opening?_of_mark ⟨rest, hrest⟩ hopening with htag | ⟨hstart, rfl⟩
  · refine absurd ?_ (head?_ne_of_step htag hne hstep)
    rw [← hrest]
    rfl
  · obtain ⟨token, hscanner, rfl⟩ := Opening.map_some_eq_ok_iff.mp hrun
    obtain ⟨word, _, _, rfl⟩ := Grammar.declaration_eq_ok hscanner
    exact ⟨hstart, _, rfl⟩

/-- An instruction is not written with the mark. -/
theorem not_mark_of_step {span target : Span} {content : Option Span}
    (hrest : start.cursor.rest ≠ [])
    (hstep : start.step = .ok (some (.instruction span target content), next)) :
    ¬Text.declarationMark <+: span.text := by
  intro hmark
  have hregion : start.region ≠ .tag := by
    intro htag
    obtain ⟨_, hmay, _⟩ := spelled_of_step hrest hstep
    rw [htag] at hmay
    cases hmay
  obtain ⟨hreads, _⟩ := whole_of_step hregion hrest hstep
  have hhere : Text.declarationMark <+: start.cursor.rest := by
    rw [hreads.rest_eq]
    exact hmark.trans (List.prefix_append _ _)
  obtain ⟨_, _, hdeclaration⟩ := start_of_step hhere hstep
  cases hdeclaration

theorem Yields.not_mark (h : Yields start tokens stop) {span target : Span}
    {content : Option Span} (htoken : .instruction span target content ∈ tokens) :
    ¬Text.declarationMark <+: span.text := by
  induction h with
  | nil => cases htoken
  | cons _ hrest hstep _ ih =>
      rcases List.mem_cons.mp htoken with rfl | htoken
      · exact not_mark_of_step hrest hstep
      · exact ih htoken

/-! ## The very start -/

/-- A step leaves the very start behind. -/
theorem region_ne_start_of_step (hstep : start.step = .ok (token?, next)) :
    next.region ≠ .start := by
  obtain ⟨_, _, _, hfollowing⟩ := step_eq_ok_iff.mp hstep
  have hregion : (following start.region start.depth token?).1 = next.region :=
    congrArg Prod.fst hfollowing
  rw [← hregion]
  unfold following
  split <;> grind

theorem Skips.eq_of_start (h : Skips start stop) (hregion : stop.region = .start) :
    start = stop := by
  induction h with
  | refl => rfl
  | step _ hstep _ ih =>
      obtain rfl := ih hregion
      exact absurd hregion (region_ne_start_of_step hstep)

/-- Only where nothing was read yet is the region the very start. -/
theorem Yields.eq_of_start (h : Yields start tokens stop) (hregion : stop.region = .start) :
    tokens = [] ∧ start = stop := by
  induction h with
  | nil => exact ⟨rfl, rfl⟩
  | cons _ _ hstep _ ih =>
      obtain ⟨_, rfl⟩ := ih hregion
      exact absurd hregion (region_ne_start_of_step hstep)

end TokenStream

/-! ## Behind a declaration -/

/-- Tokens behind a declaration are read as nodes behind it. -/
theorem Token.vouch_behind {declaration : Span}
    (hplaced : Token.Placed source (.declaration declaration :: tokens))
    (hspelled : ∀ token ∈ Token.declaration declaration :: tokens, token.Spelled) :
    Token.Vouch source (fun node => ∀ span ∈ node.spans, declaration.stop ≤ span.start)
      (.declaration declaration :: tokens) := by
  obtain ⟨hbehind, _⟩ := List.pairwise_cons.mp hplaced.inOrder
  refine vouch_spans (fun token htoken hother span hspan => ?_) fun _ _ _ h => h
  rcases List.mem_cons.mp htoken with rfl | hlater
  · exact absurd rfl (hother declaration)
  · calc declaration.stop ≤ token.span.start := hbehind token hlater
      _ ≤ span.start := ((hspelled token htoken).isPartOf hspan).start_le

/-- A text that starts with the mark has a declaration as its first token, if it can be cut
into tokens. -/
theorem Token.exists_declaration (htokens : Token.ofSource source = (tokens, none))
    (hmark : Text.declarationMark <+: (TokenStream.ofSource source).cursor.rest) :
    ∃ declaration later, tokens = .declaration declaration :: later ∧
      declaration.text.IsDeclaration ∧
      declaration.start = (TokenStream.ofSource source).cursor.offset := by
  have hnot_skipped : ∀ next, (TokenStream.ofSource source).step ≠ .ok (none, next) := by
    intro next hstep
    obtain ⟨_, _, hsome⟩ := TokenStream.start_of_step hmark hstep
    cases hsome
  have heq : ∀ found, TokenStream.Skips (.ofSource source) found →
      found = .ofSource source := by
    intro found hskips
    cases hskips with
    | refl => rfl
    | step _ hstep _ => exact absurd hstep (hnot_skipped _)
  obtain ⟨last, stop, hyields, hskips, hend⟩ := TokenStream.tokens_eq_iff.mp htokens
  cases hyields with
  | nil =>
      obtain rfl := heq _ hskips
      have hnil : (TokenStream.ofSource source).cursor.rest = [] := hend
      rw [hnil] at hmark
      cases List.prefix_nil.mp hmark
  | cons hfound hrest hstep hlater =>
      obtain rfl := heq _ hfound
      obtain ⟨hregion, declaration, hsome⟩ := TokenStream.start_of_step hmark hstep
      obtain rfl := Option.some.inj hsome
      obtain ⟨hspelled, _⟩ := TokenStream.spelled_of_step hrest hstep
      obtain ⟨_, hstart⟩ := TokenStream.whole_of_step (by rw [hregion]; decide) hrest hstep
      cases hspelled with
      | declaration hword => exact ⟨declaration, _, rfl, hword, hstart⟩

/-- Anywhere else the mark makes reading fail. -/
theorem Document.fails_of_mark {last stream : TokenStream}
    (hyields : TokenStream.Yields (.ofSource source) tokens last)
    (hskips : TokenStream.Skips last stream) (hne : stream ≠ .ofSource source)
    (hmark : Text.declarationMark <+: stream.cursor.rest) :
    ∃ error, Document.parse source options = .error error := by
  have hregion : stream.region ≠ .start := by
    intro hregion
    obtain rfl := hskips.eq_of_start hregion
    obtain ⟨_, rfl⟩ := hyields.eq_of_start hregion
    exact hne rfl
  cases hstep : stream.step with
  | ok result => exact absurd (TokenStream.start_of_step hmark hstep).1 hregion
  | error cause =>
      have hrest : stream.cursor.rest ≠ [] := by
        intro hnil
        rw [hnil] at hmark
        cases List.prefix_nil.mp hmark
      have htokens : Token.ofSource source = (tokens, some cause) :=
        TokenStream.tokens_eq_iff.mpr ⟨last, stream, hyields, hskips, hrest, hstep⟩
      cases hparse : Document.parse source options with
      | error error => exact ⟨error, rfl⟩
      | ok document =>
          obtain ⟨_, hnone, _⟩ := documentTokens_of_parse hparse
          rw [htokens] at hnone
          cases hnone

/-! ## Documents -/

/-- If the node is an instruction, it is not written with the mark. -/
def Node.Unmarked : Node → Prop
  | instruction span _ _ => ¬Text.declarationMark <+: span.text
  | _ => True

theorem Token.vouch_unmarked {start stop : TokenStream}
    (hyields : TokenStream.Yields start tokens stop) :
    Token.Vouch source Node.Unmarked tokens := by
  refine ⟨?_, fun _ _ _ => trivial, fun _ _ _ _ _ _ _ _ => trivial⟩
  intro token htoken node hleaf
  cases token with
  | instruction span target content =>
      obtain rfl := Option.some.inj hleaf
      exact hyields.not_mark htoken
  | text | cdata | comment | doctype =>
      obtain rfl := Option.some.inj hleaf
      trivial
  | _ => cases hleaf

/-- No node of a document is written with the mark of a declaration.  If the text starts
with it, behind a byte order mark at most, a declaration is read there and all nodes
lie behind it; and at any other place that reading comes to, the mark makes it fail. -/
theorem Document.declaration_of_parse (source : Text) (options : ParseOptions) :
    (∀ document, Document.parse source options = .ok document →
      (∀ depth span target content,
        (depth, .instruction span target content) ∈ Node.preorderList 0 document.children →
          ¬Text.declarationMark <+: span.text) ∧
      (Text.declarationMark <+: (TokenStream.ofSource source).cursor.rest →
        ∃ declaration : Span, declaration.text.IsDeclaration ∧
          declaration.IsSliceOf source ∧
          declaration.start = (TokenStream.ofSource source).cursor.offset ∧
          ∀ entry ∈ Node.preorderList 0 document.children, ∀ span ∈ entry.2.spans,
            declaration.stop ≤ span.start)) ∧
    ∀ tokens last stream, TokenStream.Yields (.ofSource source) tokens last →
      TokenStream.Skips last stream → stream ≠ .ofSource source →
      Text.declarationMark <+: stream.cursor.rest →
        ∃ error, Document.parse source options = .error error := by
  refine ⟨fun document h => ?_, fun _ _ _ => fails_of_mark⟩
  obtain ⟨tokens, htokens, _, hdocument⟩ := documentTokens_of_parse h
  obtain ⟨hplaced, hspelled⟩ := Token.placed_of_ofSource htokens
  obtain ⟨_, _, hyields, _⟩ := TokenStream.tokens_eq_iff.mp htokens
  refine ⟨fun depth span target content hentry => ?_, fun hmark => ?_⟩
  · exact (Node.allList_iff _ 0).mp (hdocument.all (Token.vouch_unmarked hyields)) _ hentry
  · obtain ⟨declaration, later, rfl, hword, hstart⟩ := Token.exists_declaration htokens hmark
    refine ⟨declaration, hword, hplaced.isSliceOf _ List.mem_cons_self, hstart, ?_⟩
    exact (Node.allList_iff _ 0).mp (hdocument.all (Token.vouch_behind hplaced hspelled))

/-- A declaration behind a byte order mark, and one behind a space. -/
theorem Document.declaration_of_parse_leading :
    (∃ document, Document.parse "\uFEFF<?xml version='1.0'?><a><?b c?></a>".toList = .ok document ∧
      ∃ declaration : Span, declaration.text.IsDeclaration ∧ declaration.start = 3 ∧
        ∀ entry ∈ Node.preorderList 0 document.children, ∀ span ∈ entry.2.spans,
          declaration.stop ≤ span.start) ∧
    ∃ error, Document.parse " <?xml version='1.0'?><a/>".toList = .error error := by
  constructor
  · obtain ⟨document, h⟩ : ∃ document,
        Document.parse "\uFEFF<?xml version='1.0'?><a><?b c?></a>".toList = .ok document :=
      exists_eq_ok_of_isOk (by decide +kernel)
    have hmark : Text.declarationMark.isPrefixOf (TokenStream.ofSource
        "\uFEFF<?xml version='1.0'?><a><?b c?></a>".toList).cursor.rest = true := by
      decide +kernel
    obtain ⟨declaration, hword, _, hstart, hbehind⟩ :=
      ((Document.declaration_of_parse _ {}).1 document h).2 (List.isPrefixOf_iff_prefix.mp hmark)
    exact ⟨document, h, declaration, hword, hstart, hbehind⟩
  · have hskips : TokenStream.Skips (.ofSource " <?xml version='1.0'?><a/>".toList)
        ⟨⟨"<?xml version='1.0'?><a/>".toList, 1, ⟨1, 2⟩⟩, .beforeDoctype, 0⟩ :=
      .step (by decide) (by with_unfolding_all rfl) (.refl _)
    have hlater : (⟨⟨"<?xml version='1.0'?><a/>".toList, 1, ⟨1, 2⟩⟩, .beforeDoctype, 0⟩ :
        TokenStream) ≠ .ofSource " <?xml version='1.0'?><a/>".toList := by
      simp [TokenStream.ofSource]
    exact (Document.declaration_of_parse _ {}).2 [] _ _ (.nil _) hskips hlater
      ⟨"version='1.0'?><a/>".toList, rfl⟩

/-- With a tab behind the word, the same text is kept as an instruction. -/
theorem Document.instruction_of_parse :
    ∃ name, Document.parse "<?xml\tversion='1.0'?><a/>".toList =
      .ok ⟨[.instruction ⟨"<?xml\tversion='1.0'?>".toList, 0⟩ ⟨"xml".toList, 2⟩
          (some ⟨"version='1.0'".toList, 6⟩),
        .element ⟨"<a/>".toList, 21⟩ name [] []], "<?xml\tversion='1.0'?><a/>".toList⟩ := by
  have htokens : Token.ofSource "<?xml\tversion='1.0'?><a/>".toList =
      ([.instruction ⟨"<?xml\tversion='1.0'?>".toList, 0⟩ ⟨"xml".toList, 2⟩
          (some ⟨"version='1.0'".toList, 6⟩),
        .tagStart ⟨"<a".toList, 21⟩ ⟨none, ⟨"a".toList, 22⟩⟩,
        .emptyTagEnd ⟨"/>".toList, 23⟩], none) := by
    with_unfolding_all rfl
  refine ⟨⟨none, ⟨"a".toList, 22⟩⟩, ?_⟩
  unfold Document.parse
  rw [htokens]
  rfl

end XmlOutline
