import XmlOutline.Proofs.Reading.Run

/-!
# Steps over what was written

Where the text goes on with a piece of markup as the output spells it, the next step
of the token stream reads that piece, whatever comes behind it.  There is one lemma
for each token that the output gives rise to.  Only the text of a token and of its
parts is stated; at which offsets they stand does not matter here.

What comes behind matters in two places.  A name ends only where no name character
follows, and a run of text only where markup does.
-/

namespace XmlOutline

open CharClass

/-! ## What starts at a place -/

namespace Region

variable {region : Region} {cursor : Cursor} {tail : Text}

theorem opening?_comment (hregion : region ≠ .tag) (hrest : cursor.rest = "<!--".toList ++ tail) :
    region.opening? cursor = some .comment := by
  cases region with
  | tag => exact absurd rfl hregion
  | _ =>
      simp [opening?, openingBeforeDoctype?, openingBeforeRoot?, openingAfterRoot?,
        openingInSubset?, openingInContent?, Cursor.startsWith, hrest]

/-- An instruction may stand where a comment may, unless it looks like a declaration. -/
theorem opening?_instruction (hregion : region ≠ .tag) (hrest : cursor.rest = "<?".toList ++ tail)
    (hdeclaration : cursor.startsWith "<?xml " = false) :
    region.opening? cursor = some .instruction := by
  unfold Cursor.startsWith at hdeclaration
  cases region with
  | tag => exact absurd rfl hregion
  | _ =>
      simp_all [opening?, openingBeforeDoctype?, openingBeforeRoot?, openingAfterRoot?,
        openingInSubset?, openingInContent?, Cursor.startsWith]

theorem opening?_cdata (hrest : cursor.rest = "<![CDATA[".toList ++ tail) :
    content.opening? cursor = some .cdata := by
  simp [opening?, openingInContent?, Cursor.startsWith, hrest]

theorem opening?_closeTag (hrest : cursor.rest = "</".toList ++ tail) :
    content.opening? cursor = some .closeTag := by
  simp [opening?, openingInContent?, Cursor.startsWith, hrest]

theorem opening?_text {c : Char} (hrest : cursor.rest = c :: tail) (hc : c ≠ '<') :
    content.opening? cursor = some .text := by
  simp [opening?, openingInContent?, Cursor.startsWith, hrest, hc, Ne.symm hc]

/-- The regions in which an element may start. -/
def allowsElement : Region → Bool
  | start | beforeDoctype | beforeRoot | content => true
  | _ => false

theorem opening?_tagStart {c : Char} (hregion : region.allowsElement = true)
    (hrest : cursor.rest = '<' :: c :: tail) (hc : isNameStart c = true) :
    region.opening? cursor = some .tagStart := by
  have hother {other : Char} (h : isNameStart other = false) : other ≠ c := by
    rintro rfl
    exact absurd hc (by simp [h])
  have hbang : '!' ≠ c := hother (by decide)
  have hquestion : '?' ≠ c := hother (by decide)
  have hslash : '/' ≠ c := hother (by decide)
  cases region with
  | tag | subset | afterRoot => cases hregion
  | _ =>
      simp [opening?, openingBeforeDoctype?, openingBeforeRoot?, openingAfterRoot?,
        openingInContent?, Cursor.startsWith, hrest, hbang, hquestion, hslash,
        show isSpace '<' = false from rfl]

/-- The regions in which spaces are skipped. -/
def skipsSpaces : Region → Bool
  | start | beforeDoctype | beforeRoot | afterRoot => true
  | _ => false

theorem opening?_spaces {c : Char} (hregion : region.skipsSpaces = true)
    (hrest : cursor.rest = c :: tail) (hc : isSpace c = true) :
    region.opening? cursor = some .spaces := by
  have hmarkup : '<' ≠ c := by
    rintro rfl
    exact absurd hc (by decide)
  cases region with
  | tag | subset | content => cases hregion
  | _ =>
      simp [opening?, openingBeforeDoctype?, openingBeforeRoot?, openingAfterRoot?,
        Cursor.startsWith, hrest, hmarkup, hc]

end Region

namespace TokenStream

/-- This much text is left, and this is the part of the document it is in. -/
structure IsAt (stream : TokenStream) (rest : Text) (region : Region) (depth : Nat) : Prop where
  rest_eq : stream.cursor.rest = rest
  region_eq : stream.region = region
  depth_eq : stream.depth = depth

variable {stream : TokenStream} {region : Region} {depth : Nat} {word rest : Text}

/-- What starts where the stream stands is read, and the stream goes on behind it. -/
theorem IsAt.exists_yields {opening : Opening} {grammar : Scanner Token} {token : Token}
    (h : stream.IsAt (word ++ rest) region depth) (hne : word ≠ [])
    (hopening : region.opening? stream.cursor = some opening)
    (hscanner : opening.scanner = some <$> grammar)
    (hrun : ∀ stop, stream.cursor.Reads word stop → stop.rest = rest →
      grammar stream.cursor = .ok (token, stop)) :
    ∃ next, Yields stream [token] next ∧
      next.IsAt rest (following region depth (some token)).1
        (following region depth (some token)).2 := by
  have hreads := Cursor.reads_past h.rest_eq
  have hstep : stream.step = .ok (some token, ⟨stream.cursor.past word rest,
      (following region depth (some token)).1, (following region depth (some token)).2⟩) := by
    rw [step_eq_ok_iff, h.region_eq, h.depth_eq]
    refine ⟨opening, hopening, ?_, rfl⟩
    rw [hscanner]
    exact Opening.map_some_eq_ok_iff.mpr ⟨token, hrun _ hreads rfl, rfl⟩
  have hrest : stream.cursor.rest ≠ [] := by
    rw [h.rest_eq]
    exact List.append_ne_nil_of_left_ne_nil hne rest
  exact ⟨_, .cons (.refl stream) hrest hstep (.nil _), rfl, rfl, rfl⟩

/-! ## Markup that stands on its own -/

theorem IsAt.yields_comment {content : Text}
    (h : stream.IsAt ("<!--".toList ++ content ++ "-->".toList ++ rest) region depth)
    (hcontent : content.IsCommentContent) (hregion : region ≠ .tag) :
    ∃ span content' next, Yields stream [.comment span content'] next ∧
      content'.text = content ∧
      next.IsAt rest (if region = .start then .beforeDoctype else region) depth := by
  have hopening := Region.opening?_comment hregion (by
    rw [h.rest_eq, List.append_assoc, List.append_assoc])
  obtain ⟨next, hyields, hnext⟩ := h.exists_yields (by simp) hopening rfl fun _ hreads _ =>
    Grammar.comment_eq_ok_iff.mpr ⟨content, hcontent, hreads, rfl⟩
  exact ⟨_, _, next, hyields, rfl, hnext⟩

theorem IsAt.yields_cdata {content : Text}
    (h : stream.IsAt ("<![CDATA[".toList ++ content ++ "]]>".toList ++ rest) .content depth)
    (hcontent : content.IsSectionContent) :
    ∃ span content' next, Yields stream [.cdata span content'] next ∧
      content'.text = content ∧ next.IsAt rest .content depth := by
  have hopening := Region.opening?_cdata (by
    rw [h.rest_eq, List.append_assoc, List.append_assoc])
  obtain ⟨next, hyields, hnext⟩ := h.exists_yields (by simp) hopening rfl fun _ hreads _ =>
    Grammar.cdata_eq_ok_iff.mpr ⟨content, hcontent, hreads, rfl⟩
  exact ⟨_, _, next, hyields, rfl, hnext⟩

/-- Only the target `xml` makes an instruction look like a declaration. -/
private theorem startsWith_declaration {cursor : Cursor} {target behind : Text}
    (hrest : cursor.rest = "<?".toList ++ target ++ behind) (htarget : target.IsNameChars)
    (hxml : target ≠ "xml".toList) (hbehind : behind.head?.any isNameChar = false) :
    cursor.startsWith "<?xml " = false := by
  -- the target is the longest run of name characters behind the marker
  have htake : (target ++ behind).takeWhile isNameChar = target := by
    rw [List.takeWhile_append_of_pos htarget]
    cases behind with
    | nil => simp
    | cons c behind => simp_all
  refine Bool.eq_false_iff.mpr fun hstarts => hxml ?_
  obtain ⟨tail, htail⟩ := List.isPrefixOf_iff_prefix.mp hstarts
  have hsame : "xml ".toList ++ tail = target ++ behind := by
    rw [hrest, List.append_assoc] at htail
    exact (List.cons.inj (List.cons.inj htail).2).2
  rw [← htake, ← hsame]
  rfl

/-- An instruction is written with one space before its content, and with none if it
has no content. -/
theorem IsAt.yields_instruction {target content : Text}
    (h : stream.IsAt ("<?".toList ++ target ++
      (if content.isEmpty then [] else ' ' :: content) ++ "?>".toList ++ rest) region depth)
    (htarget : target.IsName) (hxml : target ≠ "xml".toList)
    (hcontent : content.IsInstructionContent) (hregion : region ≠ .tag) :
    ∃ span target' content' next, Yields stream [.instruction span target' content'] next ∧
      target'.text = target ∧
      content'.map Span.text = (if content.isEmpty then none else some content) ∧
      next.IsAt rest (if region = .start then .beforeDoctype else region) depth := by
  -- in both cases what was written is a gap and the content
  obtain ⟨gap, hgap, hwritten, hbehind⟩ : ∃ gap : Text, gap.IsSpaces ∧
      (if content.isEmpty then [] else ' ' :: content) = gap ++ content ∧
      (gap ++ content).head?.any isNameChar = false := by
    cases content with
    | nil => exact ⟨[], Text.isSpaces_nil, rfl, rfl⟩
    | cons c content => exact ⟨[' '], Text.isSpaces_singleton rfl, rfl, rfl⟩
  rw [hwritten] at h
  have hrest : stream.cursor.rest =
      "<?".toList ++ target ++ (gap ++ content ++ "?>".toList ++ rest) := by
    rw [h.rest_eq]
    simp
  have hopening := Region.opening?_instruction hregion (by rw [hrest, List.append_assoc])
    (startsWith_declaration hrest htarget.1 hxml (by
      cases hdata : gap ++ content with
      | nil => rfl
      | cons c data => rwa [hdata] at hbehind))
  obtain ⟨next, hyields, hnext⟩ := h.exists_yields (by simp) hopening rfl fun _ hreads _ =>
    Grammar.instruction_eq_ok_iff.mpr ⟨target, gap, content, htarget, hgap, hcontent, hbehind,
      by simpa using hreads, rfl⟩
  refine ⟨_, _, _, next, hyields, rfl, ?_, hnext⟩
  cases content with
  | nil => rfl
  | cons c content => rfl

/-! ## Text and spaces -/

/-- A run of text is read up to the markup behind it. -/
theorem IsAt.yields_text {run : Text} (h : stream.IsAt (run ++ rest) .content depth)
    (hrun : run.IsCharacterData) (hne : run ≠ []) (hbehind : rest.head? = some '<') :
    ∃ span next, Yields stream [.text span] next ∧ span.text = run ∧
      next.IsAt rest .content depth := by
  obtain ⟨c, run, rfl⟩ := List.exists_cons_of_ne_nil hne
  have hc : c ≠ '<' := by
    rintro rfl
    exact hrun.no_markup List.mem_cons_self
  obtain ⟨next, hyields, hnext⟩ := h.exists_yields hne (Region.opening?_text h.rest_eq hc) rfl
    fun stop hreads hstop => Grammar.text_eq_ok_iff.mpr
      ⟨c :: run, hrun, hreads, Or.inr (by rwa [hstop]), rfl⟩
  exact ⟨_, next, hyields, rfl, hnext⟩

/-- Outside the root element spaces are passed over. -/
theorem IsAt.skips_spaces {gap : Text} (h : stream.IsAt (gap ++ rest) region depth)
    (hgap : gap.IsSpaces) (hne : gap ≠ []) (hbehind : rest.head?.any isSpace = false)
    (hregion : region.skipsSpaces = true) :
    ∃ next, Skips stream next ∧
      next.IsAt rest (if region = .start then .beforeDoctype else region) depth := by
  have hreads := Cursor.reads_past h.rest_eq
  obtain ⟨c, gap, rfl⟩ := List.exists_cons_of_ne_nil hne
  have hopening := Region.opening?_spaces hregion h.rest_eq (hgap c List.mem_cons_self)
  have hstep : stream.step = .ok (none, ⟨stream.cursor.past (c :: gap) rest,
      if region = .start then .beforeDoctype else region, depth⟩) := by
    rw [step_eq_ok_iff, h.region_eq, h.depth_eq]
    exact ⟨.spaces, hopening, Scanner.bind_eq_ok_iff.mpr ⟨(), _,
      Scanner.skipSpaces_eq_ok_iff.mpr ⟨_, hgap, hreads, hbehind⟩, rfl⟩, rfl⟩
  have hrest : stream.cursor.rest ≠ [] := by simp [h.rest_eq]
  exact ⟨_, .step hrest hstep (.refl _), rfl, rfl, rfl⟩

/-! ## Tags -/

theorem IsAt.yields_tagStart {name : Name}
    (h : stream.IsAt ('<' :: name.display ++ rest) region depth) (hname : name.IsProper)
    (hbehind : rest.head?.any isNameChar = false) (hregion : region.allowsElement = true) :
    ∃ span name' next, Yields stream [.tagStart span name'] next ∧ (name' == name) = true ∧
      next.IsAt rest .tag depth := by
  obtain ⟨hchars, hstart⟩ := hname.display_isName
  obtain ⟨name', hname', hsame⟩ :=
    hname.exists_ofQualified?_display (stream.cursor.offset + 1)
  have hopening : region.opening? stream.cursor = some .tagStart := by
    have hrest := h.rest_eq
    cases hdisplay : name.display with
    | nil => simp [hdisplay] at hstart
    | cons c tail =>
        rw [hdisplay] at hrest hstart
        exact Region.opening?_tagStart hregion hrest (by simpa using hstart)
  obtain ⟨next, hyields, hnext⟩ := h.exists_yields (by simp) hopening rfl
    fun stop hreads hstop => Grammar.tagStart_eq_ok_iff.mpr
      ⟨name.display, name', hchars, hname', hreads, by rwa [hstop], rfl⟩
  exact ⟨_, name', next, hyields, hsame, hnext⟩

theorem IsAt.yields_closeTag {name : Name}
    (h : stream.IsAt (['<', '/'] ++ name.display ++ [ '>' ] ++ rest) .content depth)
    (hname : name.IsProper) :
    ∃ span name' next, Yields stream [.closeTag span name'] next ∧ (name' == name) = true ∧
      next.IsAt rest (if depth ≤ 1 then .afterRoot else .content) (depth - 1) := by
  obtain ⟨name', hname', hsame⟩ :=
    hname.exists_ofQualified?_display (stream.cursor.offset + 2)
  have hopening := Region.opening?_closeTag (by
    rw [h.rest_eq, List.append_assoc, List.append_assoc]
    rfl)
  obtain ⟨next, hyields, hnext⟩ := h.exists_yields (by simp) hopening rfl fun _ hreads _ =>
    Grammar.closeTag_eq_ok_iff.mpr ⟨name.display, [], name', hname.display_isName.1,
      Text.isSpaces_nil, hname', by simpa using hreads, rfl⟩
  exact ⟨_, name', next, hyields, hsame, hnext⟩

/-! ## Inside a start tag -/

theorem IsAt.yields_tagEnd (h : stream.IsAt ([ '>' ] ++ rest) .tag depth) :
    ∃ span next, Yields stream [.tagEnd span] next ∧ next.IsAt rest .content (depth + 1) := by
  obtain ⟨next, hyields, hnext⟩ := h.exists_yields (by simp) rfl rfl fun _ hreads _ =>
    Grammar.tagItem_eq_ok_iff.mpr ⟨[], stream.cursor, Text.isSpaces_nil, .refl _,
      Or.inr (Or.inl ⟨hreads, rfl⟩)⟩
  exact ⟨_, next, hyields, hnext⟩

/-- In a start tag the output puts one space before an item. -/
private theorem reads_spaced {start stop : Cursor} (hreads : start.Reads (' ' :: word) stop)
    (hstop : stop.rest = rest) :
    start.Reads [' '] (start.past [' '] (word ++ rest)) ∧
      (start.past [' '] (word ++ rest)).Reads word stop := by
  obtain ⟨middle, hspace, hword⟩ :=
    Cursor.reads_append_iff.mp (show start.Reads ([' '] ++ word) stop from hreads)
  have hmiddle : middle = start.past [' '] (word ++ rest) := by
    rw [hspace.eq_past, hword.rest_eq, hstop]
  rw [hmiddle] at hspace hword
  exact ⟨hspace, hword⟩

theorem IsAt.yields_emptyTagEnd (h : stream.IsAt ([' ', '/', '>'] ++ rest) .tag depth) :
    ∃ span next, Yields stream [.emptyTagEnd span] next ∧
      next.IsAt rest (if depth = 0 then .afterRoot else .content) depth := by
  obtain ⟨next, hyields, hnext⟩ := h.exists_yields (by simp) rfl rfl fun stop hreads hstop => by
    obtain ⟨hspace, hend⟩ := reads_spaced hreads hstop
    exact Grammar.tagItem_eq_ok_iff.mpr
      ⟨[' '], _, Text.isSpaces_singleton rfl, hspace, Or.inl ⟨hend, rfl⟩⟩
  exact ⟨_, next, hyields, hnext⟩

theorem IsAt.yields_tagAttribute {name : Name} {value : Text}
    (h : stream.IsAt (' ' :: (name.display ++ ['=', '"'] ++ value ++ ['"']) ++ rest) .tag depth)
    (hname : name.IsProper) (hvalue : value.IsAttributeValue '"') :
    ∃ attr next, Yields stream [.tagAttribute attr] next ∧ (attr.name == name) = true ∧
      attr.value.text = value ∧ next.IsAt rest .tag depth := by
  obtain ⟨name', hname', hsame⟩ :=
    hname.exists_ofQualified?_display (stream.cursor.offset + Text.size [' '])
  obtain ⟨next, hyields, hnext⟩ := h.exists_yields (by simp) rfl rfl fun stop hreads hstop => by
    obtain ⟨hspace, hword⟩ := reads_spaced hreads hstop
    exact Grammar.tagItem_eq_ok_iff.mpr ⟨[' '], _, Text.isSpaces_singleton rfl, hspace,
      Or.inr (Or.inr ⟨by simp, Grammar.tagAttribute_eq_ok_iff.mpr
        ⟨name.display, [], [], value, name', '"', hname.display_isName.1,
          Text.isSpaces_nil, Text.isSpaces_nil,
          Or.inl rfl, hvalue, hname', by simpa using hword, rfl⟩⟩)⟩
  exact ⟨_, next, hyields, hsame, rfl, hnext⟩

end TokenStream

end XmlOutline
