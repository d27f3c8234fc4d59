import XmlOutline.Token.Grammar

/-!
# The tokens of a text

A text is cut into tokens from left to right.  Which construct starts at a place
depends on the characters there and on the part of the document that the place
is in: a `Region`.  `Region.opening?` decides it, `Opening.scanner` reads the
construct, and the token read decides the region behind it.

Main statement: `TokenStream.length_lt_of_step`, which says that every step uses
up some of the text, so cutting ends.

A byte order mark at the very start belongs to no token, but it counts in all
offsets and columns.
-/

namespace XmlOutline

/-- The parts of a document between which the same characters may start
different constructs. -/
inductive Region where
  /-- The very start, where the declaration may stand. -/
  | start
  /-- Before the document type declaration. -/
  | beforeDoctype
  /-- Inside the subset of the document type declaration. -/
  | subset
  /-- Behind the document type declaration and before the root element. -/
  | beforeRoot
  /-- Inside an element. -/
  | content
  /-- Inside a start tag, behind the name. -/
  | tag
  /-- Behind the root element. -/
  | afterRoot
deriving DecidableEq

/-- What can start at a place. -/
inductive Opening where
  | declaration
  | spaces
  | comment
  | instruction
  | doctype
  | entity
  | ignoredDeclaration
  | subsetClose
  | tagStart
  | tagItem
  | closeTag
  | cdata
  | text
deriving DecidableEq

namespace Opening

/-- Reads what starts here.  Spaces between constructs and the declarations in a
subset that do not matter leave no token. -/
def scanner : Opening → Scanner (Option Token)
  | declaration => some <$> Grammar.declaration
  | spaces => do
      Scanner.skipSpaces
      return none
  | comment => some <$> Grammar.comment
  | instruction => some <$> Grammar.instruction
  | doctype => some <$> Grammar.doctype
  | entity => some <$> Grammar.entity
  | ignoredDeclaration => do
      Grammar.ignoredDeclaration
      return none
  | subsetClose => some <$> Grammar.subsetClose
  | tagStart => some <$> Grammar.tagStart
  | tagItem => some <$> Grammar.tagItem
  | closeTag => some <$> Grammar.closeTag
  | cdata => some <$> Grammar.cdata
  | text => some <$> Grammar.text

/-- What went wrong when what starts at a place cannot be read.  A declaration
that would leave no token is not even known. -/
def failure (opening : Opening) (place : Position) (cause : Cause) : SyntaxError :=
  match opening with
  | declaration => .invalid .declaration place cause
  | spaces => .unknownToken place
  | comment => .invalid .comment place cause
  | instruction => .invalid .instruction place cause
  | doctype => .invalid .doctype place cause
  | entity => .invalid .entity place cause
  | ignoredDeclaration => .unknownToken place
  | subsetClose => .invalid .doctype place cause
  | tagStart => .invalid .element place cause
  | tagItem => .invalid .attributes place cause
  | closeTag => .invalid .element place cause
  | cdata => .invalid .cdata place cause
  | text => .invalid .text place cause

end Opening

namespace Region

/-- What starts behind the root element: nothing but comments, instructions and
spaces. -/
def openingAfterRoot? (cursor : Cursor) : Option Opening :=
  if cursor.startsWith "<!--" then some .comment
  else if cursor.startsWith "<?xml " then none
  else if cursor.startsWith "<?" then some .instruction
  else if cursor.rest.head?.any CharClass.isSpace then some .spaces
  else none

/-- What starts before the root element: the same, or the root element. -/
def openingBeforeRoot? (cursor : Cursor) : Option Opening :=
  if (openingAfterRoot? cursor).isSome then openingAfterRoot? cursor
  else if cursor.startsWith "<?" then none
  else if cursor.startsWith "<!" then none
  else if cursor.startsWith "<" then some .tagStart
  else none

/-- What starts before the document type declaration: the same, or it. -/
def openingBeforeDoctype? (cursor : Cursor) : Option Opening :=
  if cursor.startsWith "<!DOCTYPE" then some .doctype else openingBeforeRoot? cursor

/-- What starts in the subset of the document type declaration. -/
def openingInSubset? (cursor : Cursor) : Option Opening :=
  if (openingAfterRoot? cursor).isSome then openingAfterRoot? cursor
  else if cursor.startsWith "<!ENTITY" then some .entity
  else if cursor.startsWith "]" then some .subsetClose
  else if cursor.startsWith "<!ELEMENT" then some .ignoredDeclaration
  else if cursor.startsWith "<!ATTLIST" then some .ignoredDeclaration
  else if cursor.startsWith "<!NOTATION" then some .ignoredDeclaration
  else none

/-- What starts inside an element. -/
def openingInContent? (cursor : Cursor) : Option Opening :=
  if cursor.startsWith "<!--" then some .comment
  else if cursor.startsWith "<![CDATA[" then some .cdata
  else if cursor.startsWith "<!" then none
  else if cursor.startsWith "<?xml " then none
  else if cursor.startsWith "<?" then some .instruction
  else if cursor.startsWith "</" then some .closeTag
  else if cursor.rest == ['<'] then none
  else if cursor.startsWith "<" then some .tagStart
  else some .text

/-- What starts at a place of a region, if anything may. -/
def opening? (region : Region) (cursor : Cursor) : Option Opening :=
  match region with
  | start =>
      if cursor.startsWith "<?xml " then some .declaration else openingBeforeDoctype? cursor
  | beforeDoctype => openingBeforeDoctype? cursor
  | subset => openingInSubset? cursor
  | beforeRoot => openingBeforeRoot? cursor
  | content => openingInContent? cursor
  | tag => some .tagItem
  | afterRoot => openingAfterRoot? cursor

end Region

/-- The rest of a text, with what is known of the place it starts at: the region
and the number of elements that are open there. -/
structure TokenStream where
  cursor : Cursor
  region : Region := .start
  depth : Nat := 0

namespace TokenStream

/-- A text from its start.  A byte order mark there is passed over. -/
def ofSource (source : Text) : TokenStream :=
  match source with
  | '\uFEFF' :: rest => ⟨({ rest := source } : Cursor).past ['\uFEFF'] rest, .start, 0⟩
  | _ => ⟨{ rest := source }, .start, 0⟩

/-- The region and the depth behind a token, or behind something that leaves no
token. -/
def following (region : Region) (depth : Nat) : Option Token → Region × Nat
  | some (.doctype _) => (.beforeRoot, depth)
  | some (.subsetOpen _) => (.subset, depth)
  | some (.subsetClose _) => (.beforeRoot, depth)
  | some (.tagStart _ _) => (.tag, depth)
  | some (.tagEnd _) => (.content, depth + 1)
  | some (.emptyTagEnd _) => (if depth = 0 then .afterRoot else .content, depth)
  | some (.closeTag _ _) => (if depth ≤ 1 then .afterRoot else .content, depth - 1)
  | _ => (if region = .start then .beforeDoctype else region, depth)

/-- Reads what starts at the place the stream stands at. -/
def step (stream : TokenStream) : Except SyntaxError (Option Token × TokenStream) :=
  match stream.region.opening? stream.cursor with
  | none => .error (.unknownToken stream.cursor.position)
  | some opening =>
      match opening.scanner stream.cursor with
      | .error cause => .error (opening.failure stream.cursor.position cause)
      | .ok (token?, cursor) =>
          let (region, depth) := following stream.region stream.depth token?
          .ok (token?, ⟨cursor, region, depth⟩)

/-! ## Every step uses up text -/

private theorem advances_map {scanner : Scanner Token} (h : Scanner.Advances scanner) :
    Scanner.Advances (some <$> scanner) := by
  rw [map_eq_pure_bind]
  exact h.bind fun _ => Scanner.consumes_pure _

private theorem bind_pure_eq_ok {α β : Type} {scanner : Scanner α} {value : α → β}
    {start stop : Cursor} {result : β}
    (h : (scanner >>= fun first => pure (value first)) start = .ok (result, stop)) :
    ∃ first, scanner start = .ok (first, stop) ∧ result = value first := by
  obtain ⟨first, middle, hscanner, hpure⟩ := Scanner.bind_eq_ok_iff.mp h
  cases hpure
  exact ⟨first, hscanner, rfl⟩

private theorem space_of_openingAfterRoot? {cursor : Cursor}
    (h : Region.openingAfterRoot? cursor = some .spaces) :
    cursor.rest.head?.any CharClass.isSpace = true := by
  simp only [Region.openingAfterRoot?] at h
  grind

private theorem space_of_opening? {region : Region} {cursor : Cursor}
    (h : region.opening? cursor = some .spaces) :
    cursor.rest.head?.any CharClass.isSpace = true := by
  have hspace : Region.openingAfterRoot? cursor = some .spaces := by
    cases region <;>
      simp only [Region.opening?, Region.openingBeforeDoctype?, Region.openingBeforeRoot?,
        Region.openingInSubset?, Region.openingInContent?] at h <;> grind
  exact space_of_openingAfterRoot? hspace

private theorem not_markup_of_opening? {region : Region} {cursor : Cursor}
    (h : region.opening? cursor = some .text) : cursor.startsWith "<" = false := by
  cases region <;>
    simp only [Region.opening?, Region.openingBeforeDoctype?, Region.openingBeforeRoot?,
      Region.openingInSubset?, Region.openingInContent?, Region.openingAfterRoot?] at h <;> grind

/-- What starts at a place takes up some of the text there. -/
theorem reads_of_opening? {region : Region} {opening : Opening} {start stop : Cursor}
    {token? : Option Token} (hopening : region.opening? start = some opening)
    (hrest : start.rest ≠ []) (hrun : opening.scanner start = .ok (token?, stop)) :
    ∃ word, start.Reads word stop ∧ word ≠ [] := by
  cases opening with
  | spaces =>
      obtain ⟨_, hskip, _⟩ := bind_pure_eq_ok hrun
      exact Scanner.skipSpaces_reads hskip (space_of_opening? hopening)
  | text =>
      simp only [Opening.scanner, map_eq_pure_bind] at hrun
      obtain ⟨_, htext, _⟩ := bind_pure_eq_ok hrun
      exact Grammar.text_reads htext hrest (not_markup_of_opening? hopening)
  | ignoredDeclaration =>
      obtain ⟨_, hskip, _⟩ := bind_pure_eq_ok hrun
      exact Grammar.advances_ignoredDeclaration _ _ _ hskip
  | declaration => exact advances_map Grammar.advances_declaration _ _ _ hrun
  | comment => exact advances_map Grammar.advances_comment _ _ _ hrun
  | instruction => exact advances_map Grammar.advances_instruction _ _ _ hrun
  | doctype => exact advances_map Grammar.advances_doctype _ _ _ hrun
  | entity => exact advances_map Grammar.advances_entity _ _ _ hrun
  | subsetClose => exact advances_map Grammar.advances_subsetClose _ _ _ hrun
  | tagStart => exact advances_map Grammar.advances_tagStart _ _ _ hrun
  | tagItem => exact advances_map Grammar.advances_tagItem _ _ _ hrun
  | closeTag => exact advances_map Grammar.advances_closeTag _ _ _ hrun
  | cdata => exact advances_map Grammar.advances_cdata _ _ _ hrun

/-- A step reads on from the cursor over some text that is not empty. -/
theorem reads_of_step {stream next : TokenStream} {token? : Option Token}
    (hrest : stream.cursor.rest ≠ []) (h : stream.step = .ok (token?, next)) :
    ∃ word, stream.cursor.Reads word next.cursor ∧ word ≠ [] := by
  simp only [step] at h
  split at h
  · cases h
  · rename_i opening hopening
    split at h
    · cases h
    · rename_i cursor hrun
      cases h
      exact reads_of_opening? hopening hrest hrun

theorem length_lt_of_step {stream next : TokenStream} {token? : Option Token}
    (hrest : stream.cursor.rest ≠ []) (h : stream.step = .ok (token?, next)) :
    next.cursor.rest.length < stream.cursor.rest.length := by
  obtain ⟨word, hreads, hword⟩ := reads_of_step hrest h
  exact hreads.length_lt hword

/-! ## All tokens -/

/-- The tokens from here on, and the error that ends them early, if any. -/
def tokens (stream : TokenStream) : List Token × Option SyntaxError :=
  if hrest : stream.cursor.rest = [] then ([], none)
  else
    match h : stream.step with
    | .error error => ([], some error)
    | .ok (token?, next) =>
        have _hshorter := length_lt_of_step hrest h
        let later := next.tokens
        (token?.toList ++ later.1, later.2)
termination_by stream.cursor.rest.length
decreasing_by exact _hshorter

end TokenStream

/-- The tokens of a text, and the error that ends them early, if any. -/
def Token.ofSource (source : Text) : List Token × Option SyntaxError :=
  (TokenStream.ofSource source).tokens

end XmlOutline
