import XmlOutline.Name
import XmlOutline.Token.Cursor
import XmlOutline.Token.SyntaxError

/-!
# Scanners

A scanner reads from a cursor on, and yields a value or the cause why it cannot.
This file has the scanners for the smallest parts of markup, and shows of each
that it moves the cursor over exactly the text that it reads.

## Strategy

`Consumes` says that a scanner only moves forward, and `Advances` that it also
moves at all.  Both are kept by sequencing, so each composite scanner needs one
line per part, and a scanner with one advancing part advances.
-/

namespace XmlOutline

/-- Reads from a cursor on, or says why that is not possible. -/
abbrev Scanner := StateT Cursor (Except Cause)

namespace Scanner

open CharClass

variable {α β : Type}

/-! ## Looking ahead -/

/-- Does this word come next? -/
def lookingAt (word : String) : Scanner Bool := do
  return (← get).startsWith word

/-- The character that comes next; there has to be one. -/
def peek : Scanner Char := do
  match (← get).rest with
  | [] => throw .endOfText
  | c :: _ => return c

/-- Does a character of this class come next? -/
def lookingAtClass (kind : Char → Bool) : Scanner Bool := do
  return (← get).rest.head?.any kind

/-- Goes on if a condition holds, and fails here with a cause if not. -/
def require (condition : Bool) (cause : Position → Cause) : Scanner Unit := fun cursor =>
  if condition then .ok ((), cursor) else .error (cause cursor.position)

/-! ## Reading -/

/-- Reads the longest run of characters of a class. -/
def readWhile (keep : Char → Bool) : Scanner Span := fun cursor =>
  let word := cursor.rest.takeWhile keep
  .ok (⟨word, cursor.offset⟩, cursor.past word (cursor.rest.dropWhile keep))

/-- Reads the spaces that come next, if any. -/
def skipSpaces : Scanner Unit := do
  let _ ← readWhile isSpace

/-- Reads one given character. -/
def expectChar (expected : Char) : Scanner Unit := fun cursor =>
  match cursor.rest with
  | [] => .error .endOfText
  | found :: rest =>
      if found = expected then .ok ((), cursor.past [found] rest)
      else .error (.expectedChar expected found cursor.position)

/-- Reads one given word. -/
def expectWord (expected : String) : Scanner Unit := fun cursor =>
  if expected.toList.isPrefixOf cursor.rest then
    .ok ((), cursor.past expected.toList (cursor.rest.drop expected.toList.length))
  else .error (.expectedWord [expected] cursor.position)

/-- Reads at least one space. -/
def expectSpaces : Scanner Unit := do
  let found ← peek
  require (isSpace found) (.expectedSpace found)
  skipSpaces

/-- Reads a quote of either kind. -/
def expectQuote : Scanner Char := do
  let found ← peek
  require (found == '"' || found == '\'') (.expectedQuote found)
  expectChar found
  return found

/-- Reads an equals sign with the spaces around it. -/
def expectEquals : Scanner Unit := do
  skipSpaces
  expectChar '='
  skipSpaces

/-- Does the text start with a character that may occur in no document? -/
def startsForeign (rest : Text) : Bool := rest.head?.any fun c => !isXmlChar c

/-- Reads up to the first place that passes the test, or to the end.  All
characters up to there, and the one there, have to be fit for a document. -/
def readUntil (test : Text → Bool) : Scanner Span := fun cursor =>
  let (word, rest) := cursor.rest.breakAt fun rest => startsForeign rest || test rest
  match rest.head? with
  | some c =>
      if isXmlChar c then .ok (⟨word, cursor.offset⟩, cursor.past word rest)
      else .error (.notXmlChar c (cursor.position.after word))
  | none => .ok (⟨word, cursor.offset⟩, cursor.past word rest)

/-- Reads up to the first occurrence of a word, or to the end. -/
def readUntilWord (word : String) : Scanner Span := readUntil word.toList.isPrefixOf

/-- Reads up to the first character of a class, or to the end. -/
def readUntilClass (kind : Char → Bool) : Scanner Span :=
  readUntil fun rest => rest.head?.any kind

/-! ## Names -/

/-- Reads a name, colons included. -/
def readName : Scanner Span := do
  require (← lookingAtClass isNameStart) fun _ => .badName
  readWhile isNameChar

/-- Reads a name that has at most one colon. -/
def readQualifiedName : Scanner Name := do
  match Name.ofQualified? (← readWhile isNameChar) with
  | some name => return name
  | none => throw .badName

/-! ## Scanners move forward -/

/-- On success the cursor has moved over some text, perhaps the empty one. -/
def Consumes (scanner : Scanner α) : Prop :=
  ∀ start value stop, scanner start = .ok (value, stop) → ∃ word, start.Reads word stop

/-- On success the cursor has moved over some text that is not empty. -/
def Advances (scanner : Scanner α) : Prop :=
  ∀ start value stop, scanner start = .ok (value, stop) →
    ∃ word, start.Reads word stop ∧ word ≠ []

/-- A sequence succeeds when both of its parts do. -/
theorem bind_eq_ok_iff {scanner : Scanner α} {next : α → Scanner β} {start stop : Cursor}
    {value : β} :
    (scanner >>= next) start = .ok (value, stop) ↔
      ∃ first middle, scanner start = .ok (first, middle) ∧
        next first middle = .ok (value, stop) := by
  show (scanner start >>= fun result => next result.1 result.2) = _ ↔ _
  cases scanner start with
  | error cause => simp [bind, Except.bind]
  | ok result =>
      obtain ⟨first, middle⟩ := result
      simp [bind, Except.bind, and_assoc]

theorem Advances.consumes {scanner : Scanner α} (h : Advances scanner) : Consumes scanner := by
  intro start value stop hrun
  obtain ⟨word, hword, _⟩ := h start value stop hrun
  exact ⟨word, hword⟩

theorem Consumes.bind {scanner : Scanner α} {next : α → Scanner β}
    (hfirst : Consumes scanner) (hnext : ∀ value, Consumes (next value)) :
    Consumes (scanner >>= next) := by
  intro start value stop hrun
  obtain ⟨first, middle, hscanner, hrest⟩ := bind_eq_ok_iff.mp hrun
  obtain ⟨firstWord, hfirstWord⟩ := hfirst _ _ _ hscanner
  obtain ⟨secondWord, hsecondWord⟩ := hnext _ _ _ _ hrest
  exact ⟨_, hfirstWord.trans hsecondWord⟩

theorem Advances.bind {scanner : Scanner α} {next : α → Scanner β}
    (hfirst : Advances scanner) (hnext : ∀ value, Consumes (next value)) :
    Advances (scanner >>= next) := by
  intro start value stop hrun
  obtain ⟨first, middle, hscanner, hrest⟩ := bind_eq_ok_iff.mp hrun
  obtain ⟨firstWord, hfirstWord, hne⟩ := hfirst _ _ _ hscanner
  obtain ⟨secondWord, hsecondWord⟩ := hnext _ _ _ _ hrest
  exact ⟨_, hfirstWord.trans hsecondWord, by simp [hne]⟩

theorem Consumes.bind_advances {scanner : Scanner α} {next : α → Scanner β}
    (hfirst : Consumes scanner) (hnext : ∀ value, Advances (next value)) :
    Advances (scanner >>= next) := by
  intro start value stop hrun
  obtain ⟨first, middle, hscanner, hrest⟩ := bind_eq_ok_iff.mp hrun
  obtain ⟨firstWord, hfirstWord⟩ := hfirst _ _ _ hscanner
  obtain ⟨secondWord, hsecondWord, hne⟩ := hnext _ _ _ _ hrest
  exact ⟨_, hfirstWord.trans hsecondWord, by simp [hne]⟩

theorem consumes_pure (value : α) : Consumes (pure value : Scanner α) := by
  intro start result stop hrun
  cases hrun
  exact ⟨[], Cursor.Reads.refl start⟩

theorem consumes_throw (cause : Cause) : Consumes (throw cause : Scanner α) := by
  intro start result stop hrun
  cases hrun

theorem consumes_get : Consumes (get : Scanner Cursor) := by
  intro start result stop hrun
  cases hrun
  exact ⟨[], Cursor.Reads.refl start⟩

theorem consumes_require (condition : Bool) (cause : Position → Cause) :
    Consumes (require condition cause) := by
  intro start value stop hrun
  simp only [require] at hrun
  split at hrun
  · cases hrun
    exact ⟨[], Cursor.Reads.refl start⟩
  · cases hrun

theorem consumes_lookingAt (word : String) : Consumes (lookingAt word) :=
  consumes_get.bind fun _ => consumes_pure _

theorem consumes_lookingAtClass (kind : Char → Bool) : Consumes (lookingAtClass kind) :=
  consumes_get.bind fun _ => consumes_pure _

theorem consumes_peek : Consumes peek := by
  refine consumes_get.bind fun cursor => ?_
  cases cursor.rest with
  | nil => exact consumes_throw _
  | cons c rest => exact consumes_pure _

theorem consumes_readWhile (keep : Char → Bool) : Consumes (readWhile keep) := by
  intro start value stop hrun
  cases hrun
  exact ⟨_, Cursor.reads_past List.takeWhile_append_dropWhile.symm⟩

/-- A run is not empty if a character of its class comes first. -/
theorem readWhile_reads {keep : Char → Bool} {start stop : Cursor} {run : Span}
    (hrun : readWhile keep start = .ok (run, stop)) (hhead : start.rest.head?.any keep = true) :
    ∃ word, start.Reads word stop ∧ word ≠ [] := by
  obtain ⟨word, hword⟩ := consumes_readWhile keep start run stop hrun
  refine ⟨word, hword, ?_⟩
  rintro rfl
  have hrest := hword.rest_eq
  cases hrun
  cases hstart : start.rest with
  | nil => simp [hstart] at hhead
  | cons c rest =>
      have hc : keep c = true := by simpa [hstart] using hhead
      simp only [Cursor.past, hstart, hc, List.dropWhile_cons_of_pos, List.nil_append] at hrest
      have := congrArg List.length hrest
      have hle := (List.dropWhile_sublist (l := rest) keep).length_le
      simp only [List.length_cons] at this
      omega

theorem consumes_skipSpaces : Consumes skipSpaces :=
  (consumes_readWhile _).bind fun _ => consumes_pure _

/-- Skipping spaces moves if a space comes first. -/
theorem skipSpaces_reads {start stop : Cursor} {value : Unit}
    (hrun : skipSpaces start = .ok (value, stop))
    (hhead : start.rest.head?.any isSpace = true) :
    ∃ word, start.Reads word stop ∧ word ≠ [] := by
  obtain ⟨run, middle, hread, hrest⟩ := bind_eq_ok_iff.mp hrun
  cases hrest
  exact readWhile_reads hread hhead

theorem advances_expectChar (expected : Char) : Advances (expectChar expected) := by
  intro start value stop hrun
  cases hstart : start.rest with
  | nil => simp [expectChar, hstart] at hrun
  | cons found rest =>
      simp only [expectChar, hstart] at hrun
      split at hrun
      · cases hrun
        exact ⟨[found], Cursor.reads_past hstart, by simp⟩
      · cases hrun

theorem advances_expectWord {expected : String} (hword : expected.toList ≠ []) :
    Advances (expectWord expected) := by
  intro start value stop hrun
  simp only [expectWord] at hrun
  split at hrun
  · rename_i hstarts
    cases hrun
    obtain ⟨rest, hrest⟩ := List.isPrefixOf_iff_prefix.mp hstarts
    refine ⟨_, Cursor.reads_past ?_, hword⟩
    rw [← hrest, List.drop_left]
  · cases hrun

theorem consumes_expectSpaces : Consumes expectSpaces :=
  consumes_peek.bind fun _ => (consumes_require _ _).bind fun _ => consumes_skipSpaces

theorem advances_expectQuote : Advances expectQuote :=
  consumes_peek.bind_advances fun _ => (consumes_require _ _).bind_advances fun _ =>
    (advances_expectChar _).bind fun _ => consumes_pure _

theorem advances_expectEquals : Advances expectEquals :=
  consumes_skipSpaces.bind_advances fun _ =>
    (advances_expectChar _).bind fun _ => consumes_skipSpaces

/-- Reading up to a test splits the rest where the test first passes. -/
theorem readUntil_eq_ok {test : Text → Bool} {start stop : Cursor} {run : Span}
    (hrun : readUntil test start = .ok (run, stop)) :
    start.Reads run.text stop ∧ run.start = start.offset ∧
      (run.text, stop.rest) =
        start.rest.breakAt fun rest => startsForeign rest || test rest := by
  have hsplit := Text.breakAt_append (fun rest => startsForeign rest || test rest) start.rest
  simp only [readUntil] at hrun
  split at hrun
  · split at hrun
    · cases hrun
      exact ⟨Cursor.reads_past hsplit.symm, rfl, rfl⟩
    · cases hrun
  · cases hrun
    exact ⟨Cursor.reads_past hsplit.symm, rfl, rfl⟩

theorem consumes_readUntil (test : Text → Bool) : Consumes (readUntil test) :=
  fun _ _ _ hrun => ⟨_, (readUntil_eq_ok hrun).1⟩

/-- A run up to a test is not empty if the test fails at once. -/
theorem readUntil_reads {test : Text → Bool} {start stop : Cursor} {run : Span}
    (hrun : readUntil test start = .ok (run, stop)) (hrest : start.rest ≠ [])
    (htest : test start.rest = false) :
    run.text ≠ [] := by
  obtain ⟨hreads, _, hbreak⟩ := readUntil_eq_ok hrun
  intro hempty
  have hsame : stop.rest = start.rest := by rw [hreads.rest_eq, hempty, List.nil_append]
  cases hstart : start.rest with
  | nil => exact hrest hstart
  | cons c rest =>
      by_cases hforeign : isXmlChar c = true
      · rw [hstart] at hbreak htest
        simp [Text.breakAt, startsForeign, hforeign, htest, hempty] at hbreak
      · simp only [readUntil, hstart, Text.breakAt, startsForeign] at hrun
        simp [hforeign] at hrun

theorem consumes_readName : Consumes readName :=
  (consumes_lookingAtClass _).bind fun _ => (consumes_require _ _).bind fun _ =>
    consumes_readWhile _

theorem consumes_readQualifiedName : Consumes readQualifiedName := by
  refine (consumes_readWhile _).bind fun raw => ?_
  split
  · exact consumes_pure _
  · exact consumes_throw _

end Scanner

end XmlOutline
