import XmlOutline.Token.Scanner

/-!
# What scanners read, exactly

`Scanner.Consumes` and `Scanner.Advances` say that a scanner moves forward.  Here
each of the smallest scanners gets the exact condition for success: which word
it reads, and what may follow that word.  All of these are equivalences, so they
serve both to take apart a text that was read and to show that a text can be
read.

## Strategy

* Sequencing is an existential over the cursor in between (`bind_eq_ok_iff`), and
  two words read in turn are one word (`Cursor.reads_append_iff`).
* A run up to a test is described by `Text.Avoids`: the test fails at every place
  inside the run.  For a class of characters this is a condition on the characters
  alone (`avoids_class_iff`), and so is the test for foreign characters
  (`avoids_foreign_iff`).
* A run up to a word has to be described together with the word, since the two
  can overlap: `Text.ClosedBy` says that the word begins nowhere earlier.
-/

namespace XmlOutline

namespace Text

/-- All characters separate parts of markup. -/
def IsSpaces (text : Text) : Prop := ∀ c ∈ text, CharClass.isSpace c = true

theorem isSpaces_nil : IsSpaces [] := by simp [IsSpaces]

theorem isSpaces_singleton {c : Char} (h : CharClass.isSpace c = true) : IsSpaces [c] := by
  simpa [IsSpaces] using h

/-- All characters may occur in a document. -/
def IsXml (text : Text) : Prop := ∀ c ∈ text, CharClass.isXmlChar c = true

/-- All characters may occur in names. -/
def IsNameChars (text : Text) : Prop := ∀ c ∈ text, CharClass.isNameChar c = true

/-- The text is a name, colons included. -/
def IsName (text : Text) : Prop :=
  text.IsNameChars ∧ text.head?.any CharClass.isNameStart = true

/-- With `rest` behind it, the test fails at every place inside the word. -/
def Avoids (test : Text → Bool) : Text → Text → Prop
  | [], _ => True
  | c :: word, rest => test (c :: word ++ rest) = false ∧ Avoids test word rest

/-- With the mark behind it, the mark begins nowhere inside the content. -/
def ClosedBy (mark content : Text) : Prop := Avoids mark.isPrefixOf content mark

/-! ## Breaking a text -/

/-- A break falls behind the longest word that avoids the test. -/
theorem breakAt_eq_iff {test : Text → Bool} {text word rest : Text} :
    breakAt test text = (word, rest) ↔
      text = word ++ rest ∧ Avoids test word rest ∧ (rest = [] ∨ test rest = true) := by
  induction text generalizing word with
  | nil =>
      simp only [breakAt, Prod.mk.injEq]
      constructor
      · rintro ⟨rfl, rfl⟩
        exact ⟨rfl, trivial, Or.inl rfl⟩
      · rintro ⟨htext, _, _⟩
        exact ⟨(List.append_eq_nil_iff.mp htext.symm).1.symm,
          (List.append_eq_nil_iff.mp htext.symm).2.symm⟩
  | cons c text ih =>
      -- either the break is right here, and the word is empty, or one character later
      cases htest : test (c :: text) with
      | true =>
          simp only [breakAt, htest, if_true, Prod.mk.injEq]
          constructor
          · rintro ⟨rfl, rfl⟩
            exact ⟨rfl, trivial, Or.inr htest⟩
          · rintro ⟨htext, havoids, _⟩
            cases word with
            | nil => exact ⟨rfl, htext⟩
            | cons d word =>
                have hfalse := havoids.1
                rw [← htext, htest] at hfalse
                exact Bool.noConfusion hfalse
      | false =>
          simp only [breakAt, htest, Bool.false_eq_true, if_false, Prod.mk.injEq]
          constructor
          · rintro ⟨rfl, rfl⟩
            obtain ⟨hsplit, havoids, hrest⟩ := ih.mp (Prod.eta _).symm
            refine ⟨congrArg (c :: ·) hsplit, ⟨?_, havoids⟩, hrest⟩
            rw [List.cons_append, ← hsplit, htest]
          · rintro ⟨htext, havoids, hrest⟩
            cases word with
            | nil =>
                rw [List.nil_append] at htext
                rw [← htext, htest] at hrest
                simp at hrest
            | cons d word =>
                obtain ⟨rfl, rfl⟩ := List.cons.inj htext
                have hbreak := ih.mpr ⟨rfl, havoids.2, hrest⟩
                exact ⟨by rw [hbreak], by rw [hbreak]⟩

/-- Avoiding one of two tests is avoiding both. -/
theorem avoids_or_iff {first second : Text → Bool} {word rest : Text} :
    Avoids (fun text => first text || second text) word rest ↔
      Avoids first word rest ∧ Avoids second word rest := by
  induction word with
  | nil => simp [Avoids]
  | cons c word ih =>
      simp only [Avoids, Bool.or_eq_false_iff, ih]
      constructor
      · rintro ⟨⟨hfirst, hsecond⟩, hfirsts, hseconds⟩
        exact ⟨⟨hfirst, hfirsts⟩, hsecond, hseconds⟩
      · rintro ⟨⟨hfirst, hfirsts⟩, hsecond, hseconds⟩
        exact ⟨⟨hfirst, hsecond⟩, hfirsts, hseconds⟩

theorem avoids_class_iff {kind : Char → Bool} {word rest : Text} :
    Avoids (fun text => text.head?.any kind) word rest ↔ ∀ c ∈ word, kind c = false := by
  induction word with
  | nil => simp [Avoids]
  | cons c word ih => simp [Avoids, ih]

theorem avoids_foreign_iff {word rest : Text} :
    Avoids Scanner.startsForeign word rest ↔ word.IsXml := by
  induction word with
  | nil => simp [Avoids, IsXml]
  | cons c word ih => simp [Avoids, IsXml, ih, Scanner.startsForeign]

/-- Whether a mark begins inside the content in front of it does not depend on
what follows the mark. -/
theorem closedBy_iff {mark content rest : Text} :
    Avoids mark.isPrefixOf content (mark ++ rest) ↔ ClosedBy mark content := by
  induction content with
  | nil => simp [Avoids, ClosedBy]
  | cons c content ih =>
      have hlonger : mark.length ≤ (c :: content ++ mark).length := by
        simp only [List.cons_append, List.length_cons, List.length_append]
        omega
      have hsame : mark.isPrefixOf (c :: content ++ (mark ++ rest)) =
          mark.isPrefixOf (c :: content ++ mark) := by
        rw [Bool.eq_iff_iff, List.isPrefixOf_iff_prefix, List.isPrefixOf_iff_prefix,
          ← List.append_assoc]
        constructor
        · intro hprefix
          exact List.prefix_of_prefix_length_le hprefix (List.prefix_append _ _) hlonger
        · intro hprefix
          exact hprefix.trans (List.prefix_append _ _)
      simp only [ClosedBy, Avoids, hsame] at ih ⊢
      rw [ih]

end Text

namespace Cursor

/-- Two words read in turn are one word. -/
theorem reads_append_iff {start stop : Cursor} {first second : Text} :
    start.Reads (first ++ second) stop ↔
      ∃ middle, start.Reads first middle ∧ middle.Reads second stop := by
  constructor
  · intro h
    have hrest : start.rest = first ++ (second ++ stop.rest) := by
      rw [h.rest_eq, List.append_assoc]
    refine ⟨start.past first (second ++ stop.rest), reads_past hrest, rfl, ?_⟩
    rw [h.eq_past]
    simp [past, Nat.add_assoc]
  · rintro ⟨middle, hfirst, hsecond⟩
    exact hfirst.trans hsecond

/-- Where a word leads to is decided by what is left. -/
theorem Reads.eq_of_rest_eq {start first second : Cursor} {word other : Text}
    (hfirst : start.Reads word first) (hsecond : start.Reads other second)
    (hrest : first.rest = second.rest) : word = other ∧ first = second := by
  have hword : word = other := by
    have hsame := hfirst.rest_eq.symm.trans hsecond.rest_eq
    rw [hrest] at hsame
    exact List.append_cancel_right hsame
  refine ⟨hword, ?_⟩
  rw [hfirst.eq_past, hsecond.eq_past, hword, hrest]

end Cursor

namespace Scanner

open CharClass

variable {α β : Type} {start stop : Cursor}

/-! ## Looking ahead -/

theorem pure_eq_ok_iff {value result : α} :
    (pure value : Scanner α) start = .ok (result, stop) ↔ result = value ∧ start = stop := by
  show Except.ok (value, start) = .ok (result, stop) ↔ _
  rw [Except.ok.injEq, Prod.mk.injEq, eq_comm (a := value)]

theorem get_eq_ok_iff {cursor : Cursor} :
    (get : Scanner Cursor) start = .ok (cursor, stop) ↔ start = cursor ∧ start = stop := by
  show Except.ok (start, start) = .ok (cursor, stop) ↔ _
  rw [Except.ok.injEq, Prod.mk.injEq]

theorem require_eq_ok_iff {condition : Bool} {cause : Position → Cause} {value : Unit} :
    require condition cause start = .ok (value, stop) ↔ condition = true ∧ start = stop := by
  cases condition with
  | true => simp [require]
  | false => simp [require]

theorem lookingAt_eq_ok_iff {word : String} {found : Bool} :
    lookingAt word start = .ok (found, stop) ↔
      found = start.startsWith word ∧ start = stop := by
  simp only [lookingAt, bind_eq_ok_iff, get_eq_ok_iff, pure_eq_ok_iff]
  constructor
  · rintro ⟨_, _, ⟨rfl, rfl⟩, hfound, hstop⟩
    exact ⟨hfound, hstop⟩
  · rintro ⟨hfound, hstop⟩
    exact ⟨_, _, ⟨rfl, rfl⟩, hfound, hstop⟩

theorem lookingAtClass_eq_ok_iff {kind : Char → Bool} {found : Bool} :
    lookingAtClass kind start = .ok (found, stop) ↔
      found = start.rest.head?.any kind ∧ start = stop := by
  simp only [lookingAtClass, bind_eq_ok_iff, get_eq_ok_iff, pure_eq_ok_iff]
  constructor
  · rintro ⟨_, _, ⟨rfl, rfl⟩, hfound, hstop⟩
    exact ⟨hfound, hstop⟩
  · rintro ⟨hfound, hstop⟩
    exact ⟨_, _, ⟨rfl, rfl⟩, hfound, hstop⟩

theorem peek_eq_ok_iff {found : Char} :
    peek start = .ok (found, stop) ↔ start.rest.head? = some found ∧ start = stop := by
  simp only [peek, bind_eq_ok_iff, get_eq_ok_iff]
  constructor
  · rintro ⟨_, _, ⟨rfl, rfl⟩, hrun⟩
    cases hstart : start.rest with
    | nil =>
        rw [hstart] at hrun
        cases hrun
    | cons c rest =>
        rw [hstart] at hrun
        obtain ⟨rfl, hstop⟩ := pure_eq_ok_iff.mp hrun
        exact ⟨rfl, hstop⟩
  · rintro ⟨hhead, rfl⟩
    refine ⟨_, _, ⟨rfl, rfl⟩, ?_⟩
    cases hstart : start.rest with
    | nil => simp [hstart] at hhead
    | cons c rest =>
        rw [hstart, List.head?_cons, Option.some.injEq] at hhead
        exact pure_eq_ok_iff.mpr ⟨hhead.symm, rfl⟩

/-! ## Fixed words -/

theorem expectWord_eq_ok_iff {word : String} {value : Unit} :
    expectWord word start = .ok (value, stop) ↔ start.Reads word.toList stop := by
  constructor
  · intro hrun
    simp only [expectWord] at hrun
    split at hrun
    · rename_i hstarts
      cases hrun
      obtain ⟨rest, hrest⟩ := List.isPrefixOf_iff_prefix.mp hstarts
      refine Cursor.reads_past ?_
      rw [← hrest, List.drop_left]
    · cases hrun
  · intro hreads
    have hstarts : word.toList.isPrefixOf start.rest = true := by
      rw [List.isPrefixOf_iff_prefix, hreads.rest_eq]
      exact List.prefix_append _ _
    have hdrop : start.rest.drop word.toList.length = stop.rest := by
      rw [hreads.rest_eq, List.drop_left]
    simp only [expectWord, if_pos hstarts, hdrop, Except.ok.injEq, Prod.mk.injEq, true_and]
    exact hreads.eq_past.symm

theorem expectChar_eq_ok_iff {expected : Char} {value : Unit} :
    expectChar expected start = .ok (value, stop) ↔ start.Reads [expected] stop := by
  constructor
  · intro hrun
    simp only [expectChar] at hrun
    split at hrun
    · cases hrun
    · rename_i found rest hstart
      split at hrun
      · rename_i hfound
        cases hrun
        exact hfound ▸ Cursor.reads_past hstart
      · cases hrun
  · intro hreads
    have hstart : start.rest = expected :: stop.rest := hreads.rest_eq
    simp only [expectChar, hstart, if_true, Except.ok.injEq, Prod.mk.injEq, true_and]
    exact hreads.eq_past.symm

/-- A quote is read, whichever of the two comes next. -/
theorem expectQuote_eq_ok_iff {quote : Char} :
    expectQuote start = .ok (quote, stop) ↔
      start.Reads [quote] stop ∧ (quote = '"' ∨ quote = '\'') := by
  simp only [expectQuote, bind_eq_ok_iff, peek_eq_ok_iff, require_eq_ok_iff,
    expectChar_eq_ok_iff, pure_eq_ok_iff, Bool.or_eq_true, beq_iff_eq]
  constructor
  · rintro ⟨found, _, ⟨_, rfl⟩, _, _, ⟨hquote, rfl⟩, _, _, hreads, rfl, rfl⟩
    exact ⟨hreads, hquote⟩
  · rintro ⟨hreads, hquote⟩
    have hhead : start.rest.head? = some quote := by rw [hreads.rest_eq]; rfl
    exact ⟨quote, start, ⟨hhead, rfl⟩, (), start, ⟨hquote, rfl⟩, (), stop, hreads, rfl, rfl⟩

/-! ## Runs of a class -/

/-- A run of a class is as long as it can be. -/
theorem readWhile_eq_ok_iff {keep : Char → Bool} {run : Span} :
    readWhile keep start = .ok (run, stop) ↔
      start.Reads run.text stop ∧ run.start = start.offset ∧
        (∀ c ∈ run.text, keep c = true) ∧ stop.rest.head?.any keep = false := by
  constructor
  · intro hrun
    cases hrun
    refine ⟨Cursor.reads_past List.takeWhile_append_dropWhile.symm, rfl, ?_, ?_⟩
    · intro c hc
      exact List.all_eq_true.mp List.all_takeWhile c hc
    · have hstop := List.head?_dropWhile_not keep start.rest
      simp only [Cursor.past]
      cases hhead : (start.rest.dropWhile keep).head? with
      | none => rfl
      | some c => simpa [hhead] using hstop
  · rintro ⟨hreads, hoffset, hkeep, hbehind⟩
    obtain ⟨text, offset⟩ := run
    dsimp only at hreads hoffset hkeep
    have hdropStop : stop.rest.dropWhile keep = stop.rest := by
      cases hstop : stop.rest with
      | nil => rfl
      | cons c rest =>
          have hc : keep c = false := by simpa [hstop] using hbehind
          simp [hc]
    have htakeStop : stop.rest.takeWhile keep = [] := by
      cases hstop : stop.rest with
      | nil => rfl
      | cons c rest =>
          have hc : keep c = false := by simpa [hstop] using hbehind
          simp [hc]
    have htake : start.rest.takeWhile keep = text := by
      rw [hreads.rest_eq, List.takeWhile_append_of_pos hkeep, htakeStop, List.append_nil]
    have hdrop : start.rest.dropWhile keep = stop.rest := by
      rw [hreads.rest_eq, List.dropWhile_append_of_pos hkeep, hdropStop]
    simp only [readWhile, htake, hdrop, hoffset, Except.ok.injEq, Prod.mk.injEq, true_and]
    exact hreads.eq_past.symm

theorem skipSpaces_eq_ok_iff {value : Unit} :
    skipSpaces start = .ok (value, stop) ↔
      ∃ gap, Text.IsSpaces gap ∧ start.Reads gap stop ∧
        stop.rest.head?.any isSpace = false := by
  simp only [skipSpaces, bind_eq_ok_iff, readWhile_eq_ok_iff, pure_eq_ok_iff]
  constructor
  · rintro ⟨run, _, ⟨hreads, _, hspaces, hbehind⟩, _, rfl⟩
    exact ⟨run.text, hspaces, hreads, hbehind⟩
  · rintro ⟨gap, hspaces, hreads, hbehind⟩
    exact ⟨⟨gap, start.offset⟩, stop, ⟨hreads, rfl, hspaces, hbehind⟩, trivial, rfl⟩

/-- An equals sign is read with all the spaces around it. -/
theorem expectEquals_eq_ok_iff {value : Unit} :
    expectEquals start = .ok (value, stop) ↔
      ∃ before after, Text.IsSpaces before ∧ Text.IsSpaces after ∧
        start.Reads (before ++ ['='] ++ after) stop ∧
        stop.rest.head?.any isSpace = false := by
  simp only [expectEquals, bind_eq_ok_iff, skipSpaces_eq_ok_iff, expectChar_eq_ok_iff]
  constructor
  · rintro ⟨_, _, ⟨before, hbefore, hreads, _⟩, _, _, hequals, after, hafter, hreads', hbehind⟩
    exact ⟨before, after, hbefore, hafter, (hreads.trans hequals).trans hreads', hbehind⟩
  · rintro ⟨before, after, hbefore, hafter, hreads, hbehind⟩
    obtain ⟨second, hreads, hreads'⟩ := Cursor.reads_append_iff.mp hreads
    obtain ⟨first, hreads, hequals⟩ := Cursor.reads_append_iff.mp hreads
    have hfirst : first.rest.head?.any isSpace = false := by rw [hequals.rest_eq]; rfl
    exact ⟨(), first, ⟨before, hbefore, hreads, hfirst⟩, (), second, hequals,
      after, hafter, hreads', hbehind⟩

/-! ## Runs up to a test -/

/-- A run up to a test has none but characters that may occur, and so has what
follows; the test passes there and at no place before. -/
theorem readUntil_eq_ok_iff {test : Text → Bool} {run : Span} :
    readUntil test start = .ok (run, stop) ↔
      start.Reads run.text stop ∧ run.start = start.offset ∧ run.text.IsXml ∧
        Text.Avoids test run.text stop.rest ∧
        (stop.rest = [] ∨ test stop.rest = true ∧ startsForeign stop.rest = false) := by
  constructor
  · intro hrun
    obtain ⟨hreads, hoffset, hbreak⟩ := readUntil_eq_ok hrun
    obtain ⟨_, havoids, hstop⟩ := Text.breakAt_eq_iff.mp hbreak.symm
    obtain ⟨hxml, havoids⟩ := Text.avoids_or_iff.mp havoids
    refine ⟨hreads, hoffset, Text.avoids_foreign_iff.mp hxml, havoids, ?_⟩
    cases hrest : stop.rest with
    | nil => exact Or.inl rfl
    | cons c rest =>
        -- a break at a foreign character is refused, so it was the test that passed
        have hnative : isXmlChar c = true := by
          simp only [readUntil, ← hbreak, hrest, List.head?_cons] at hrun
          split at hrun
          · assumption
          · cases hrun
        refine Or.inr ⟨?_, by simp [startsForeign, hnative]⟩
        rw [hrest] at hstop
        simpa [startsForeign, hnative] using hstop
  · rintro ⟨hreads, hoffset, hxml, havoids, hstop⟩
    obtain ⟨text, offset⟩ := run
    dsimp only at hreads hoffset hxml havoids
    have hbreak : start.rest.breakAt (fun rest => startsForeign rest || test rest) =
        (text, stop.rest) := by
      refine Text.breakAt_eq_iff.mpr ⟨hreads.rest_eq, ?_, ?_⟩
      · exact Text.avoids_or_iff.mpr ⟨Text.avoids_foreign_iff.mpr hxml, havoids⟩
      · rcases hstop with hstop | ⟨hstop, _⟩
        · exact Or.inl hstop
        · exact Or.inr (by simp [hstop])
    simp only [readUntil, hbreak, hoffset]
    cases hrest : stop.rest with
    | nil =>
        simp only [List.head?_nil, Except.ok.injEq, Prod.mk.injEq, true_and]
        rw [← hrest]
        exact hreads.eq_past.symm
    | cons c rest =>
        have hnative : isXmlChar c = true := by
          rw [hrest] at hstop
          simpa [startsForeign] using hstop.resolve_left (List.cons_ne_nil c rest) |>.2
        simp only [List.head?_cons, hnative, if_true, Except.ok.injEq, Prod.mk.injEq, true_and]
        rw [← hrest]
        exact hreads.eq_past.symm

/-- A run up to the first character of a class. -/
theorem readUntilClass_eq_ok_iff {kind : Char → Bool} {run : Span} :
    readUntilClass kind start = .ok (run, stop) ↔
      start.Reads run.text stop ∧ run.start = start.offset ∧ run.text.IsXml ∧
        (∀ c ∈ run.text, kind c = false) ∧
        (stop.rest = [] ∨
          stop.rest.head?.any kind = true ∧ startsForeign stop.rest = false) := by
  rw [readUntilClass, readUntil_eq_ok_iff, Text.avoids_class_iff]

/-- A run up to a word, then the word, and then whatever comes next. -/
theorem readUntilWord_bind_eq_ok_iff {word : String} {next : Span → Scanner β} {value : β}
    (hword : startsForeign word.toList = false) (hne : word.toList ≠ []) :
    (do let run ← readUntilWord word; expectWord word; next run) start = .ok (value, stop) ↔
      ∃ (content : Text) (middle : Cursor), start.Reads (content ++ word.toList) middle ∧
        content.IsXml ∧ Text.ClosedBy word.toList content ∧
        next ⟨content, start.offset⟩ middle = .ok (value, stop) := by
  simp only [readUntilWord, bind_eq_ok_iff, readUntil_eq_ok_iff, expectWord_eq_ok_iff]
  constructor
  · rintro ⟨⟨content, _⟩, first, ⟨hreads, rfl, hxml, havoids, _⟩, _, middle, hmark, hnext⟩
    refine ⟨content, middle, hreads.trans hmark, hxml, ?_, hnext⟩
    rw [hmark.rest_eq] at havoids
    exact Text.closedBy_iff.mp havoids
  · rintro ⟨content, middle, hreads, hxml, hclosed, hnext⟩
    obtain ⟨first, hreads, hmark⟩ := Cursor.reads_append_iff.mp hreads
    refine ⟨⟨content, start.offset⟩, first, ⟨hreads, rfl, hxml, ?_, Or.inr ⟨?_, ?_⟩⟩,
      (), middle, hmark, hnext⟩
    · rw [hmark.rest_eq]
      exact Text.closedBy_iff.mpr hclosed
    · rw [List.isPrefixOf_iff_prefix, hmark.rest_eq]
      exact List.prefix_append _ _
    · cases hmarkText : word.toList with
      | nil => exact absurd hmarkText hne
      | cons c rest =>
          rw [hmarkText] at hword
          rw [hmark.rest_eq, hmarkText]
          exact hword

/-! ## Names -/

theorem readName_eq_ok_iff {run : Span} :
    readName start = .ok (run, stop) ↔
      start.Reads run.text stop ∧ run.start = start.offset ∧ run.text.IsName ∧
        stop.rest.head?.any isNameChar = false := by
  simp only [readName, bind_eq_ok_iff, lookingAtClass_eq_ok_iff, require_eq_ok_iff,
    readWhile_eq_ok_iff]
  constructor
  · rintro ⟨_, _, ⟨rfl, rfl⟩, _, _, ⟨hstart, rfl⟩, hreads, hoffset, hchars, hbehind⟩
    refine ⟨hreads, hoffset, ⟨hchars, ?_⟩, hbehind⟩
    rw [hreads.rest_eq] at hstart
    cases hrun : run.text with
    | nil =>
        rw [hrun, List.nil_append] at hstart
        cases hrest : stop.rest with
        | nil => simp [hrest] at hstart
        | cons c rest =>
            rw [hrest] at hstart hbehind
            simp only [List.head?_cons, Option.any_some] at hstart hbehind
            rw [isNameChar_of_isNameStart hstart] at hbehind
            exact Bool.noConfusion hbehind
    | cons c rest => simpa [hrun] using hstart
  · rintro ⟨hreads, hoffset, ⟨hchars, hstart⟩, hbehind⟩
    refine ⟨_, _, ⟨rfl, rfl⟩, (), _, ⟨?_, rfl⟩, hreads, hoffset, hchars, hbehind⟩
    rw [hreads.rest_eq]
    cases hrun : run.text with
    | nil => simp [hrun] at hstart
    | cons c rest => simpa [hrun] using hstart

theorem readQualifiedName_eq_ok_iff {name : Name} :
    readQualifiedName start = .ok (name, stop) ↔
      ∃ raw : Text, start.Reads raw stop ∧ raw.IsNameChars ∧
        stop.rest.head?.any isNameChar = false ∧
        Name.ofQualified? ⟨raw, start.offset⟩ = some name := by
  simp only [readQualifiedName, bind_eq_ok_iff, readWhile_eq_ok_iff]
  constructor
  · rintro ⟨⟨raw, offset⟩, _, ⟨hreads, rfl, hchars, hbehind⟩, hrun⟩
    cases hname : Name.ofQualified? ⟨raw, start.offset⟩ with
    | none =>
        rw [hname] at hrun
        cases hrun
    | some found =>
        rw [hname] at hrun
        obtain ⟨rfl, rfl⟩ := pure_eq_ok_iff.mp hrun
        exact ⟨raw, hreads, hchars, hbehind, hname⟩
  · rintro ⟨raw, hreads, hchars, hbehind, hname⟩
    refine ⟨⟨raw, start.offset⟩, stop, ⟨hreads, rfl, hchars, hbehind⟩, ?_⟩
    rw [hname]
    exact pure_eq_ok_iff.mpr ⟨rfl, rfl⟩

end Scanner

end XmlOutline
