import XmlOutline.Proofs.Stripping.Joints

/-!
# Where control sequences stand

A text is stripped in one pass from left to right: a control sequence is passed over where
one starts, and a character is kept where none does.  What this comes to can be said
without the pass.  An escape character stands only at the start of a control sequence, so
no two of them overlap (`Sgr.OccursAt.eq_or_apart`), and what is removed are the characters
of all of them and no others.

What is left may well hold a control sequence, but not by accident.  The characters of one
that come to stand side by side had others between them, and all of these were removed: the
text held a control sequence that is interrupted by complete ones (`Sgr.Interrupted`).
Where it holds such a one, the pieces do come together.

Main statements: `Sgr.strip_removes` and `Sgr.clean_strip_iff`.
-/

namespace XmlOutline

/-! ## Characters at some places -/

namespace Text

/-- The characters at the places with the property, in their order. -/
def only (property : Nat → Prop) [DecidablePred property] (text : Text) : Text :=
  (text.zipIdx.filter fun entry => property entry.2).map Prod.fst

variable {property other : Nat → Prop} [DecidablePred property] [DecidablePred other]
  {text : Text}

theorem only_append (first second : Text) :
    (first ++ second).only property =
      first.only property ++ second.only fun place => property (first.length + place) := by
  have hshift : second.zipIdx (0 + first.length) =
      second.zipIdx.map fun entry => (entry.1, first.length + entry.2) := by
    rw [Nat.zero_add]
    exact List.zipIdx_eq_map_add
  unfold only
  rw [List.zipIdx_append, List.filter_append, List.map_append, hshift, List.filter_map,
    List.map_map]
  rfl

theorem only_congr (h : ∀ place, property place ↔ other place) :
    text.only property = text.only other := by
  unfold only
  refine congrArg _ (List.filter_congr fun entry _ => ?_)
  rw [decide_eq_decide]
  exact h entry.2

theorem only_eq_nil (h : ∀ place < text.length, ¬ property place) : text.only property = [] := by
  unfold only
  rw [List.map_eq_nil_iff, List.filter_eq_nil_iff]
  intro entry hentry
  obtain ⟨_, hlt, _⟩ := List.mem_zipIdx hentry
  simpa using h entry.2 (by simpa using hlt)

theorem only_eq_self (h : ∀ place < text.length, property place) : text.only property = text := by
  unfold only
  rw [List.filter_eq_self.mpr, List.zipIdx_map_fst]
  intro entry hentry
  obtain ⟨_, hlt, _⟩ := List.mem_zipIdx hentry
  simpa using h entry.2 (by simpa using hlt)

end Text

namespace Sgr

variable {text first second word word' after after' : Text}
  {start stop start' stop' place : Nat}

/-! ## Control sequences as words -/

instance : DecidablePred IsSequence := fun word =>
  decidable_of_iff (dropSequence? word = some []) <| by
    rw [dropSequence?_eq_some_iff]
    simp

/-- An escape character stands at the start of a control sequence and nowhere else. -/
theorem IsSequence.exists_eq_cons (h : IsSequence word) :
    ∃ rest, word = escape :: rest ∧ escape ∉ rest := by
  obtain ⟨parameters, hparameters, rfl⟩ := h
  refine ⟨'[' :: parameters ++ ['m'], rfl, fun hmem => ?_⟩
  have hcontinues := isContinuation_of_mem hparameters hmem
  exact absurd hcontinues (by decide)

/-- A text starts with one control sequence at most. -/
theorem IsSequence.unique (h : IsSequence word) (h' : IsSequence word')
    (heq : word ++ after = word' ++ after') : word = word' := by
  have hdrop : dropSequence? (word ++ after) = some after :=
    dropSequence?_eq_some_iff.mpr ⟨word, h, rfl⟩
  have hdrop' : dropSequence? (word ++ after) = some after' :=
    dropSequence?_eq_some_iff.mpr ⟨word', h', heq⟩
  obtain rfl : after = after' := Option.some.inj (hdrop.symm.trans hdrop')
  exact List.append_cancel_right heq

/-! ## Where they stand -/

/-- The characters from one place up to another are a control sequence. -/
def OccursAt (text : Text) (start stop : Nat) : Prop :=
  stop ≤ text.length ∧ IsSequence (text.extract start stop)

instance : Decidable (OccursAt text start stop) := inferInstanceAs (Decidable (_ ∧ _))

/-- Some control sequence of the text goes across the place. -/
def Covered (text : Text) (place : Nat) : Prop :=
  ∃ start stop, OccursAt text start stop ∧ start ≤ place ∧ place < stop

theorem occursAt_iff :
    OccursAt text start stop ↔
      ∃ before word after, text = before ++ (word ++ after) ∧ IsSequence word ∧
        start = before.length ∧ stop = before.length + word.length := by
  unfold OccursAt
  rw [List.extract_eq_take_drop]
  constructor
  · intro h
    obtain ⟨hstop, hword⟩ := h
    have hlt : start < stop := by
      obtain ⟨rest, hcons, _⟩ := hword.exists_eq_cons
      have hlength := congrArg List.length hcons
      simp only [List.length_take, List.length_cons] at hlength
      omega
    refine ⟨text.take start, _, (text.drop start).drop (stop - start), ?_, hword, ?_, ?_⟩
    · rw [List.take_append_drop, List.take_append_drop]
    · rw [List.length_take]
      omega
    · rw [List.length_take, List.length_take, List.length_drop]
      omega
  · intro h
    obtain ⟨before, word, after, rfl, hword, rfl, rfl⟩ := h
    refine ⟨by simp, ?_⟩
    simpa using hword

/-- A control sequence is found again behind more text. -/
theorem occursAt_append_iff :
    OccursAt (first ++ second) (first.length + start) (first.length + stop) ↔
      OccursAt second start stop := by
  unfold OccursAt
  rw [List.extract_eq_take_drop, List.extract_eq_take_drop, List.drop_length_add_append,
    List.length_append, Nat.add_sub_add_left, Nat.add_le_add_iff_left]

theorem occursAt_sequence_append (hword : IsSequence word) (after : Text) :
    OccursAt (word ++ after) 0 word.length :=
  occursAt_iff.mpr ⟨[], word, after, rfl, hword, rfl, by simp⟩

/-- Where a control sequence stands at the start of the text, it can be dropped. -/
theorem dropSequence?_of_occursAt (h : OccursAt text 0 stop) : dropSequence? text ≠ none := by
  obtain ⟨before, word, after, rfl, hword, hstart, _⟩ := occursAt_iff.mp h
  obtain rfl := List.eq_nil_of_length_eq_zero hstart.symm
  have hsome : dropSequence? (word ++ after) = some after :=
    dropSequence?_eq_some_iff.mpr ⟨word, hword, rfl⟩
  rw [List.nil_append, hsome]
  exact Option.some_ne_none _

theorem OccursAt.lt (h : OccursAt text start stop) : start < stop := by
  obtain ⟨before, word, after, _, hword, rfl, rfl⟩ := occursAt_iff.mp h
  obtain ⟨rest, rfl, _⟩ := hword.exists_eq_cons
  simp

/-- Among the places of a control sequence, only the first one holds an escape character. -/
theorem OccursAt.escape_iff (h : OccursAt text start stop) (hstart : start ≤ place)
    (hstop : place < stop) : text[place]? = some escape ↔ place = start := by
  obtain ⟨before, word, after, rfl, hword, rfl, rfl⟩ := occursAt_iff.mp h
  obtain ⟨rest, rfl, hrest⟩ := hword.exists_eq_cons
  obtain ⟨offset, rfl⟩ := Nat.exists_eq_add_of_le hstart
  rw [List.getElem?_append_right (Nat.le_add_right _ _), Nat.add_sub_cancel_left]
  cases offset with
  | zero => simp
  | succ offset =>
      have hlt : offset < rest.length := by simpa using hstop
      have hne : rest[offset] ≠ escape := fun heq => hrest (heq ▸ List.getElem_mem hlt)
      simp [List.getElem?_append_left hlt, List.getElem?_eq_getElem hlt, hne]

/-- Two control sequences in a text are one and the same, or one ends before the other
starts. -/
theorem OccursAt.eq_or_apart (h : OccursAt text start stop) (h' : OccursAt text start' stop') :
    start = start' ∧ stop = stop' ∨ stop ≤ start' ∨ stop' ≤ start := by
  have hescape : text[start]? = some escape := (h.escape_iff (Nat.le_refl _) h.lt).mpr rfl
  have hescape' : text[start']? = some escape := (h'.escape_iff (Nat.le_refl _) h'.lt).mpr rfl
  rcases Nat.lt_trichotomy start start' with hlt | heq | hlt
  · -- the second one starts with an escape character, and the first has no further one
    refine Or.inr (Or.inl (Nat.le_of_not_lt fun hstop => ?_))
    have := (h.escape_iff hlt.le hstop).mp hescape'
    omega
  · refine Or.inl ⟨heq, ?_⟩
    obtain ⟨before, word, after, htext, hword, rfl, rfl⟩ := occursAt_iff.mp h
    obtain ⟨before', word', after', htext', hword', rfl, rfl⟩ := occursAt_iff.mp h'
    obtain ⟨_, hrest⟩ := List.append_inj (htext.symm.trans htext') heq
    rw [heq, hword.unique hword' hrest]
  · refine Or.inr (Or.inr (Nat.le_of_not_lt fun hstop => ?_))
    have := (h'.escape_iff hlt.le hstop).mp hescape
    omega

/-! ## What stripping removes -/

/-- Behind a first part of a text the same places are covered as without it, if no control
sequence that starts in it goes beyond its end. -/
theorem covered_append_iff
    (h : ∀ start stop, OccursAt (first ++ second) start stop → first.length < stop →
      first.length ≤ start) :
    Covered (first ++ second) (first.length + place) ↔ Covered second place := by
  constructor
  · intro hcovered
    obtain ⟨start, stop, hoccurs, hstart, hstop⟩ := hcovered
    have hbehind : first.length ≤ start := h start stop hoccurs (by omega)
    obtain ⟨start, rfl⟩ := Nat.exists_eq_add_of_le hbehind
    obtain ⟨stop, rfl⟩ := Nat.exists_eq_add_of_le (hbehind.trans hoccurs.lt.le)
    exact ⟨start, stop, occursAt_append_iff.mp hoccurs, by omega, by omega⟩
  · intro hcovered
    obtain ⟨start, stop, hoccurs, hstart, hstop⟩ := hcovered
    exact ⟨_, _, occursAt_append_iff.mpr hoccurs, by omega, by omega⟩

/-- All of a control sequence at the start of a text is covered, and behind it the same
places are as without it. -/
theorem covered_sequence_append (hword : IsSequence word) (after : Text) :
    (∀ place < word.length, Covered (word ++ after) place) ∧
      ∀ place, Covered (word ++ after) (word.length + place) ↔ Covered after place := by
  have hfirst := occursAt_sequence_append hword after
  refine ⟨fun place hplace => ⟨0, word.length, hfirst, Nat.zero_le _, hplace⟩,
    fun place => covered_append_iff fun start stop hoccurs hstop => ?_⟩
  rcases hoccurs.eq_or_apart hfirst with ⟨_, heq⟩ | hle | hle <;> omega

/-- A character where no control sequence starts is not covered if it is the first one of
the text, and behind it the same places are as without it. -/
theorem covered_cons_of_none {c : Char} {rest : Text}
    (hnone : dropSequence? (c :: rest) = none) :
    ¬ Covered (c :: rest) 0 ∧
      ∀ place, Covered (c :: rest) (1 + place) ↔ Covered rest place := by
  have hbehind {start stop : Nat} (hoccurs : OccursAt (c :: rest) start stop) : 1 ≤ start := by
    refine Nat.pos_of_ne_zero fun hzero => ?_
    rw [hzero] at hoccurs
    exact dropSequence?_of_occursAt hoccurs hnone
  refine ⟨fun h => ?_, fun place => ?_⟩
  · obtain ⟨start, stop, hoccurs, hstart, _⟩ := h
    have := hbehind hoccurs
    omega
  · have hwhole : Covered ([c] ++ rest) ([c].length + place) ↔ Covered rest place :=
      covered_append_iff fun start stop hoccurs _ => hbehind hoccurs
    exact hwhole

instance : DecidablePred (Covered text) := fun place =>
  decidable_of_iff (∃ start < place + 1, ∃ stop < text.length + 1,
      OccursAt text start stop ∧ place < stop) <| by
    constructor
    · intro h
      obtain ⟨start, hstart, stop, _, hoccurs, hstop⟩ := h
      exact ⟨start, stop, hoccurs, Nat.le_of_lt_succ hstart, hstop⟩
    · intro h
      obtain ⟨start, stop, hoccurs, hstart, hstop⟩ := h
      exact ⟨start, Nat.lt_succ_of_le hstart, stop, Nat.lt_succ_of_le hoccurs.1, hoccurs, hstop⟩

/-- What stripping leaves is told place by place. -/
theorem strip_eq_only (text : Text) :
    strip text = text.only fun place => ¬ Covered text place := by
  fun_induction strip text with
  | case1 text after hdrop _ ih =>
      obtain ⟨word, hword, rfl⟩ := dropSequence?_eq_some_iff.mp hdrop
      obtain ⟨hcovered, hbehind⟩ := covered_sequence_append hword after
      have hremoved : Text.only (fun place => ¬ Covered (word ++ after) place) word = [] :=
        Text.only_eq_nil fun place hplace => not_not.mpr (hcovered place hplace)
      rw [Text.only_append, hremoved, List.nil_append, ih]
      exact Text.only_congr fun place => not_congr (hbehind place).symm
  | case2 => rfl
  | case3 c rest hnone ih =>
      obtain ⟨hfirst, hbehind⟩ := covered_cons_of_none hnone
      have hkept : Text.only (fun place => ¬ Covered (c :: rest) place) [c] = [c] := by
        refine Text.only_eq_self fun place hplace => ?_
        obtain rfl := Nat.lt_one_iff.mp hplace
        exact hfirst
      calc c :: strip rest
          = c :: Text.only (fun place => ¬ Covered (c :: rest) (1 + place)) rest := by
            rw [ih]
            exact congrArg _ (Text.only_congr fun place => not_congr (hbehind place).symm)
        _ = Text.only (fun place => ¬ Covered (c :: rest) place) [c] ++
              Text.only (fun place => ¬ Covered (c :: rest) (1 + place)) rest := by
            rw [hkept, List.singleton_append]
        _ = Text.only (fun place => ¬ Covered (c :: rest) place) (c :: rest) :=
            (Text.only_append [c] rest).symm

/-- No two control sequences in a text overlap, and stripping removes the characters of all
of them.  Every other character is kept, in its order. -/
theorem strip_removes (text : Text) :
    (∀ start stop start' stop', OccursAt text start stop → OccursAt text start' stop' →
      start = start' ∧ stop = stop' ∨ stop ≤ start' ∨ stop' ≤ start) ∧
    strip text = text.only fun place => ¬ Covered text place :=
  ⟨fun _ _ _ _ h h' => h.eq_or_apart h', strip_eq_only text⟩

example : strip "a\x1b[1\x1b[31mb\x1b[xm\x1b[".toList = "a\x1b[1b\x1b[xm\x1b[".toList := by
  decide +kernel

/-! ## What is left -/

theorem length_strip_le (text : Text) : (strip text).length ≤ text.length := by
  fun_induction strip text with
  | case1 text after hdrop _ ih => exact ih.trans (length_lt_of_dropSequence? hdrop).le
  | case2 => exact Nat.le_refl _
  | case3 c rest _ ih => exact Nat.succ_le_succ ih

/-- A text is left as it is exactly if no control sequence stands in it. -/
theorem strip_eq_self_iff : strip text = text ↔ ∀ start stop, ¬ OccursAt text start stop := by
  constructor
  · intro h start stop hoccurs
    obtain ⟨before, word, after, rfl, hword, _, _⟩ := occursAt_iff.mp hoccurs
    obtain ⟨rest, rfl, _⟩ := hword.exists_eq_cons
    have hcut : CutsOff (escape :: rest ++ after) := cutsOff_cons (by decide) _
    rw [strip_append_of_cutsOff before hcut, strip_sequence_append hword] at h
    have hlength := congrArg List.length h
    have hbefore := length_strip_le before
    have hafter := length_strip_le after
    simp only [List.length_append, List.length_cons] at hlength
    omega
  · intro h
    rw [strip_eq_only]
    refine Text.only_eq_self fun place _ hcovered => ?_
    obtain ⟨start, stop, hoccurs, _⟩ := hcovered
    exact h start stop hoccurs

/-- The second text is the first one with control sequences put in, each of them before
some character. -/
inductive Inserted : Text → Text → Prop where
  | nil : Inserted [] []
  | keep {word spelled : Text} (c : Char) (h : Inserted word spelled) :
      Inserted (c :: word) (c :: spelled)
  | insert {inner word spelled : Text} {c : Char} (hinner : IsSequence inner)
      (h : Inserted (c :: word) spelled) : Inserted (c :: word) (inner ++ spelled)

/-- The text holds a control sequence with complete ones between its characters. -/
def Interrupted (text : Text) : Prop :=
  ∃ before word spelled after, text = before ++ (escape :: spelled ++ after) ∧
    IsSequence (escape :: word) ∧ Inserted word spelled ∧ word ≠ spelled

/-- What is put into a text without escape characters is removed again. -/
theorem Inserted.stripsTo {spelled : Text} (h : Inserted word spelled) (hword : escape ∉ word) :
    StripsTo spelled word := by
  intro tail
  induction h with
  | nil => rfl
  | keep c _ ih =>
      have hc : c ≠ escape := fun heq => hword (heq ▸ List.mem_cons_self)
      rw [List.cons_append, strip_cons hc, ih fun hmem => hword (List.mem_cons_of_mem _ hmem),
        List.cons_append]
  | insert hinner _ ih => rw [List.append_assoc, strip_sequence_append hinner, ih hword]

/-- The first that is put in breaks the text off before its end. -/
theorem Inserted.exists_broken {spelled : Text} (h : Inserted word spelled)
    (hne : word ≠ spelled) :
    ∃ begun missing rest, word = begun ++ missing ∧ missing ≠ [] ∧
      spelled = begun ++ escape :: rest := by
  induction h with
  | nil => exact absurd rfl hne
  | keep c _ ih =>
      obtain ⟨begun, missing, rest, rfl, hmissing, rfl⟩ := ih fun heq => hne (congrArg _ heq)
      exact ⟨c :: begun, missing, rest, rfl, hmissing, rfl⟩
  | @insert inner word spelled c hinner _ _ =>
      obtain ⟨rest, rfl, _⟩ := hinner.exists_eq_cons
      exact ⟨[], c :: word, rest ++ spelled, rfl, List.cons_ne_nil _ _, rfl⟩

/-- An interrupted control sequence is not complete where it starts. -/
theorem Inserted.dropSequence?_eq_none {spelled : Text} (h : Inserted word spelled)
    (hword : IsSequence (escape :: word)) (hne : word ≠ spelled) (after : Text) :
    dropSequence? (escape :: (spelled ++ after)) = none := by
  obtain ⟨begun, missing, rest, rfl, hmissing, rfl⟩ := h.exists_broken hne
  have hbegun : dropSequence? (escape :: begun) = none := by
    rw [Option.eq_none_iff_forall_ne_some]
    intro later hsome
    obtain ⟨word, hword', hsplit⟩ := dropSequence?_eq_some_iff.mp hsome
    have hwhole : escape :: (begun ++ missing) ++ [] = word ++ (later ++ missing) := by
      rw [List.append_nil, ← List.cons_append, hsplit, List.append_assoc]
    obtain rfl := hword.unique hword' hwhole
    have hlength := congrArg List.length hsplit
    have hpos := List.length_pos_of_ne_nil hmissing
    simp only [List.length_cons, List.length_append] at hlength
    omega
  have hcut : CutsOff (escape :: rest ++ after) := cutsOff_cons (by decide) _
  rw [List.append_assoc]
  exact dropSequence?_append_eq_none hbegun hcut

/-- What is left up to some point was there with control sequences put in. -/
theorem exists_inserted_of_strip (h : strip text = first ++ second) :
    ∃ spelled rest, text = spelled ++ rest ∧ Inserted first spelled ∧ strip rest = second := by
  fun_induction strip text generalizing first with
  | case1 text after hdrop _ ih =>
      obtain ⟨word, hword, rfl⟩ := dropSequence?_eq_some_iff.mp hdrop
      cases first with
      | nil => exact ⟨[], word ++ after, rfl, .nil, by rw [strip_sequence_append hword, h]; rfl⟩
      | cons c first =>
          obtain ⟨spelled, rest, rfl, hinserted, hrest⟩ := ih h
          exact ⟨word ++ spelled, rest, by simp, .insert hword hinserted, hrest⟩
  | case2 =>
      obtain ⟨rfl, rfl⟩ := List.append_eq_nil_iff.mp h.symm
      exact ⟨[], [], rfl, .nil, strip_nil⟩
  | case3 c rest hnone ih =>
      cases first with
      | nil => exact ⟨[], c :: rest, rfl, .nil, by rw [strip_cons_of_none hnone, h]; rfl⟩
      | cons d first =>
          obtain ⟨rfl, htail⟩ := List.cons.inj h
          obtain ⟨spelled, rest, rfl, hinserted, hrest⟩ := ih htail
          exact ⟨c :: spelled, rest, rfl, .keep c hinserted, hrest⟩

/-- Where a character was kept, no control sequence started. -/
theorem exists_none_of_strip {c : Char} (h : strip text = c :: second) :
    ∃ before rest, text = before ++ c :: rest ∧ dropSequence? (c :: rest) = none ∧
      strip rest = second := by
  fun_induction strip text with
  | case1 text after hdrop _ ih =>
      obtain ⟨word, _, rfl⟩ := dropSequence?_eq_some_iff.mp hdrop
      obtain ⟨before, rest, rfl, hnone, hrest⟩ := ih h
      exact ⟨word ++ before, rest, by simp, hnone, hrest⟩
  | case2 => cases h
  | case3 d rest hnone ih =>
      obtain ⟨rfl, htail⟩ := List.cons.inj h
      exact ⟨[], rest, rfl, hnone, htail⟩

/-- A control sequence is left exactly where an interrupted one was. -/
theorem exists_occursAt_strip_iff :
    (∃ start stop, OccursAt (strip text) start stop) ↔ Interrupted text := by
  constructor
  · intro h
    obtain ⟨start, stop, hoccurs⟩ := h
    obtain ⟨kept, word, later, hstrip, hword, _, _⟩ := occursAt_iff.mp hoccurs
    obtain ⟨word, rfl, _⟩ := hword.exists_eq_cons
    -- what came before it, its escape character, and what was made of the rest of it
    obtain ⟨before, rest, rfl, _, hstrip⟩ := exists_inserted_of_strip hstrip
    obtain ⟨gap, rest, rfl, hnone, hstrip⟩ := exists_none_of_strip hstrip
    obtain ⟨spelled, after, rfl, hinserted, _⟩ := exists_inserted_of_strip hstrip
    refine ⟨before ++ gap, word, spelled, after, by simp, hword, hinserted, ?_⟩
    rintro rfl
    have hsome : dropSequence? (escape :: (word ++ after)) = some after :=
      dropSequence?_eq_some_iff.mpr ⟨escape :: word, hword, rfl⟩
    rw [hnone] at hsome
    cases hsome
  · intro h
    obtain ⟨before, word, spelled, after, rfl, hword, hinserted, hne⟩ := h
    have hescape : escape ∉ word := by
      obtain ⟨_, hcons, hescape⟩ := hword.exists_eq_cons
      obtain ⟨_, rfl⟩ := List.cons.inj hcons
      exact hescape
    have hcut : CutsOff (escape :: spelled ++ after) := cutsOff_cons (by decide) _
    have hstrip : strip (before ++ (escape :: spelled ++ after)) =
        strip before ++ (escape :: word ++ strip after) := by
      rw [strip_append_of_cutsOff before hcut, List.cons_append,
        strip_cons_of_none (hinserted.dropSequence?_eq_none hword hne after),
        hinserted.stripsTo hescape, List.cons_append]
    exact ⟨_, _, occursAt_iff.mpr ⟨strip before, escape :: word, strip after, hstrip, hword, rfl,
      rfl⟩⟩

/-- What is left of a text is free of control sequences, and stripping it again changes
nothing, exactly if no control sequence in the text is interrupted by others. -/
theorem clean_strip_iff (text : Text) :
    ((∀ start stop, ¬ OccursAt (strip text) start stop) ↔ ¬ Interrupted text) ∧
      (strip (strip text) = strip text ↔ ¬ Interrupted text) := by
  have hclean : (∀ start stop, ¬ OccursAt (strip text) start stop) ↔ ¬ Interrupted text := by
    rw [← exists_occursAt_strip_iff]
    simp only [not_exists]
  exact ⟨hclean, strip_eq_self_iff.trans hclean⟩

/-- Removing the inner one of these two control sequences brings the outer one together. -/
theorem strip_interrupted :
    let text := "\x1b[\x1b[mm".toList
    OccursAt (strip text) 0 3 ∧ strip (strip text) ≠ strip text := by
  decide +kernel

end Sgr

end XmlOutline
