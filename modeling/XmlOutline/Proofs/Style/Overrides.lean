import XmlOutline.Style.Overrides
import Mathlib.Data.List.Forall2
import Mathlib.Data.List.TakeWhile

/-!
# What a list of overrides does

`Override.Reads` and `Override.Faulty` describe one entry without a search: an entry has a
first equals sign or none, what stands before it is the name of a role or not, and what
stands behind it is made of digits and semicolons or not.  Every entry is of exactly one of
these kinds, and reading it tells which.  Which entries there are is described in the same
way: they are what is left of the pieces between the colons (`Override.Lists`).

Of a list of entries, `Override.Decides` says what becomes of one role: the last entry that
names the role decides, and without one the role keeps its decoration.  An application of
the entries goes from left to right, so the step of each induction below puts an entry in
front of the list and updates the style that the rest starts from.

Main statement: `Style.withOverrides_last_entry_wins`.
-/

namespace XmlOutline

namespace Override

/-! ## One entry -/

/-- The entry is an override.  Empty parameters stand for no decoration. -/
inductive Reads : Text → Override → Prop
  | removed {front behind : Text} {role : Role} (hfirst : '=' ∉ front)
      (hname : Text.TrimsTo front role.name.toList) (hempty : Text.TrimsTo behind []) :
      Reads (front ++ '=' :: behind) ⟨role, .identity⟩
  | replaced {front behind parameters : Text} {role : Role} (hfirst : '=' ∉ front)
      (hname : Text.TrimsTo front role.name.toList) (htrim : Text.TrimsTo behind parameters)
      (hne : parameters ≠ []) (hparameters : ∀ c ∈ parameters, c.isDigit = true ∨ c = ';') :
      Reads (front ++ '=' :: behind) ⟨role, .sgr parameters⟩

/-- The entry has this fault.  The name is looked at before the parameters are. -/
inductive Faulty : Text → OverrideFault → Prop
  | noEqualsSign {entry : Text} (hnone : '=' ∉ entry) : Faulty entry (.noEqualsSign entry)
  | unknownRole {front behind name : Text} (hfirst : '=' ∉ front)
      (htrim : Text.TrimsTo front name) (hname : ∀ role : Role, name ≠ role.name.toList) :
      Faulty (front ++ '=' :: behind) (.unknownRole name)
  | badParameters {front behind parameters : Text} {role : Role} (hfirst : '=' ∉ front)
      (hname : Text.TrimsTo front role.name.toList) (htrim : Text.TrimsTo behind parameters)
      (hparameters : ∃ c ∈ parameters, ¬(c.isDigit = true ∨ c = ';')) :
      Faulty (front ++ '=' :: behind) (.badParameters parameters role)

/-- The entry can be used. -/
def Usable (entry : Text) : Prop := ∃ override, Reads entry override

theorem parse_of_not_mem {entry : Text} (hnone : '=' ∉ entry) :
    parse entry = .error (.noEqualsSign entry) := by
  have hdrop : entry.dropWhile (· != '=') = [] :=
    List.dropWhile_eq_nil_iff.mpr fun c hc => bne_iff_ne.mpr fun h => hnone (h ▸ hc)
  rw [parse, hdrop]

/-- Only the first equals sign of an entry separates the name from the parameters. -/
theorem parse_append {front behind : Text} (hfirst : '=' ∉ front) :
    parse (front ++ '=' :: behind) = (do
      let role ← parseRole (Text.trim front)
      if (Text.trim behind).all Sgr.isParameter then
        return ⟨role, decorationOf (Text.trim behind)⟩
      else throw (.badParameters (Text.trim behind) role)) := by
  have hfront : ∀ c ∈ front, (c != '=') = true :=
    fun c hc => bne_iff_ne.mpr fun h => hfirst (h ▸ hc)
  have hdrop : (front ++ '=' :: behind).dropWhile (· != '=') = '=' :: behind := by
    rw [List.dropWhile_append_of_pos hfront, List.dropWhile_cons_of_neg (by decide)]
  have htake : (front ++ '=' :: behind).takeWhile (· != '=') = front := by
    rw [List.takeWhile_append_of_pos hfront, List.takeWhile_cons_of_neg (by decide),
      List.append_nil]
  rw [parse, hdrop, htake]

theorem parseRole_name (role : Role) : parseRole role.name.toList = .ok role := by
  rw [parseRole, Role.ofName?_eq_some_iff.mpr rfl]

theorem parseRole_eq_error {name : Text} (hname : ∀ role : Role, name ≠ role.name.toList) :
    parseRole name = .error (.unknownRole name) := by
  cases hrole : Role.ofName? name with
  | none => rw [parseRole, hrole]
  | some role => exact absurd (Role.ofName?_eq_some_iff.mp hrole) (hname role)

theorem Reads.parse_eq {entry : Text} {override : Override} (h : Reads entry override) :
    parse entry = .ok override := by
  cases h with
  | removed hfirst hname hempty =>
      rw [parse_append hfirst, Text.trim_eq_iff.mpr hname, parseRole_name,
        Text.trim_eq_iff.mpr hempty]
      rfl
  | @replaced front behind parameters role hfirst hname htrim hne hparameters =>
      have hall : parameters.all Sgr.isParameter = true :=
        List.all_eq_true.mpr fun c hc => Sgr.isParameter_eq_true_iff.mpr (hparameters c hc)
      have hdecoration : decorationOf parameters = .sgr parameters :=
        if_neg fun h => hne (List.isEmpty_iff.mp h)
      rw [parse_append hfirst, Text.trim_eq_iff.mpr hname, parseRole_name,
        Text.trim_eq_iff.mpr htrim, ← hdecoration]
      exact if_pos hall

theorem Faulty.parse_eq {entry : Text} {fault : OverrideFault} (h : Faulty entry fault) :
    parse entry = .error fault := by
  cases h with
  | noEqualsSign hnone => exact parse_of_not_mem hnone
  | unknownRole hfirst htrim hname =>
      rw [parse_append hfirst, Text.trim_eq_iff.mpr htrim, parseRole_eq_error hname]
      rfl
  | @badParameters front behind parameters role hfirst hname htrim hparameters =>
      have hnot : ¬parameters.all Sgr.isParameter = true := by
        intro hall
        obtain ⟨c, hc, hbad⟩ := hparameters
        exact hbad (Sgr.isParameter_eq_true_iff.mp (List.all_eq_true.mp hall c hc))
      rw [parse_append hfirst, Text.trim_eq_iff.mpr hname, parseRole_name,
        Text.trim_eq_iff.mpr htrim]
      exact if_neg hnot

/-- Every entry can be used or has a fault. -/
theorem usable_or_faulty (entry : Text) : Usable entry ∨ ∃ fault, Faulty entry fault := by
  by_cases hmem : '=' ∈ entry
  · obtain ⟨front, behind, rfl, hfirst⟩ := List.eq_append_cons_of_mem hmem
    obtain ⟨name, htrim⟩ : ∃ name, Text.TrimsTo front name := ⟨_, Text.trim_eq_iff.mp rfl⟩
    obtain ⟨parameters, hbehind⟩ : ∃ parameters, Text.TrimsTo behind parameters :=
      ⟨_, Text.trim_eq_iff.mp rfl⟩
    by_cases hname : ∃ role : Role, name = role.name.toList
    · obtain ⟨role, rfl⟩ := hname
      by_cases hparameters : ∀ c ∈ parameters, c.isDigit = true ∨ c = ';'
      · rcases eq_or_ne parameters [] with rfl | hne
        · exact .inl ⟨_, .removed hfirst htrim hbehind⟩
        · exact .inl ⟨_, .replaced hfirst htrim hbehind hne hparameters⟩
      · have hbad : ∃ c ∈ parameters, ¬(c.isDigit = true ∨ c = ';') := by
          simpa only [not_forall, exists_prop] using hparameters
        exact .inr ⟨_, .badParameters hfirst htrim hbehind hbad⟩
    · exact .inr ⟨_, .unknownRole hfirst htrim fun role h => hname ⟨role, h⟩⟩
  · exact .inr ⟨_, .noEqualsSign hmem⟩

theorem parse_eq_error_iff {entry : Text} {fault : OverrideFault} :
    parse entry = .error fault ↔ Faulty entry fault := by
  refine ⟨fun h => ?_, Faulty.parse_eq⟩
  obtain ⟨override, hreads⟩ | ⟨other, hfaulty⟩ := usable_or_faulty entry
  · cases h.symm.trans hreads.parse_eq
  · cases h.symm.trans hfaulty.parse_eq
    exact hfaulty

/-- An entry is at most one override. -/
theorem Reads.unique {entry : Text} {first second : Override} (hfirst : Reads entry first)
    (hsecond : Reads entry second) : first = second :=
  Except.ok.inj (hfirst.parse_eq.symm.trans hsecond.parse_eq)

theorem Faulty.not_usable {entry : Text} {fault : OverrideFault} (h : Faulty entry fault) :
    ¬ Usable entry := by
  rintro ⟨override, hreads⟩
  cases h.parse_eq.symm.trans hreads.parse_eq

/-! ## The entries of a list -/

/-- These are the entries of the list: what is left of the pieces between its colons when
they are trimmed, but for those of which nothing is left. -/
def Lists (overrides : Text) (list : List Text) : Prop :=
  ∃ pieces kept : List Text, pieces ≠ [] ∧ overrides = [':'].intercalate pieces ∧
    (∀ piece ∈ pieces, ':' ∉ piece) ∧ List.Forall₂ Text.TrimsTo pieces kept ∧
    list = kept.filter (· ≠ [])

private theorem colon_notMem_of_mem_splitOn {overrides piece : Text}
    (h : piece ∈ overrides.splitOn ':') : ':' ∉ piece := by
  induction overrides generalizing piece with
  | nil =>
      obtain rfl := List.mem_singleton.mp h
      exact List.not_mem_nil
  | cons c rest ih =>
      obtain ⟨first, others, hsplit⟩ :=
        List.exists_cons_of_ne_nil (List.splitOn_ne_nil ':' rest)
      rw [List.splitOn_cons_eq_if_modifyHead, hsplit] at h
      rw [hsplit] at ih
      split at h
      · rcases List.mem_cons.mp h with rfl | h
        · exact List.not_mem_nil
        · exact ih h
      · rename_i hc
        rcases List.mem_cons.mp h with rfl | h
        · have hne : ':' ≠ c := fun h => hc (beq_iff_eq.mpr h.symm)
          exact List.not_mem_cons_of_ne_of_not_mem hne (ih List.mem_cons_self)
        · exact ih (List.mem_cons_of_mem _ h)

private theorem forall₂_trimsTo_iff {pieces kept : List Text} :
    List.Forall₂ Text.TrimsTo pieces kept ↔ pieces.map Text.trim = kept := by
  rw [← List.forall₂_eq_eq_eq, List.forall₂_map_left_iff]
  simp only [Text.trim_eq_iff]

/-- A list of overrides is split into its entries. -/
theorem lists_iff {overrides : Text} {list : List Text} :
    Lists overrides list ↔ entries overrides = list := by
  have hshown (kept : List Text) :
      (kept.filter fun entry => !entry.isEmpty) = kept.filter (· ≠ []) :=
    List.filter_congr fun entry _ => by cases entry <;> rfl
  rw [entries, hshown]
  constructor
  · rintro ⟨pieces, kept, hne, rfl, hpieces, hkept, rfl⟩
    rw [List.splitOn_intercalate ':' hpieces hne, forall₂_trimsTo_iff.mp hkept]
  · rintro rfl
    exact ⟨overrides.splitOn ':', _, List.splitOn_ne_nil _ _,
      (List.intercalate_splitOn ':').symm, fun piece => colon_notMem_of_mem_splitOn,
      forall₂_trimsTo_iff.mpr rfl, rfl⟩

/-- What becomes of the decoration of a role. -/
inductive Decides (entries : List Text) (role : Role) (old : Decoration) : Decoration → Prop
  /-- The last entry that names the role gives its decoration. -/
  | named {before after : List Text} {entry : Text} {decoration : Decoration}
      (hsplit : entries = before ++ entry :: after) (hreads : Reads entry ⟨role, decoration⟩)
      (hlater : ∀ later ∈ after, ∀ override, Reads later override → override.role ≠ role) :
      Decides entries role old decoration
  /-- A role that no entry names is left as it is. -/
  | unnamed
      (hnone : ∀ entry ∈ entries, ∀ override, Reads entry override → override.role ≠ role) :
      Decides entries role old old

/-- The first entry that cannot be used has this fault. -/
def FirstFault (entries : List Text) (fault : OverrideFault) : Prop :=
  ∃ before entry after, entries = before ++ entry :: after ∧
    (∀ earlier ∈ before, Usable earlier) ∧ Faulty entry fault

theorem decides_nil_iff {role : Role} {old new : Decoration} :
    Decides [] role old new ↔ new = old := by
  constructor
  · intro h
    cases h with
    | named hsplit => simp at hsplit
    | unnamed => rfl
  · rintro rfl
    exact .unnamed (by simp)

/-- An entry in front decides about its own role, unless the rest does. -/
theorem decides_cons_iff {entry : Text} {rest : List Text} {override : Override} {role : Role}
    {old new : Decoration} (hreads : Reads entry override) :
    Decides (entry :: rest) role old new ↔
      Decides rest role (if role = override.role then override.decoration else old) new := by
  constructor
  · intro h
    cases h with
    | @named before after last _ hsplit hlast hlater =>
        cases before with
        | nil =>
            obtain ⟨rfl, rfl⟩ := List.cons.inj hsplit
            cases hreads.unique hlast
            rw [if_pos rfl]
            exact .unnamed hlater
        | cons first before =>
            obtain ⟨rfl, rfl⟩ := List.cons.inj hsplit
            exact .named rfl hlast hlater
    | unnamed hnone =>
        have hother := hnone entry List.mem_cons_self override hreads
        rw [if_neg fun h => hother h.symm]
        exact .unnamed fun later hlater => hnone later (List.mem_cons_of_mem _ hlater)
  · intro h
    generalize hold : (if role = override.role then override.decoration else old) = kept at h
    cases h with
    | @named before _ _ _ hsplit hlast hlater =>
        rw [hsplit, ← List.cons_append]
        exact .named rfl hlast hlater
    | unnamed hnone =>
        subst hold
        split
        · rename_i hrole
          subst hrole
          exact .named (List.nil_append _).symm hreads hnone
        · rename_i hrole
          refine .unnamed fun later hlater => ?_
          cases hlater with
          | head =>
              intro other hother
              rw [hother.unique hreads]
              exact fun h => hrole h.symm
          | tail _ hmem => exact hnone later hmem

theorem firstFault_cons_iff {entry : Text} {rest : List Text} {fault : OverrideFault} :
    FirstFault (entry :: rest) fault ↔
      Faulty entry fault ∨ Usable entry ∧ FirstFault rest fault := by
  constructor
  · rintro ⟨before, bad, after, hsplit, hbefore, hfaulty⟩
    cases before with
    | nil =>
        obtain ⟨rfl, rfl⟩ := List.cons.inj hsplit
        exact .inl hfaulty
    | cons first before =>
        obtain ⟨rfl, rfl⟩ := List.cons.inj hsplit
        obtain ⟨husable, hbefore⟩ := List.forall_mem_cons.mp hbefore
        exact .inr ⟨husable, before, bad, after, rfl, hbefore, hfaulty⟩
  · rintro (hfaulty | ⟨husable, before, bad, after, rfl, hbefore, hfaulty⟩)
    · exact ⟨[], entry, rest, rfl, by simp, hfaulty⟩
    · exact ⟨entry :: before, bad, after, rfl, List.forall_mem_cons.mpr ⟨husable, hbefore⟩,
        hfaulty⟩

/-- A colon keeps the entries on its two sides apart. -/
theorem entries_append_colon (first second : Text) :
    entries (first ++ ':' :: second) = entries first ++ entries second := by
  rw [entries, List.splitOn_append_cons_self, List.map_append, List.filter_append]
  rfl

end Override

/-! ## Applying the entries -/

namespace Style

variable {style result : Style} {entry : Text} {rest : List Text} {fault : OverrideFault}

/-- Applies the entries of a list one by one. -/
def applyEntries (style : Style) (entries : List Text) : Except OverrideFault Style :=
  entries.foldlM (fun style entry => style.apply <$> Override.parse entry) style

theorem decoration_apply (style : Style) (override : Override) (role : Role) :
    (style.apply override).decoration role =
      if role = override.role then override.decoration else style.decoration role := rfl

theorem withOverrides_eq (style : Style) (overrides : Text) :
    style.withOverrides overrides = style.applyEntries (Override.entries overrides) := rfl

theorem applyEntries_append (style : Style) (first second : List Text) :
    style.applyEntries (first ++ second) =
      style.applyEntries first >>= fun middle => middle.applyEntries second :=
  List.foldlM_append

theorem applyEntries_cons_of_reads {override : Override} (h : Override.Reads entry override) :
    style.applyEntries (entry :: rest) = (style.apply override).applyEntries rest := by
  rw [applyEntries, List.foldlM_cons, h.parse_eq]
  rfl

theorem applyEntries_cons_of_faulty (h : Override.Faulty entry fault) :
    style.applyEntries (entry :: rest) = .error fault := by
  rw [applyEntries, List.foldlM_cons, h.parse_eq]
  rfl

/-- The entries can be applied if each of them can be used, and then the last one that
names a role decides about it. -/
theorem applyEntries_eq_ok_iff {entries : List Text} :
    style.applyEntries entries = .ok result ↔
      (∀ entry ∈ entries, Override.Usable entry) ∧
        ∀ role, Override.Decides entries role (style.decoration role)
          (result.decoration role) := by
  induction entries generalizing style with
  | nil =>
      have hnil : style.applyEntries [] = .ok style := rfl
      simp only [hnil, Except.ok.injEq, List.not_mem_nil, false_implies, implies_true, true_and,
        Override.decides_nil_iff]
      constructor
      · rintro rfl role
        rfl
      · intro h
        cases style
        cases result
        exact congrArg Style.mk (funext fun role => (h role).symm)
  | cons entry rest ih =>
      obtain ⟨override, hreads⟩ | ⟨fault, hfaulty⟩ := Override.usable_or_faulty entry
      · have husable : Override.Usable entry := ⟨override, hreads⟩
        rw [applyEntries_cons_of_reads hreads, ih, List.forall_mem_cons, and_iff_right husable]
        simp only [Override.decides_cons_iff hreads, decoration_apply]
      · rw [applyEntries_cons_of_faulty hfaulty, List.forall_mem_cons]
        simp [hfaulty.not_usable]

/-- If not, the first entry that cannot be used is to blame. -/
theorem applyEntries_eq_error_iff {entries : List Text} :
    style.applyEntries entries = .error fault ↔ Override.FirstFault entries fault := by
  induction entries generalizing style with
  | nil =>
      have hnil : style.applyEntries [] = .ok style := rfl
      simp [hnil, Override.FirstFault]
  | cons entry rest ih =>
      rw [Override.firstFault_cons_iff]
      obtain ⟨override, hreads⟩ | ⟨other, hfaulty⟩ := Override.usable_or_faulty entry
      · have husable : Override.Usable entry := ⟨override, hreads⟩
        rw [applyEntries_cons_of_reads hreads, ih, and_iff_right husable,
          or_iff_right fun h => h.not_usable husable]
      · rw [applyEntries_cons_of_faulty hfaulty, or_iff_left fun h => hfaulty.not_usable h.1,
          ← Override.parse_eq_error_iff, hfaulty.parse_eq]
        simp

theorem exists_applyEntries_eq_ok_iff {entries : List Text} :
    (∃ result, style.applyEntries entries = .ok result) ↔
      ∀ entry ∈ entries, Override.Usable entry := by
  constructor
  · rintro ⟨result, hresult⟩
    exact (applyEntries_eq_ok_iff.mp hresult).1
  · intro husable
    cases hresult : style.applyEntries entries with
    | ok result => exact ⟨result, rfl⟩
    | error fault =>
        obtain ⟨before, entry, after, rfl, _, hfaulty⟩ := applyEntries_eq_error_iff.mp hresult
        exact absurd (husable entry (by simp)) hfaulty.not_usable

/-- A list of overrides can be applied exactly if each of its entries can be used: the
pieces between its colons, trimmed and without the empty ones.  The result has, for every
role, what the last entry naming it says; a failure is the fault of the first entry that
cannot be used.  A colon between two lists applies one after the other. -/
theorem withOverrides_last_entry_wins (style : Style) (overrides : Text) :
    (∃ entries, Override.Lists overrides entries) ∧
    (∀ entries, Override.Lists overrides entries →
      ((∃ result, style.withOverrides overrides = .ok result) ↔
        ∀ entry ∈ entries, Override.Usable entry) ∧
      (∀ result, style.withOverrides overrides = .ok result ↔
        (∀ entry ∈ entries, Override.Usable entry) ∧
          ∀ role, Override.Decides entries role (style.decoration role)
            (result.decoration role)) ∧
      ∀ fault, style.withOverrides overrides = .error fault ↔
        Override.FirstFault entries fault) ∧
    ∀ more, style.withOverrides (overrides ++ ':' :: more) =
      style.withOverrides overrides >>= fun middle => middle.withOverrides more := by
  refine ⟨⟨_, Override.lists_iff.mpr rfl⟩, fun entries hlists => ?_, fun more => ?_⟩
  · obtain rfl := Override.lists_iff.mp hlists
    rw [withOverrides_eq]
    exact ⟨exists_applyEntries_eq_ok_iff, fun result => applyEntries_eq_ok_iff,
      fun fault => applyEntries_eq_error_iff⟩
  · simp only [withOverrides_eq, Override.entries_append_colon, applyEntries_append]

/-- Blanks around entries, names and parameters, an empty entry, and two entries for one
role: the later one takes the decoration of texts away again.  In the second list the
unknown role is reported, and not what comes behind it. -/
theorem withOverrides_last_entry_wins_padded :
    Override.Lists " textData = 1;31 : :\u00a0commentData=3:textData=".toList
      ["textData = 1;31".toList, "commentData=3".toList, "textData=".toList] ∧
    (∃ result, decorated.withOverrides " textData = 1;31 : :\u00a0commentData=3:textData=".toList =
        .ok result ∧
      ∀ role, result.decoration role =
        if role = .textData then .identity
        else if role = .commentData then .sgr ['3']
        else decorated.decoration role) ∧
    Override.Lists "textData=1 : nope = 2 :bold".toList
      ["textData=1".toList, "nope = 2".toList, "bold".toList] ∧
    decorated.withOverrides "textData=1 : nope = 2 :bold".toList =
      .error (.unknownRole "nope".toList) := by
  have hlists : Override.Lists " textData = 1;31 : :\u00a0commentData=3:textData=".toList
      ["textData = 1;31".toList, "commentData=3".toList, "textData=".toList] :=
    Override.lists_iff.mpr (by decide +kernel)
  have hbad : Override.Lists "textData=1 : nope = 2 :bold".toList
      ["textData=1".toList, "nope = 2".toList, "bold".toList] :=
    Override.lists_iff.mpr (by decide +kernel)
  have htrim {text kept : Text} (h : Text.trim text = kept) : Text.TrimsTo text kept :=
    Text.trim_eq_iff.mp h
  have hcoloured : Override.Reads "textData = 1;31".toList ⟨.textData, .sgr "1;31".toList⟩ :=
    @Override.Reads.replaced "textData ".toList " 1;31".toList _ _ (by decide) (htrim rfl)
      (htrim rfl) (by decide) (by simp)
  have hcomment : Override.Reads "commentData=3".toList ⟨.commentData, .sgr ['3']⟩ :=
    @Override.Reads.replaced "commentData".toList ['3'] _ _ (by decide) (htrim rfl)
      (htrim rfl) (by decide) (by simp)
  have hremoved : Override.Reads "textData=".toList ⟨.textData, .identity⟩ :=
    @Override.Reads.removed "textData".toList [] _ (by decide) (htrim rfl) (htrim rfl)
  have hplain : Override.Reads "textData=1".toList ⟨.textData, .sgr ['1']⟩ :=
    @Override.Reads.replaced "textData".toList ['1'] _ _ (by decide) (htrim rfl)
      (htrim rfl) (by decide) (by simp)
  have hunknown : Override.Faulty "nope = 2".toList (.unknownRole "nope".toList) :=
    @Override.Faulty.unknownRole "nope ".toList " 2".toList _ (by decide) (htrim rfl)
      fun role => by cases role <;> decide
  refine ⟨hlists, ?_, hbad, ?_⟩
  · obtain ⟨_, hentries, _⟩ := withOverrides_last_entry_wins decorated
      " textData = 1;31 : :\u00a0commentData=3:textData=".toList
    obtain ⟨happlies, hdecided, _⟩ := hentries _ hlists
    obtain ⟨result, hresult⟩ := happlies.mpr <| by
      simp only [List.forall_mem_cons]
      exact ⟨⟨_, hcoloured⟩, ⟨_, hcomment⟩, ⟨_, hremoved⟩, by simp⟩
    refine ⟨result, hresult, fun role => ?_⟩
    have hrole := ((hdecided result).mp hresult).2 role
    rw [Override.decides_cons_iff hcoloured, Override.decides_cons_iff hcomment,
      Override.decides_cons_iff hremoved, Override.decides_nil_iff] at hrole
    rw [hrole]
    by_cases htext : role = .textData
    · simp [htext]
    · simp [htext]
  · obtain ⟨_, hentries, _⟩ := withOverrides_last_entry_wins decorated
      "textData=1 : nope = 2 :bold".toList
    obtain ⟨_, _, hfails⟩ := hentries _ hbad
    refine (hfails _).mpr ⟨["textData=1".toList], _, ["bold".toList], rfl, ?_, hunknown⟩
    exact List.forall_mem_singleton.mpr ⟨_, hplain⟩

end Style

end XmlOutline
