import FormatNegotiation.Proofs.Layout.Ambiguity

/-! What the checks of lists report: one defect, which the list has, or nothing at all. -/
namespace FormatNegotiation.Integrity

/-- What is sound passes without a trace. Anything else fails with a defect that is there, and that
is added to the diagnostics once, for the same list. -/
structure Diagnoses (check : Check) (context name : String) (Sound : Prop)
    (Present : Defect → Prop) : Prop where
  passes_iff : ∀ sink sink', check sink = .ok () sink' ↔ Sound ∧ sink' = sink
  fails_iff : ∀ sink sink' e, check sink = .error e sink' ↔
    ∃ defect, Present defect ∧ e = .integrity name defect ∧
      sink' = sink ++ [⟨context, s!"{defect.text} in {name} list"⟩]

theorem report_eq_error_iff {context name : String} {defect? : Option Defect}
    {sink sink' : List Diagnostic} {e : FormatError} :
    report context name defect? sink = .error e sink' ↔
      ∃ defect, defect? = some defect ∧ e = .integrity name defect ∧
        sink' = sink ++ [⟨context, s!"{defect.text} in {name} list"⟩] := by
  cases defect? with
  | none => exact iff_of_false (fun h => by cases h) (by simp)
  | some defect =>
    have heq : report context name (some defect) sink = .error (.integrity name defect)
      (sink ++ [⟨context, s!"{defect.text} in {name} list"⟩]) := rfl
    simp [heq, eq_comm]

theorem report_diagnoses {context name : String} {defect? : Option Defect} {Sound : Prop}
    {Present : Defect → Prop} (hsound : defect? = none ↔ Sound)
    (hpresent : ∀ defect, defect? = some defect ↔ Present defect) :
    Diagnoses (report context name defect?) context name Sound Present where
  passes_iff sink sink' := by rw [report_eq_ok_iff, hsound]
  fails_iff sink sink' e := by simp only [report_eq_error_iff, hpresent]

/-! ## Lists of numbers -/

/-- The defect of a list of numbers: a number that is not valid, whatever else is wrong, then that
there is none, and then that one repeats. -/
inductive ValuesDefect (Valid : FormatId → Prop) (list : FormatList) : Defect → Prop where
  | invalidValue (h : ∃ value ∈ list, ¬ Valid value) : ValuesDefect Valid list .invalidValue
  | empty (h : list = []) : ValuesDefect Valid list .empty
  | duplicate (hvalid : ∀ value ∈ list, Valid value) (h : ¬ list.Nodup) :
    ValuesDefect Valid list .duplicate

variable {list : FormatList} {Valid : FormatId → Prop} {defect : Defect}

theorem valuesDefect_iff_of_invalid (h : ∃ value ∈ list, ¬ Valid value) :
    ValuesDefect Valid list defect ↔ defect = .invalidValue := by
  obtain ⟨value, hmem, hvalue⟩ := h
  constructor
  · intro hdefect
    cases hdefect with
    | invalidValue _ => rfl
    | empty hnil => exact absurd (hnil ▸ hmem) List.not_mem_nil
    | duplicate hvalid _ => exact absurd (hvalid value hmem) hvalue
  · rintro rfl
    exact .invalidValue ⟨value, hmem, hvalue⟩

theorem valuesDefect?_eq_some_iff (hvalid : ∀ value ∈ list, Valid value) :
    valuesDefect? list = some defect ↔ ValuesDefect Valid list defect := by
  have hcases : ValuesDefect Valid list defect ↔
      list = [] ∧ .empty = defect ∨ ¬ list.Nodup ∧ .duplicate = defect := by
    constructor
    · intro h
      cases h with
      | invalidValue h =>
        obtain ⟨value, hmem, hvalue⟩ := h
        exact absurd (hvalid value hmem) hvalue
      | empty hnil => exact .inl ⟨hnil, rfl⟩
      | duplicate _ hnd => exact .inr ⟨hnd, rfl⟩
    · rintro (⟨hnil, rfl⟩ | ⟨hnd, rfl⟩)
      · exact .empty hnil
      · exact .duplicate hvalid hnd
  rw [hcases]
  unfold valuesDefect?
  by_cases hnil : list = []
  · simp [hnil]
  · by_cases hnd : list.Nodup <;> simp [hnil, hnd]

theorem formatsDefect?_eq_some_iff {isDescribed : FormatId → Bool} :
    formatsDefect? isDescribed list = some defect ↔
      ValuesDefect (isDescribed · = true) list defect := by
  unfold formatsDefect?
  by_cases hall : ∀ f ∈ list, isDescribed f = true
  · rw [if_pos (List.all_eq_true.mpr hall)]
    exact valuesDefect?_eq_some_iff hall
  · have hinvalid : ∃ f ∈ list, ¬ isDescribed f = true := by simpa using hall
    rw [if_neg (mt List.all_eq_true.mp hall), Option.some.injEq, eq_comm]
    exact (valuesDefect_iff_of_invalid hinvalid).symm

/-- Rates are not missed when there are none. -/
theorem ratesDefect?_eq_some_iff : ratesDefect? list = some defect ↔
    list ≠ [] ∧ ValuesDefect (0 < ·) list defect := by
  unfold ratesDefect?
  by_cases hnil : list = []
  · simp [hnil]
  · rw [if_neg (by simpa using hnil), and_iff_right hnil]
    by_cases hall : ∀ rate ∈ list, 0 < rate
    · rw [if_pos (by simpa using hall)]
      exact valuesDefect?_eq_some_iff hall
    · have hinvalid : ∃ rate ∈ list, ¬ 0 < rate := by simpa using hall
      rw [if_neg (by simpa using hall), Option.some.injEq, eq_comm]
      exact (valuesDefect_iff_of_invalid hinvalid).symm

/-! ## Sets of layouts -/

/-- What is wrong with two entries that stand in one list. -/
inductive PairDefect (x y : ChannelLayout) : Defect → Prop where
  | duplicate (h : x = y) : PairDefect x y .duplicate
  | ambiguous (hchannels : x.channels = y.channels) (hkind : x.isKnown ≠ y.isKnown) :
    PairDefect x y .ambiguous

theorem pairDefect?_eq_some_iff {x y : ChannelLayout} :
    pairDefect? x y = some defect ↔ PairDefect x y defect := by
  have hcases : PairDefect x y defect ↔
      x = y ∧ .duplicate = defect ∨ x.clashes y = true ∧ .ambiguous = defect := by
    rw [ChannelLayout.clashes_iff_channels]
    constructor
    · intro h
      cases h with
      | duplicate heq => exact .inl ⟨heq, rfl⟩
      | ambiguous hchannels hkind => exact .inr ⟨⟨hchannels, hkind⟩, rfl⟩
    · rintro (⟨heq, rfl⟩ | ⟨⟨hchannels, hkind⟩, rfl⟩)
      · exact .duplicate heq
      · exact .ambiguous hchannels hkind
  rw [hcases]
  unfold pairDefect?
  by_cases heq : x = y
  · simp [heq, y.not_clashes_self]
  · by_cases hclash : x.clashes y = true <;> simp [heq, hclash]

/-- The entries at two places of a list, in their order, have this defect. -/
def DefectAt (entries : List ChannelLayout) (i j : Nat) (defect : Defect) : Prop :=
  i < j ∧ ∃ x y, entries[i]? = some x ∧ entries[j]? = some y ∧ PairDefect x y defect

/-- The defect of the first two places that have one. Pairs of places are ordered by the first of
them, and then by the second. -/
def FirstDefect (entries : List ChannelLayout) (defect : Defect) : Prop :=
  ∃ i j, DefectAt entries i j defect ∧
    ∀ i' j' defect', DefectAt entries i' j' defect' → i < i' ∨ i = i' ∧ j ≤ j'

variable {entries rest : List ChannelLayout} {l : ChannelLayout} {defect' : Defect} {i j : Nat}

theorem DefectAt.unique (h : DefectAt entries i j defect) (h' : DefectAt entries i j defect') :
    defect = defect' := by
  obtain ⟨-, x, y, hx, hy, hdefect⟩ := h
  obtain ⟨-, x', y', hx', hy', hdefect'⟩ := h'
  obtain rfl : x = x' := Option.some.inj (hx.symm.trans hx')
  obtain rfl : y = y' := Option.some.inj (hy.symm.trans hy')
  rw [← pairDefect?_eq_some_iff] at hdefect hdefect'
  exact Option.some.inj (hdefect.symm.trans hdefect')

theorem FirstDefect.unique (h : FirstDefect entries defect) (h' : FirstDefect entries defect') :
    defect = defect' := by
  obtain ⟨i, j, hat, hfirst⟩ := h
  obtain ⟨i', j', hat', hfirst'⟩ := h'
  have hle := hfirst i' j' defect' hat'
  have hge := hfirst' i j defect hat
  obtain rfl : i = i' := by omega
  obtain rfl : j = j' := by omega
  exact hat.unique hat'

theorem not_defectAt_nil : ¬ DefectAt [] i j defect := by
  simp [DefectAt]

theorem defectAt_cons_zero_succ : DefectAt (l :: rest) 0 (j + 1) defect ↔
    ∃ y, rest[j]? = some y ∧ PairDefect l y defect := by
  simp [DefectAt]

theorem defectAt_cons_succ_succ : DefectAt (l :: rest) (i + 1) (j + 1) defect ↔
    DefectAt rest i j defect := by
  simp [DefectAt]

/-- The first entry against the others is looked at before these among themselves. -/
theorem firstDefect_cons_of_head {before after : List ChannelLayout} {y : ChannelLayout}
    (h : PairDefect l y defect) (hclear : ∀ x ∈ before, ∀ defect', ¬ PairDefect l x defect') :
    FirstDefect (l :: (before ++ y :: after)) defect := by
  refine ⟨0, before.length + 1, defectAt_cons_zero_succ.mpr ⟨y, by simp, h⟩, ?_⟩
  intro i' j' defect' hat
  cases i' with
  | succ i' => exact .inl (Nat.succ_pos i')
  | zero =>
    cases j' with
    | zero => exact absurd hat.1 (Nat.lt_irrefl 0)
    | succ j' =>
      refine .inr ⟨rfl, Nat.succ_le_succ (Nat.le_of_not_lt fun hlt => ?_)⟩
      obtain ⟨x, hx, hdefect⟩ := defectAt_cons_zero_succ.mp hat
      rw [List.getElem?_append_left hlt] at hx
      exact hclear x (List.mem_of_getElem? hx) defect' hdefect

theorem firstDefect_cons_of_tail (h : FirstDefect rest defect)
    (hclear : ∀ x ∈ rest, ∀ defect', ¬ PairDefect l x defect') :
    FirstDefect (l :: rest) defect := by
  obtain ⟨i, j, hat, hfirst⟩ := h
  refine ⟨i + 1, j + 1, defectAt_cons_succ_succ.mpr hat, ?_⟩
  intro i' j' defect' hat'
  cases j' with
  | zero => exact absurd hat'.1 (Nat.not_lt_zero i')
  | succ j' =>
    cases i' with
    | zero =>
      obtain ⟨x, hx, hdefect⟩ := defectAt_cons_zero_succ.mp hat'
      exact absurd hdefect (hclear x (List.mem_of_getElem? hx) defect')
    | succ i' =>
      have hle := hfirst i' j' defect' (defectAt_cons_succ_succ.mp hat')
      omega

theorem firstDefect_of_entriesDefect? (h : entriesDefect? entries = some defect) :
    FirstDefect entries defect := by
  induction entries with
  | nil => cases h
  | cons l rest ih =>
    have hnone : ∀ x, pairDefect? l x = none → ∀ defect', ¬ PairDefect l x defect' := by
      intro x hx defect' hdefect
      cases hx.symm.trans (pairDefect?_eq_some_iff.mpr hdefect)
    rcases Option.or_eq_some_iff.mp h with hhead | ⟨hhead, htail⟩
    · obtain ⟨before, y, after, rfl, hy, hclear⟩ := List.findSome?_eq_some_iff.mp hhead
      exact firstDefect_cons_of_head (pairDefect?_eq_some_iff.mp hy) fun x hx =>
        hnone x (hclear x hx)
    · exact firstDefect_cons_of_tail (ih htail) fun x hx =>
        hnone x (List.findSome?_eq_none_iff.mp hhead x hx)

theorem not_defectAt_of_entriesDefect?_none (h : entriesDefect? entries = none) :
    ¬ DefectAt entries i j defect := by
  rw [entriesDefect?_eq_none_iff_pairwise, List.pairwise_iff_getElem] at h
  intro ⟨hlt, x, y, hx, hy, hdefect⟩
  obtain ⟨hi, rfl⟩ := List.getElem?_eq_some_iff.mp hx
  obtain ⟨hj, rfl⟩ := List.getElem?_eq_some_iff.mp hy
  cases (pairDefect?_eq_none_iff.mpr (h i j hi hj hlt)).symm.trans
    (pairDefect?_eq_some_iff.mpr hdefect)

theorem entriesDefect?_eq_some_iff :
    entriesDefect? entries = some defect ↔ FirstDefect entries defect := by
  refine ⟨firstDefect_of_entriesDefect?, fun h => ?_⟩
  cases heq : entriesDefect? entries with
  | none =>
    obtain ⟨i, j, hat, -⟩ := h
    exact absurd hat (not_defectAt_of_entriesDefect?_none heq)
  | some defect' => rw [h.unique (firstDefect_of_entriesDefect? heq)]

/-- The defect of a list of layouts: that it is empty, or that of its first two places with one. -/
inductive EntriesDefect (entries : List ChannelLayout) : Defect → Prop where
  | empty (h : entries = []) : EntriesDefect entries .empty
  | pair {defect : Defect} (h : FirstDefect entries defect) : EntriesDefect entries defect

theorem layoutsDefect?_eq_some_iff {set : LayoutSet} :
    layoutsDefect? set = some defect ↔
      ∃ entries, set = .listed entries ∧ EntriesDefect entries defect := by
  cases set with
  | listed entries =>
    simp only [LayoutSet.listed.injEq, exists_eq_left']
    cases entries with
    | nil =>
      constructor
      · intro h
        obtain rfl := Option.some.inj h
        exact .empty rfl
      · intro h
        cases h with
        | empty _ => rfl
        | pair h =>
          obtain ⟨i, j, hat, -⟩ := h
          exact absurd hat not_defectAt_nil
    | cons l rest =>
      have heq : layoutsDefect? (.listed (l :: rest)) = entriesDefect? (l :: rest) := rfl
      rw [heq, entriesDefect?_eq_some_iff]
      constructor
      · exact .pair
      · intro h
        cases h with
        | empty hnil => cases hnil
        | pair h => exact h
  | allLayouts => simp [layoutsDefect?]
  | allCounts => simp [layoutsDefect?]

/-- A wildcard is sound, and a list that holds something, nothing twice, and no known layout beside
a count of as many channels. -/
theorem layoutsDefect?_eq_none_iff_listed {set : LayoutSet} :
    layoutsDefect? set = none ↔ ∀ entries, set = .listed entries → entries ≠ [] ∧ entries.Nodup ∧
      ∀ x ∈ entries, ∀ y ∈ entries, x.channels = y.channels → x.isKnown = y.isKnown := by
  rw [layoutsDefect?_eq_none_iff]
  cases set with
  | listed entries => simp [LayoutSet.layouts, ChannelLayout.unambiguous_iff_channels]
  | allLayouts => simp [LayoutSet.layouts, ChannelLayout.unambiguous_nil]
  | allCounts => simp [LayoutSet.layouts, ChannelLayout.unambiguous_nil]

/-- Each check passes just if its list is sound and then leaves the diagnostics alone. Otherwise it
adds one, for the defect that it fails with, which is the first that the list has: of numbers, one
that is invalid before anything else, and of layouts, that of the first two places with one. -/
theorem checks_diagnose (context : String) (catalog : Catalog) (list : FormatList)
    (set : LayoutSet) :
    Diagnoses (checkPixelFormats context catalog list) context "pixel format"
      (list ≠ [] ∧ list.Nodup ∧ ∀ f ∈ list, (catalog.pixel? f).isSome = true)
      (ValuesDefect (fun f => (catalog.pixel? f).isSome = true) list) ∧
    Diagnoses (checkSampleFormats context catalog list) context "sample format"
      (list ≠ [] ∧ list.Nodup ∧ ∀ f ∈ list, (catalog.sample? f).isSome = true)
      (ValuesDefect (fun f => (catalog.sample? f).isSome = true) list) ∧
    Diagnoses (checkSampleRates context list) context "sample rate"
      (list = [] ∨ list.Nodup ∧ ∀ rate ∈ list, 0 < rate)
      (fun defect => list ≠ [] ∧ ValuesDefect (0 < ·) list defect) ∧
    Diagnoses (checkChannelLayouts context set) context "channel layout"
      (∀ entries, set = .listed entries → entries ≠ [] ∧ entries.Nodup ∧
        ∀ x ∈ entries, ∀ y ∈ entries, x.channels = y.channels → x.isKnown = y.isKnown)
      (fun defect => ∃ entries, set = .listed entries ∧ EntriesDefect entries defect) := by
  have hformats : ∀ isDescribed : FormatId → Bool, formatsDefect? isDescribed list = none ↔
      list ≠ [] ∧ list.Nodup ∧ ∀ f ∈ list, isDescribed f = true := by
    intro isDescribed
    rw [formatsDefect?_eq_none_iff]
    exact ⟨fun ⟨hall, hne, hnd⟩ => ⟨hne, hnd, hall⟩, fun ⟨hne, hnd, hall⟩ => ⟨hall, hne, hnd⟩⟩
  have hrates : ratesDefect? list = none ↔ list = [] ∨ list.Nodup ∧ ∀ rate ∈ list, 0 < rate := by
    rw [ratesDefect?_eq_none_iff]
    constructor
    · intro ⟨hpos, hnd⟩
      exact .inr ⟨hnd, hpos⟩
    · rintro (rfl | ⟨hnd, hpos⟩)
      · simp
      · exact ⟨hpos, hnd⟩
  exact ⟨report_diagnoses (hformats _) fun _ => formatsDefect?_eq_some_iff,
    report_diagnoses (hformats _) fun _ => formatsDefect?_eq_some_iff,
    report_diagnoses hrates fun _ => ratesDefect?_eq_some_iff,
    report_diagnoses layoutsDefect?_eq_none_iff_listed fun _ => layoutsDefect?_eq_some_iff⟩

end FormatNegotiation.Integrity
