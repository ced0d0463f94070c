import FormatNegotiation.Integrity
import Mathlib.Data.List.Pairwise

/-! What the checks of lists let pass. -/
namespace FormatNegotiation

namespace ChannelLayout

theorem clashes_iff (x y : ChannelLayout) :
    x.clashes y = true ↔ x.isKnown = true ∧ y = x.bare ∨ y.isKnown = true ∧ x = y.bare := by
  have hchannels : ∀ n, (count n).channels = n := fun _ => rfl
  cases x with
  | known mask =>
    cases y with
    | known mask' => simp [clashes, isKnown, bare]
    | count n =>
      have hcomm : (known mask).channels = n ↔ n = (known mask).channels := eq_comm
      simpa [clashes, isKnown, bare, hchannels] using hcomm
  | count n =>
    cases y with
    | known mask => simp [clashes, isKnown, bare, hchannels]
    | count m => simp [clashes, isKnown]

theorem clashes_comm (x y : ChannelLayout) : x.clashes y = y.clashes x := by
  rw [Bool.eq_iff_iff, clashes_iff, clashes_iff, or_comm]

theorem not_clashes_self (x : ChannelLayout) : x.clashes x = false := by
  simp [clashes]

/-- No known layout stands beside the bare count of its channels. -/
def Unambiguous (entries : List ChannelLayout) : Prop :=
  ∀ l ∈ entries, l.isKnown = true → l.bare ∉ entries

instance (entries : List ChannelLayout) : Decidable (Unambiguous entries) :=
  inferInstanceAs (Decidable (∀ l ∈ entries, l.isKnown = true → l.bare ∉ entries))

theorem unambiguous_iff_not_clashes {entries : List ChannelLayout} :
    Unambiguous entries ↔ ∀ x ∈ entries, ∀ y ∈ entries, x.clashes y = false := by
  simp only [← Bool.not_eq_true, clashes_iff, not_or, not_and]
  constructor
  · intro h x hx y hy
    exact ⟨fun hk heq => h x hx hk (heq ▸ hy), fun hk heq => h y hy hk (heq ▸ hx)⟩
  · intro h l hl hk hbare
    exact (h l hl l.bare hbare).1 hk rfl

theorem Unambiguous.mono {entries entries' : List ChannelLayout} (h : Unambiguous entries')
    (hsub : entries ⊆ entries') : Unambiguous entries :=
  fun l hl hk hbare => h l (hsub hl) hk (hsub hbare)

end ChannelLayout

namespace Integrity

/-- A check passes if it succeeds and adds nothing to the diagnostics, whatever they are. -/
def Passes (check : Check) : Prop := ∀ sink, check sink = .ok () sink

theorem passes_report_iff {context name : String} {defect? : Option Defect} :
    Passes (report context name defect?) ↔ defect? = none := by
  cases defect? with
  | none => exact iff_of_true (fun _ => rfl) rfl
  | some defect => exact iff_of_false (fun h => by cases h []) (by simp)

theorem report_eq_ok_iff {context name : String} {defect? : Option Defect}
    {sink sink' : List Diagnostic} :
    report context name defect? sink = .ok () sink' ↔ defect? = none ∧ sink' = sink := by
  cases defect? with
  | none =>
    have heq : report context name none sink = .ok () sink := rfl
    simp [heq, eq_comm]
  | some defect => exact iff_of_false (fun h => by cases h) (fun h => by cases h.1)

theorem report_succeeds_iff {context name : String} {defect? : Option Defect}
    {sink : List Diagnostic} :
    (∃ sink', report context name defect? sink = .ok () sink') ↔ defect? = none := by
  simp only [report_eq_ok_iff, exists_and_left, exists_eq, and_true]

/-! ## Lists of numbers -/

theorem valuesDefect?_eq_none_iff {list : FormatList} :
    valuesDefect? list = none ↔ list ≠ [] ∧ list.Nodup := by
  unfold valuesDefect?
  by_cases hnil : list = []
  · simp [hnil]
  · by_cases hnd : list.Nodup <;> simp [hnil, hnd]

theorem formatsDefect?_eq_none_iff {isDescribed : FormatId → Bool} {list : FormatList} :
    formatsDefect? isDescribed list = none ↔
      (∀ f ∈ list, isDescribed f = true) ∧ list ≠ [] ∧ list.Nodup := by
  unfold formatsDefect?
  rw [← List.all_eq_true]
  by_cases hall : list.all isDescribed = true
  · rw [if_pos hall, valuesDefect?_eq_none_iff]
    simp [hall]
  · simp [hall]

/-- The empty list of rates is without defect. -/
theorem ratesDefect?_eq_none_iff {list : FormatList} :
    ratesDefect? list = none ↔ (∀ rate ∈ list, 0 < rate) ∧ list.Nodup := by
  unfold ratesDefect?
  by_cases hnil : list = []
  · simp [hnil]
  · have hall : list.all (0 < ·) = true ↔ ∀ rate ∈ list, 0 < rate := by simp
    rw [← hall]
    by_cases hpos : list.all (0 < ·) = true
    · simp [hnil, hpos, valuesDefect?_eq_none_iff]
    · simp [hnil, hpos]

/-! ## Sets of layouts -/

theorem pairDefect?_eq_none_iff {x y : ChannelLayout} :
    pairDefect? x y = none ↔ x ≠ y ∧ x.clashes y = false := by
  unfold pairDefect?
  by_cases heq : x = y
  · simp [heq]
  · by_cases hclash : x.clashes y = true <;> simp [heq, hclash]

theorem entriesDefect?_eq_none_iff_pairwise {entries : List ChannelLayout} :
    entriesDefect? entries = none ↔
      entries.Pairwise fun x y => x ≠ y ∧ x.clashes y = false := by
  induction entries with
  | nil => simp [entriesDefect?]
  | cons l rest ih =>
    simp only [entriesDefect?, Option.or_eq_none_iff, List.findSome?_eq_none_iff,
      pairDefect?_eq_none_iff, List.pairwise_cons, ih]

theorem entriesDefect?_eq_none_iff {entries : List ChannelLayout} :
    entriesDefect? entries = none ↔ entries.Nodup ∧ ChannelLayout.Unambiguous entries := by
  have hsymm : Std.Symm fun x y : ChannelLayout => x.clashes y = false :=
    ⟨fun x y h => by rwa [ChannelLayout.clashes_comm]⟩
  have hself : ∀ l ∈ entries, l.clashes l = false := fun l _ => l.not_clashes_self
  have hpairwise : (entries.Pairwise fun x y => x.clashes y = false) ↔
      ∀ x ∈ entries, ∀ y ∈ entries, x.clashes y = false :=
    ⟨fun h x hx y hy => h.forall_of_forall hself hx hy, List.pairwise_of_forall_mem_list⟩
  rw [entriesDefect?_eq_none_iff_pairwise, List.pairwise_and_iff, hpairwise,
    ChannelLayout.unambiguous_iff_not_clashes]
  rfl

theorem layoutsDefect?_eq_none_iff {set : LayoutSet} :
    layoutsDefect? set = none ↔
      set ≠ .listed [] ∧ set.layouts.Nodup ∧ ChannelLayout.Unambiguous set.layouts := by
  cases set with
  | listed entries =>
    cases entries with
    | nil => simp [layoutsDefect?]
    | cons l rest => simp [layoutsDefect?, LayoutSet.layouts, entriesDefect?_eq_none_iff]
  | allLayouts => simp [layoutsDefect?, LayoutSet.layouts, ChannelLayout.Unambiguous]
  | allCounts => simp [layoutsDefect?, LayoutSet.layouts, ChannelLayout.Unambiguous]

theorem passes_checkChannelLayouts_iff {context : String} {set : LayoutSet} :
    Passes (checkChannelLayouts context set) ↔
      set ≠ .listed [] ∧ set.layouts.Nodup ∧ ChannelLayout.Unambiguous set.layouts :=
  passes_report_iff.trans layoutsDefect?_eq_none_iff

end Integrity

end FormatNegotiation
