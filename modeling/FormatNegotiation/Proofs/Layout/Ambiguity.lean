import FormatNegotiation.Proofs.Actions
import FormatNegotiation.Proofs.Integrity

/-! Lists of layouts are kept unambiguous while they are built. What is refused there is what the
check of a finished list objects to, apart from repeated entries and the empty list. -/
namespace FormatNegotiation

namespace ChannelLayout

variable {entries before : List ChannelLayout} {l l' : ChannelLayout}

theorem clashes_iff_channels (x y : ChannelLayout) :
    x.clashes y = true ↔ x.channels = y.channels ∧ x.isKnown ≠ y.isKnown := by
  simp [clashes, and_comm]

theorem unambiguous_iff_channels : Unambiguous entries ↔
    ∀ x ∈ entries, ∀ y ∈ entries, x.channels = y.channels → x.isKnown = y.isKnown := by
  rw [unambiguous_iff_not_clashes]
  refine forall₂_congr fun x _ => forall₂_congr fun y _ => ?_
  rw [← Bool.not_eq_true, clashes_iff_channels, not_and, not_not]

theorem unambiguous_nil : Unambiguous [] := by
  intro l hl
  cases hl

/-- An entry can be appended just if it clashes with none that is there. -/
theorem unambiguous_concat_iff :
    Unambiguous (before ++ [l]) ↔ Unambiguous before ∧ ∀ x ∈ before, x.clashes l = false := by
  simp only [unambiguous_iff_not_clashes, List.mem_append, List.mem_singleton]
  constructor
  · intro h
    exact ⟨fun x hx y hy => h x (.inl hx) y (.inl hy), fun x hx => h x (.inl hx) l (.inr rfl)⟩
  · intro ⟨hbefore, hl⟩ x hx y hy
    rcases hx with hx | rfl
    · rcases hy with hy | rfl
      · exact hbefore x hx y hy
      · exact hl x hx
    · rcases hy with hy | rfl
      · rw [clashes_comm]
        exact hl y hy
      · exact not_clashes_self y

/-- The entry is the first of the list that clashes with an earlier one. -/
def FirstClash (entries : List ChannelLayout) (l : ChannelLayout) : Prop :=
  ∃ before after, entries = before ++ l :: after ∧ Unambiguous before ∧
    ∃ x ∈ before, x.channels = l.channels ∧ x.isKnown ≠ l.isKnown

theorem not_unambiguous_of_clash (hclash : ∃ x ∈ before, x.channels = l.channels ∧
    x.isKnown ≠ l.isKnown) (hl : l ∈ entries) (hsub : before ⊆ entries) :
    ¬ Unambiguous entries := by
  intro h
  obtain ⟨x, hx, hchannels, hkind⟩ := hclash
  exact hkind (unambiguous_iff_channels.mp h x (hsub hx) l hl hchannels)

theorem FirstClash.not_unambiguous (h : FirstClash entries l) : ¬ Unambiguous entries := by
  obtain ⟨before, after, rfl, -, hclash⟩ := h
  exact not_unambiguous_of_clash hclash (by simp) (by simp)

theorem FirstClash.unique (h : FirstClash entries l) (h' : FirstClash entries l') : l = l' := by
  obtain ⟨before, after, rfl, hbefore, hclash⟩ := h
  obtain ⟨before', after', heq, hbefore', hclash'⟩ := h'
  -- Of two places the later one has the clash of the earlier one before it.
  rcases List.append_eq_append_iff.mp heq with ⟨between, hlater, hrest⟩ | ⟨between, hlater, hrest⟩
  · cases between with
    | nil => exact (List.cons.inj hrest).1
    | cons first rest =>
      obtain ⟨rfl, -⟩ := List.cons.inj hrest
      have hnot : ¬ Unambiguous before' :=
        not_unambiguous_of_clash hclash (by simp [hlater]) (by simp [hlater])
      exact absurd hbefore' hnot
  · cases between with
    | nil => exact (List.cons.inj hrest).1.symm
    | cons first rest =>
      obtain ⟨rfl, -⟩ := List.cons.inj hrest
      have hnot : ¬ Unambiguous before :=
        not_unambiguous_of_clash hclash' (by simp [hlater]) (by simp [hlater])
      exact absurd hbefore hnot

end ChannelLayout

namespace LayoutSet

open ChannelLayout Integrity

variable {entries : List ChannelLayout}

/-! ## Adding entries -/

theorem add_listed_cases (l : ChannelLayout) (entries : List ChannelLayout) :
    ((∃ x ∈ entries, x.clashes l = true) ∧ add l (some (.listed entries)) =
      .error (.ambiguousLayout l.text) (some (.listed entries))) ∨
    ((∀ x ∈ entries, x.clashes l = false) ∧ add l (some (.listed entries)) =
      .ok () (some (.listed (entries ++ [l])))) := by
  by_cases hclash : entries.any (·.clashes l) = true
  · exact .inl ⟨List.any_eq_true.mp hclash, by simp only [add, if_pos hclash]⟩
  · refine .inr ⟨fun x hx => ?_, by simp only [add, if_neg hclash]⟩
    rw [← Bool.not_eq_true]
    exact fun hx' => hclash (List.any_eq_true.mpr ⟨x, hx, hx'⟩)

/-- An entry is refused, or it is appended to a list that may have to be started. -/
theorem add_cases (l : ChannelLayout) (set? : Option LayoutSet) :
    (∃ e, add l set? = .error e set?) ∨
    ∃ entries, (set? = none ∧ entries = [] ∨ set? = some (.listed entries)) ∧
      (∀ x ∈ entries, x.clashes l = false) ∧
      add l set? = .ok () (some (.listed (entries ++ [l]))) := by
  cases set? with
  | none => exact .inr ⟨[], .inl ⟨rfl, rfl⟩, by simp, rfl⟩
  | some set =>
    cases set with
    | listed entries =>
      rcases add_listed_cases l entries with ⟨-, heq⟩ | ⟨hclear, heq⟩
      · exact .inl ⟨_, heq⟩
      · exact .inr ⟨entries, .inr rfl, hclear, heq⟩
    | allLayouts => exact .inl ⟨.wildcardList, rfl⟩
    | allCounts => exact .inl ⟨.wildcardList, rfl⟩

/-- What is left of a set when these entries have been added one after the other, where one that is
refused does not keep the next from being added. -/
def addAll (set? : Option LayoutSet) (entries : List ChannelLayout) : Option LayoutSet :=
  entries.foldl (fun set? l => stateAfter (add l) set?) set?

/-- There is no set, or its entries do not clash. -/
def AllUnambiguous (set? : Option LayoutSet) : Prop := ∀ set ∈ set?, Unambiguous set.layouts

theorem add_allUnambiguous {set? : Option LayoutSet} (h : AllUnambiguous set?)
    (l : ChannelLayout) : AllUnambiguous (stateAfter (add l) set?) := by
  rcases add_cases l set? with ⟨e, heq⟩ | ⟨entries, hset, hclear, heq⟩
  · rwa [stateAfter_of_error heq]
  · rw [stateAfter_of_ok heq]
    have hentries : Unambiguous entries := by
      rcases hset with ⟨-, rfl⟩ | rfl
      · exact unambiguous_nil
      · exact h _ rfl
    intro set hset'
    obtain rfl := Option.some.inj hset'
    exact unambiguous_concat_iff.mpr ⟨hentries, hclear⟩

theorem addAll_allUnambiguous {set? : Option LayoutSet} (h : AllUnambiguous set?)
    (entries : List ChannelLayout) : AllUnambiguous (addAll set? entries) := by
  induction entries generalizing set? with
  | nil => exact h
  | cons l rest ih => exact ih (add_allUnambiguous h l)

/-! ## Building a list -/

/-- Entries are appended to an unambiguous list up to the first that clashes with an earlier one. -/
theorem forM_add_cases {before : List ChannelLayout} (h : Unambiguous before)
    (rest : List ChannelLayout) :
    (Unambiguous (before ++ rest) ∧
      rest.forM add (some (.listed before)) = .ok () (some (.listed (before ++ rest)))) ∨
    ∃ l set?, FirstClash (before ++ rest) l ∧
      rest.forM add (some (.listed before)) = .error (.ambiguousLayout l.text) set? := by
  induction rest generalizing before with
  | nil =>
    rw [List.append_nil]
    exact .inl ⟨h, rfl⟩
  | cons l rest ih =>
    have hbind : (l :: rest).forM add (some (.listed before)) =
        (add l >>= fun _ => rest.forM add) (some (.listed before)) := rfl
    rcases add_listed_cases l before with ⟨⟨x, hx, hclash⟩, heq⟩ | ⟨hclear, heq⟩
    · have hfirst : FirstClash (before ++ l :: rest) l :=
        ⟨before, rest, rfl, h, x, hx, (clashes_iff_channels x l).mp hclash⟩
      refine .inr ⟨l, some (.listed before), hfirst, ?_⟩
      rw [hbind]
      exact bind_eq_error_iff.mpr (.inl heq)
    · have hnext := ih (unambiguous_concat_iff.mpr ⟨h, hclear⟩)
      rw [List.append_assoc, List.singleton_append] at hnext
      have hgo : (l :: rest).forM add (some (.listed before)) =
          rest.forM add (some (.listed (before ++ [l]))) := by
        rw [hbind]
        simp only [bind, EStateM.bind, heq]
      rwa [hgo]

theorem ofList_cases (entries : List ChannelLayout) :
    (Unambiguous entries ∧ ofList entries = .ok (.listed entries)) ∨
    ∃ l, FirstClash entries l ∧ ofList entries = .error (.ambiguousLayout l.text) := by
  cases entries with
  | nil => exact .inl ⟨unambiguous_nil, rfl⟩
  | cons l rest =>
    -- It makes no difference whether the list is there before its first entry.
    have hstart : (l :: rest).forM add none = (l :: rest).forM add (some (.listed [])) := rfl
    unfold ofList
    rw [hstart]
    rcases forM_add_cases unambiguous_nil (l :: rest) with ⟨hunambiguous, heq⟩ | ⟨x, _, hx, heq⟩
    · rw [heq]
      exact .inl ⟨hunambiguous, rfl⟩
    · rw [heq]
      exact .inr ⟨x, hx, rfl⟩

theorem ofList_eq_ok_iff {set : LayoutSet} :
    ofList entries = .ok set ↔ Unambiguous entries ∧ set = .listed entries := by
  rcases ofList_cases entries with ⟨hunambiguous, heq⟩ | ⟨l, hfirst, heq⟩
  · rw [heq, Except.ok.injEq, eq_comm, and_iff_right hunambiguous]
  · rw [heq]
    exact iff_of_false (by simp) fun h => hfirst.not_unambiguous h.1

theorem ofList_eq_error_iff {e : FormatError} :
    ofList entries = .error e ↔ ∃ l, FirstClash entries l ∧ e = .ambiguousLayout l.text := by
  rcases ofList_cases entries with ⟨hunambiguous, heq⟩ | ⟨l, hfirst, heq⟩
  · rw [heq]
    exact iff_of_false (by simp) fun ⟨l, hl, _⟩ => hl.not_unambiguous hunambiguous
  · rw [heq, Except.error.injEq]
    constructor
    · intro h
      exact ⟨l, hfirst, h.symm⟩
    · intro ⟨l', hl', he⟩
      rw [he, hfirst.unique hl']

/-- A list can be built just if no two of its entries clash, with all of them in their order, and
otherwise the first that clashes with an earlier one is named. The check lets the same lists pass,
but for the empty one and those that repeat an entry. Adding entries to a set one by one never makes
it ambiguous, and one that is refused leaves it as it was. -/
theorem building_agrees_with_check :
    (∀ entries : List ChannelLayout,
      (∀ set, ofList entries = .ok set ↔
        (∀ x ∈ entries, ∀ y ∈ entries, x.channels = y.channels → x.isKnown = y.isKnown) ∧
          set = .listed entries) ∧
      (∀ e, ofList entries = .error e ↔
        ∃ before l after, entries = before ++ l :: after ∧
          (∀ x ∈ before, ∀ y ∈ before, x.channels = y.channels → x.isKnown = y.isKnown) ∧
          (∃ x ∈ before, x.channels = l.channels ∧ x.isKnown ≠ l.isKnown) ∧
          e = .ambiguousLayout l.text) ∧
      ∀ context sink,
        (∃ sink', checkChannelLayouts context (.listed entries) sink = .ok () sink') ↔
          (∃ set, ofList entries = .ok set) ∧ entries ≠ [] ∧ entries.Nodup) ∧
    ∀ (set? : Option LayoutSet) (entries : List ChannelLayout),
      (∀ l e set?', add l (addAll set? entries) = .error e set?' → set?' = addAll set? entries) ∧
      (AllUnambiguous set? → AllUnambiguous (addAll set? entries)) := by
  constructor
  · intro entries
    simp only [← unambiguous_iff_channels]
    refine ⟨fun set => ofList_eq_ok_iff, fun e => ?_, fun context sink => ?_⟩
    · rw [ofList_eq_error_iff]
      constructor
      · intro ⟨l, ⟨before, after, heq, hbefore, hclash⟩, he⟩
        exact ⟨before, l, after, heq, hbefore, hclash, he⟩
      · intro ⟨before, l, after, heq, hbefore, hclash, he⟩
        exact ⟨l, ⟨before, after, heq, hbefore, hclash⟩, he⟩
    · have hpasses : (∃ sink', checkChannelLayouts context (.listed entries) sink = .ok () sink') ↔
          listed entries ≠ .listed [] ∧ entries.Nodup ∧ Unambiguous entries :=
        report_succeeds_iff.trans layoutsDefect?_eq_none_iff
      have hbuilt : (∃ set, ofList entries = .ok set) ↔ Unambiguous entries := by
        simp [ofList_eq_ok_iff]
      rw [hpasses, hbuilt, ne_eq, LayoutSet.listed.injEq]
      exact ⟨fun ⟨hne, hnd, h⟩ => ⟨h, hne, hnd⟩, fun ⟨h, hne, hnd⟩ => ⟨hne, hnd, h⟩⟩
  · intro set? entries
    refine ⟨fun l e set?' heq => ?_, fun h => addAll_allUnambiguous h entries⟩
    rcases add_cases l (addAll set? entries) with ⟨e', heq'⟩ | ⟨_, -, -, heq'⟩
    · cases heq.symm.trans heq'
      rfl
    · cases heq.symm.trans heq'

end LayoutSet

end FormatNegotiation
