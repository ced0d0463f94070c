import FormatNegotiation.Proofs.Merge.Layouts
import FormatNegotiation.Proofs.Merge.Values

/-! What the computation of an intersection checks always holds, and so does what is checked while a
list of layouts is built. The lists may repeat their entries, and those of layouts may clash. -/
namespace FormatNegotiation

/-- Each of the checks succeeds. -/
def AllHold (findings : List Finding) : Prop := ∀ f ∈ findings, f.holds = true

namespace AllHold

variable {findings findings' : List Finding} {f : Finding}

theorem nil : AllHold [] := by simp [AllHold]

theorem cons (hf : f.holds = true) (h : AllHold findings) : AllHold (f :: findings) := by
  simpa [AllHold, hf] using h

theorem append (h : AllHold findings) (h' : AllHold findings') :
    AllHold (findings ++ findings') := by
  intro f hf
  exact (List.mem_append.mp hf).elim (h f) (h' f)

theorem single {law : Law} {holds : Bool} (h : holds = true) : AllHold [⟨law, holds⟩] := cons h nil

end AllHold

/-- A sort of set for which no check of an intersection ever fails. -/
class VerifiedMergeable (σ : Type) [Mergeable σ] : Prop where
  intersectFindings_hold (rule : Mergeable.Rule σ) (x y : σ) :
    AllHold (Mergeable.intersectFindings rule x y)

theorem FormatList.intersectFindings_hold (a b : FormatList) : AllHold (intersectFindings a b) := by
  unfold intersectFindings
  cases hi : intersect a b with
  | disjoint => exact .nil
  | keep side => exact .nil
  | replace values =>
    rcases intersect_cases a b with ⟨hdisjoint, -⟩ | ⟨-, out, hout, hmem⟩
    · cases hi.symm.trans hdisjoint
    · rw [hi] at hout
      obtain rfl : values = out := Option.some.inj hout
      have hboth : ∀ v ∈ values, (a.contains v && b.contains v) = true := by
        intro v hv
        simpa using (hmem v).mp hv
      exact .single (List.all_eq_true.mpr hboth)

instance : VerifiedMergeable FormatList where
  intersectFindings_hold rule x y := by
    have hall := FormatList.intersectFindings_hold x y
    cases rule with
    | formats media catalog =>
      show AllHold (if _ then [] else _)
      split
      · exact .nil
      · exact hall
    | rates =>
      show AllHold (if _ then [] else _)
      split
      · exact .nil
      · exact hall

namespace LayoutSet

/-- What two lists have in common meets entries of both. -/
theorem meets_of_mem_meet {a b : List ChannelLayout} {l : ChannelLayout} (h : l ∈ meet a b) :
    (∃ x ∈ a, x.meets l) ∧ ∃ y ∈ b, y.meets l := by
  have hself : l.meets l = true := by simp [ChannelLayout.meets]
  have hbare : l.isKnown = true → l.bare.meets l = true := by
    intro hk
    simp [ChannelLayout.meets, hk]
  rcases (mem_meet a b l).mp h with ⟨ha, hb⟩ | ⟨hk, ha, hb⟩ | ⟨hk, hb, ha⟩
  · exact ⟨⟨l, ha, hself⟩, ⟨l, hb, hself⟩⟩
  · exact ⟨⟨l, ha, hself⟩, ⟨l.bare, hb, hbare hk⟩⟩
  · exact ⟨⟨l.bare, ha, hbare hk⟩, ⟨l, hb, hself⟩⟩

theorem intersectListedFindings_hold (a b : List ChannelLayout) :
    AllHold (intersectListedFindings a b) := by
  unfold intersectListedFindings
  split
  · exact .nil
  · have hboth : ∀ l ∈ meet a b, (a.any (·.meets l) && b.any (·.meets l)) = true := by
      intro l hl
      obtain ⟨hx, hy⟩ := meets_of_mem_meet hl
      exact Bool.and_eq_true_iff.mpr ⟨List.any_eq_true.mpr hx, List.any_eq_true.mpr hy⟩
    exact .single (List.all_eq_true.mpr hboth)

/-! ## Building a list -/

/-- The new entry may join a list whose entries clash with each other, as long as it clashes with
none of them. -/
theorem addFindings_hold (l : ChannelLayout) (set? : Option LayoutSet) :
    AllHold (addFindings l set?) := by
  unfold addFindings add
  cases set? with
  | none => exact .nil
  | some set =>
    cases set with
    | allLayouts => exact .nil
    | allCounts => exact .nil
    | listed entries =>
      dsimp only
      by_cases hclash : entries.any (·.clashes l) = true
      · rw [if_pos hclash]
        exact .nil
      · rw [if_neg hclash]
        have hagree : ∀ e ∈ entries, e.channels = l.channels → e.isKnown = l.isKnown := by
          intro e he hchannels
          by_cases hkind : e.isKnown = l.isKnown
          · exact hkind
          · have hclashes : e.clashes l = true := by
              simp [ChannelLayout.clashes, hkind, hchannels]
            exact absurd (List.any_eq_true.mpr ⟨e, he, hclashes⟩) hclash
        apply AllHold.single
        simp only [List.all_eq_true, List.mem_filter, List.mem_append, List.mem_singleton,
          decide_eq_true_eq]
        intro e ⟨he, hchannels⟩
        cases he with
        | inl hold => exact hagree e hold hchannels
        | inr hnew => rw [hnew]

theorem ofListFindings_hold (set? : Option LayoutSet) (entries : List ChannelLayout) :
    AllHold (ofListFindings set? entries) := by
  induction entries generalizing set? with
  | nil => exact .nil
  | cons l rest ih =>
    rw [ofListFindings]
    apply (addFindings_hold l set?).append
    cases add l set? with
    | ok u set?' => exact ih set?'
    | error e set?' => exact .nil

end LayoutSet

instance : VerifiedMergeable LayoutSet where
  intersectFindings_hold _ x y := by
    cases x with
    | allLayouts => exact .nil
    | allCounts => exact .nil
    | listed a =>
      cases y with
      | allLayouts => exact .nil
      | allCounts => exact .nil
      | listed b => exact LayoutSet.intersectListedFindings_hold a b

end FormatNegotiation
