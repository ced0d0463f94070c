import FormatNegotiation.Proofs.Actions
import FormatNegotiation.Proofs.Integrity
import FormatNegotiation.Proofs.Merge.Exactness
import FormatNegotiation.Proofs.Merge.Values

/-! A merge of two sets that pass the checks leaves one that passes them. A list of layouts is put
together from several sources, and neither repeats an entry nor becomes ambiguous by that. -/
namespace FormatNegotiation

open Integrity

/-- What holds of both operands of a merge under this rule holds of what is left of them. -/
def InheritedBy {σ : Type} [Mergeable σ] (rule : Mergeable.Rule σ) (Valid : σ → Prop) : Prop :=
  ∀ x y z, (Mergeable.intersect rule x y).contents? x y = some z → Valid x → Valid y → Valid z

/-- An operand that is kept is as it was, so only new contents matter. -/
theorem InheritedBy.of_replace {σ : Type} [Mergeable σ] {rule : Mergeable.Rule σ}
    {Valid : σ → Prop}
    (h : ∀ x y z, Mergeable.intersect rule x y = .replace z → Valid x → Valid y → Valid z) :
    InheritedBy rule Valid := by
  intro x y z hz hx hy
  cases hi : Mergeable.intersect rule x y with
  | disjoint =>
    rw [hi] at hz
    cases hz
  | keep side =>
    rw [hi] at hz
    cases side with
    | first =>
      obtain rfl : x = z := Option.some.inj hz
      exact hx
    | second =>
      obtain rfl : y = z := Option.some.inj hz
      exact hy
  | replace contents =>
    rw [hi] at hz
    obtain rfl : contents = z := Option.some.inj hz
    exact h x y contents hi hx hy

namespace FormatList

variable {x y z : FormatList}

theorem common_of_intersect (h : intersect x y = .replace z) : z = common x y ∧ z ≠ [] := by
  have hmeets := meets_intersect x y
  rw [h] at hmeets
  cases hmeets with
  | neither hmeet =>
    obtain ⟨v, hv⟩ := hmeet
    exact ⟨rfl, List.ne_nil_of_mem (mem_common.mpr hv)⟩

/-- New contents are some values of the first list, in their order. -/
theorem common_of_rule {rule : ValueRule} (h : Mergeable.intersect rule x y = .replace z) :
    z = common x y ∧ z ≠ [] := by
  cases rule with
  | formats media catalog =>
    have hres : intersectFormats media catalog x y = .replace z := h
    unfold intersectFormats at hres
    split_ifs at hres
    exact common_of_intersect hres
  | rates =>
    have hres : intersectRates x y = .replace z := h
    unfold intersectRates at hres
    split_ifs at hres
    exact common_of_intersect hres

/-- A property that goes over to the sublists of a list, the empty one aside, is inherited. -/
theorem inheritedBy_of_sublist (rule : ValueRule) {Valid : FormatList → Prop}
    (hsub : ∀ {x z : FormatList}, z.Sublist x → z ≠ [] → Valid x → Valid z) :
    InheritedBy rule Valid := by
  apply InheritedBy.of_replace
  intro x y z h hx _
  obtain ⟨rfl, hne⟩ := common_of_rule h
  have hsublist : (common x y).Sublist x := List.filter_sublist
  exact hsub hsublist hne hx

theorem validate_inheritedBy (rule : ValueRule) (context : String) (catalog : Catalog)
    (kind : ListKind) :
    InheritedBy rule fun list : FormatList => Passes (validate context catalog list kind) := by
  have hformats : ∀ (isDescribed : FormatId → Bool) {x z : FormatList}, z.Sublist x → z ≠ [] →
      formatsDefect? isDescribed x = none → formatsDefect? isDescribed z = none := by
    intro isDescribed x z hsub hne hx
    rw [formatsDefect?_eq_none_iff] at hx ⊢
    exact ⟨fun f hf => hx.1 f (hsub.subset hf), hne, hx.2.2.sublist hsub⟩
  apply inheritedBy_of_sublist
  intro x z hsub hne hx
  cases kind with
  | pixelFormats =>
    exact passes_report_iff.mpr (hformats _ hsub hne (passes_report_iff.mp hx))
  | sampleFormats =>
    exact passes_report_iff.mpr (hformats _ hsub hne (passes_report_iff.mp hx))
  | sampleRates =>
    have hrates := ratesDefect?_eq_none_iff.mp (passes_report_iff.mp hx)
    have hpositive : ∀ rate ∈ z, 0 < rate := fun rate hrate => hrates.1 rate (hsub.subset hrate)
    exact passes_report_iff.mpr
      (ratesDefect?_eq_none_iff.mpr ⟨hpositive, hrates.2.sublist hsub⟩)

end FormatList

namespace LayoutSet

open ChannelLayout

variable {a b : List ChannelLayout} {x y z : LayoutSet}

/-! ## What two lists have in common -/

/-- A bare count in common is in both lists, and a known layout in common is in one of them. -/
theorem unambiguous_meet (ha : Unambiguous a) (hb : Unambiguous b) : Unambiguous (meet a b) := by
  intro l hl hk hbare
  obtain ⟨hbarea, hbareb⟩ := (bare_mem_meet a b l).mp hbare
  rcases (mem_meet a b l).mp hl with ⟨hla, -⟩ | ⟨-, hla, -⟩ | ⟨-, hlb, -⟩
  · exact ha l hla hk hbarea
  · exact ha l hla hk hbarea
  · exact hb l hlb hk hbareb

/-- The four parts of what two lists have in common do not overlap: a layout without a partner that
the other list has too would stand there beside its bare count. -/
theorem nodup_meet (ha : a.Nodup) (hb : b.Nodup) (hub : Unambiguous b) : (meet a b).Nodup := by
  have hfirst : ((pair a b).paired ++ (pair a b).first).Nodup :=
    (paired_append_first_perm a b).nodup_iff.mpr ha
  have hsecond : ((pair a b).paired ++ (pair a b).second).Nodup :=
    (paired_append_second_perm a b).nodup_iff.mpr hb
  obtain ⟨hpaired, hnd₁, hdisj₁⟩ := List.nodup_append.mp hfirst
  obtain ⟨-, hnd₂, hdisj₂⟩ := List.nodup_append.mp hsecond
  have hadmitted : ∀ {rest counts : List ChannelLayout} {l : ChannelLayout},
      l ∈ admitted rest counts → l ∈ rest ∧ l.isKnown = true ∧ l.bare ∈ counts := by
    intro rest counts l hl
    simpa [admitted] using hl
  have hknown : ∀ l ∈ (pair a b).paired ++ admitted (pair a b).first b ++
      admitted (pair a b).second a, l.isKnown = true := by
    intro l hl
    rcases List.mem_append.mp hl with hl | hl
    · rcases List.mem_append.mp hl with hl | hl
      · exact ((mem_paired a b l).mp hl).1
      · exact (hadmitted hl).2.1
    · exact (hadmitted hl).2.1
  unfold meet
  refine List.nodup_append.mpr ⟨List.nodup_append.mpr ⟨List.nodup_append.mpr
    ⟨hpaired, hnd₁.filter _, ?_⟩, hnd₂.filter _, ?_⟩, ha.filter _, ?_⟩
  · intro l hl l' hl'
    exact hdisj₁ l hl l' (hadmitted hl').1
  · intro l hl l' hl' heq
    rcases List.mem_append.mp hl with hl | hl
    · exact hdisj₂ l hl l' (hadmitted hl').1 heq
    · obtain ⟨-, hk, hbare⟩ := hadmitted hl
      have hlb : l ∈ b := (mem_iff_paired_or_second a b l).mpr (.inr (heq ▸ (hadmitted hl').1))
      exact hub l hlb hk hbare
  · intro l hl l' hl' heq
    have hcount : l'.isKnown = false := by
      have hshared : l' ∈ a ∧ l'.isKnown = false ∧ l' ∈ b := by
        simpa [sharedCounts] using hl'
      exact hshared.2.1
    rw [← heq, hknown l hl] at hcount
    cases hcount

/-! ## What is left of two sets -/

theorem meet_of_intersectListed (h : intersectListed a b = .replace z) :
    z = .listed (meet a b) ∧ meet a b ≠ [] := by
  unfold intersectListed at h
  split_ifs at h with hnil
  cases h
  exact ⟨rfl, by simpa using hnil⟩

theorem known_of_intersectKnown {side : Side} (h : intersectKnown side a = .replace z) :
    z = .listed (a.filter (·.isKnown)) ∧ a.filter (·.isKnown) ≠ [] := by
  unfold intersectKnown at h
  split_ifs at h with hnone
  cases h
  refine ⟨rfl, fun hnil => hnone ?_⟩
  rw [List.countP_eq_length_filter, hnil, List.length_nil]

/-- New contents are what two lists have in common, or the known layouts of one list. -/
theorem replace_cases (h : intersect x y = .replace z) :
    (∃ a b, x = .listed a ∧ y = .listed b ∧ z = .listed (meet a b) ∧ meet a b ≠ []) ∨
    ∃ a, (x = .listed a ∨ y = .listed a) ∧
      z = .listed (a.filter (·.isKnown)) ∧ a.filter (·.isKnown) ≠ [] := by
  cases x with
  | listed a =>
    cases y with
    | listed b => exact .inl ⟨a, b, rfl, rfl, meet_of_intersectListed h⟩
    | allLayouts => exact .inr ⟨a, .inl rfl, known_of_intersectKnown h⟩
    | allCounts => cases h
  | allLayouts =>
    cases y with
    | listed b => exact .inr ⟨b, .inr rfl, known_of_intersectKnown h⟩
    | allLayouts => cases h
    | allCounts => cases h
  | allCounts => cases y <;> cases h

theorem unambiguous_inheritedBy :
    InheritedBy (σ := LayoutSet) () fun set => Unambiguous set.layouts := by
  apply InheritedBy.of_replace
  intro x y z h hx hy
  rcases replace_cases h with ⟨a, b, rfl, rfl, rfl, -⟩ | ⟨a, rfl | rfl, rfl, -⟩
  · exact unambiguous_meet hx hy
  · exact hx.mono List.filter_sublist.subset
  · exact hy.mono List.filter_sublist.subset

theorem checkChannelLayouts_inheritedBy (context : String) :
    InheritedBy (σ := LayoutSet) () fun set => Passes (checkChannelLayouts context set) := by
  have hlisted : ∀ {out : List ChannelLayout}, out ≠ [] → listed out ≠ .listed [] := by
    simp
  apply InheritedBy.of_replace
  intro x y z h hx hy
  rw [passes_checkChannelLayouts_iff] at hx hy ⊢
  have hunambiguous : Unambiguous z.layouts :=
    unambiguous_inheritedBy x y z (congrArg (·.contents? x y) h) hx.2.2 hy.2.2
  rcases replace_cases h with ⟨a, b, rfl, rfl, rfl, hne⟩ | ⟨a, rfl | rfl, rfl, hne⟩
  · exact ⟨hlisted hne, nodup_meet hx.2.1 hy.2.1 hy.2.2, hunambiguous⟩
  · have hnd : a.Nodup := hx.2.1
    exact ⟨hlisted hne, hnd.filter _, hunambiguous⟩
  · have hnd : a.Nodup := hy.2.1
    exact ⟨hlisted hne, hnd.filter _, hunambiguous⟩

end LayoutSet

namespace Registry

variable {σ : Type} {r r' : Registry σ} {a b : SetId} {x y : σ}

/-- Of two sets one is live and holds these contents; the other one, if it is another, is gone. -/
def Leaves (r : Registry σ) (a b : SetId) (z : σ) : Prop :=
  ∃ survivor, (survivor = a ∨ survivor = b) ∧ r.contents? survivor = some z ∧
    ∀ id, id = a ∨ id = b → id ≠ survivor → r.contents? id = none

theorem exists_leaves_of_merged [Mergeable σ] {rule : Mergeable.Rule σ} (h : r.WellFormed)
    (hx : r.contents? a = some x) (hy : r.contents? b = some y)
    (hmerge : merge rule a b r = .ok .merged r') :
    ∃ z, r'.Leaves a b z ∧
      ∀ Valid : σ → Prop, InheritedBy rule Valid → Valid x → Valid y → Valid z := by
  by_cases hne : a = b
  · subst hne
    obtain ⟨u, hu, -⟩ := contents?_eq_some.mp hx
    obtain rfl : r = r' := by
      cases (merge_self h.linked hu).symm.trans hmerge
      rfl
    refine ⟨x, ⟨a, .inl rfl, hx, fun id hid hother => ?_⟩, fun _ _ hvalid _ => hvalid⟩
    exact absurd (or_self_iff.mp hid) hother
  rcases merge_of_contents h rule hne hx hy with
    ⟨-, heq⟩ | ⟨r'', survivor, loser, z, hz, heq, hside, hne', habsorbs⟩
  · cases heq.symm.trans hmerge
  · cases heq.symm.trans hmerge
    have hleft : r'.contents? survivor = some z := habsorbs.contents?_survivor hne'
    have hgone : r'.contents? loser = none := habsorbs.contents?_loser
    refine ⟨z, ⟨survivor, ?_, hleft, fun id hid hother => ?_⟩, fun _ hrule => hrule x y z hz⟩
    · exact hside.imp And.left And.left
    · obtain rfl : id = loser := by
        rcases hside with ⟨rfl, rfl⟩ | ⟨rfl, rfl⟩
        · exact hid.resolve_left hother
        · exact hid.resolve_right hother
      exact hgone

/-- Whatever check two sets pass, the set that a merge leaves of them passes it, whichever rule they
are merged by. Two lists of layouts that are not ambiguous leave one that is not, even if they
repeat entries. -/
theorem merge_keeps_checks :
    (∀ (cs : List (Command LayoutSet)) (a b : SetId) (x y : LayoutSet) (r' : Registry LayoutSet),
      (run empty cs).contents? a = some x → (run empty cs).contents? b = some y →
      merge () a b (run empty cs) = .ok .merged r' →
      ∃ z, r'.Leaves a b z ∧
        (∀ context, Passes (checkChannelLayouts context x) →
          Passes (checkChannelLayouts context y) → Passes (checkChannelLayouts context z) ∧
            z ≠ .listed [] ∧ z.layouts.Nodup ∧ ChannelLayout.Unambiguous z.layouts) ∧
        (ChannelLayout.Unambiguous x.layouts → ChannelLayout.Unambiguous y.layouts →
          ChannelLayout.Unambiguous z.layouts)) ∧
    ∀ (cs : List (Command FormatList)) (rule : ValueRule) (a b : SetId) (x y : FormatList)
      (r' : Registry FormatList),
      (run empty cs).contents? a = some x → (run empty cs).contents? b = some y →
      merge rule a b (run empty cs) = .ok .merged r' →
      ∃ z, r'.Leaves a b z ∧ ∀ context catalog kind, Passes (validate context catalog x kind) →
        Passes (validate context catalog y kind) → Passes (validate context catalog z kind) := by
  constructor
  · intro cs a b x y r' hx hy hmerge
    obtain ⟨z, hleaves, hinherits⟩ := exists_leaves_of_merged (run_wellFormed cs) hx hy hmerge
    refine ⟨z, hleaves, fun context hpx hpy => ?_, hinherits _ LayoutSet.unambiguous_inheritedBy⟩
    have hpasses : Passes (checkChannelLayouts context z) :=
      hinherits _ (LayoutSet.checkChannelLayouts_inheritedBy context) hpx hpy
    exact ⟨hpasses, passes_checkChannelLayouts_iff.mp hpasses⟩
  · intro cs rule a b x y r' hx hy hmerge
    obtain ⟨z, hleaves, hinherits⟩ := exists_leaves_of_merged (run_wellFormed cs) hx hy hmerge
    exact ⟨z, hleaves, fun context catalog kind =>
      hinherits _ (FormatList.validate_inheritedBy rule context catalog kind)⟩

/-- New contents in both cases: each list has an entry that the other lacks. -/
theorem merge_keeps_checks_stereo_or_six :
    let layouts : List (Command LayoutSet) :=
      [.newSlot, .newSlot, .attach (.listed [.stereo, .count 6]) [0],
        .attach (.listed [.count 2, .surroundSideLfe]) [1]]
    let formats : List (Command FormatList) :=
      [.newSlot, .newSlot, .attach [8, 1, 3] [0], .attach [0, 3, 1] [1]]
    (∃ r' z, merge () ⟨0, 0⟩ ⟨1, 0⟩ (run empty layouts) = .ok .merged r' ∧
      r'.Leaves ⟨0, 0⟩ ⟨1, 0⟩ z ∧ Passes (checkChannelLayouts "mixer" z)) ∧
    ∃ r' z, merge (ValueRule.formats .audio .builtin) ⟨0, 0⟩ ⟨1, 0⟩ (run empty formats) =
        .ok .merged r' ∧
      r'.Leaves ⟨0, 0⟩ ⟨1, 0⟩ z ∧ Passes (validate "mixer" .builtin z .sampleFormats) := by
  intro layouts formats
  have hpasses : ∀ set : LayoutSet, layoutsDefect? set = none →
      Passes (checkChannelLayouts "mixer" set) := fun _ => passes_report_iff.mpr
  have hvalid : ∀ list : FormatList,
      formatsDefect? (fun f => (Catalog.builtin.sample? f).isSome) list = none →
      Passes (validate "mixer" .builtin list .sampleFormats) := fun _ => passes_report_iff.mpr
  obtain ⟨r₁, hmerge₁⟩ : ∃ r', merge () ⟨0, 0⟩ ⟨1, 0⟩ (run empty layouts) = .ok .merged r' :=
    exists_ok_of_run' (by decide)
  obtain ⟨r₂, hmerge₂⟩ : ∃ r', merge (ValueRule.formats .audio .builtin) ⟨0, 0⟩ ⟨1, 0⟩
      (run empty formats) = .ok .merged r' :=
    exists_ok_of_run' (by decide)
  obtain ⟨z₁, hleaves₁, hchecks₁, -⟩ := merge_keeps_checks.1 layouts ⟨0, 0⟩ ⟨1, 0⟩
    (.listed [.stereo, .count 6]) (.listed [.count 2, .surroundSideLfe]) r₁ (by decide)
    (by decide) hmerge₁
  obtain ⟨z₂, hleaves₂, hchecks₂⟩ := merge_keeps_checks.2 formats
    (.formats .audio .builtin) ⟨0, 0⟩ ⟨1, 0⟩ [8, 1, 3] [0, 3, 1] r₂ (by decide) (by decide)
    hmerge₂
  have hpasses₁ := hchecks₁ "mixer" (hpasses _ (by decide)) (hpasses _ (by decide))
  have hpasses₂ := hchecks₂ "mixer" .builtin .sampleFormats (hvalid _ (by decide))
    (hvalid _ (by decide))
  exact ⟨⟨r₁, z₁, hmerge₁, hleaves₁, hpasses₁.1⟩, r₂, z₂, hmerge₂, hleaves₂, hpasses₂⟩

end Registry

end FormatNegotiation
