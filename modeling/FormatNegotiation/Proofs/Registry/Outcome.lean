import FormatNegotiation.Proofs.Merge.Layouts
import FormatNegotiation.Proofs.Merge.Values
import FormatNegotiation.Proofs.Registry.Joining
import FormatNegotiation.Proofs.Registry.Session

/-! What a merge answers, and what it leaves of the two sets and of everything else. -/
namespace FormatNegotiation.Registry

variable {σ : Type} {r r' : Registry σ} {a b survivor loser : SetId} {x y : SetEntry σ}

/-! ## The answer -/

/-- Two live sets are merged or refused as the test of compatibility says. -/
theorem merge_of_compatible [Mergeable σ] [LawfulMergeable σ] (h : r.WellFormed)
    (rule : Mergeable.Rule σ) (hne : a ≠ b) (hx : r.find? a = some x) (hy : r.find? b = some y) :
    ∃ r', merge rule a b r =
      .ok (if Mergeable.compatible rule x.contents y.contents then .merged else .incompatible)
        r' := by
  have hdisjoint := LawfulMergeable.intersect_eq_disjoint_iff rule x.contents y.contents
  rcases merge_of_live h rule hne hx hy with
    ⟨hnone, heq⟩ | ⟨r', contents, survivor, loser, hsome, -, heq, -⟩
  · have hrefused : Mergeable.compatible rule x.contents y.contents = false :=
      hdisjoint.mp (Intersection.contents?_eq_none.mp hnone)
    rw [hrefused]
    exact ⟨r, heq⟩
  · have haccepted : Mergeable.compatible rule x.contents y.contents = true := by
      by_contra hfalse
      have hi := hdisjoint.mpr (Bool.eq_false_iff.mpr hfalse)
      rw [hi] at hsome
      cases hsome
    rw [haccepted]
    exact ⟨r', heq⟩

/-- Whatever two different live sets hold, formats, rates and layouts are merged exactly if the test
for their sort says that they can be. -/
theorem merge_agrees_with_test :
    (∀ (cs : List (Command FormatList)) (a b : SetId) (x y : FormatList), a ≠ b →
      (run empty cs).contents? a = some x → (run empty cs).contents? b = some y →
      (∀ media catalog, ∃ r', merge (ValueRule.formats media catalog) a b (run empty cs) =
        .ok (if FormatList.formatsCompatible media catalog x y then .merged else .incompatible)
          r') ∧
      ∃ r', merge ValueRule.rates a b (run empty cs) =
        .ok (if FormatList.ratesCompatible x y then .merged else .incompatible) r') ∧
    ∀ (cs : List (Command LayoutSet)) (a b : SetId) (x y : LayoutSet), a ≠ b →
      (run empty cs).contents? a = some x → (run empty cs).contents? b = some y →
      ∃ r', merge () a b (run empty cs) =
        .ok (if x.compatible y then .merged else .incompatible) r' := by
  constructor
  · intro cs a b x y hne hx hy
    have h : (run empty cs).WellFormed := run_wellFormed cs
    obtain ⟨ex, hfx, rfl⟩ := contents?_eq_some.mp hx
    obtain ⟨ey, hfy, rfl⟩ := contents?_eq_some.mp hy
    constructor
    · intro media catalog
      exact merge_of_compatible h (ValueRule.formats media catalog) hne hfx hfy
    · exact merge_of_compatible h ValueRule.rates hne hfx hfy
  · intro cs a b x y hne hx hy
    have h : (run empty cs).WellFormed := run_wellFormed cs
    obtain ⟨ex, hfx, rfl⟩ := contents?_eq_some.mp hx
    obtain ⟨ey, hfy, rfl⟩ := contents?_eq_some.mp hy
    exact merge_of_compatible h () hne hfx hfy

/-- Gray is common to both lists, but each could have kept colour, so only video refuses it. A
layout beside a bare count of its own width meets that count twice, and no rate of a list is refused
by the list of any. -/
theorem merge_agrees_with_test_gray :
    let formats : List (Command FormatList) :=
      [.newSlot, .newSlot, .attach [0, 8, 8] [0], .attach [2, 8] [1]]
    let rates : List (Command FormatList) :=
      [.newSlot, .newSlot, .attach [] [0], .attach [48000, 48000] [1]]
    let layouts : List (Command LayoutSet) :=
      [.newSlot, .newSlot, .attach (.listed [.stereo, .count 2]) [0],
        .attach (.listed [.count 2, .count 6]) [1]]
    (∃ r', merge (ValueRule.formats .video .builtin) ⟨0, 0⟩ ⟨1, 0⟩ (run empty formats) =
      .ok .incompatible r') ∧
    (∃ r', merge (ValueRule.formats .audio .builtin) ⟨0, 0⟩ ⟨1, 0⟩ (run empty formats) =
      .ok .merged r') ∧
    (∃ r', merge ValueRule.rates ⟨0, 0⟩ ⟨1, 0⟩ (run empty rates) = .ok .merged r') ∧
    ∃ r', merge () ⟨0, 0⟩ ⟨1, 0⟩ (run empty layouts) = .ok .merged r' := by
  intro formats rates layouts
  have hformats := merge_agrees_with_test.1 formats ⟨0, 0⟩ ⟨1, 0⟩ [0, 8, 8] [2, 8] (by decide)
    (by decide) (by decide)
  have hrates := merge_agrees_with_test.1 rates ⟨0, 0⟩ ⟨1, 0⟩ [] [48000, 48000] (by decide)
    (by decide) (by decide)
  have hlayouts := merge_agrees_with_test.2 layouts ⟨0, 0⟩ ⟨1, 0⟩ (.listed [.stereo, .count 2])
    (.listed [.count 2, .count 6]) (by decide) (by decide) (by decide)
  exact ⟨hformats.1 .video .builtin, hformats.1 .audio .builtin, hrates.2, hlayouts⟩

/-! ## What is left -/

/-- How a registry comes out of a merge that succeeds. One of two sets is gone, and all its
references are appended to those of the other; all other slots and sets are as they were. -/
structure TakesOver (r r' : Registry σ) (survivor loser : SetId) : Prop where
  isLive_survivor : r'.isLive survivor
  not_isLive_loser : ¬ r'.isLive loser
  refs_survivor : r'.refs survivor = r.refs survivor ++ r.refs loser
  refcount_survivor : r'.refcount survivor = r.refcount survivor + r.refcount loser
  liveSets_eq : r'.liveSets + 1 = r.liveSets
  held?_eq_survivor_iff (slot : SlotId) : r'.held? slot = some survivor ↔
    r.held? slot = some survivor ∨ r.held? slot = some loser
  slots_eq (slot : SlotId) : r.held? slot ≠ some survivor → r.held? slot ≠ some loser →
    r'.slots[slot]? = r.slots[slot]?
  find?_eq (id : SetId) : id ≠ survivor → id ≠ loser → r'.find? id = r.find? id

theorem mem_heldSets_iff_isLive (h : r.Linked) (id : SetId) : id ∈ r.heldSets ↔ r.isLive id := by
  rw [mem_heldSets, isLive_iff]
  constructor
  · rintro ⟨slot, hs⟩
    obtain ⟨entry, hf, -⟩ := h.mem_of_held hs
    exact ⟨entry, hf⟩
  · rintro ⟨entry, hf⟩
    exact h.exists_held hf

namespace Absorbs

variable {contents : σ}

theorem isLive_iff (h : r.Absorbs r' survivor loser contents) (hs : r.isLive survivor)
    (id : SetId) : r'.isLive id ↔ id ≠ loser ∧ r.isLive id := by
  rw [isLive, h.find?_eq]
  by_cases hl : id = loser
  · simp [hl]
  · by_cases hid : id = survivor
    · subst hid
      simp [hl, hs]
    · simp [hl, hid, isLive]

/-- The set that is gone is the only one that no slot points at any longer. -/
theorem liveSets_eq (h : r.Absorbs r' survivor loser contents) (hr : r.WellFormed)
    (hs : r.isLive survivor) (hl : r.isLive loser) : r'.liveSets + 1 = r.liveSets := by
  have hmem : ∀ id, id ∈ r.heldSets ↔ id ∈ loser :: r'.heldSets := by
    intro id
    rw [List.mem_cons, mem_heldSets_iff_isLive hr.linked,
      mem_heldSets_iff_isLive h.wellFormed.linked, h.isLive_iff hs]
    by_cases hid : id = loser
    · simp [hid, hl]
    · simp [hid]
  have hgone : loser ∉ r'.heldSets := by
    rw [mem_heldSets_iff_isLive h.wellFormed.linked, h.isLive_iff hs]
    simp
  have hnd : (loser :: r'.heldSets).Nodup := List.nodup_cons.mpr ⟨hgone, List.nodup_dedup _⟩
  have hperm : r.heldSets.Perm (loser :: r'.heldSets) :=
    (List.perm_ext_iff_of_nodup (List.nodup_dedup _) hnd).mpr hmem
  calc
    r'.liveSets + 1 = (loser :: r'.heldSets).length := by
      rw [liveSets_eq_length_heldSets h.wellFormed.linked, List.length_cons]
    _ = r.heldSets.length := hperm.length_eq.symm
    _ = r.liveSets := (liveSets_eq_length_heldSets hr.linked).symm

theorem takesOver (h : r.Absorbs r' survivor loser contents) (hr : r.WellFormed)
    (hne : survivor ≠ loser) (hs : r.isLive survivor) (hl : r.isLive loser) :
    r.TakesOver r' survivor loser := by
  have hfind : r'.find? survivor = some ⟨contents, r.refs survivor ++ r.refs loser⟩ := by
    rw [h.find?_eq, if_neg hne, if_pos rfl]
  have hrefs : r'.refs survivor = r.refs survivor ++ r.refs loser := refs_of_find? hfind
  refine ⟨(h.isLive_iff hs survivor).mpr ⟨hne, hs⟩, ?_, hrefs, ?_, h.liveSets_eq hr hs hl,
    h.held?_eq_survivor_iff, ?_, ?_⟩
  · rw [h.isLive_iff hs]
    simp
  · simp only [refcount, hrefs, List.length_append]
  · intro slot _ hslot
    rw [h.slots_eq, if_neg hslot]
  · intro id hid hid'
    rw [h.find?_eq, if_neg hid', if_neg hid]

end Absorbs

/-- A merge fails on handles that are not live, leaves one set or two that it refuses as they are,
and otherwise lets one of the two take over. -/
theorem merge_cases [Mergeable σ] (hr : r.WellFormed) (rule : Mergeable.Rule σ) (a b : SetId) :
    (¬ (r.isLive a ∧ r.isLive b) ∧ merge rule a b r = .error .unknownSet r) ∨
    (r.isLive a ∧ r.isLive b) ∧
      ((a = b ∧ merge rule a b r = .ok .merged r) ∨ merge rule a b r = .ok .incompatible r ∨
        ∃ r' survivor loser, merge rule a b r = .ok .merged r' ∧
          (survivor = a ∧ loser = b ∨ survivor = b ∧ loser = a) ∧
          r.TakesOver r' survivor loser) := by
  by_cases hlive : r.isLive a ∧ r.isLive b
  swap
  · have hdead : r.find? a = none ∨ r.find? b = none := by
      rw [not_and_or] at hlive
      simpa only [isLive, Option.not_isSome_iff_eq_none] using hlive
    exact .inl ⟨hlive, merge_of_dead hdead⟩
  refine .inr ⟨hlive, ?_⟩
  obtain ⟨x, hx⟩ := isLive_iff.mp hlive.1
  obtain ⟨y, hy⟩ := isLive_iff.mp hlive.2
  by_cases hne : a = b
  · subst hne
    exact .inl ⟨rfl, merge_self hr.linked hx⟩
  rcases merge_of_live hr rule hne hx hy with
    ⟨-, heq⟩ | ⟨r', contents, survivor, loser, -, hside, heq, habsorbs⟩
  · exact .inr (.inl heq)
  · refine .inr (.inr ⟨r', survivor, loser, heq, hside, ?_⟩)
    rcases hside with ⟨rfl, rfl⟩ | ⟨rfl, rfl⟩
    · exact habsorbs.takesOver hr hne hlive.1 hlive.2
    · exact habsorbs.takesOver hr (Ne.symm hne) hlive.2 hlive.1

/-- After any run a merge fails exactly if one of the two handles is not live, and then changes
nothing. It leaves a live set beside itself alone, and so it does with two sets that it refuses.
Otherwise one of the two takes over what the other had. -/
theorem merge_atomic [Mergeable σ] (cs : List (Command σ)) (rule : Mergeable.Rule σ)
    (a b : SetId) :
    let r := run empty cs
    (∀ e r', merge rule a b r = .error e r' ↔
      e = .unknownSet ∧ r' = r ∧ ¬ (r.isLive a ∧ r.isLive b)) ∧
    (a = b → r.isLive a → merge rule a b r = .ok .merged r) ∧
    (∀ r', merge rule a b r = .ok .incompatible r' → r' = r) ∧
    ∀ r', a ≠ b → merge rule a b r = .ok .merged r' →
      ∃ survivor loser, (survivor = a ∧ loser = b ∨ survivor = b ∧ loser = a) ∧
        r.TakesOver r' survivor loser := by
  intro r
  have hr : r.WellFormed := run_wellFormed cs
  have hcases := merge_cases hr rule a b
  refine ⟨fun e r' => ⟨fun hres => ?_, ?_⟩, ?_, fun r' hres => ?_, fun r' hne hres => ?_⟩
  · rcases hcases with ⟨hdead, heq⟩ | ⟨-, ⟨-, heq⟩ | heq | ⟨_, _, _, heq, -, -⟩⟩
    · cases heq.symm.trans hres
      exact ⟨rfl, rfl, hdead⟩
    all_goals cases heq.symm.trans hres
  · rintro ⟨rfl, rfl, hdead⟩
    rcases hcases with ⟨-, heq⟩ | ⟨hlive, -⟩
    · exact heq
    · exact absurd hlive hdead
  · rintro rfl hlive
    obtain ⟨x, hx⟩ := isLive_iff.mp hlive
    exact merge_self hr.linked hx
  · rcases hcases with ⟨-, heq⟩ | ⟨-, ⟨-, heq⟩ | heq | ⟨_, _, _, heq, -, -⟩⟩
    all_goals cases heq.symm.trans hres
    rfl
  · rcases hcases with ⟨-, heq⟩ | ⟨-, ⟨heq', -⟩ | heq | ⟨r₁, survivor, loser, heq, hside, htakes⟩⟩
    · cases heq.symm.trans hres
    · exact absurd heq' hne
    · cases heq.symm.trans hres
    · cases heq.symm.trans hres
      exact ⟨survivor, loser, hside, htakes⟩

end FormatNegotiation.Registry
