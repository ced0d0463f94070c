import FormatNegotiation.Proofs.Merge.Rules
import FormatNegotiation.Proofs.Registry.Joining
import FormatNegotiation.Proofs.Registry.Sharing

/-! A registry as its slots see it. Joining two slots of a registry joins them in that view, and
nothing but the view decides whether they can be joined. -/
namespace FormatNegotiation.Registry

variable {σ ν : Type} {Accepts : σ → ν → Prop} {Plain : σ → Prop} {r r' : Registry σ}
  {s t u : SlotId} {a b : SetId} {x y : SetEntry σ}

/-- Two slots point at the same set. -/
def Shares (r : Registry σ) (s t : SlotId) : Prop :=
  ∃ id, r.held? s = some id ∧ r.held? t = some id

/-- A value is accepted by the set that a slot points at. -/
def AcceptsAt (Accepts : σ → ν → Prop) (r : Registry σ) (s : SlotId) (v : ν) : Prop :=
  ∃ contents, r.heldContents? s = some contents ∧ Accepts contents v

/-- A slot points at one of two sets. -/
def PointsAtEither (r : Registry σ) (a b : SetId) (s : SlotId) : Prop :=
  r.held? s = some a ∨ r.held? s = some b

theorem shares_iff_of_held? (hs : r.held? s = some a) : r.Shares s t ↔ r.held? t = some a := by
  constructor
  · rintro ⟨id, hs', ht⟩
    rwa [hs.symm.trans hs']
  · exact fun ht => ⟨a, hs, ht⟩

theorem shares_self_iff : r.Shares s s ↔ r.held? s ≠ none := by
  rw [Option.ne_none_iff_exists']
  exact ⟨fun ⟨id, hs, _⟩ => ⟨id, hs⟩, fun ⟨id, hs⟩ => ⟨id, hs, hs⟩⟩

theorem acceptsAt_iff_of_held? (hs : r.held? s = some a) {v : ν} :
    r.AcceptsAt Accepts s v ↔ ∃ contents, r.contents? a = some contents ∧ Accepts contents v := by
  simp only [AcceptsAt, heldContents?, hs, Option.bind_some]

theorem acceptsAt_iff (hs : r.held? s = some a) (hx : r.find? a = some x) {v : ν} :
    r.AcceptsAt Accepts s v ↔ Accepts x.contents v := by
  rw [acceptsAt_iff_of_held? hs, contents?_of_find? hx]
  simp

theorem acceptsAt_congr (hst : r.Shares s t) {v : ν} :
    r.AcceptsAt Accepts s v ↔ r.AcceptsAt Accepts t v := by
  obtain ⟨id, hs, ht⟩ := hst
  rw [acceptsAt_iff_of_held? hs, acceptsAt_iff_of_held? ht]

theorem held?_ne_none_of_acceptsAt {v : ν} (h : r.AcceptsAt Accepts s v) : r.held? s ≠ none := by
  obtain ⟨contents, hc, -⟩ := h
  intro hnone
  simp [heldContents?, hnone] at hc

/-- The slots of a registry, without the names of the sets that they share. -/
def slotView (Accepts : σ → ν → Prop) (r : Registry σ) : Sharing ν where
  shares := r.Shares
  accepts := r.AcceptsAt Accepts
  symm := fun ⟨id, hs, ht⟩ => ⟨id, ht, hs⟩
  trans := by
    rintro s t u ⟨id, hs, ht⟩ htu
    exact ⟨id, hs, (shares_iff_of_held? ht).mp htu⟩
  accepts_of_shares := fun hst => (acceptsAt_congr hst).mp
  shares_of_accepts := fun h => shares_self_iff.mpr (held?_ne_none_of_acceptsAt h)

/-! ## The view after one set has absorbed another -/

/-- The slots that pointed at either of the two sets share the one that is left. -/
theorem Absorbs.shares_iff {survivor loser : SetId} {contents : σ}
    (h : r.Absorbs r' survivor loser contents) (u w : SlotId) :
    r'.Shares u w ↔ r.Shares u w ∨
      r.PointsAtEither survivor loser u ∧ r.PointsAtEither survivor loser w := by
  have hsurvivor := h.held?_eq_survivor_iff
  constructor
  · rintro ⟨id, hu, hw⟩
    by_cases hid : id = survivor
    · subst hid
      exact .inr ⟨(hsurvivor u).mp hu, (hsurvivor w).mp hw⟩
    · have hkept : ∀ s, r'.held? s = some id → r.held? s = some id := by
        intro s hs
        rw [h.held?_eq] at hs
        split_ifs at hs
        · exact absurd (Option.some.inj hs).symm hid
        · exact hs
      exact .inl ⟨id, hkept u hu, hkept w hw⟩
  · rintro (⟨id, hu, hw⟩ | ⟨hu, hw⟩)
    · have hmoved : ∀ s, r.held? s = some id →
          r'.held? s = some (if id = loser then survivor else id) := by
        intro s hs
        rw [h.held?_eq, hs]
        by_cases hid : id = loser <;> simp [hid]
      exact ⟨_, hmoved u hu, hmoved w hw⟩
    · exact ⟨survivor, (hsurvivor u).mpr hu, (hsurvivor w).mpr hw⟩

theorem Absorbs.slotView_shares_iff {survivor loser : SetId} {contents : σ}
    (h : r.Absorbs r' survivor loser contents) (hs : r.held? s = some survivor)
    (ht : r.held? t = some loser) (u w : SlotId) :
    r'.Shares u w ↔ ((r.slotView Accepts).join s t).shares u w := by
  have hjoin : ((r.slotView Accepts).join s t).shares u w ↔ r.Shares u w ∨
      r.held? u = some survivor ∧ r.held? w = some loser ∨
      r.held? u = some loser ∧ r.held? w = some survivor := by
    refine or_congr Iff.rfl (or_congr (and_congr ?_ ?_) (and_congr ?_ ?_))
    · exact ⟨fun hus => (shares_iff_of_held? hs).mp ((r.slotView Accepts).symm hus),
        fun hu => ⟨survivor, hu, hs⟩⟩
    · exact shares_iff_of_held? ht
    · exact ⟨fun hut => (shares_iff_of_held? ht).mp ((r.slotView Accepts).symm hut),
        fun hu => ⟨loser, hu, ht⟩⟩
    · exact shares_iff_of_held? hs
  rw [hjoin, h.shares_iff]
  constructor
  · rintro (hshares | ⟨hu | hu, hw | hw⟩)
    · exact .inl hshares
    · exact .inl ⟨survivor, hu, hw⟩
    · exact .inr (.inl ⟨hu, hw⟩)
    · exact .inr (.inr ⟨hu, hw⟩)
    · exact .inl ⟨loser, hu, hw⟩
  · rintro (hshares | ⟨hu, hw⟩ | ⟨hu, hw⟩)
    · exact .inl hshares
    · exact .inr ⟨.inl hu, .inr hw⟩
    · exact .inr ⟨.inr hu, .inl hw⟩

theorem Absorbs.slotView_accepts_iff {survivor loser : SetId} {z : σ}
    (h : r.Absorbs r' survivor loser z) (hne : survivor ≠ loser) (hr : r.WellFormed)
    (hs : r.held? s = some survivor) (ht : r.held? t = some loser)
    (hx : r.find? survivor = some x) (hy : r.find? loser = some y)
    (hz : ∀ v, Accepts z v ↔ Accepts x.contents v ∧ Accepts y.contents v) (u : SlotId) (v : ν) :
    r'.AcceptsAt Accepts u v ↔ ((r.slotView Accepts).join s t).accepts u v := by
  have hjoin : ((r.slotView Accepts).join s t).accepts u v ↔
      r.held? u ≠ none ∧ ∀ w, r'.Shares u w → r.AcceptsAt Accepts w v := by
    rw [Sharing.accepts_join_iff]
    refine and_congr shares_self_iff (forall_congr' fun w => imp_congr ?_ Iff.rfl)
    exact (h.slotView_shares_iff hs ht u w).symm
  rw [hjoin]
  -- A slot that points at nothing accepts nothing; the others keep their set, or get the survivor.
  cases hu : r.held? u with
  | none =>
    have hu' : r'.held? u = none := by
      rw [h.held?_eq, hu, if_neg (by simp)]
    exact iff_of_false (fun hacc => held?_ne_none_of_acceptsAt hacc hu') fun hacc => hacc.1 rfl
  | some id =>
    by_cases hid : id = survivor ∨ id = loser
    · have hu' : r'.held? u = some survivor := by
        rw [h.held?_eq_survivor_iff, hu]
        exact hid.imp (congrArg some) (congrArg some)
      have hz' : r'.find? survivor = some ⟨z, r.refs survivor ++ r.refs loser⟩ := by
        rw [h.find?_eq, if_neg hne, if_pos rfl]
      simp only [acceptsAt_iff hu' hz', hz, shares_iff_of_held? hu', h.held?_eq_survivor_iff]
      constructor
      · rintro ⟨hxv, hyv⟩
        refine ⟨by simp, fun w hw => ?_⟩
        rcases hw with hw | hw
        · exact (acceptsAt_iff hw hx).mpr hxv
        · exact (acceptsAt_iff hw hy).mpr hyv
      · rintro ⟨-, hall⟩
        exact ⟨(acceptsAt_iff hs hx).mp (hall s (.inl hs)),
          (acceptsAt_iff ht hy).mp (hall t (.inr ht))⟩
    · rw [not_or] at hid
      obtain ⟨entry, hf, -⟩ := hr.linked.mem_of_held hu
      have hu' : r'.held? u = some id := (h.held?_eq_other_iff hid.1 hid.2 u).mpr hu
      have hf' : r'.find? id = some entry := by
        rw [h.find?_eq, if_neg hid.2, if_neg hid.1, hf]
      simp only [acceptsAt_iff hu' hf', shares_iff_of_held? hu', h.held?_eq_other_iff hid.1 hid.2]
      constructor
      · exact fun hv => ⟨by simp, fun w hw => (acceptsAt_iff hw hf).mpr hv⟩
      · rintro ⟨-, hall⟩
        exact (acceptsAt_iff hu hf).mp (hall u hu)

/-! ## What stands against a join -/

theorem joinable_of_held?_none (h : r.held? s = none ∨ r.held? t = none) :
    (r.slotView Accepts).Joinable s t := by
  intro hss htt
  rcases h with hs | ht
  · exact absurd hs (shares_self_iff.mp hss)
  · exact absurd ht (shares_self_iff.mp htt)

theorem joinable_iff (hs : r.held? s = some a) (ht : r.held? t = some b)
    (hx : r.find? a = some x) (hy : r.find? b = some y) :
    (r.slotView Accepts).Joinable s t ↔
      a = b ∨ ∃ v, Accepts x.contents v ∧ Accepts y.contents v := by
  have hst : (r.slotView Accepts).shares s t ↔ a = b := by
    refine (shares_iff_of_held? hs).trans ?_
    rw [ht, Option.some_inj, eq_comm]
  have haccepts : ∀ v, (r.slotView Accepts).accepts s v ∧ (r.slotView Accepts).accepts t v ↔
      Accepts x.contents v ∧ Accepts y.contents v := fun v =>
    and_congr (acceptsAt_iff hs hx) (acceptsAt_iff ht hy)
  have hss : (r.slotView Accepts).shares s s := ⟨a, hs, hs⟩
  have htt : (r.slotView Accepts).shares t t := ⟨b, ht, ht⟩
  simp only [Sharing.Joinable, hss, htt, hst, haccepts, true_implies]

/-- All stored contents are of a sort. -/
def AllPlain (Plain : σ → Prop) (r : Registry σ) : Prop :=
  ∀ id entry, r.find? id = some entry → Plain entry.contents

variable [Mergeable σ] {rule : Mergeable.Rule σ}

/-- Slots refuse each other exactly if they share no set and no value is accepted at both. -/
theorem refuses_iff_not_joinable [LawfulMergeable σ] (hrule : ExactRule rule Plain Accepts)
    (hr : r.WellFormed) (hplain : r.AllPlain Plain) :
    r.Refuses rule s t ↔ ¬ (r.slotView Accepts).Joinable s t := by
  by_cases hnone : r.held? s = none ∨ r.held? t = none
  · refine iff_of_false ?_ (not_not_intro (joinable_of_held?_none hnone))
    rintro ⟨a, b, hs, ht, -⟩
    rcases hnone with hn | hn <;> simp [hn] at hs ht
  rw [not_or] at hnone
  obtain ⟨a, hs⟩ := Option.ne_none_iff_exists'.mp hnone.1
  obtain ⟨b, ht⟩ := Option.ne_none_iff_exists'.mp hnone.2
  obtain ⟨x, hx, -⟩ := hr.linked.mem_of_held hs
  obtain ⟨y, hy, -⟩ := hr.linked.mem_of_held ht
  rw [refuses_iff hs ht hx hy, joinable_iff hs ht hx hy, not_or]
  refine and_congr_right fun _ => ?_
  rcases hrule x.contents y.contents (hplain a x hx) (hplain b y hy) with
    ⟨hdisjoint, hshared⟩ | ⟨z, hsome, -, ⟨v, hv⟩, hz⟩
  · exact iff_of_true (Intersection.contents?_eq_none.mp hdisjoint) (not_exists.mpr hshared)
  · refine iff_of_false (fun hi => ?_) (not_not_intro ⟨v, (hz v).mp hv⟩)
    rw [Intersection.contents?_eq_none.mpr hi] at hsome
    cases hsome

/-! ## What a join does to the view -/

/-- In the view of the slots a join is a join, and what it leaves is plain again. -/
theorem Joins.slotView_eq (h : r.Joins rule s t r') (hrule : ExactRule rule Plain Accepts)
    (hr : r.WellFormed) (hplain : r.AllPlain Plain) :
    r'.slotView Accepts = (r.slotView Accepts).join s t ∧ r'.AllPlain Plain := by
  cases h with
  | skip hnone =>
    refine ⟨(Sharing.join_of_shares (.inr ?_)).symm, hplain⟩
    exact hnone.imp (fun hs hss => shares_self_iff.mp hss hs) fun ht htt =>
      shares_self_iff.mp htt ht
  | same hs ht =>
    have hst : (r.slotView Accepts).shares s t := ⟨_, hs, ht⟩
    exact ⟨(Sharing.join_of_shares (.inl hst)).symm, hplain⟩
  | @absorb _ a b survivor loser x y z hs ht hne hx hy hcontents hside ha =>
    rcases hrule x.contents y.contents (hplain a x hx) (hplain b y hy) with
      ⟨hnone, -⟩ | ⟨z', hsome, hz', -, hacc⟩
    · rw [hnone] at hcontents
      cases hcontents
    obtain rfl : z = z' := Option.some.inj (hcontents.symm.trans hsome)
    refine ⟨?_, fun id entry hf => ?_⟩
    · rcases hside with ⟨rfl, rfl⟩ | ⟨rfl, rfl⟩
      · ext u v
        · exact ha.slotView_shares_iff hs ht u v
        · exact ha.slotView_accepts_iff hne hr hs ht hx hy hacc u v
      · have hacc' : ∀ v, Accepts z v ↔ Accepts y.contents v ∧ Accepts x.contents v := fun v =>
          (hacc v).trans And.comm
        rw [Sharing.join_swap]
        ext u v
        · exact ha.slotView_shares_iff ht hs u v
        · exact ha.slotView_accepts_iff hne.symm hr ht hs hy hx hacc' u v
    · rw [ha.find?_eq] at hf
      split at hf
      · cases hf
      · split at hf
        · obtain rfl := Option.some.inj hf
          exact hz'
        · exact hplain id entry hf

end FormatNegotiation.Registry
