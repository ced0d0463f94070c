import FormatNegotiation.Proofs.Merge.Exactness
import FormatNegotiation.Proofs.Merge.Narrowing
import FormatNegotiation.Proofs.Registry.SlotView

/-! Joining slots of a registry only narrows what they hold, at whatever slots the joined sets are
held. No slot gets a set or loses one, and slots that share a set go on sharing one. -/
namespace FormatNegotiation.Registry

variable {σ ν : Type} {Accepts : σ → ν → Prop} {Lists : σ → Prop} {r r' r'' : Registry σ}
  {s t : SlotId}

/-- The set that a slot points at lists something. -/
def ListsAt (Lists : σ → Prop) (r : Registry σ) (s : SlotId) : Prop :=
  ∃ contents, r.heldContents? s = some contents ∧ Lists contents

/-- How a registry comes out of changes that only narrow its sets. -/
structure Narrows (Accepts : σ → ν → Prop) (Lists : σ → Prop) (r r' : Registry σ) : Prop where
  held?_eq_none_iff (s : SlotId) : r'.held? s = none ↔ r.held? s = none
  shares {s t : SlotId} : r.Shares s t → r'.Shares s t
  accepts {s : SlotId} {v : ν} : r'.AcceptsAt Accepts s v → r.AcceptsAt Accepts s v
  lists {s : SlotId} : r.ListsAt Lists s → r'.ListsAt Lists s

theorem Narrows.refl (r : Registry σ) : r.Narrows Accepts Lists r := ⟨fun _ => .rfl, id, id, id⟩

theorem Narrows.trans (h : r.Narrows Accepts Lists r') (h' : r'.Narrows Accepts Lists r'') :
    r.Narrows Accepts Lists r'' where
  held?_eq_none_iff s := (h'.held?_eq_none_iff s).trans (h.held?_eq_none_iff s)
  shares hst := h'.shares (h.shares hst)
  accepts hv := h.accepts (h'.accepts hv)
  lists hs := h'.lists (h.lists hs)

/-! ## One set absorbs another -/

section Absorbs

variable {survivor loser : SetId} {x y : SetEntry σ} {z : σ}

theorem Absorbs.heldContents?_eq (h : r.Absorbs r' survivor loser z) (hne : survivor ≠ loser)
    (s : SlotId) :
    r'.heldContents? s =
      if r.held? s = some survivor ∨ r.held? s = some loser then some z
      else r.heldContents? s := by
  unfold heldContents?
  by_cases hs : r.held? s = some survivor ∨ r.held? s = some loser
  · have hs' : r'.held? s = some survivor := (h.held?_eq_survivor_iff s).mpr hs
    rw [if_pos hs, hs', Option.bind_some, h.contents?_survivor hne]
  · rw [if_neg hs, h.held?_eq, if_neg (not_or.mp hs).2]
    cases hid : r.held? s with
    | none => rfl
    | some id =>
      have hsurvivor : id ≠ survivor := fun heq => hs (.inl (heq ▸ hid))
      have hloser : id ≠ loser := fun heq => hs (.inr (heq ▸ hid))
      simp [contents?, h.find?_eq, hsurvivor, hloser]

theorem Absorbs.narrows (h : r.Absorbs r' survivor loser z) (hne : survivor ≠ loser)
    (hx : r.find? survivor = some x) (hy : r.find? loser = some y)
    (haccepts : ∀ v, Accepts z v → Accepts x.contents v ∧ Accepts y.contents v)
    (hlists : Lists x.contents ∨ Lists y.contents → Lists z) : r.Narrows Accepts Lists r' := by
  have hbefore : ∀ s, r.held? s = some survivor ∨ r.held? s = some loser →
      r.heldContents? s = some x.contents ∨ r.heldContents? s = some y.contents := by
    intro s hs
    unfold heldContents?
    rcases hs with hs | hs
    · rw [hs]
      exact .inl (contents?_of_find? hx)
    · rw [hs]
      exact .inr (contents?_of_find? hy)
  have hafter := h.heldContents?_eq hne
  refine ⟨fun s => ?_, fun {s t} hst => ?_, fun {s v} hv => ?_, fun {s} hs => ?_⟩
  · rw [h.held?_eq]
    by_cases hs : r.held? s = some loser
    · simp [hs]
    · rw [if_neg hs]
  · obtain ⟨id, hs, ht⟩ := hst
    by_cases hid : id = loser
    · subst hid
      exact ⟨survivor, (h.held?_eq_survivor_iff s).mpr (.inr hs),
        (h.held?_eq_survivor_iff t).mpr (.inr ht)⟩
    · have hkept : ∀ u, r.held? u = some id → r'.held? u = some id := by
        intro u hu
        rw [h.held?_eq, hu, if_neg (by simpa using hid)]
      exact ⟨id, hkept s hs, hkept t ht⟩
  · obtain ⟨contents, hcontents, hv⟩ := hv
    rw [hafter] at hcontents
    split at hcontents
    · rename_i hs
      obtain rfl : z = contents := Option.some.inj hcontents
      obtain ⟨hxv, hyv⟩ := haccepts v hv
      rcases hbefore s hs with hold | hold
      · exact ⟨x.contents, hold, hxv⟩
      · exact ⟨y.contents, hold, hyv⟩
    · exact ⟨contents, hcontents, hv⟩
  · obtain ⟨contents, hcontents, hlist⟩ := hs
    unfold ListsAt
    rw [hafter]
    split
    · rename_i hs
      refine ⟨z, rfl, hlists ?_⟩
      rcases hbefore s hs with hold | hold
      · obtain rfl : contents = x.contents := Option.some.inj (hcontents.symm.trans hold)
        exact .inl hlist
      · obtain rfl : contents = y.contents := Option.some.inj (hcontents.symm.trans hold)
        exact .inr hlist
    · exact ⟨contents, hcontents, hlist⟩

end Absorbs

/-! ## Two slots are joined -/

variable [Mergeable σ] {rule : Mergeable.Rule σ}

theorem Joins.narrows (h : r.Joins rule s t r') (hrule : NarrowingRule rule Accepts Lists) :
    r.Narrows Accepts Lists r' := by
  cases h with
  | skip _ => exact .refl r
  | same _ _ => exact .refl r
  | @absorb _ a b survivor loser x y z hs ht hne hx hy hcontents hside ha =>
    obtain ⟨haccepts, hlists⟩ := hrule x.contents y.contents z hcontents
    rcases hside with ⟨rfl, rfl⟩ | ⟨rfl, rfl⟩
    · exact ha.narrows hne hx hy haccepts hlists
    · exact ha.narrows hne.symm hy hx (fun v hv => (haccepts v hv).symm)
        fun hlist => hlists hlist.symm

/-- There is nothing to do for these two slots. -/
def Settled (r : Registry σ) (s t : SlotId) : Prop :=
  (r.held? s = none ∨ r.held? t = none) ∨ r.Shares s t

theorem Joins.settled (h : r.Joins rule s t r') : r'.Settled s t := by
  cases h with
  | skip hnone => exact .inl hnone
  | same hs ht => exact .inr ⟨_, hs, ht⟩
  | @absorb _ a b survivor loser x y z hs ht hne hx hy hcontents hside ha =>
    have hs' := ha.held?_eq_survivor_iff s
    have ht' := ha.held?_eq_survivor_iff t
    rcases hside with ⟨rfl, rfl⟩ | ⟨rfl, rfl⟩
    · exact .inr ⟨_, hs'.mpr (.inl hs), ht'.mpr (.inr ht)⟩
    · exact .inr ⟨_, hs'.mpr (.inr hs), ht'.mpr (.inl ht)⟩

omit [Mergeable σ] in
theorem Settled.narrows (h : r.Settled s t) (hn : r.Narrows Accepts Lists r') :
    r'.Settled s t := by
  rcases h with hnone | hst
  · exact .inl (hnone.imp (hn.held?_eq_none_iff s).mpr (hn.held?_eq_none_iff t).mpr)
  · exact .inr (hn.shares hst)

theorem Settled.not_refuses (h : r.Settled s t) : ¬ r.Refuses rule s t := by
  rintro ⟨a, b, hs, ht, hne, -⟩
  rcases h with hnone | hst
  · rcases hnone with hn | hn <;> simp [hn] at hs ht
  · have hb : r.held? t = some a := (shares_iff_of_held? hs).mp hst
    exact hne (Option.some.inj (hb.symm.trans ht))

theorem Joins.eq_of_settled (h : r.Joins rule s t r') (hsettled : r.Settled s t) : r' = r := by
  rcases hsettled with hnone | ⟨id, hs, ht⟩
  · exact h.eq_of_none hnone
  · exact h.eq_of_same (hs.trans ht.symm)

end FormatNegotiation.Registry
