import FormatNegotiation.Proofs.Registry.Merge

/-! Joining the sets that two slots hold, if both hold one. -/
namespace FormatNegotiation.Registry

variable {σ : Type} {r r' : Registry σ} {a b : SetId}

/-! ## Two sets become one -/

/-- All slots that pointed at one of two sets point at the same one of them afterwards. The other
slots, and the other sets, are as they were. -/
structure Unites (r r' : Registry σ) (a b : SetId) : Prop where
  exists_survivor : ∃ survivor, (survivor = a ∨ survivor = b) ∧
    ∀ slot, r.held? slot = some a ∨ r.held? slot = some b → r'.held? slot = some survivor
  slots_eq (slot : SlotId) : r.held? slot ≠ some a → r.held? slot ≠ some b →
    r'.slots[slot]? = r.slots[slot]?
  find?_eq (id : SetId) : id ≠ a → id ≠ b → r'.find? id = r.find? id

theorem Absorbs.held?_eq {survivor loser : SetId} {contents : σ}
    (h : r.Absorbs r' survivor loser contents) (slot : SlotId) :
    r'.held? slot = if r.held? slot = some loser then some survivor else r.held? slot :=
  held?_of_repointed (h.slots_eq slot)

theorem Absorbs.held?_eq_survivor_iff {survivor loser : SetId} {contents : σ}
    (h : r.Absorbs r' survivor loser contents) (slot : SlotId) :
    r'.held? slot = some survivor ↔ r.held? slot = some survivor ∨ r.held? slot = some loser := by
  rw [h.held?_eq]
  by_cases hl : r.held? slot = some loser <;> simp [hl]

/-- References to other sets stay. -/
theorem Absorbs.held?_eq_other_iff {survivor loser id : SetId} {contents : σ}
    (h : r.Absorbs r' survivor loser contents) (hs : id ≠ survivor) (hl : id ≠ loser)
    (slot : SlotId) : r'.held? slot = some id ↔ r.held? slot = some id := by
  rw [h.held?_eq]
  by_cases hslot : r.held? slot = some loser
  · simp [hslot, Ne.symm hs, Ne.symm hl]
  · rw [if_neg hslot]

theorem Absorbs.unites {survivor loser : SetId} {contents : σ}
    (h : r.Absorbs r' survivor loser contents) : r.Unites r' survivor loser where
  exists_survivor := ⟨survivor, .inl rfl, fun slot => (h.held?_eq_survivor_iff slot).mpr⟩
  slots_eq slot _ hl := by rw [h.slots_eq, if_neg hl]
  find?_eq id hs hl := by rw [h.find?_eq, if_neg hl, if_neg hs]

theorem Unites.symm (h : r.Unites r' a b) : r.Unites r' b a where
  exists_survivor := by
    obtain ⟨survivor, hside, hheld⟩ := h.exists_survivor
    exact ⟨survivor, hside.symm, fun slot hslot => hheld slot hslot.symm⟩
  slots_eq slot hb ha := h.slots_eq slot ha hb
  find?_eq id hb ha := h.find?_eq id ha hb

/-! ## Joining two slots -/

variable [Mergeable σ] {rule : Mergeable.Rule σ} {s t : SlotId}

/-- The two slots hold different sets that cannot be merged. -/
def Refuses (r : Registry σ) (rule : Mergeable.Rule σ) (s t : SlotId) : Prop :=
  ∃ a b, r.held? s = some a ∧ r.held? t = some b ∧ a ≠ b ∧ r.canMerge? rule a b = some false

/-- The registries that joining two slots can lead to. -/
inductive Joins (rule : Mergeable.Rule σ) (s t : SlotId) (r : Registry σ) : Registry σ → Prop where
  /-- There is nothing to do for a slot that points at nothing. -/
  | skip (h : r.held? s = none ∨ r.held? t = none) : Joins rule s t r r
  /-- The slots point at one set already. -/
  | same {a : SetId} (hs : r.held? s = some a) (ht : r.held? t = some a) : Joins rule s t r r
  /-- One of the two sets absorbs the other. -/
  | absorb {r' : Registry σ} {a b survivor loser : SetId} {x y : SetEntry σ} {contents : σ}
    (hs : r.held? s = some a) (ht : r.held? t = some b) (hne : a ≠ b)
    (hx : r.find? a = some x) (hy : r.find? b = some y)
    (hcontents : (Mergeable.intersect rule x.contents y.contents).contents? x.contents
      y.contents = some contents)
    (hside : survivor = a ∧ loser = b ∨ survivor = b ∧ loser = a)
    (habsorbs : r.Absorbs r' survivor loser contents) : Joins rule s t r r'

theorem refuses_iff [LawfulMergeable σ] {x y : SetEntry σ} (hs : r.held? s = some a)
    (ht : r.held? t = some b) (hx : r.find? a = some x) (hy : r.find? b = some y) :
    r.Refuses rule s t ↔
      a ≠ b ∧ Mergeable.intersect rule x.contents y.contents = .disjoint := by
  have hcan : r.canMerge? rule a b = some (Mergeable.compatible rule x.contents y.contents) := by
    simp [canMerge?, contents?_of_find? hx, contents?_of_find? hy]
  rw [LawfulMergeable.intersect_eq_disjoint_iff]
  constructor
  · rintro ⟨a', b', hs', ht', hne, hfalse⟩
    obtain rfl : a = a' := Option.some.inj (hs.symm.trans hs')
    obtain rfl : b = b' := Option.some.inj (ht.symm.trans ht')
    exact ⟨hne, Option.some.inj (hcan.symm.trans hfalse)⟩
  · rintro ⟨hne, hfalse⟩
    exact ⟨a, b, hs, ht, hne, hcan.trans (congrArg some hfalse)⟩

/-- Unless the slots refuse each other, the merge of what they hold succeeds. -/
theorem merge_of_not_refuses [LawfulMergeable σ] (h : r.WellFormed) (hs : r.held? s = some a)
    (ht : r.held? t = some b) (hn : ¬ r.Refuses rule s t) :
    ∃ r', merge rule a b r = .ok .merged r' ∧ Joins rule s t r r' := by
  obtain ⟨x, hx, -⟩ := h.linked.mem_of_held hs
  obtain ⟨y, hy, -⟩ := h.linked.mem_of_held ht
  by_cases hne : a = b
  · subst hne
    exact ⟨r, merge_self h.linked hx, .same hs ht⟩
  rcases merge_of_live h rule hne hx hy with
    ⟨hnone, -⟩ | ⟨r', contents, survivor, loser, hcontents, hside, heq, ha⟩
  · have hdisjoint := Intersection.contents?_eq_none.mp hnone
    exact absurd ((refuses_iff hs ht hx hy).mpr ⟨hne, hdisjoint⟩) hn
  · exact ⟨r', heq, .absorb hs ht hne hx hy hcontents hside ha⟩

namespace Joins

theorem wellFormed (h : Joins rule s t r r') (hr : r.WellFormed) : r'.WellFormed := by
  cases h with
  | skip _ => exact hr
  | same _ _ => exact hr
  | absorb _ _ _ _ _ _ _ ha => exact ha.wellFormed

theorem eq_of_none (h : Joins rule s t r r') (hnone : r.held? s = none ∨ r.held? t = none) :
    r' = r := by
  cases h with
  | skip _ => rfl
  | same _ _ => rfl
  | absorb hs ht _ _ _ _ _ _ => rcases hnone with hn | hn <;> simp [hn] at hs ht

theorem eq_of_same (h : Joins rule s t r r') (hsame : r.held? s = r.held? t) : r' = r := by
  cases h with
  | skip _ => rfl
  | same _ _ => rfl
  | absorb hs ht hne _ _ _ _ _ =>
    rw [hs, ht] at hsame
    exact absurd (Option.some.inj hsame) hne

end Joins

theorem Joins.unites (h : Joins rule s t r r') (hs : r.held? s = some a) (ht : r.held? t = some b) :
    r.Unites r' a b := by
  cases h with
  | skip hnone => rcases hnone with hn | hn <;> simp [hn] at hs ht
  | same hs' ht' =>
    obtain rfl := Option.some.inj (hs.symm.trans hs')
    obtain rfl := Option.some.inj (ht.symm.trans ht')
    exact ⟨⟨_, .inl rfl, fun slot hslot => hslot.elim id id⟩, fun _ _ _ => rfl, fun _ _ _ => rfl⟩
  | absorb hs' ht' _ _ _ _ hside ha =>
    obtain rfl := Option.some.inj (hs.symm.trans hs')
    obtain rfl := Option.some.inj (ht.symm.trans ht')
    rcases hside with ⟨rfl, rfl⟩ | ⟨rfl, rfl⟩
    · exact ha.unites
    · exact ha.unites.symm

end FormatNegotiation.Registry
