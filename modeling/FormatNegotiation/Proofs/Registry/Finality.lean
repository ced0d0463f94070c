import FormatNegotiation.Proofs.Merge.Finality
import FormatNegotiation.Proofs.Registry.SlotView

/-! Slots that refuse each other go on doing so while other slots are joined. What they hold can
only have become less, and no chain of joins leads from the one to the other. -/
namespace FormatNegotiation.Registry

variable {σ : Type} {Plain : σ → Prop} {r r' : Registry σ} {s t p q : SlotId} {a b : SetId}

/-! ## One set absorbs another -/

section Absorbs

variable {survivor loser : SetId} {x y : SetEntry σ} {z : σ}

/-- A slot of either set now holds the survivor with its new contents, and any other slot what it
held before. -/
theorem Absorbs.held_cases (h : r.Absorbs r' survivor loser z) (hne : survivor ≠ loser)
    {entry : SetEntry σ} (hs : r.held? s = some a) (hfind : r.find? a = some entry) :
    ((a = survivor ∨ a = loser) ∧ r'.held? s = some survivor ∧
      ∃ refs, r'.find? survivor = some ⟨z, refs⟩) ∨
    (a ≠ survivor ∧ a ≠ loser) ∧ r'.held? s = some a ∧ r'.find? a = some entry := by
  by_cases ha : a = survivor ∨ a = loser
  · have hold : r.held? s = some survivor ∨ r.held? s = some loser := by
      rw [hs]
      exact ha.imp (congrArg some) (congrArg some)
    have hfind' : r'.find? survivor = some ⟨z, r.refs survivor ++ r.refs loser⟩ := by
      rw [h.find?_eq, if_neg hne, if_pos rfl]
    exact .inl ⟨ha, (h.held?_eq_survivor_iff s).mpr hold, _, hfind'⟩
  · rw [not_or] at ha
    have hfind' : r'.find? a = some entry := by
      rw [h.find?_eq, if_neg ha.2, if_neg ha.1, hfind]
    exact .inr ⟨ha, (h.held?_eq_other_iff ha.1 ha.2 s).mpr hs, hfind'⟩

theorem Absorbs.allPlain (h : r.Absorbs r' survivor loser z) (hplain : r.AllPlain Plain)
    (hz : Plain z) : r'.AllPlain Plain := by
  intro id entry hfind
  rw [h.find?_eq] at hfind
  split at hfind
  · cases hfind
  · split at hfind
    · obtain rfl := Option.some.inj hfind
      exact hz
    · exact hplain id entry hfind

end Absorbs

/-! ## Two slots are joined -/

variable [Mergeable σ] {rule rule' : Mergeable.Rule σ}

theorem Joins.allPlain (h : r.Joins rule' p q r') (hrule : RefusalLasts rule rule' Plain)
    (hplain : r.AllPlain Plain) : r'.AllPlain Plain := by
  cases h with
  | skip _ => exact hplain
  | same _ _ => exact hplain
  | @absorb _ a b survivor loser x y z hs ht hne hx hy hcontents hside ha =>
    have hz : Plain z := hrule.plain (hplain a x hx) (hplain b y hy) hcontents
    exact ha.allPlain hplain hz

variable [LawfulMergeable σ]

theorem refuses_iff_exists (hr : r.WellFormed) :
    r.Refuses rule s t ↔ ∃ a b x y, r.held? s = some a ∧ r.held? t = some b ∧ a ≠ b ∧
      r.find? a = some x ∧ r.find? b = some y ∧
      Mergeable.intersect rule x.contents y.contents = .disjoint := by
  constructor
  · intro h
    obtain ⟨a, b, hs, ht, hne, hfalse⟩ := id h
    obtain ⟨x, hx, -⟩ := hr.linked.mem_of_held hs
    obtain ⟨y, hy, -⟩ := hr.linked.mem_of_held ht
    have hdisjoint := ((refuses_iff hs ht hx hy).mp h).2
    exact ⟨a, b, x, y, hs, ht, hne, hx, hy, hdisjoint⟩
  · rintro ⟨a, b, x, y, hs, ht, hne, hx, hy, hdisjoint⟩
    exact (refuses_iff hs ht hx hy).mpr ⟨hne, hdisjoint⟩

/-- What one rule refuses is refused under another one whenever the first is the more lenient. -/
theorem Refuses.of_refusalLasts (h : r.Refuses rule s t) (hrule : RefusalLasts rule rule' Plain)
    (hr : r.WellFormed) (hplain : r.AllPlain Plain) : r.Refuses rule' s t := by
  obtain ⟨a, b, x, y, hs, ht, hne, hx, hy, hdisjoint⟩ := (refuses_iff_exists hr).mp h
  have hdisjoint' := hrule.refused (hplain a x hx) (hplain b y hy) hdisjoint
  exact (refuses_iff hs ht hx hy).mpr ⟨hne, hdisjoint'⟩

theorem Absorbs.refuses {survivor loser : SetId} {x y : SetEntry σ} {z : σ}
    (h : r.Absorbs r' survivor loser z) (hsurvivor : r.find? survivor = some x)
    (hloser : r.find? loser = some y) (hne : survivor ≠ loser)
    (hmeet : Mergeable.intersect rule x.contents y.contents ≠ .disjoint ∧
      Mergeable.intersect rule y.contents x.contents ≠ .disjoint)
    (hfirst : ∀ w, Plain w → Mergeable.intersect rule x.contents w = .disjoint ∨
      Mergeable.intersect rule y.contents w = .disjoint →
      Mergeable.intersect rule z w = .disjoint)
    (hsecond : ∀ w, Plain w → Mergeable.intersect rule w x.contents = .disjoint ∨
      Mergeable.intersect rule w y.contents = .disjoint →
      Mergeable.intersect rule w z = .disjoint)
    (hr : r.WellFormed) (hplain : r.AllPlain Plain) (hst : r.Refuses rule s t) :
    r'.Refuses rule s t := by
  obtain ⟨a, b, u, w, hs, ht, hab, hu, hw, hdisjoint⟩ := (refuses_iff_exists hr).mp hst
  have hentry : ∀ {c e}, r.find? c = some e → c = survivor ∨ c = loser → e = x ∨ e = y := by
    intro c e he hc
    rcases hc with rfl | rfl
    · exact .inl (Option.some.inj (he.symm.trans hsurvivor))
    · exact .inr (Option.some.inj (he.symm.trans hloser))
  rcases h.held_cases hne hs hu with ⟨ha, hs', refs, hz⟩ | ⟨⟨has, hal⟩, hs', hu'⟩
  · rcases h.held_cases hne ht hw with ⟨hb, -⟩ | ⟨⟨hbs, -⟩, ht', hw'⟩
    -- The two sets that were merged are not the two that refuse each other.
    · exfalso
      rcases ha with rfl | rfl
      · obtain rfl : b = loser := hb.resolve_left hab.symm
        obtain rfl : u = x := Option.some.inj (hu.symm.trans hsurvivor)
        obtain rfl : w = y := Option.some.inj (hw.symm.trans hloser)
        exact hmeet.1 hdisjoint
      · obtain rfl : b = survivor := hb.resolve_right hab.symm
        obtain rfl : u = y := Option.some.inj (hu.symm.trans hloser)
        obtain rfl : w = x := Option.some.inj (hw.symm.trans hsurvivor)
        exact hmeet.2 hdisjoint
    · have hdisjoint' : Mergeable.intersect rule z w.contents = .disjoint := by
        apply hfirst w.contents (hplain b w hw)
        rcases hentry hu ha with rfl | rfl
        · exact .inl hdisjoint
        · exact .inr hdisjoint
      exact (refuses_iff hs' ht' hz hw').mpr ⟨hbs.symm, hdisjoint'⟩
  · rcases h.held_cases hne ht hw with ⟨hb, ht', refs, hz⟩ | ⟨-, ht', hw'⟩
    · have hdisjoint' : Mergeable.intersect rule u.contents z = .disjoint := by
        apply hsecond u.contents (hplain a u hu)
        rcases hentry hw hb with rfl | rfl
        · exact .inl hdisjoint
        · exact .inr hdisjoint
      exact (refuses_iff hs' ht' hu' hz).mpr ⟨has, hdisjoint'⟩
    · exact (refuses_iff hs' ht' hu' hw').mpr ⟨hab, hdisjoint⟩

/-- Joining two slots does not reconcile any others. -/
theorem Joins.refuses (h : r.Joins rule' p q r') (hrule : RefusalLasts rule rule' Plain)
    (hr : r.WellFormed) (hplain : r.AllPlain Plain) (hst : r.Refuses rule s t) :
    r'.Refuses rule s t := by
  cases h with
  | skip _ => exact hst
  | same _ _ => exact hst
  | @absorb _ a b survivor loser x y z hp hq hne hx hy hcontents hside ha =>
    have hxp := hplain a x hx
    have hyp := hplain b y hy
    have hzp := hrule.plain hxp hyp hcontents
    have hmeet : Mergeable.intersect rule x.contents y.contents ≠ .disjoint := by
      intro hdisjoint
      rw [hrule.refused hxp hyp hdisjoint] at hcontents
      cases hcontents
    have hmeet' : Mergeable.intersect rule y.contents x.contents ≠ .disjoint :=
      fun hdisjoint => hmeet (hrule.symm hyp hxp hdisjoint)
    have hfirst : ∀ w, Plain w → Mergeable.intersect rule x.contents w = .disjoint ∨
        Mergeable.intersect rule y.contents w = .disjoint →
        Mergeable.intersect rule z w = .disjoint :=
      fun w hw hside => hrule.narrowed hxp hyp hw hcontents hside
    have hsecond : ∀ w, Plain w → Mergeable.intersect rule w x.contents = .disjoint ∨
        Mergeable.intersect rule w y.contents = .disjoint →
        Mergeable.intersect rule w z = .disjoint := by
      intro w hw hdisjoint
      have hturned := hdisjoint.imp (hrule.symm hw hxp) (hrule.symm hw hyp)
      exact hrule.symm hzp hw (hfirst w hw hturned)
    rcases hside with ⟨rfl, rfl⟩ | ⟨rfl, rfl⟩
    · exact ha.refuses hx hy hne ⟨hmeet, hmeet'⟩ hfirst hsecond hr hplain hst
    · exact ha.refuses hy hx hne.symm ⟨hmeet', hmeet⟩ (fun w hw hd => hfirst w hw hd.symm)
        (fun w hw hd => hsecond w hw hd.symm) hr hplain hst

end FormatNegotiation.Registry
