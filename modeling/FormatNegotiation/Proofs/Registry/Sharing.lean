import FormatNegotiation.Registry.Basic
import Mathlib.Data.List.Basic

/-! Slots that share sets, seen without the names of the sets. Joining pairs of slots one after the
other leads to the same result in any order, and it succeeds in one order exactly if it does in
another. -/
namespace FormatNegotiation

/-- Which slots share a set, and which values are accepted at each. A slot shares a set with itself
if it points at one. -/
@[ext] structure Sharing (ν : Type) where
  shares : SlotId → SlotId → Prop
  accepts : SlotId → ν → Prop
  symm {s t : SlotId} : shares s t → shares t s
  trans {s t u : SlotId} : shares s t → shares t u → shares s u
  accepts_of_shares {s t : SlotId} {v : ν} : shares s t → accepts s v → accepts t v
  shares_of_accepts {s : SlotId} {v : ν} : accepts s v → shares s s

namespace Sharing

variable {ν : Type} {v : Sharing ν} {s t u w p q : SlotId}

theorem shares_left (h : v.shares s t) : v.shares s s := v.trans h (v.symm h)

theorem shares_right (h : v.shares s t) : v.shares t t := v.trans (v.symm h) h

/-! ## Joining two slots -/

/-- Whether two slots share a set once two others do. -/
def JoinedShares (v : Sharing ν) (s t u w : SlotId) : Prop :=
  v.shares u w ∨ v.shares u s ∧ v.shares t w ∨ v.shares u t ∧ v.shares s w

theorem JoinedShares.symm (h : v.JoinedShares s t u w) : v.JoinedShares s t w u := by
  rcases h with h | ⟨hu, hw⟩ | ⟨hu, hw⟩
  · exact .inl (v.symm h)
  · exact .inr (.inr ⟨v.symm hw, v.symm hu⟩)
  · exact .inr (.inl ⟨v.symm hw, v.symm hu⟩)

theorem JoinedShares.trans (h : v.JoinedShares s t u w) (h' : v.JoinedShares s t w p) :
    v.JoinedShares s t u p := by
  rcases h with h | ⟨hu, hw⟩ | ⟨hu, hw⟩
  · rcases h' with h' | ⟨hw', hp⟩ | ⟨hw', hp⟩
    · exact .inl (v.trans h h')
    · exact .inr (.inl ⟨v.trans h hw', hp⟩)
    · exact .inr (.inr ⟨v.trans h hw', hp⟩)
  · rcases h' with h' | ⟨hw', hp⟩ | ⟨hw', hp⟩
    · exact .inr (.inl ⟨hu, v.trans hw h'⟩)
    · exact .inr (.inl ⟨hu, hp⟩)
    · exact .inl (v.trans hu hp)
  · rcases h' with h' | ⟨hw', hp⟩ | ⟨hw', hp⟩
    · exact .inr (.inr ⟨hu, v.trans hw h'⟩)
    · exact .inl (v.trans hu hp)
    · exact .inr (.inr ⟨hu, hp⟩)

/-- Two slots come to share a set, together with all that shared one with either. A slot accepts
what was accepted at all that it now shares a set with. If one of the two points at nothing, there
is nothing to join. -/
def join (v : Sharing ν) (s t : SlotId) : Sharing ν where
  shares := v.JoinedShares s t
  accepts u x := v.shares u u ∧ ∀ w, v.JoinedShares s t u w → v.accepts w x
  symm := JoinedShares.symm
  trans := JoinedShares.trans
  accepts_of_shares := by
    rintro u w x huw ⟨-, hall⟩
    have hw := hall w huw
    exact ⟨v.shares_of_accepts hw, fun p hp => hall p (huw.trans hp)⟩
  shares_of_accepts := fun h => .inl h.1

/-- The slots share a set already, or some value is accepted at both. Nothing stands against slots
that point at nothing. -/
def Joinable (v : Sharing ν) (s t : SlotId) : Prop :=
  v.shares s s → v.shares t t → v.shares s t ∨ ∃ x, v.accepts s x ∧ v.accepts t x

theorem shares_join_of_shares (h : v.shares u w) : (v.join s t).shares u w := .inl h

theorem shares_self_of_join (h : (v.join s t).shares u u) : v.shares u u := by
  rcases h with h | ⟨h, -⟩ | ⟨h, -⟩
  · exact h
  · exact shares_left h
  · exact shares_left h

theorem shares_join_ends (hs : v.shares s s) (ht : v.shares t t) : (v.join s t).shares s t :=
  .inr (.inl ⟨hs, ht⟩)

/-- Joining adds no more than it has to. -/
theorem shares_of_join {v' : Sharing ν} (hle : ∀ {u w}, v.shares u w → v'.shares u w)
    (hends : v.shares s s → v.shares t t → v'.shares s t) (h : (v.join s t).shares u w) :
    v'.shares u w := by
  rcases h with h | ⟨hu, hw⟩ | ⟨hu, hw⟩
  · exact hle h
  · have hst := hends (shares_right hu) (shares_left hw)
    exact v'.trans (hle hu) (v'.trans hst (hle hw))
  · have hst := hends (shares_left hw) (shares_right hu)
    exact v'.trans (hle hu) (v'.trans (v'.symm hst) (hle hw))

theorem accepts_join_iff {x : ν} : (v.join s t).accepts u x ↔
    v.shares u u ∧ ∀ w, (v.join s t).shares u w → v.accepts w x := Iff.rfl

/-- No slot accepts more than before. -/
theorem accepts_of_join {x : ν} (h : (v.join s t).accepts u x) : v.accepts u x :=
  h.2 u (.inl h.1)

theorem join_of_shares (h : v.shares s t ∨ ¬ v.shares s s ∨ ¬ v.shares t t) :
    v.join s t = v := by
  have hshares : ∀ u w, (v.join s t).shares u w ↔ v.shares u w := by
    intro u w
    refine ⟨shares_of_join id fun hs ht => ?_, shares_join_of_shares⟩
    rcases h with h | h | h
    · exact h
    · exact absurd hs h
    · exact absurd ht h
  ext u x
  · exact hshares _ _
  · rw [accepts_join_iff]
    simp only [hshares]
    exact ⟨fun h => h.2 u h.1,
      fun h => ⟨v.shares_of_accepts h, fun w hw => v.accepts_of_shares hw h⟩⟩

theorem join_swap (v : Sharing ν) (s t : SlotId) : v.join s t = v.join t s := by
  have hshares : ∀ u w, (v.join s t).shares u w ↔ (v.join t s).shares u w := fun u w =>
    or_congr_right or_comm
  ext u x
  · exact hshares _ _
  · simp only [accepts_join_iff, hshares]

/-! ## Two joins in either order -/

private theorem shares_join_join (h : ((v.join s t).join p q).shares u w) :
    ((v.join p q).join s t).shares u w := by
  refine shares_of_join (shares_of_join (fun h => shares_join_of_shares (shares_join_of_shares h))
    fun hs ht => ?_) (fun hp hq => ?_) h
  · exact shares_join_ends (shares_join_of_shares hs) (shares_join_of_shares ht)
  · have hpq := shares_join_ends (shares_self_of_join hp) (shares_self_of_join hq)
    exact shares_join_of_shares hpq

/-- What is accepted in the end depends only on which slots share a set then. -/
private theorem accepts_join_join_iff {x : ν} : ((v.join s t).join p q).accepts u x ↔
    v.shares u u ∧ ∀ w, ((v.join s t).join p q).shares u w → v.accepts w x := by
  rw [accepts_join_iff]
  constructor
  · rintro ⟨hu, hall⟩
    exact ⟨shares_self_of_join hu, fun w hw => accepts_of_join (hall w hw)⟩
  · rintro ⟨hu, hall⟩
    refine ⟨shares_join_of_shares hu, fun w hw => ?_⟩
    have hww := shares_self_of_join (shares_self_of_join (shares_right hw))
    exact accepts_join_iff.mpr ⟨hww, fun w' hw' =>
      hall w' (Sharing.trans _ hw (shares_join_of_shares hw'))⟩

/-- Two joins lead to the same in either order. -/
theorem join_comm (v : Sharing ν) (s t p q : SlotId) :
    (v.join s t).join p q = (v.join p q).join s t := by
  ext u x
  · exact ⟨shares_join_join, shares_join_join⟩
  · rw [accepts_join_join_iff, accepts_join_join_iff]
    refine and_congr_right fun _ => forall_congr' fun w => ?_
    exact imp_congr ⟨shares_join_join, shares_join_join⟩ Iff.rfl

/-- If two joins succeed, each of them would be possible as the first. -/
theorem Joinable.of_join (h : v.Joinable s t) (h' : (v.join s t).Joinable p q) :
    v.Joinable p q := by
  intro hp hq
  rcases h' (shares_join_of_shares hp) (shares_join_of_shares hq) with hpq | ⟨x, hxp, hxq⟩
  · rcases hpq with hpq | ⟨hps, htq⟩ | ⟨hpt, hsq⟩
    · exact .inl hpq
    · rcases h (shares_right hps) (shares_left htq) with hst | ⟨x, hxs, hxt⟩
      · exact .inl (v.trans hps (v.trans hst htq))
      · exact .inr ⟨x, v.accepts_of_shares (v.symm hps) hxs, v.accepts_of_shares htq hxt⟩
    · rcases h (shares_left hsq) (shares_right hpt) with hst | ⟨x, hxs, hxt⟩
      · exact .inl (v.trans hpt (v.trans (v.symm hst) hsq))
      · exact .inr ⟨x, v.accepts_of_shares (v.symm hpt) hxt, v.accepts_of_shares hsq hxs⟩
  · exact .inr ⟨x, accepts_of_join hxp, accepts_of_join hxq⟩

/-- A join accepts at a slot what is accepted at all three, if it puts them together, and otherwise
what was accepted there before. -/
private theorem accepts_join_of {x : ν} (hu : v.accepts u x)
    (hp : v.shares u p → v.accepts q x) (hq : v.shares u q → v.accepts p x) :
    (v.join p q).accepts u x := by
  refine accepts_join_iff.mpr ⟨v.shares_of_accepts hu, fun w hw => ?_⟩
  rcases hw with hw | ⟨hup, hqw⟩ | ⟨huq, hpw⟩
  · exact v.accepts_of_shares hw hu
  · exact v.accepts_of_shares hqw (hp hup)
  · exact v.accepts_of_shares hpw (hq huq)

/-- If two joins succeed, the first of them would still be possible after the second. -/
theorem Joinable.after_join (h : v.Joinable s t) (h' : (v.join s t).Joinable p q) :
    (v.join p q).Joinable s t := by
  by_cases hends : v.shares p p ∧ v.shares q q
  swap
  · rw [join_of_shares (.inr (not_and_or.mp hends))]
    exact h
  intro hs ht
  have hs := shares_self_of_join hs
  have ht := shares_self_of_join ht
  have hst := shares_join_ends hs ht
  rcases h hs ht with hsame | ⟨x, hxs, hxt⟩
  · exact .inl (shares_join_of_shares hsame)
  rcases h' (shares_join_of_shares hends.1) (shares_join_of_shares hends.2) with
    hpq | ⟨y, hyp, hyq⟩
  · rcases hpq with hpq | ⟨hps, htq⟩ | ⟨hpt, hsq⟩
    · rw [join_of_shares (.inl hpq)]
      exact .inr ⟨x, hxs, hxt⟩
    · exact .inl (.inr (.inl ⟨v.symm hps, v.symm htq⟩))
    · exact .inl (.inr (.inr ⟨hsq, hpt⟩))
  have hp := accepts_of_join hyp
  have hq := accepts_of_join hyq
  -- Either the two joins put all four slots together, or they have nothing to do with each other.
  by_cases hmeet : (v.join s t).shares s p ∨ (v.join s t).shares s q
  · have hys : (v.join s t).accepts s y := by
      rcases hmeet with hsp | hsq
      · exact (v.join s t).accepts_of_shares (Sharing.symm _ hsp) hyp
      · exact (v.join s t).accepts_of_shares (Sharing.symm _ hsq) hyq
    have hyt := (v.join s t).accepts_of_shares hst hys
    exact .inr ⟨y, accepts_join_of (accepts_of_join hys) (fun _ => hq) (fun _ => hp),
      accepts_join_of (accepts_of_join hyt) (fun _ => hq) (fun _ => hp)⟩
  · rw [not_or] at hmeet
    refine .inr ⟨x, accepts_join_of hxs ?_ ?_, accepts_join_of hxt ?_ ?_⟩
    · exact fun hsp => absurd (shares_join_of_shares hsp) hmeet.1
    · exact fun hsq => absurd (shares_join_of_shares hsq) hmeet.2
    · exact fun htp => absurd (Sharing.trans _ hst (shares_join_of_shares htp)) hmeet.1
    · exact fun htq => absurd (Sharing.trans _ hst (shares_join_of_shares htq)) hmeet.2

/-! ## Many joins in any order -/

/-- Joins pairs of slots one after the other. -/
def joinAll (v : Sharing ν) (ps : List (SlotId × SlotId)) : Sharing ν :=
  ps.foldl (fun v p => v.join p.1 p.2) v

/-- Nothing stands against any of the joins when its turn comes. -/
def AllJoinable : Sharing ν → List (SlotId × SlotId) → Prop
  | _, [] => True
  | v, p :: ps => v.Joinable p.1 p.2 ∧ (v.join p.1 p.2).AllJoinable ps

variable {ps qs : List (SlotId × SlotId)}

theorem joinAll_append (v : Sharing ν) (ps qs : List (SlotId × SlotId)) :
    v.joinAll (ps ++ qs) = (v.joinAll ps).joinAll qs := List.foldl_append

theorem allJoinable_append :
    v.AllJoinable (ps ++ qs) ↔ v.AllJoinable ps ∧ (v.joinAll ps).AllJoinable qs := by
  induction ps generalizing v with
  | nil => simp [AllJoinable, joinAll]
  | cons p ps ih =>
    rw [List.cons_append, AllJoinable, AllJoinable, ih, and_assoc]
    rfl

theorem joinAll_perm (h : ps.Perm qs) (v : Sharing ν) : v.joinAll ps = v.joinAll qs :=
  h.foldl_eq' (fun p _ q _ v => join_comm v p.1 p.2 q.1 q.2) v

/-- If all joins succeed in one order, they do in any other. -/
theorem AllJoinable.perm (h : ps.Perm qs) (hall : v.AllJoinable ps) : v.AllJoinable qs := by
  induction h generalizing v with
  | nil => exact hall
  | cons p _ ih => exact ⟨hall.1, ih hall.2⟩
  | swap p q l =>
    obtain ⟨hq, hp, hl⟩ := hall
    refine ⟨hq.of_join hp, hq.after_join hp, ?_⟩
    rwa [join_comm]
  | trans _ _ ih ih' => exact ih' (ih hall)

end Sharing

end FormatNegotiation
