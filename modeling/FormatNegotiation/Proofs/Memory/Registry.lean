import FormatNegotiation.Memory.Registry
import FormatNegotiation.Proofs.Layout.Ambiguity
import FormatNegotiation.Proofs.Registry.Refusals

/-! Where room may be refused, an operation does what it does with all the room that it needs, or it
fails and changes nothing. The one exception is the release of a slot, which then only drops what
the slot references. -/
namespace FormatNegotiation

/-! ## Reservations in front of an operation -/

section Operation

variable {State α β : Type} {act : EStateM FormatError State α}
  {reserving : EStateM MemoryError State α} {refused refused' : ReserveError → Prop} {s s' : State}
  {e : MemoryError}

@[simp] theorem withRoom_none (asks : State → α → Bool) (act : EStateM FormatError State α) :
    withRoom none asks act = withoutRoom act := by
  funext s
  simp only [withRoom, withoutRoom]
  cases act s <;> rfl

@[simp] theorem stateAfter_withoutRoom (act : EStateM FormatError State α) (s : State) :
    stateAfter (withoutRoom act) s = stateAfter act s := by
  unfold stateAfter withoutRoom
  cases act s <;> rfl

theorem withoutRoom_eq_error_iff :
    withoutRoom act s = .error e s' ↔ ∃ e', e = .format e' ∧ act s = .error e' s' := by
  unfold withoutRoom
  cases act s with
  | ok x s'' => simp
  | error e' s'' => simp [eq_comm]

theorem withoutRoom_map (f : α → β) (act : EStateM FormatError State α) :
    withoutRoom (f <$> act) = f <$> withoutRoom act := by
  funext s
  simp only [withoutRoom, Functor.map, EStateM.map]
  cases act s <;> rfl

theorem withoutRoom_bind (act : EStateM FormatError State α)
    (f : α → EStateM FormatError State β) :
    withoutRoom (act >>= f) = withoutRoom act >>= fun x => withoutRoom (f x) := by
  funext s
  simp only [withoutRoom, bind, EStateM.bind]
  cases act s <;> rfl

/-- The first action does what the second does, or it is refused room for one of these causes and
changes nothing. -/
def Reserving (refused : ReserveError → Prop) (reserving : EStateM MemoryError State α)
    (act : EStateM FormatError State α) : Prop :=
  ∀ s, reserving s = withoutRoom act s ∨
    ∃ cause, refused cause ∧ reserving s = .error (.alloc cause) s

theorem withRoom_reserving (refusal? : Option ReserveError) (asks : State → α → Bool)
    (act : EStateM FormatError State α) :
    Reserving (refusal? = some ·) (withRoom refusal? asks act) act := by
  intro s
  cases refusal? with
  | none => exact .inl (congrFun (withRoom_none asks act) s)
  | some cause =>
    simp only [withRoom, withoutRoom]
    cases act s with
    | error e s' => exact .inl rfl
    | ok x s' =>
      by_cases hasks : asks s x
      · exact .inr ⟨cause, rfl, if_pos hasks⟩
      · exact .inl (if_neg hasks)

namespace Reserving

theorem withoutRoom (act : EStateM FormatError State α) :
    Reserving refused (FormatNegotiation.withoutRoom act) act := fun _ => .inl rfl

theorem mono (h : Reserving refused reserving act) (hle : ∀ cause, refused cause → refused' cause) :
    Reserving refused' reserving act := fun s =>
  (h s).imp_right fun ⟨cause, hcause, heq⟩ => ⟨cause, hle cause hcause, heq⟩

theorem map (h : Reserving refused reserving act) (f : α → β) :
    Reserving refused (f <$> reserving) (f <$> act) := by
  intro s
  rw [withoutRoom_map]
  simp only [Functor.map, EStateM.map]
  rcases h s with heq | ⟨cause, hcause, heq⟩
  · exact .inl (by rw [heq])
  · exact .inr ⟨cause, hcause, by rw [heq]⟩

theorem eq_withoutRoom (h : Reserving refused reserving act) (hnone : ∀ cause, ¬ refused cause) :
    reserving = FormatNegotiation.withoutRoom act := by
  funext s
  exact (h s).resolve_right fun ⟨cause, hcause, _⟩ => hnone cause hcause

/-- If the operation fails without a change, so it does where room may be refused. -/
theorem error_eq (h : Reserving refused reserving act)
    (hact : ∀ e' s', act s = .error e' s' → s' = s) (herror : reserving s = .error e s') :
    s' = s := by
  rcases h s with heq | ⟨cause, -, heq⟩
  · obtain ⟨e', -, hres⟩ := withoutRoom_eq_error_iff.mp (heq ▸ herror)
    exact hact e' s' hres
  · cases heq.symm.trans herror
    rfl

theorem stateAfter_cases (h : Reserving refused reserving act) (s : State) :
    stateAfter reserving s = stateAfter act s ∨ stateAfter reserving s = s := by
  rcases h s with heq | ⟨cause, -, heq⟩
  · exact .inl (by rw [stateAfter, heq, ← stateAfter, stateAfter_withoutRoom])
  · exact .inr (stateAfter_of_error heq)

end Reserving

end Operation

/-! ## Lists -/

namespace LayoutSet

/-- Entries are appended as they are with room for all, or until there is none for one of them. -/
theorem addAllIn_cases (refusal? : Nat → Option ReserveError) (entries : List ChannelLayout)
    (place : Nat) (set? : Option LayoutSet) :
    addAllIn refusal? (entries.zipIdx place) set? = withoutRoom (entries.forM add) set? ∨
      ∃ cause rest?, (∃ place', refusal? place' = some cause) ∧
        addAllIn refusal? (entries.zipIdx place) set? = .error (.alloc cause) rest? := by
  induction entries generalizing place set? with
  | nil => exact .inl rfl
  | cons l entries ih =>
    have hcons : addAllIn refusal? ((l :: entries).zipIdx place) set? =
        (addIn (refusal? place) l >>= fun _ => addAllIn refusal? (entries.zipIdx (place + 1)))
          set? := rfl
    have hforM : (l :: entries).forM add set? = (add l >>= fun _ => entries.forM add) set? := rfl
    rw [hcons, withoutRoom, hforM]
    simp only [bind, EStateM.bind]
    rcases withRoom_reserving (refusal? place) (fun _ _ => true) (add l) set? with
      heq | ⟨cause, hcause, heq⟩
    all_goals rw [addIn, heq]
    · rw [withoutRoom]
      cases add l set? with
      | error e set?' => exact .inl rfl
      | ok u set?' => exact ih (place + 1) set?'
    · exact .inr ⟨cause, set?, ⟨place, hcause⟩, rfl⟩

theorem ofListIn_cases (refusal? : Nat → Option ReserveError) (entries : List ChannelLayout) :
    ofListIn refusal? entries = (ofList entries).mapError .format ∨
      ∃ cause, (∃ place, refusal? place = some cause) ∧
        ofListIn refusal? entries = .error (.alloc cause) := by
  unfold ofListIn ofList
  rcases addAllIn_cases refusal? entries 0 none with heq | ⟨cause, rest?, hcause, heq⟩
  all_goals rw [heq]
  · rw [withoutRoom]
    cases entries.forM add none <;> exact .inl rfl
  · exact .inr ⟨cause, hcause, rfl⟩

/-- An entry for which there is no room leaves the list as it was, like one that is refused. -/
theorem addIn_error {refusal? : Option ReserveError} {l : ChannelLayout}
    {set? rest? : Option LayoutSet} {e : MemoryError}
    (h : addIn refusal? l set? = .error e rest?) : rest? = set? := by
  have hadd := withRoom_reserving refusal? (fun _ _ => true) (add l)
  refine hadd.error_eq (fun e' rest? hres => ?_) h
  rcases add_cases l set? with ⟨e'', heq⟩ | ⟨entries, -, -, heq⟩
  all_goals cases heq.symm.trans hres
  rfl

end LayoutSet

theorem FormatList.addIn_error {refusal? : Option ReserveError} {value : FormatId}
    {list? rest? : Option FormatList} {e : MemoryError}
    (h : addIn refusal? value list? = .error e rest?) : rest? = list? := by
  refine (withRoom_reserving refusal? (fun _ _ => true) _).error_eq (fun e' rest? hres => ?_) h
  cases hres

/-! ## Registries -/

namespace Registry

variable {σ : Type} [Mergeable σ] [Buffered σ] {r r' : Registry σ} {refusal? : Option ReserveError}

omit [Buffered σ] in
/-- A slot goes on the free list, or it only loses what it references. -/
theorem releaseSlotIn_eq_after (refusal? : Option ReserveError) (r : Registry σ) (slot : SlotId) :
    ∃ c, r.releaseSlotIn refusal? slot = r.after c := by
  cases refusal? with
  | none => exact ⟨.releaseSlot slot, rfl⟩
  | some cause => exact ⟨.removeReference slot, rfl⟩

/-- A command is refused room before it changes anything, unless it releases a slot. -/
theorem execIn_reserving {c : Command σ} (hc : ∀ slot, c ≠ .releaseSlot slot) :
    Reserving (refusal? = some ·) (execIn refusal? c) (exec c) := by
  cases c with
  | newSlot => exact .withoutRoom (exec .newSlot)
  | releaseSlot slot => exact absurd rfl (hc slot)
  | attach contents slots => exact .map (withRoom_reserving _ _ _) _
  | addReference id slot => exact .map (withRoom_reserving _ _ _) _
  | removeReference slot => exact .withoutRoom (exec (.removeReference slot))
  | changeReference old new => exact .withoutRoom (exec (.changeReference old new))
  | retargetAll src dst => exact .map (withRoom_reserving _ _ _) _
  | merge rule a b => exact .map (withRoom_reserving _ _ _) _

theorem execIn_none (c : Command σ) : execIn none c = withoutRoom (exec c) := by
  by_cases hc : ∃ slot, c = .releaseSlot slot
  · obtain ⟨slot, rfl⟩ := hc
    rfl
  · rw [not_exists] at hc
    exact (execIn_reserving hc).eq_withoutRoom fun cause => by simp

/-- A command that fails changes nothing, whatever room there is. -/
theorem execIn_error {c : Command σ} {e : MemoryError} (h : execIn refusal? c r = .error e r') :
    r' = r := by
  by_cases hc : ∃ slot, c = .releaseSlot slot
  · obtain ⟨slot, rfl⟩ := hc
    cases h
  · rw [not_exists] at hc
    exact (execIn_reserving hc).error_eq (fun _ _ => exec_error) h

/-- Where room may be refused, a command leaves what it leaves with all the room that it needs, or
what there was before, or one reference less. -/
theorem stateAfter_execIn_cases (refusal? : Option ReserveError) (c : Command σ) (r : Registry σ) :
    stateAfter (execIn refusal? c) r = r.after c ∨ stateAfter (execIn refusal? c) r = r ∨
      ∃ slot, stateAfter (execIn refusal? c) r = r.after (.removeReference slot) := by
  by_cases hc : ∃ slot, c = .releaseSlot slot
  · obtain ⟨slot, rfl⟩ := hc
    cases refusal? with
    | none => exact .inl rfl
    | some cause => exact .inr (.inr ⟨slot, rfl⟩)
  · rw [not_exists] at hc
    rw [after_eq_stateAfter]
    rcases (execIn_reserving hc).stateAfter_cases r with hsame | hkept
    · exact .inl hsame
    · exact .inr (.inl hkept)

theorem execIn_wellFormed (h : r.WellFormed) (refusal? : Option ReserveError) (c : Command σ) :
    (stateAfter (execIn refusal? c) r).WellFormed := by
  rcases stateAfter_execIn_cases refusal? c r with heq | heq | ⟨slot, heq⟩
  all_goals rw [heq]
  · exact after_wellFormed h c
  · exact h
  · exact after_wellFormed h (.removeReference slot)

end Registry

end FormatNegotiation
