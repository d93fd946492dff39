import FlowTrace.Registry

/-!
# Registry laws — what the store of connections keeps

The store is read through `find?` alone. An operation either changes what one key finds, or makes
connections leave: `Within r' r` says that `r'` tracks nothing that `r` does not track in the same
state. No operation but `issue` moves the generation counter.
-/

namespace FlowTrace.Registry

/-- Every connection is stored under its own key. -/
def IsKeyed (r : Registry) : Prop :=
  ∀ key c, r.find? key = some c → c.id.key = key

/-- What `r'` tracks, `r` tracks in the same state. -/
def Within (r' r : Registry) : Prop :=
  ∀ key c, r'.find? key = some c → r.find? key = some c

namespace Within

theorem refl (r : Registry) : Within r r :=
  fun _ _ h => h

theorem trans {r₁ r₂ r₃ : Registry} (h₁ : Within r₁ r₂) (h₂ : Within r₂ r₃) : Within r₁ r₃ :=
  fun key c h => h₂ key c (h₁ key c h)

theorem find?_eq_none {r' r : Registry} (h : Within r' r) {key : ConnectionKey}
    (hnone : r.find? key = none) : r'.find? key = none := by
  cases hfound : r'.find? key with
  | none => rfl
  | some c =>
    have htracked := h key c hfound
    rw [hnone] at htracked
    cases htracked

end Within

/-! ## Leaving -/

theorem drop_within (r : Registry) (key : ConnectionKey) : Within (r.drop key) r := by
  intro other c h
  -- The key itself finds nothing any more, and the others find what they found.
  by_cases hkey : other = key
  · subst hkey
    rw [find?_drop_self] at h
    cases h
  · rwa [find?_drop_of_ne hkey] at h

theorem removeIncarnation_within (r : Registry) (id : ConnectionId) :
    Within (r.removeIncarnation id).1 r := by
  unfold removeIncarnation
  split
  · split
    · exact drop_within r id.key
    · exact Within.refl r
  · exact Within.refl r

theorem removeAll_within (r : Registry) (ids : List ConnectionId) :
    Within (r.removeAll ids).1 r := by
  -- Each removal hands its own registry on, so the induction is over every registry.
  induction ids generalizing r with
  | nil => exact Within.refl r
  | cons id ids ih => exact (ih (r.removeIncarnation id).1).trans (removeIncarnation_within r id)

@[simp] theorem nextGeneration_removeIncarnation (r : Registry) (id : ConnectionId) :
    (r.removeIncarnation id).1.nextGeneration = r.nextGeneration := by
  unfold removeIncarnation
  split
  · split <;> rfl
  · rfl

@[simp] theorem nextGeneration_removeAll (r : Registry) (ids : List ConnectionId) :
    (r.removeAll ids).1.nextGeneration = r.nextGeneration := by
  induction ids generalizing r with
  | nil => rfl
  | cons id ids ih =>
    calc
      (r.removeAll (id :: ids)).1.nextGeneration
          = (r.removeIncarnation id).1.nextGeneration := ih (r.removeIncarnation id).1
      _ = r.nextGeneration := nextGeneration_removeIncarnation r id

/-! ## Making room -/

theorem takeSlot?_within {r r' : Registry} (h : r.takeSlot? = some r') : Within r' r := by
  unfold takeSlot? at h
  split at h
  · cases h
    exact Within.refl r
  · cases h

theorem nextGeneration_takeSlot? {r r' : Registry} (h : r.takeSlot? = some r') :
    r'.nextGeneration = r.nextGeneration := by
  unfold takeSlot? at h
  split at h
  · cases h
    rfl
  · cases h

/-- Room is made by a slot alone, or by the removal of one incarnation and a slot. -/
theorem makeRoom?_cases {r : Registry} {room : Room} (h : r.makeRoom? = some room) :
    r.takeSlot? = some room.registry ∨
      ∃ id, (r.removeIncarnation id).1.takeSlot? = some room.registry := by
  unfold makeRoom? at h
  split at h
  · next hslot =>
    cases h
    exact Or.inl hslot
  · -- A full registry that rejects has no room.
    cases h
  · simp only [Option.bind_eq_bind, Option.bind_eq_some_iff] at h
    -- The oldest connection leaves, and the slot that it frees is taken again.
    rcases h with ⟨c, _, r', hslot, hroom⟩
    cases hroom
    exact Or.inr ⟨c.id, hslot⟩

theorem makeRoom?_within {r : Registry} {room : Room} (h : r.makeRoom? = some room) :
    Within room.registry r := by
  rcases makeRoom?_cases h with hslot | ⟨id, hslot⟩
  · exact takeSlot?_within hslot
  · exact (takeSlot?_within hslot).trans (removeIncarnation_within r id)

theorem nextGeneration_makeRoom? {r : Registry} {room : Room} (h : r.makeRoom? = some room) :
    room.registry.nextGeneration = r.nextGeneration := by
  rcases makeRoom?_cases h with hslot | ⟨id, hslot⟩
  · exact nextGeneration_takeSlot? hslot
  · rw [nextGeneration_takeSlot? hslot, nextGeneration_removeIncarnation]

/-! ## Beginning -/

section Beginning

variable (r : Registry) (key : ConnectionKey) (startTicks : UInt64) (address : RemoteAddress)
  (role : Role)

theorem install_snd :
    (r.install key startTicks address role).2 =
      Connection.start ⟨key, startTicks, r.nextGeneration⟩ address role :=
  rfl

@[simp] theorem find?_install_self :
    (r.install key startTicks address role).1.find? key =
      some (Connection.start ⟨key, startTicks, r.nextGeneration⟩ address role) :=
  find?_put_self _ _ _

theorem find?_install_of_ne {other : ConnectionKey} (h : other ≠ key) :
    (r.install key startTicks address role).1.find? other = r.find? other :=
  find?_put_of_ne h _ _

@[simp] theorem nextGeneration_install :
    (r.install key startTicks address role).1.nextGeneration = r.nextGeneration + 1 :=
  rfl

end Beginning

/-- A connection that is created is a fresh one of the next generation, stored in what is left of
the registry after room was made. -/
theorem create?_eq_some {r : Registry} {key : ConnectionKey} {startTicks : UInt64}
    {address : RemoteAddress} {role : Role} {creation : Creation}
    (h : r.create? key startTicks address role = some creation) :
    ∃ r', Within r' r ∧ r'.nextGeneration = r.nextGeneration ∧
      (creation.registry, creation.connection) = r'.install key startTicks address role := by
  rcases Option.map_eq_some_iff.1 h with ⟨room, hroom, rfl⟩
  exact ⟨room.registry, makeRoom?_within hroom, nextGeneration_makeRoom? hroom, rfl⟩

end FlowTrace.Registry
