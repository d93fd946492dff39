import FlowTrace.Proofs.Chronicle

/-!
# Accounting — the totals of a connection are the bytes that moved on it

The bytes of an incident are accounted in one direction: those of a transfer that the connection
takes, and those of a file, which are always written. Whether they are forwarded plays no part, nor
does how they were staged. `Life.position_invariant` says that a total is the sum over all entries
of the incarnation, cut off at the largest word.
-/

namespace FlowTrace

/-! ## Saturation -/

theorem saturate_le (n : Nat) : saturate n ≤ maxWord :=
  Nat.min_le_left _ _

theorem saturate_of_le {n : Nat} (h : n ≤ maxWord) : saturate n = n :=
  Nat.min_eq_right h

/-- A sum may be cut off at any point before its end. -/
theorem saturate_add (n k : Nat) : saturate (saturate n + k) = saturate (n + k) := by
  unfold saturate
  omega

/-! ## One incident -/

namespace Connection

variable (c : Connection) (d : Direction)

/-- The bytes that an incident adds to the total of a direction. -/
def adds : Incident → Nat
  | .data o => if c.takes o = true ∧ o.direction = d then o.byteCount else 0
  | .sendfile o => if c.address.isTraceable = true ∧ d = .egress then o.byteCount else 0
  | .opened _ | .tlsDetected | .disabled _ | .closed _ => 0

variable {c} {config : Config} (control : Control)

theorem adds_of_moving {i : Incident} {c' : Connection} {m : Movement}
    (h : c.moving? config i = some (c', m)) :
    c.adds d i = if m.direction = d then m.byteCount else 0 := by
  rcases moving?_cases h with ⟨o, rfl, htakes, _, rfl⟩ | ⟨o, rfl, htraceable, _, rfl⟩
  · by_cases hd : o.direction = d <;> simp [adds, htakes, Transfer.movement, hd]
  · cases d <;> simp [adds, htraceable, FileTransfer.movement]

theorem adds_of_not_moving {i : Incident} (h : c.moving? config i = none) : c.adds d i = 0 := by
  cases i with
  | data o =>
    simp [adds, not_takes_of_moving? h]
  | sendfile o =>
    simp [adds, not_traceable_of_moving? h]
  | opened _ | tlsDetected | disabled _ | closed _ => rfl

/-- An incident moves the position of a direction by what it adds. -/
theorem position_undergo (hword : c.position d ≤ maxWord) (i : Incident) :
    (c.undergo config control i).connection.position d = saturate (c.position d + c.adds d i) := by
  cases hmoving : c.moving? config i with
  | some p =>
    rcases p with ⟨c', m⟩
    -- Classification comes before accounting and moves nothing.
    have hsame : c'.position d = c.position d := (moving?_frame hmoving).2.2.2 d
    have hconnection := (undergo_of_moving control hmoving).1
    rw [hconnection, position_account, adds_of_moving d hmoving, hsame]
    split
    · rfl
    · exact (saturate_of_le hword).symm
  | none =>
    have hkept : (c.undergo config control i).connection.position d = c.position d := by
      rcases undergo_of_not_moving control hmoving with h | ⟨_, h⟩ | ⟨_, _, h⟩
      · rw [h]
      · rw [h]
        cases d <;> rfl
      · rw [h]
        cases d <;> rfl
    rw [hkept, adds_of_not_moving d hmoving]
    exact (saturate_of_le hword).symm

end Connection

/-! ## Whole incarnations -/

namespace Entry

variable (d : Direction)

/-- The bytes that the entry of an incarnation adds to a direction. -/
def adds (e : Entry) : Nat :=
  e.connection.adds d e.incident

/-- The bytes that entries of an incarnation have moved in a direction, in all. -/
def moved : List Entry → Nat
  | [] => 0
  | e :: es => e.adds d + moved es

@[simp] theorem moved_append (es fs : List Entry) :
    moved d (es ++ fs) = moved d es + moved d fs := by
  induction es with
  | nil => exact (Nat.zero_add _).symm
  | cons e es ih => simp [moved, ih, Nat.add_assoc]

end Entry

/-- The position of a live incarnation is what it has moved so far. -/
theorem Life.position_invariant {config : Config} {control : Control} (d : Direction) :
    Life.Invariant config control fun past c => c.position d = saturate (Entry.moved d past) := by
  constructor
  · intro id address role
    cases d <;> rfl
  · intro past e hafter hclosing hpast
    -- A total that was cut off stays within a word.
    have hword : e.connection.position d ≤ maxWord := by
      rw [hpast]
      exact saturate_le _
    calc
      (e.reaction config control).connection.position d =
          saturate (e.connection.position d + e.adds d) :=
        Connection.position_undergo d control hword e.incident
      _ = saturate (saturate (Entry.moved d past) + e.adds d) := by
        rw [hpast]
      _ = saturate (Entry.moved d past + e.adds d) :=
        saturate_add _ _
      _ = saturate (Entry.moved d (past ++ [e])) := by
        simp [Entry.moved]

end FlowTrace
