/-!
# Reader — reading a piece of text from its front

A reader takes what it can from the front of the text and gives the rest back, or refuses. Digits
are ASCII, as the forms of addresses are.
-/

namespace FlowTrace

abbrev Reader (α : Type) := List Char → Option (α × List Char)

namespace Reader

/-- The value of an ASCII digit in the given base, for bases up to 36; letters count in both cases. -/
def digit? (base : Nat) (c : Char) : Option Nat :=
  let n :=
    if '0' ≤ c ∧ c ≤ '9' then some (c.toNat - '0'.toNat)
    else if 'a' ≤ c ∧ c ≤ 'z' then some (c.toNat - 'a'.toNat + 10)
    else if 'A' ≤ c ∧ c ≤ 'Z' then some (c.toNat - 'A'.toNat + 10)
    else none
  n.filter (· < base)

/-- The longest run of digits, which must not be empty. -/
def digits (base : Nat) : Reader (List Nat) := fun cs =>
  let run := cs.takeWhile fun c => (digit? base c).isSome
  if run.isEmpty then none else some (run.filterMap (digit? base), cs.drop run.length)

def value (base : Nat) (digits : List Nat) : Nat :=
  digits.foldl (fun n d => base * n + d) 0

/-- The value of the digits if it is below `bound`. The first leading part that is too large settles
it, so a long run of digits is never worked out in full. -/
def valueBelow? (base bound : Nat) (digits : List Nat) : Option Nat :=
  digits.foldlM (fun n d => if base * n + d < bound then some (base * n + d) else none) 0

/-- Further digits never make a value smaller. -/
theorem le_foldl_value {base : Nat} (hbase : 0 < base) (n : Nat) (ds : List Nat) :
    n ≤ ds.foldl (fun n d => base * n + d) n := by
  induction ds generalizing n with
  | nil => exact Nat.le_refl n
  | cons d ds ih =>
    have hstep : n ≤ base * n + d :=
      Nat.le_trans (Nat.le_mul_of_pos_left n hbase) (Nat.le_add_right _ d)
    exact Nat.le_trans hstep (ih _)

theorem valueBelow?_eq_some_iff {base bound : Nat} (hbase : 0 < base) (hbound : 0 < bound)
    (ds : List Nat) (n : Nat) :
    valueBelow? base bound ds = some n ↔ value base ds = n ∧ n < bound := by
  have from_of_lt : ∀ (ds : List Nat) (m : Nat), m < bound →
      (ds.foldlM (fun n d => if base * n + d < bound then some (base * n + d) else none) m =
          some n ↔
        ds.foldl (fun n d => base * n + d) m = n ∧ n < bound) := by
    intro ds
    induction ds with
    | nil =>
      intro m hm
      constructor
      · rintro ⟨⟩
        exact ⟨rfl, hm⟩
      · rintro ⟨rfl, _⟩
        rfl
    | cons d ds ih =>
      intro m _
      by_cases hstep : base * m + d < bound
      · simpa [List.foldlM_cons, hstep] using ih _ hstep
      · have hle := le_foldl_value hbase (base * m + d) ds
        simp only [List.foldlM_cons, hstep, if_false, List.foldl_cons]
        constructor
        · rintro ⟨⟩
        · rintro ⟨rfl, hlt⟩
          exact absurd (Nat.lt_of_le_of_lt hle hlt) hstep
  exact from_of_lt ds 0 hbound

/-- A number of any count of digits that is below `bound`. -/
def number (base bound : Nat) : Reader Nat := fun cs => do
  let (ds, rest) ← digits base cs
  let n ← valueBelow? base bound ds
  some (n, rest)

/-- Takes one given character. -/
def char (c : Char) : List Char → Option (List Char)
  | [] => none
  | d :: rest => if d = c then some rest else none

end Reader

end FlowTrace
