import FlowTrace.Bytes
import FlowTrace.Saturation

/-!
# Checked arithmetic — where a machine would stop

The definitions of this library cannot fail: reads past the end answer `none`, and numbers have no
bound. A machine that does the same work on words and buffers has to stop where an index or a slice
leaves its buffer, or where a sum or a difference does not fit its type. `Checked` makes these
places visible. The modules beside this one follow the work step by step, with every partial
operation in its place, and show that it never stops and that its result is the one that is defined
without the checks.
-/

namespace FlowTrace

/-- Why a machine stops. -/
inductive Trap
  | outOfRange
  | overflow
  deriving DecidableEq, Repr

/-- Work that may be stopped. -/
abbrev Checked (α : Type) : Type :=
  Except Trap α

namespace Checked

variable {α : Type}

/-! ## Buffers and tables -/

def index (xs : List α) (i : Nat) : Checked α :=
  match xs[i]? with
  | some x => pure x
  | none => throw .outOfRange

/-- The elements from `start` on, up to but not including `stop`. -/
def slice (xs : List α) (start stop : Nat) : Checked (List α) :=
  if start ≤ stop ∧ stop ≤ xs.length then pure ((xs.take stop).drop start) else throw .outOfRange

def splitAt (xs : List α) (middle : Nat) : Checked (List α × List α) :=
  if middle ≤ xs.length then pure (xs.take middle, xs.drop middle) else throw .outOfRange

theorem index_eq {xs : List α} {i : Nat} {x : α} (h : xs[i]? = some x) : index xs i = pure x := by
  simp [index, h]

theorem slice_eq {xs : List α} {start stop : Nat} (hstart : start ≤ stop)
    (hstop : stop ≤ xs.length) : slice xs start stop = pure ((xs.take stop).drop start) :=
  if_pos ⟨hstart, hstop⟩

/-- A leading part is sliced off. -/
theorem slice_zero {xs : List α} {stop : Nat} (hstop : stop ≤ xs.length) :
    slice xs 0 stop = pure (xs.take stop) :=
  slice_eq (Nat.zero_le _) hstop

/-- What is sliced off is cut to what there is. -/
theorem slice_clamp (xs : List α) (count : Nat) :
    slice xs 0 (min xs.length count) = pure (xs.take count) := by
  rw [slice_zero (Nat.min_le_left _ _), Nat.min_comm, ← List.take_eq_take_min]

theorem splitAt_clamp (xs : List α) (count : Nat) :
    splitAt xs (min xs.length count) = pure (xs.take count, xs.drop count) := by
  have hdrop : xs.drop (min xs.length count) = xs.drop count := by
    rcases Nat.le_total xs.length count with h | h
    · rw [Nat.min_eq_left h, List.drop_length, List.drop_of_length_le h]
    · rw [Nat.min_eq_right h]
  rw [splitAt, if_pos (Nat.min_le_left _ _), hdrop, Nat.min_comm, ← List.take_eq_take_min]

/-! ## Numbers -/

def maxWord32 : Nat :=
  0xffffffff

/-- The sum of two 64-bit words. -/
def add (m n : Nat) : Checked Nat :=
  if m + n ≤ maxWord then pure (m + n) else throw .overflow

/-- The sum of two 32-bit words. -/
def add32 (m n : Nat) : Checked Nat :=
  if m + n ≤ maxWord32 then pure (m + n) else throw .overflow

/-- The sum of two signed 64-bit words. -/
def addSigned (m n : Int) : Checked Int :=
  if Int64.minValue.toInt ≤ m + n ∧ m + n ≤ Int64.maxValue.toInt then pure (m + n)
  else throw .overflow

/-- The difference of two words, which have no sign. -/
def sub (m n : Nat) : Checked Nat :=
  if n ≤ m then pure (m - n) else throw .overflow

/-- A 32-bit word is not shifted by its width or more. -/
def shiftLeft (x : UInt32) (n : Nat) : Checked UInt32 :=
  if n < 32 then pure (x <<< n.toUInt32) else throw .overflow

theorem add_eq {m n : Nat} (h : m + n ≤ maxWord) : add m n = pure (m + n) :=
  if_pos h

theorem add32_eq {m n : Nat} (h : m + n ≤ maxWord32) : add32 m n = pure (m + n) :=
  if_pos h

theorem addSigned_eq {m n : Int} (hmin : Int64.minValue.toInt ≤ m + n)
    (hmax : m + n ≤ Int64.maxValue.toInt) : addSigned m n = pure (m + n) :=
  if_pos ⟨hmin, hmax⟩

theorem sub_eq {m n : Nat} (h : n ≤ m) : sub m n = pure (m - n) :=
  if_pos h

theorem shiftLeft_eq {x : UInt32} {n : Nat} (h : n < 32) :
    shiftLeft x n = pure (x <<< n.toUInt32) :=
  if_pos h

end Checked

end FlowTrace
