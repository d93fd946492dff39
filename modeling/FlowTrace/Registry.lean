import FlowTrace.Config
import FlowTrace.Connection

/-!
# Registry — the connections that are tracked

At most one incarnation of each handle is tracked, and at most `capacity` connections at all. A new
connection first takes a slot and then the next generation, so generations grow in the order in
which connections begin, over all handles.
-/

namespace FlowTrace

structure Registry where
  entries : List (ConnectionKey × Connection)
  /-- The slots that are taken. -/
  slots : Nat
  capacity : Nat
  policy : CapacityPolicy
  nextGeneration : UInt64
  deriving DecidableEq, Repr

namespace Registry

def empty (capacity : Nat) (policy : CapacityPolicy) : Registry where
  entries := []
  slots := 0
  capacity := capacity
  policy := policy
  nextGeneration := 1

def size (r : Registry) : Nat :=
  r.entries.length

def find? (r : Registry) (key : ConnectionKey) : Option Connection :=
  r.entries.lookup key

/-- Stores a connection under a key, in place of the one that is stored there. -/
def put (r : Registry) (key : ConnectionKey) (c : Connection) : Registry :=
  { r with entries := (key, c) :: r.entries.eraseP (·.1 == key) }

/-- Drops the entry of a key and frees a slot. -/
def drop (r : Registry) (key : ConnectionKey) : Registry :=
  { r with entries := r.entries.filter (·.1 != key), slots := r.slots - 1 }

@[simp] theorem find?_put_self (r : Registry) (key : ConnectionKey) (c : Connection) :
    (r.put key c).find? key = some c := by
  simp [find?, put]

theorem lookup_filter_ne {key other : ConnectionKey} (h : key ≠ other)
    (entries : List (ConnectionKey × Connection)) :
    (entries.filter (·.1 != other)).lookup key = entries.lookup key := by
  induction entries with
  | nil => rfl
  | cons e entries ih =>
    obtain ⟨stored, c⟩ := e
    by_cases hs : stored = other
    · subst hs
      have hk : (key == stored) = false := by simpa using h
      simp [List.lookup_cons, hk, ih]
    · simp only [List.filter_cons, bne_iff_ne, ne_eq, hs, not_false_eq_true, if_true]
      cases hk : key == stored <;> simp [List.lookup_cons, hk, ih]

theorem lookup_eraseP_ne {key other : ConnectionKey} (h : key ≠ other)
    (entries : List (ConnectionKey × Connection)) :
    (entries.eraseP (·.1 == other)).lookup key = entries.lookup key := by
  induction entries with
  | nil => rfl
  | cons e entries ih =>
    obtain ⟨stored, c⟩ := e
    by_cases hs : stored = other
    · subst hs
      have hk : (key == stored) = false := by simpa using h
      simp [List.lookup_cons, hk]
    · have hother : (stored == other) = false := by simpa using hs
      simp only [List.eraseP_cons, hother, cond_false]
      cases hk : key == stored <;> simp [List.lookup_cons, hk, ih]

/-- Storing under one key leaves the other keys alone. -/
theorem find?_put_of_ne {key other : ConnectionKey} (h : key ≠ other) (r : Registry)
    (c : Connection) : (r.put other c).find? key = r.find? key := by
  have hk : (key == other) = false := by simpa using h
  simp [find?, put, List.lookup_cons, hk, lookup_eraseP_ne h]

@[simp] theorem find?_drop_self (r : Registry) (key : ConnectionKey) :
    (r.drop key).find? key = none := by
  have none_of : ∀ entries : List (ConnectionKey × Connection),
      (entries.filter (·.1 != key)).lookup key = none := by
    intro entries
    induction entries with
    | nil => rfl
    | cons e entries ih =>
      obtain ⟨stored, c⟩ := e
      by_cases hs : stored = key
      · simp [hs, ih]
      · have hk : (key == stored) = false := by simpa using fun h => hs h.symm
        simp [hs, List.lookup_cons, hk, ih]
  exact none_of r.entries

theorem find?_drop_of_ne {key other : ConnectionKey} (h : key ≠ other) (r : Registry) :
    (r.drop other).find? key = r.find? key :=
  lookup_filter_ne h r.entries

/-- Issues the identity of a new incarnation. -/
def issue (r : Registry) (key : ConnectionKey) (startTicks : UInt64) : ConnectionId × Registry :=
  (⟨key, startTicks, r.nextGeneration⟩, { r with nextGeneration := r.nextGeneration + 1 })

/-! ## Removal -/

/-- What came of the removal of an incarnation. -/
inductive Removal
  | removed
  /-- The key is tracked, but as another incarnation. -/
  | stale
  | missing
  deriving DecidableEq, Repr

/-- Drops the entry of a key if it is still the incarnation that is named. -/
def removeIncarnation (r : Registry) (id : ConnectionId) : Registry × Removal :=
  match r.find? id.key with
  | some c => if c.id.generation = id.generation then (r.drop id.key, .removed) else (r, .stale)
  | none => (r, .missing)

/-- Removes several incarnations, one after the other. -/
def removeAll (r : Registry) : List ConnectionId → Registry × List Removal
  | [] => (r, [])
  | id :: ids =>
    let (r, first) := r.removeIncarnation id
    let (r, others) := r.removeAll ids
    (r, first :: others)

/-! ## Capacity -/

/-- The connection of the lowest generation. -/
def oldest : List (ConnectionKey × Connection) → Option Connection
  | [] => none
  | (_, c) :: entries =>
    match oldest entries with
    | some d => if d.id.generation < c.id.generation then some d else some c
    | none => some c

def takeSlot? (r : Registry) : Option Registry :=
  if r.slots < r.capacity then some { r with slots := r.slots + 1 } else none

/-- A registry with a slot taken for a new connection. -/
structure Room where
  registry : Registry
  /-- The oldest connection had to leave. -/
  evicted : Bool
  deriving DecidableEq, Repr

/-- Takes a slot. In a full registry the policy decides whether there is none or the oldest
connection leaves. -/
def makeRoom? (r : Registry) : Option Room :=
  match r.takeSlot?, r.policy with
  | some r, _ => some ⟨r, false⟩
  | none, .reject => none
  | none, .evictOldest => do
    let c ← oldest r.entries
    let r ← (r.removeIncarnation c.id).1.takeSlot?
    some ⟨r, true⟩

/-! ## Creation -/

/-- A new connection that is stored in the registry. -/
structure Creation where
  registry : Registry
  connection : Connection
  evicted : Bool
  deriving DecidableEq, Repr

/-- Starts a new incarnation of a key and stores it. -/
def install (r : Registry) (key : ConnectionKey) (startTicks : UInt64) (address : RemoteAddress)
    (role : Role) : Registry × Connection :=
  let (id, r) := r.issue key startTicks
  let c := Connection.start id address role
  (r.put key c, c)

/-- Starts a connection under a key that is not tracked, if there is room for it. -/
def create? (r : Registry) (key : ConnectionKey) (startTicks : UInt64) (address : RemoteAddress)
    (role : Role) : Option Creation :=
  r.makeRoom?.map fun room =>
    let (registry, connection) := room.registry.install key startTicks address role
    { registry, connection, evicted := room.evicted }

end Registry

end FlowTrace
