import Crocks.Server.Call

/-!
# The shard registry

A node keeps a handle for every shard it serves, with the terminal flag of a migration. The
registry and the handles (`src/server/shards.h`) are not part of the sources; they are
modelled from the contract the spec gives them: `Ref()` fails once the shard drains,
`Unref(true)` sets the flag, and `WaitRefs()` returns when no reference is outstanding. The
references outstanding on a shard are those the node's calls hold, as their own traces of
`Ref()` and `Unref()` show, so the handle keeps no counter of its own.
-/

namespace Crocks.Server

/-- Modelled from the spec: a `Shard` handle (`src/server/shards.h` is not under `src/`). Its
column family is named by its id. -/
structure Shard where
  draining : Bool := false
  deriving DecidableEq, Repr

/-- Modelled from the spec: `Shards`, the registry, as one slot per shard id. -/
structure Shards where
  slots : List (Option Shard) := []
  deriving DecidableEq, Repr

namespace Shards

/-- Modelled from the spec: `Shards::at(id)`, or null. -/
def «at» (shards : Shards) (shard : Nat) : Option Shard :=
  (shards.slots.getD shard none)

/-- Whether `shard && shard->Ref()` succeeds: the shard is here and not draining. -/
def admits (shards : Shards) (shard : Nat) : Bool :=
  (shards.«at» shard).any (!·.draining)

/-- Apply a change to a shard's handle, if it is here. -/
def update (shards : Shards) (shard : Nat) (change : Shard → Shard) : Shards :=
  ⟨shards.slots.set shard ((shards.«at» shard).map change)⟩

/-- Modelled from the spec: `Shards::Remove(id)`. -/
def remove (shards : Shards) (shard : Nat) : Shards :=
  ⟨shards.slots.set shard none⟩

/-- Modelled from the spec: `Shards::Add(id, address)`, a fresh handle for the shard. -/
def add (shards : Shards) (shard : Nat) : Shards :=
  ⟨(shards.slots ++ List.replicate (shard + 1 - shards.slots.length) none).set shard (some {})⟩

/-- Modelled from the spec: `Shards::empty()`. -/
def empty (shards : Shards) : Bool :=
  shards.slots.all (·.isNone)

/-- The registry after one effect of a call: `Unref(true)` sets the terminal flag, and
`Shards::Remove` drops the handle. -/
def apply (shards : Shards) : Effect → Shards
  | .drain shard => shards.update shard fun handle => { handle with draining := true }
  | .remove shard => shards.remove shard
  | _ => shards

@[simp] theorem at_update (shards : Shards) (shard other : Nat) (change : Shard → Shard) :
    (shards.update shard change).«at» other =
      if other = shard then (shards.«at» shard).map change else shards.«at» other := by
  unfold update «at»
  by_cases same : other = shard
  · subst same
    by_cases small : other < shards.slots.length
    · simp [List.getD_eq_getElem?_getD, List.getElem?_set, small]
    · simp [List.getD_eq_getElem?_getD, List.getElem?_set, small,
        List.getElem?_eq_none (Nat.le_of_not_lt small)]
  · simp [List.getD_eq_getElem?_getD, List.getElem?_set, Ne.symm same, same]

@[simp] theorem at_remove (shards : Shards) (shard other : Nat) :
    (shards.remove shard).«at» other = if other = shard then none else shards.«at» other := by
  unfold remove «at»
  by_cases same : other = shard
  · subst same
    by_cases small : other < shards.slots.length <;>
      simp [List.getD_eq_getElem?_getD, List.getElem?_set, small, List.getElem?_eq_none]
  · simp [List.getD_eq_getElem?_getD, List.getElem?_set, Ne.symm same, same]

/-- `Unref(true)` makes a shard refuse references. -/
theorem admits_apply_drain (shards : Shards) (shard : Nat) :
    (shards.apply (.drain shard)).admits shard = false := by
  simp only [admits, apply, at_update, if_true]
  cases shards.«at» shard <;> rfl

theorem at_apply_drain_eq_none (shards : Shards) (drained shard : Nat) :
    (shards.apply (.drain drained)).«at» shard = none ↔ shards.«at» shard = none := by
  simp only [apply, at_update]
  split
  · subst_vars
    simp
  · rfl

theorem admits_eq (shards : Shards) (shard : Nat) :
    shards.admits shard = true ↔ ∃ handle, shards.«at» shard = some handle ∧ handle.draining = false := by
  unfold admits
  cases shards.«at» shard <;> simp

/-- No effect lets a shard take references again: draining is terminal and a removed shard
stays removed. -/
theorem admits_of_apply {shards : Shards} {effect : Effect} {shard : Nat}
    (admitted : (shards.apply effect).admits shard = true) : shards.admits shard = true := by
  rw [admits_eq] at admitted ⊢
  obtain ⟨handle, found, undrained⟩ := admitted
  cases effect <;> simp only [apply] at found
  case drain drained =>
    rw [at_update] at found
    split at found
    · obtain ⟨old, was, rfl⟩ := Option.map_eq_some'.mp found
      simp at undrained
    · exact ⟨handle, found, undrained⟩
  case remove removed =>
    rw [at_remove] at found
    split at found
    · cases found
    · exact ⟨handle, found, undrained⟩
  all_goals exact ⟨handle, found, undrained⟩

theorem admits_of_foldl {shards : Shards} {effects : List Effect} {shard : Nat}
    (admitted : (effects.foldl apply shards).admits shard = true) : shards.admits shard = true := by
  induction effects generalizing shards with
  | nil => exact admitted
  | cons effect effects ih => exact admits_of_apply (ih admitted)

/-- A handle drains only through `Unref(true)` on it. -/
theorem draining_of_apply {shards : Shards} {effect : Effect} {shard : Nat} {handle : Shard}
    (found : (shards.apply effect).«at» shard = some handle) (draining : handle.draining = true) :
    (∃ old, shards.«at» shard = some old ∧ old.draining = true) ∨ effect = .drain shard := by
  cases effect <;> simp only [apply] at found
  case drain drained =>
    rw [at_update] at found
    split at found
    · rename_i same
      exact .inr (same ▸ rfl)
    · exact .inl ⟨handle, found, draining⟩
  case remove removed =>
    rw [at_remove] at found
    split at found
    · cases found
    · exact .inl ⟨handle, found, draining⟩
  all_goals exact .inl ⟨handle, found, draining⟩

theorem draining_of_foldl {shards : Shards} {effects : List Effect} {shard : Nat} {handle : Shard}
    (found : (effects.foldl apply shards).«at» shard = some handle) (draining : handle.draining = true) :
    (∃ old, shards.«at» shard = some old ∧ old.draining = true) ∨ .drain shard ∈ effects := by
  induction effects generalizing shards with
  | nil => exact .inl ⟨handle, found, draining⟩
  | cons effect effects ih =>
    rcases ih found with ⟨old, was, drained⟩ | mem
    · rcases draining_of_apply was drained with earlier | rfl
      · exact .inl earlier
      · exact .inr (.head _)
    · exact .inr (.tail _ mem)

end Shards

end Crocks.Server
