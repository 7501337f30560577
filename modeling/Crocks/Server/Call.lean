import Crocks.Common.Info

/-!
# Calls of the asynchronous server

`AsyncServer` serves each RPC through a call object. The completion queue runs the object's
`Proceed(ok)` each time the operation it last started completes, and its `OnDone` once, when
gRPC reports the call done. This module holds what the call models share: the messages the
handlers read, the storage engine's write records, and the effects a step of a call has on
the rest of its node. A step returns the call's new state and its effects in the order the
code performs them; the node model of `Crocks.Server.Donor` applies them to the shard
registry and the database.
-/

namespace Crocks.Server

/-- `pb::BatchUpdate::Operation`. -/
inductive Operation where
  | PUT
  | DELETE
  | SINGLE_DELETE
  | MERGE
  | CLEAR
  deriving DecidableEq, Repr

/-- `pb::BatchUpdate`. -/
structure BatchUpdate where
  op : Operation := .PUT
  key : List UInt8 := []
  value : List UInt8 := []
  deriving DecidableEq, Repr

/-- `pb::BatchBuffer`. -/
structure BatchBuffer where
  updates : List BatchUpdate := []
  deriving DecidableEq, Repr

/-- `request_.updates(0)`: the first update of a buffer. Reading into `request_` keeps its
cleared elements, so a later empty buffer shows a default update. -/
def BatchBuffer.first (buffer : BatchBuffer) : BatchUpdate :=
  buffer.updates.headD {}

/-- One record of a `rocksdb::WriteBatch`. A shard's column family is named by its id. -/
inductive WriteRecord where
  | put (cf : Nat) (key value : List UInt8)
  | delete (cf : Nat) (key : List UInt8)
  | singleDelete (cf : Nat) (key : List UInt8)
  | merge (cf : Nat) (key value : List UInt8)
  deriving DecidableEq, Repr

namespace WriteRecord

/-- The column family a record writes to. -/
def cf : WriteRecord → Nat
  | put cf _ _ => cf
  | delete cf _ => cf
  | singleDelete cf _ => cf
  | merge cf _ _ => cf

/-- The key a record writes. -/
def key : WriteRecord → List UInt8
  | put _ key _ => key
  | delete _ key => key
  | singleDelete _ key => key
  | merge _ key _ => key

end WriteRecord

/-- `ApplyBatchUpdate`: append the update to the batch, on the given column family. `CLEAR`
empties the batch. -/
def applyBatchUpdate (batch : List WriteRecord) (cf : Nat) (update : BatchUpdate) :
    List WriteRecord :=
  match update.op with
  | .PUT => batch ++ [.put cf update.key update.value]
  | .DELETE => batch ++ [.delete cf update.key]
  | .SINGLE_DELETE => batch ++ [.singleDelete cf update.key]
  | .MERGE => batch ++ [.merge cf update.key update.value]
  | .CLEAR => []

/-- The record `ApplyBatchUpdate` appends for an update on a column family: the update's
operation on its key, with its value for `Put` and `Merge`; `CLEAR` appends none. -/
def BatchUpdate.record (update : BatchUpdate) (cf : Nat) : Option WriteRecord :=
  match update.op with
  | .PUT => some (.put cf update.key update.value)
  | .DELETE => some (.delete cf update.key)
  | .SINGLE_DELETE => some (.singleDelete cf update.key)
  | .MERGE => some (.merge cf update.key update.value)
  | .CLEAR => none

/-- An update's record is on the given column family and has the update's key. -/
theorem BatchUpdate.record_filed {update : BatchUpdate} {cf : Nat} {record : WriteRecord}
    (written : update.record cf = some record) : record.cf = cf ∧ record.key = update.key := by
  unfold BatchUpdate.record at written
  split at written <;> cases written <;> exact ⟨rfl, rfl⟩

/-- Every record `ApplyBatchUpdate` adds is the update's record on the given column family. -/
theorem mem_applyBatchUpdate {batch : List WriteRecord} {cf : Nat} {update : BatchUpdate}
    {record : WriteRecord} (mem : record ∈ applyBatchUpdate batch cf update) :
    record ∈ batch ∨ update.record cf = some record := by
  obtain ⟨op, key, value⟩ := update
  cases op <;> simp only [applyBatchUpdate, BatchUpdate.record, List.mem_append,
    List.mem_singleton, List.not_mem_nil] at mem ⊢
  all_goals exact mem.imp_right fun same => congrArg some same.symm

/-- The loop that applies every update of a buffer, in order, on one column family. -/
def applyUpdates (batch : List WriteRecord) (cf : Nat) (updates : List BatchUpdate) :
    List WriteRecord :=
  updates.foldl (fun batch update => applyBatchUpdate batch cf update) batch

/-- What one step of a call does to the rest of its node. -/
inductive Effect where
  /-- `new XCall(data_)`: a fresh call of the same type waits for the next request. -/
  | spawn
  /-- A successful `Shard::Ref()` on the shard. -/
  | ref (shard : Nat)
  /-- `Shard::Unref()` on the shard. -/
  | unref (shard : Nat)
  /-- The updates of a batch buffer applied to the call's `batch_`, on the shard's column
  family. -/
  | applied (shard : Nat) (buffer : BatchBuffer)
  /-- A batch buffer answered `InvalidArgument` and dropped: its shard refused `Ref()`. -/
  | refused (shard : Nat) (buffer : BatchBuffer)
  /-- Records committed to the database by `Shard::Put`, `Shard::Delete` or `DB::Write`. -/
  | commit (records : List WriteRecord)
  /-- `Shard::Unref(true)` on the shard. -/
  | drain (shard : Nat)
  /-- `Info::GiveShard(shard)`. -/
  | giveShard (shard : Nat)
  /-- `ShardMigrator::DumpShard`: the snapshot the shard is shipped from is taken. -/
  | dump (shard : Nat)
  /-- `Shards::Remove(shard)`. -/
  | remove (shard : Nat)
  /-- `Info::SetAvailable(node, false)`. -/
  | markUnavailable (node : Nat)
  /-- `if (shards->empty()) { Info::Remove(); shutdown }`. -/
  | leaveIfEmpty
  deriving DecidableEq, Repr

/-- The effects a write handler has: it spawns, takes and releases references, applies and
refuses buffers, and commits. -/
def Effect.ofHandler : Effect → Bool
  | .spawn | .ref _ | .unref _ | .applied _ _ | .refused _ _ | .commit _ => true
  | _ => false

/-! ## Properties of a call's trace -/

/-- A property each effect of a trace has, given the effects before it. -/
def Stepwise {α : Type} (P : List α → α → Prop) (effects : List α) : Prop :=
  ∀ pre effect post, effects = pre ++ effect :: post → P pre effect

theorem Stepwise.nil {α : Type} (P : List α → α → Prop) : Stepwise P [] := by
  intro pre effect post split
  simp at split

/-- Appending effects keeps a stepwise property when each new effect has it after the whole
trace before it. -/
theorem Stepwise.append {α : Type} {P : List α → α → Prop} {effects new : List α}
    (old : Stepwise P effects)
    (fresh : ∀ pre effect post, new = pre ++ effect :: post → P (effects ++ pre) effect) :
    Stepwise P (effects ++ new) := by
  intro pre effect post split
  rcases List.append_eq_append_iff.mp split with ⟨middle, rfl, later⟩ | ⟨middle, earlier, later⟩
  · exact fresh middle effect post later
  · cases middle with
    | nil =>
      simp only [List.append_nil] at earlier
      subst earlier
      simpa using fresh [] effect post (by simpa using later.symm)
    | cons head middle =>
      obtain ⟨rfl, rfl⟩ := List.cons.inj later
      exact old pre effect middle earlier

theorem Stepwise.snoc {α : Type} {P : List α → α → Prop} {effects : List α} {effect : α}
    (old : Stepwise P effects) (fresh : P effects effect) : Stepwise P (effects ++ [effect]) := by
  refine old.append fun pre effect' post split => ?_
  cases pre with
  | nil =>
    obtain ⟨rfl, -⟩ := List.cons.inj split
    simpa using fresh
  | cons head pre => simp at split

/-- Appending what one caller did, tagged, keeps a stepwise property of a history when each new
entry has it after the history and the entries before it. -/
theorem Stepwise.map_append {α β : Type} {P : List β → β → Prop} {history : List β}
    {new : List α} {f : α → β} (old : Stepwise P history)
    (fresh : ∀ pre effect post, new = pre ++ effect :: post → P (history ++ pre.map f) (f effect)) :
    Stepwise P (history ++ new.map f) := by
  refine old.append fun pre entry post split => ?_
  obtain ⟨pre', rest, rfl, rfl, mapped⟩ := List.map_eq_append_iff.mp split
  obtain ⟨effect, post', rfl, rfl, rfl⟩ := List.map_eq_cons_iff.mp mapped
  exact fresh pre' effect post' rfl

/-- Whether a call's effects leave it holding a reference on the shard: it took one it has not
released. -/
def holding (effects : List Effect) (shard : Nat) : Prop :=
  effects.count (.unref shard) < effects.count (.ref shard)

instance (effects : List Effect) (shard : Nat) : Decidable (holding effects shard) :=
  inferInstanceAs (Decidable (_ < _))

/-- The reference discipline of the spec: a handler takes a reference on a shard only when it
holds none, releases only one it holds, and writes to a shard's column family only while it
holds a reference on the shard. -/
def RefDiscipline (pre : List Effect) : Effect → Prop
  | .ref shard => ¬holding pre shard
  | .unref shard => holding pre shard
  | .commit records => ∀ record ∈ records, holding pre record.cf
  | _ => True

/-- A trace that keeps the reference discipline, and never holds two references on a shard. -/
structure Disciplined (effects : List Effect) : Prop where
  stepwise : Stepwise RefDiscipline effects
  released : ∀ shard, effects.count (.unref shard) ≤ effects.count (.ref shard)
  alternate : ∀ shard, effects.count (.ref shard) ≤ effects.count (.unref shard) + 1

theorem Disciplined.nil : Disciplined [] :=
  ⟨Stepwise.nil _, by simp, by simp⟩

/-- An effect that neither takes, releases nor writes keeps the discipline and what is held. -/
theorem Disciplined.quiet {effects : List Effect} {effect : Effect} (disciplined : Disciplined effects)
    (quiet : ∀ shard records, effect ≠ .ref shard ∧ effect ≠ .unref shard ∧
      effect ≠ .commit records) :
    Disciplined (effects ++ [effect]) ∧
      ∀ shard, holding (effects ++ [effect]) shard ↔ holding effects shard := by
  have counts : ∀ shard, (effects ++ [effect]).count (.ref shard) = effects.count (.ref shard) ∧
      (effects ++ [effect]).count (.unref shard) = effects.count (.unref shard) := fun shard => by
    simp [List.count_append, List.count_singleton', Ne.symm (quiet shard []).1,
      Ne.symm (quiet shard []).2.1]
  refine ⟨⟨disciplined.stepwise.snoc ?_, fun shard => ?_, fun shard => ?_⟩, fun shard => ?_⟩
  · cases effect
    case ref shard => exact absurd rfl (quiet shard []).1
    case unref shard => exact absurd rfl (quiet shard []).2.1
    case commit records => exact absurd rfl (quiet 0 records).2.2
    all_goals trivial
  · rw [(counts shard).1, (counts shard).2]
    exact disciplined.released shard
  · rw [(counts shard).1, (counts shard).2]
    exact disciplined.alternate shard
  · simp only [holding, (counts shard).1, (counts shard).2]

/-- A write to shards the call holds keeps the discipline and what is held. -/
theorem Disciplined.commit {effects : List Effect} {records : List WriteRecord}
    (disciplined : Disciplined effects) (held : ∀ record ∈ records, holding effects record.cf) :
    Disciplined (effects ++ [.commit records]) ∧
      ∀ shard, holding (effects ++ [.commit records]) shard ↔ holding effects shard := by
  have counts : ∀ shard,
      (effects ++ [Effect.commit records]).count (.ref shard) = effects.count (.ref shard) ∧
      (effects ++ [Effect.commit records]).count (.unref shard) = effects.count (.unref shard) :=
    fun shard => by simp [List.count_append, List.count_singleton']
  refine ⟨⟨disciplined.stepwise.snoc held, fun shard => ?_, fun shard => ?_⟩, fun shard => ?_⟩
  · rw [(counts shard).1, (counts shard).2]
    exact disciplined.released shard
  · rw [(counts shard).1, (counts shard).2]
    exact disciplined.alternate shard
  · simp only [holding, (counts shard).1, (counts shard).2]

/-- Taking a reference on a shard the call does not hold keeps the discipline. -/
theorem Disciplined.ref {effects : List Effect} {shard : Nat} (disciplined : Disciplined effects)
    (free : ¬holding effects shard) :
    Disciplined (effects ++ [.ref shard]) ∧
      ∀ other, holding (effects ++ [.ref shard]) other ↔ other = shard ∨ holding effects other := by
  have counts : ∀ other,
      (effects ++ [Effect.ref shard]).count (.ref other) =
        effects.count (.ref other) + (if other = shard then 1 else 0) ∧
      (effects ++ [Effect.ref shard]).count (.unref other) = effects.count (.unref other) :=
    fun other => by by_cases same : other = shard <;> simp [List.count_append, same, Ne.symm]
  have balanced : effects.count (.ref shard) ≤ effects.count (.unref shard) := Nat.not_lt.mp free
  refine ⟨⟨disciplined.stepwise.snoc free, fun other => ?_, fun other => ?_⟩, fun other => ?_⟩ <;>
    simp only [holding, (counts other).1, (counts other).2] <;>
    have released := disciplined.released other <;> have alternate := disciplined.alternate other <;>
    by_cases same : other = shard
  all_goals first
    | (subst same; simp only [if_true, true_or, iff_true]; omega)
    | (simp only [same, if_false, Nat.add_zero, false_or]; omega)
    | simp only [same, if_false, Nat.add_zero, false_or]

/-- Releasing a reference the call holds keeps the discipline, and the call holds the shard no
more. -/
theorem Disciplined.unref {effects : List Effect} {shard : Nat} (disciplined : Disciplined effects)
    (held : holding effects shard) :
    Disciplined (effects ++ [.unref shard]) ∧
      ∀ other, holding (effects ++ [.unref shard]) other ↔ other ≠ shard ∧ holding effects other := by
  have counts : ∀ other,
      (effects ++ [Effect.unref shard]).count (.ref other) = effects.count (.ref other) ∧
      (effects ++ [Effect.unref shard]).count (.unref other) =
        effects.count (.unref other) + (if other = shard then 1 else 0) :=
    fun other => by by_cases same : other = shard <;> simp [List.count_append, same, Ne.symm]
  have unbalanced : effects.count (.unref shard) < effects.count (.ref shard) := held
  refine ⟨⟨disciplined.stepwise.snoc held, fun other => ?_, fun other => ?_⟩, fun other => ?_⟩ <;>
    simp only [holding, (counts other).1, (counts other).2] <;>
    have released := disciplined.released other <;> have alternate := disciplined.alternate other <;>
    by_cases same : other = shard
  all_goals first
    | (subst same; simp only [if_true, ne_eq, not_true_eq_false, false_and, iff_false]; omega)
    | (simp only [same, if_false, Nat.add_zero, ne_eq, not_false_eq_true, true_and]; omega)
    | simp only [same, if_false, Nat.add_zero, ne_eq, not_false_eq_true, true_and]

/-- A call that comes to hold a shard took a reference on it. -/
theorem ref_mem_of_holding {effects new : List Effect} {shard : Nat}
    (free : ¬holding effects shard) (held : holding (effects ++ new) shard) : .ref shard ∈ new := by
  unfold holding at free held
  rw [List.count_append, List.count_append] at held
  by_contra absent
  rw [List.count_eq_zero_of_not_mem absent] at held
  omega

/-- Effects that neither take, release nor write keep the discipline and what is held. -/
theorem Disciplined.quietAll {effects new : List Effect} (disciplined : Disciplined effects)
    (quiet : ∀ effect ∈ new, ∀ shard records, effect ≠ .ref shard ∧ effect ≠ .unref shard ∧
      effect ≠ .commit records) :
    Disciplined (effects ++ new) ∧ ∀ shard, holding (effects ++ new) shard ↔ holding effects shard := by
  induction new generalizing effects with
  | nil => simpa using disciplined
  | cons effect new ih =>
    obtain ⟨first, same⟩ := disciplined.quiet (quiet effect (.head _))
    obtain ⟨all, sameAll⟩ := ih first fun other mem => quiet other (.tail _ mem)
    have shape : effects ++ effect :: new = (effects ++ [effect]) ++ new := by simp
    exact ⟨shape ▸ all, fun shard => by rw [shape, sameAll, same]⟩

/-- Releasing every shard of a list of distinct held shards keeps the discipline, and the call
holds none of them after. -/
theorem Disciplined.unrefAll {effects : List Effect} {shards : List Nat}
    (disciplined : Disciplined effects) (held : ∀ shard ∈ shards, holding effects shard)
    (distinct : shards.Nodup) :
    Disciplined (effects ++ shards.map .unref) ∧
      ∀ other, holding (effects ++ shards.map .unref) other ↔
        other ∉ shards ∧ holding effects other := by
  induction shards generalizing effects with
  | nil => simpa using disciplined
  | cons shard shards ih =>
    simp only [List.mem_cons, forall_eq_or_imp] at held
    obtain ⟨first, released⟩ := disciplined.unref held.1
    have rest : ∀ other ∈ shards, holding (effects ++ [.unref shard]) other := fun other mem =>
      (released other).mpr ⟨fun same => (List.nodup_cons.mp distinct).1 (same ▸ mem), held.2 other mem⟩
    obtain ⟨all, releasedAll⟩ := ih first rest (List.nodup_cons.mp distinct).2
    have shape : effects ++ (shard :: shards).map .unref =
        (effects ++ [.unref shard]) ++ shards.map .unref := by simp
    refine ⟨shape ▸ all, fun other => ?_⟩
    rw [shape, releasedAll, released, List.mem_cons, not_or]
    tauto

end Crocks.Server
