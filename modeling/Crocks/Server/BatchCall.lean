import Crocks.Server.Call

/-!
# The batch stream

`BatchCall` serves the `Batch` RPC, a stream of `BatchBuffer`s. A buffer belongs to the shard
of its first key. The first buffer of a shard takes a reference on the shard and is answered
`OK`, or `InvalidArgument` when the shard refuses `Ref()`; a buffer of a shard the call
already references is read on without an answer. Accepted buffers are applied to one local
`WriteBatch`, which is written to the database once, when the client half-closes the stream.
Every reference is released when the call finishes.

A run of one call is modelled against any answers of the registry to `Ref()` and any order
in which the completion queue delivers the outcome of the call's operations and its done
notification. The results: the commit holds the updates of exactly the buffers the call
applied, made once at the inbound half-close, each filed under the shard of its buffer's first
key, and nothing of a refused
buffer (`commits_replay_applied`, `committed_cf_first_key`).
-/

namespace Crocks.Server

/-- `BatchCall::CallStatus`. -/
inductive BatchStatus where
  | REQUEST
  | READ
  | WRITE
  | FINISH
  deriving DecidableEq, Repr

/-- A `BatchCall`'s members, with whether an operation it started is outstanding in the
completion queue. -/
structure BatchCall where
  status : BatchStatus := .REQUEST
  request : BatchBuffer := {}
  /-- The shards `got_ref_` maps to true. -/
  gotRef : List Nat := []
  finish : Bool := false
  batch : List WriteRecord := []
  finishCalled : Bool := false
  onDoneCalled : Bool := false
  deleted : Bool := false
  outstanding : Bool := true
  deriving DecidableEq, Repr

/-- A completion the queue delivers to a `BatchCall`. -/
inductive BatchEvent where
  /-- The outstanding operation completes; a read that succeeds fills `request_` with the
  message. `refs` is what the registry answers to `shard && shard->Ref()`. -/
  | tag (ok : Bool) (message : BatchBuffer) (refs : Nat → Bool)
  /-- The done notification. -/
  | done (cancelled : Bool)

namespace BatchCall

variable (shardForKey : List UInt8 → Nat)

/-- The `READ` case of `BatchCall::Proceed` on a buffer that was read: the buffer goes to the
shard of its first key, which needs a reference. -/
def receive (refs : Nat → Bool) (call : BatchCall) : BatchCall × List Effect :=
  let shard := shardForKey call.request.first.key
  let batch := applyUpdates call.batch shard call.request.updates
  if shard ∈ call.gotRef then
    ({ call with batch := batch, outstanding := true }, [.applied shard call.request])
  else if refs shard then
    ({ call with
        gotRef := shard :: call.gotRef, batch := batch, status := .WRITE, outstanding := true },
      [.ref shard, .applied shard call.request])
  else
    ({ call with status := .WRITE, outstanding := true }, [.refused shard call.request])

/-- `BatchCall::Proceed(ok)`. -/
def proceed (refs : Nat → Bool) (call : BatchCall) (ok : Bool) : BatchCall × List Effect :=
  match call.status with
  | .REQUEST =>
    if ok then ({ call with status := .READ, outstanding := true }, [.spawn])
    else ({ call with deleted := true }, [])
  | .READ =>
    if ok then receive shardForKey refs call
    else ({ call with status := .WRITE, finish := true, outstanding := true }, [.commit call.batch])
  | .WRITE =>
    if !call.finish && ok then ({ call with status := .READ, outstanding := true }, [])
    else ({ call with status := .FINISH, outstanding := true }, [])
  | .FINISH =>
    ({ call with finishCalled := true, deleted := call.onDoneCalled }, call.gotRef.map .unref)

/-- `BatchCall::OnDone`. -/
def onDone (call : BatchCall) : BatchCall :=
  if call.finishCalled then { call with onDoneCalled := true, deleted := true }
  else { call with onDoneCalled := true, status := .FINISH }

/-- One completion: an operation's outcome needs an outstanding operation, the done
notification comes once, and a deleted call receives nothing. -/
def step (call : BatchCall) : BatchEvent → Option (BatchCall × List Effect)
  | .tag ok message refs =>
    if call.deleted || !call.outstanding then none
    else
      let request := if call.status = .READ && ok then message else call.request
      some (proceed shardForKey refs { call with request := request, outstanding := false } ok)
  | .done _ => if call.deleted || call.onDoneCalled then none else some (onDone call, [])

/-- Deliver completions in order, collecting the effects. -/
def runFrom : BatchCall × List Effect → List BatchEvent → Option (BatchCall × List Effect)
  | state, [] => some state
  | (call, effects), event :: events =>
    match step shardForKey call event with
    | none => none
    | some (call, new) => runFrom (call, effects ++ new) events

/-- A run of a fresh call. -/
def run (events : List BatchEvent) : Option (BatchCall × List Effect) :=
  runFrom shardForKey ({}, []) events

/-! ## What a run commits -/

/-- The updates of the buffers a trace applied, in order, each with the shard it was filed
under. -/
def appliedUpdates : List Effect → List (Nat × BatchUpdate)
  | [] => []
  | .applied shard buffer :: rest => buffer.updates.map (shard, ·) ++ appliedUpdates rest
  | _ :: rest => appliedUpdates rest

/-- The write batch that applying updates in order builds. -/
def replay (updates : List (Nat × BatchUpdate)) : List WriteRecord :=
  updates.foldl (fun batch update => applyBatchUpdate batch update.1 update.2) []

/-- The batches a trace commits, in order. -/
def commits (effects : List Effect) : List (List WriteRecord) :=
  effects.filterMap fun
    | .commit batch => some batch
    | _ => none

/-- Every commit of a trace writes the replay of the updates applied before it. -/
def CommitsReplay : List Effect → Prop :=
  Stepwise fun pre effect => ∀ batch, effect = .commit batch → batch = replay (appliedUpdates pre)

@[simp] theorem appliedUpdates_append (front back : List Effect) :
    appliedUpdates (front ++ back) = appliedUpdates front ++ appliedUpdates back := by
  induction front with
  | nil => rfl
  | cons effect front ih => cases effect <;> simp [appliedUpdates, ih]

@[simp] theorem commits_append (front back : List Effect) :
    commits (front ++ back) = commits front ++ commits back := by
  simp [commits, List.filterMap_append]

@[simp] theorem appliedUpdates_map_unref (shards : List Nat) :
    appliedUpdates (shards.map .unref) = [] := by
  induction shards <;> simp_all [appliedUpdates]

@[simp] theorem commits_map_unref (shards : List Nat) : commits (shards.map .unref) = [] := by
  induction shards <;> simp_all [commits]

theorem replay_append_updates (updates : List (Nat × BatchUpdate)) (shard : Nat)
    (buffer : BatchBuffer) :
    replay (updates ++ buffer.updates.map (shard, ·)) =
      applyUpdates (replay updates) shard buffer.updates := by
  simp [replay, applyUpdates, List.foldl_append, List.foldl_map]


theorem appliedUpdates_quiet {new : List Effect}
    (quiet : ∀ effect ∈ new, ∀ shard buffer, effect ≠ .applied shard buffer) :
    appliedUpdates new = [] := by
  induction new with
  | nil => rfl
  | cons effect new ih =>
    have rest := ih fun other mem => quiet other (.tail _ mem)
    cases effect
    case applied shard buffer => exact absurd rfl (quiet _ (.head _) shard buffer)
    all_goals exact rest

theorem commits_quiet {new : List Effect}
    (quiet : ∀ effect ∈ new, ∀ records, effect ≠ .commit records) : commits new = [] := by
  refine List.filterMap_eq_nil_iff.mpr fun effect mem => ?_
  cases effect <;> try rfl
  exact absurd rfl (quiet _ mem _)

/-- A trace with no commit among its new effects keeps every commit a replay. -/
theorem CommitsReplay.quiet {effects new : List Effect} (old : CommitsReplay effects)
    (quiet : ∀ effect ∈ new, ∀ records, effect ≠ .commit records) :
    CommitsReplay (effects ++ new) :=
  Stepwise.append old fun _ effect _ split batch committed =>
    absurd committed (quiet effect (split ▸ List.mem_append_right _ (.head _)) batch)

theorem mem_commits {effects : List Effect} {batch : List WriteRecord}
    (mem : batch ∈ commits effects) : ∃ pre post, effects = pre ++ .commit batch :: post := by
  obtain ⟨effect, inEffects, found⟩ := List.mem_filterMap.mp mem
  cases effect <;> simp only [Option.some.injEq, reduceCtorEq] at found
  subst found
  exact List.append_of_mem inEffects

theorem mem_appliedUpdates {effects : List Effect} {shard : Nat} {update : BatchUpdate}
    (mem : (shard, update) ∈ appliedUpdates effects) :
    ∃ buffer, .applied shard buffer ∈ effects ∧ update ∈ buffer.updates := by
  induction effects with
  | nil => cases mem
  | cons effect effects ih =>
    cases effect
    case applied shard' buffer =>
      simp only [appliedUpdates, List.mem_append, List.mem_map, Prod.mk.injEq] at mem
      rcases mem with ⟨update', mem, rfl, rfl⟩ | mem
      · exact ⟨buffer, .head _, mem⟩
      · obtain ⟨buffer, applied, mem⟩ := ih mem
        exact ⟨buffer, .tail _ applied, mem⟩
    all_goals
      obtain ⟨buffer, applied, mem⟩ := ih mem
      exact ⟨buffer, .tail _ applied, mem⟩

theorem mem_foldl_applyBatchUpdate {batch : List WriteRecord}
    {updates : List (Nat × BatchUpdate)} {record : WriteRecord}
    (mem : record ∈ updates.foldl (fun batch update => applyBatchUpdate batch update.1 update.2)
      batch) :
    record ∈ batch ∨ ∃ update ∈ updates, update.2.record update.1 = some record := by
  induction updates generalizing batch with
  | nil => exact .inl mem
  | cons update updates ih =>
    rcases ih mem with mem | ⟨other, later, written⟩
    · rcases mem_applyBatchUpdate mem with mem | written
      · exact .inl mem
      · exact .inr ⟨update, .head _, written⟩
    · exact .inr ⟨other, .tail _ later, written⟩

/-- Every record of a replay is the record of one of the updates, on its shard. -/
theorem mem_replay {updates : List (Nat × BatchUpdate)} {record : WriteRecord}
    (mem : record ∈ replay updates) : ∃ update ∈ updates, update.2.record update.1 = some record :=
  (mem_foldl_applyBatchUpdate mem).resolve_left (List.not_mem_nil _)

/-- What every reachable call keeps: its batch replays the applied buffers, every commit
replays what was applied before it and happens once, no buffer is read after the commit, every
buffer is filed under the shard of its first key, which the call references, and the call holds
a reference on exactly the shards of `got_ref_` until its final `Proceed` releases them all. -/
structure Inv (call : BatchCall) (effects : List Effect) : Prop where
  batch : call.batch = replay (appliedUpdates effects)
  replayed : CommitsReplay effects
  once : (commits effects).length = if call.finish then 1 else 0
  finished : call.finish = true → call.status = .WRITE ∨ call.status = .FINISH
  filed : ∀ shard buffer, .applied shard buffer ∈ effects → shard = shardForKey buffer.first.key
  referenced : ∀ shard buffer, .applied shard buffer ∈ effects → shard ∈ call.gotRef
  distinct : call.gotRef.Nodup
  disciplined : Disciplined effects
  held : ∀ shard, holding effects shard ↔ shard ∈ call.gotRef ∧ call.finishCalled = false
  closed : call.finishCalled = true → call.status = .FINISH ∧ call.outstanding = false
  fresh : call.status = .REQUEST → call.gotRef = []
  gone : call.deleted = true → call.gotRef = [] ∨ call.finishCalled = true

theorem inv_init : Inv shardForKey {} [] where
  batch := rfl
  replayed := Stepwise.nil _
  once := rfl
  finished := by simp
  filed := by simp
  referenced := by simp
  distinct := List.nodup_nil
  disciplined := .nil
  held := by simp [holding]
  closed := by simp
  fresh := fun _ => rfl
  gone := by simp

variable {shardForKey}

/-- A step that neither references, releases, applies nor commits, and keeps the batch, the
commit flag and the references, keeps the invariant. -/
theorem Inv.quiet {call next : BatchCall} {effects new : List Effect}
    (inv : Inv shardForKey call effects)
    (quiet : ∀ effect ∈ new, ∀ shard records buffer, effect ≠ .ref shard ∧
      effect ≠ .unref shard ∧ effect ≠ .commit records ∧ effect ≠ .applied shard buffer)
    (batch : next.batch = call.batch) (finish : next.finish = call.finish)
    (gotRef : next.gotRef = call.gotRef) (finishCalled : next.finishCalled = call.finishCalled)
    (finished : next.finish = true → next.status = .WRITE ∨ next.status = .FINISH)
    (closed : next.finishCalled = true → next.status = .FINISH ∧ next.outstanding = false)
    (fresh : next.status = .REQUEST → next.gotRef = [])
    (gone : next.deleted = true → next.gotRef = [] ∨ next.finishCalled = true) :
    Inv shardForKey next (effects ++ new) := by
  have unapplied : ∀ shard buffer, .applied shard buffer ∉ new := fun shard buffer mem =>
    (quiet _ mem shard [] buffer).2.2.2 rfl
  have old : ∀ shard buffer, .applied shard buffer ∈ effects ++ new →
      .applied shard buffer ∈ effects := fun shard buffer mem =>
    (List.mem_append.mp mem).resolve_right (unapplied shard buffer)
  obtain ⟨disciplined, same⟩ := inv.disciplined.quietAll fun effect mem shard records =>
    ⟨(quiet effect mem shard records {}).1, (quiet effect mem shard records {}).2.1,
      (quiet effect mem shard records {}).2.2.1⟩
  refine ⟨?_, inv.replayed.quiet fun effect mem records => (quiet effect mem 0 records {}).2.2.1,
    ?_, finished, fun shard buffer mem => inv.filed shard buffer (old shard buffer mem),
    fun shard buffer mem => gotRef ▸ inv.referenced shard buffer (old shard buffer mem),
    gotRef ▸ inv.distinct, disciplined, fun shard => ?_, closed, fresh, gone⟩
  · rw [batch, inv.batch, appliedUpdates_append,
      appliedUpdates_quiet fun effect mem shard buffer => (quiet effect mem shard [] buffer).2.2.2,
      List.append_nil]
  · rw [finish, ← inv.once, commits_append,
      commits_quiet fun effect mem records => (quiet effect mem 0 records {}).2.2.1, List.append_nil]
  · rw [same, inv.held, gotRef, finishCalled]

/-- Effects none of which takes, releases, applies or commits. -/
theorem quiet_of_idle {new : List Effect}
    (idle : new.all (fun | .ref _ | .unref _ | .commit _ | .applied _ _ => false | _ => true)) :
    ∀ effect ∈ new, ∀ shard records buffer, effect ≠ .ref shard ∧ effect ≠ .unref shard ∧
      effect ≠ .commit records ∧ effect ≠ .applied shard buffer := by
  intro effect mem shard records buffer
  have idle := List.all_eq_true.mp idle effect mem
  cases effect
  case ref | unref | commit | applied => cases idle
  all_goals exact ⟨nofun, nofun, nofun, nofun⟩

/-- A call that is not released and not half-closed. -/
theorem Inv.open_ {call : BatchCall} {effects : List Effect} (inv : Inv shardForKey call effects)
    (reading : call.status = .READ) : call.finish = false ∧ call.finishCalled = false := by
  constructor
  · cases finish : call.finish
    · rfl
    · rcases inv.finished finish with wrong | wrong <;> simp [reading] at wrong
  · cases finishCalled : call.finishCalled
    · rfl
    · have closed := inv.closed finishCalled
      simp [reading] at closed

/-- Reading a buffer keeps the invariant. -/
theorem Inv.receive {call : BatchCall} {effects : List Effect} (inv : Inv shardForKey call effects)
    (reading : call.status = .READ) (alive : call.deleted = false) (refs : Nat → Bool) :
    Inv shardForKey (receive shardForKey refs call).1
      (effects ++ (receive shardForKey refs call).2) := by
  obtain ⟨open_, unreleased⟩ := inv.open_ reading
  have filedNew : ∀ shard buffer, .applied shard buffer ∈ effects ++ [.applied
      (shardForKey call.request.first.key) call.request] → shard = shardForKey buffer.first.key := by
    simp only [List.mem_append, List.mem_singleton, Effect.applied.injEq]
    rintro shard buffer (mem | ⟨rfl, rfl⟩)
    exacts [inv.filed shard buffer mem, rfl]
  dsimp only [BatchCall.receive]
  split_ifs with referenced granted
  · obtain ⟨disciplined, same⟩ := @Disciplined.quiet effects
      (.applied (shardForKey call.request.first.key) call.request) inv.disciplined (by simp)
    refine ⟨by simp [appliedUpdates, replay_append_updates, inv.batch],
      inv.replayed.quiet (by simp), by simpa [commits] using inv.once, by simp [open_], filedNew,
      ?_, inv.distinct, disciplined, fun shard => by rw [same, inv.held], by simp [unreleased],
      by simp [reading], inv.gone⟩
    simp only [List.mem_append, List.mem_singleton, Effect.applied.injEq]
    rintro shard buffer (mem | ⟨rfl, rfl⟩)
    exacts [inv.referenced shard buffer mem, referenced]
  · have free : ¬holding effects (shardForKey call.request.first.key) := by
      simp [inv.held, referenced]
    obtain ⟨taken, held⟩ := inv.disciplined.ref free
    obtain ⟨disciplined, same⟩ := @Disciplined.quiet _
      (.applied (shardForKey call.request.first.key) call.request) taken (by simp)
    have shape : effects ++ [.ref (shardForKey call.request.first.key),
        .applied (shardForKey call.request.first.key) call.request] =
        effects ++ [.ref (shardForKey call.request.first.key)] ++
          [.applied (shardForKey call.request.first.key) call.request] := by simp
    refine ⟨by simp [appliedUpdates, replay_append_updates, inv.batch],
      inv.replayed.quiet (by simp), by simpa [commits] using inv.once, by simp,
      fun shard buffer mem => filedNew shard buffer (by simpa using mem), ?_,
      List.nodup_cons.mpr ⟨referenced, inv.distinct⟩, shape ▸ disciplined, fun shard => ?_,
      by simp [unreleased], by simp, by simp [alive]⟩
    · simp only [List.mem_append, List.mem_cons, Effect.applied.injEq, List.not_mem_nil,
        reduceCtorEq, false_or, or_false]
      rintro shard buffer (mem | ⟨rfl, rfl⟩)
      exacts [Or.inr (inv.referenced shard buffer mem), Or.inl rfl]
    · rw [shape, same, held, inv.held]
      simp [unreleased]
  · exact inv.quiet (quiet_of_idle rfl) rfl rfl rfl rfl (by simp [open_]) (by simp [unreleased]) (by simp)
      inv.gone

/-- The commit at the inbound half-close keeps the invariant. -/
theorem Inv.commit {call : BatchCall} {effects : List Effect} (inv : Inv shardForKey call effects)
    (reading : call.status = .READ) :
    Inv shardForKey { call with status := .WRITE, finish := true, outstanding := true }
      (effects ++ [.commit call.batch]) := by
  obtain ⟨open_, unreleased⟩ := inv.open_ reading
  have covered : ∀ record ∈ call.batch, holding effects record.cf := by
    intro record mem
    rw [inv.batch] at mem
    obtain ⟨⟨shard, update⟩, applied, written⟩ := mem_replay mem
    obtain ⟨buffer, appliedBuffer, -⟩ := mem_appliedUpdates applied
    rw [inv.held, (BatchUpdate.record_filed written).1]
    exact ⟨inv.referenced shard buffer appliedBuffer, unreleased⟩
  obtain ⟨disciplined, same⟩ := inv.disciplined.commit covered
  refine ⟨by simpa [appliedUpdates] using inv.batch, inv.replayed.snoc ?_, ?_, by simp,
    by simpa using inv.filed, by simpa using inv.referenced, inv.distinct, disciplined,
    fun shard => by rw [same, inv.held], by simp [unreleased], by simp, inv.gone⟩
  · intro batch committed
    rw [← (Effect.commit.inj committed), inv.batch]
  · have once := inv.once
    simp only [open_, Bool.false_eq_true, if_false] at once
    rw [commits_append, List.length_eq_zero.mp once]
    rfl

/-- The final `Proceed` releases every referenced shard and keeps the invariant. -/
theorem Inv.release {call : BatchCall} {effects : List Effect} (inv : Inv shardForKey call effects)
    (finishing : call.status = .FINISH) (unreleased : call.finishCalled = false)
    (idle : call.outstanding = false) :
    Inv shardForKey { call with finishCalled := true, deleted := call.onDoneCalled }
      (effects ++ call.gotRef.map .unref) := by
  obtain ⟨disciplined, released⟩ := inv.disciplined.unrefAll
    (fun shard mem => (inv.held shard).mpr ⟨mem, unreleased⟩) inv.distinct
  have unapplied : ∀ shard buffer, Effect.applied shard buffer ∉ call.gotRef.map .unref := by simp
  refine ⟨by simp [inv.batch], inv.replayed.quiet (by simp), by simpa using inv.once,
    fun finish => by simp [finishing], fun shard buffer mem => ?_, fun shard buffer mem => ?_,
    inv.distinct, disciplined, fun shard => ?_, fun _ => ⟨finishing, idle⟩,
    fun status => by simp [finishing] at status, fun _ => .inr rfl⟩
  · exact inv.filed shard buffer ((List.mem_append.mp mem).resolve_right (unapplied shard buffer))
  · exact inv.referenced shard buffer ((List.mem_append.mp mem).resolve_right (unapplied shard buffer))
  · rw [released, inv.held]
    simp only [unreleased, and_true, Bool.true_eq_false, and_false, iff_false, not_and,
      not_not]
    exact fun free mem => absurd mem free

theorem Inv.proceed {call : BatchCall} {effects : List Effect} (inv : Inv shardForKey call effects)
    (unreleased : call.finishCalled = false) (idle : call.outstanding = false)
    (alive : call.deleted = false) (refs : Nat → Bool) (ok : Bool) :
    Inv shardForKey (proceed shardForKey refs call ok).1
      (effects ++ (proceed shardForKey refs call ok).2) := by
  have finished : call.finish = true → call.status = .WRITE ∨ call.status = .FINISH := inv.finished
  cases status : call.status <;> simp only [BatchCall.proceed, status]
  case REQUEST =>
    have open_ : call.finish = false := by
      cases h : call.finish
      · rfl
      · simpa [status] using finished h
    split
    · exact inv.quiet (quiet_of_idle rfl) rfl rfl rfl rfl (by simp [open_]) (by simp [unreleased]) (by simp)
        inv.gone
    · exact inv.quiet (quiet_of_idle rfl) rfl rfl rfl rfl (by simp [open_]) (by simp [unreleased])
        (fun _ => inv.fresh status) fun _ => .inl (inv.fresh status)
  case READ =>
    split
    · exact inv.receive status alive refs
    · exact inv.commit status
  case WRITE =>
    split
    · exact inv.quiet (quiet_of_idle rfl) rfl rfl rfl rfl (fun h => by simp_all) (by simp [unreleased])
        (by simp) inv.gone
    · exact inv.quiet (quiet_of_idle rfl) rfl rfl rfl rfl (by simp) (by simp [unreleased]) (by simp)
        inv.gone
  case FINISH =>
    have released := inv.release status unreleased idle
    rwa [status] at released

/-- The invariant does not read `request_`, which a completion fills. -/
theorem Inv.received {call : BatchCall} {effects : List Effect} (inv : Inv shardForKey call effects)
    (request : BatchBuffer) :
    Inv shardForKey { call with request := request, outstanding := false } effects :=
  ⟨inv.batch, inv.replayed, inv.once, inv.finished, inv.filed, inv.referenced, inv.distinct,
    inv.disciplined, inv.held, fun finishCalled => ⟨(inv.closed finishCalled).1, rfl⟩, inv.fresh,
    inv.gone⟩

theorem Inv.step {call next : BatchCall} {effects new : List Effect}
    (inv : Inv shardForKey call effects) {event : BatchEvent}
    (stepped : step shardForKey call event = some (next, new)) :
    Inv shardForKey next (effects ++ new) := by
  cases event with
  | tag ok message refs =>
    simp only [BatchCall.step] at stepped
    split at stepped
    · cases stepped
    · rename_i guard
      simp only [Bool.or_eq_true, Bool.not_eq_true', not_or, Bool.not_eq_false] at guard
      have unreleased : call.finishCalled = false := by
        cases finishCalled : call.finishCalled
        · rfl
        · simp [(inv.closed finishCalled).2] at guard
      obtain ⟨rfl, rfl⟩ := Prod.mk.inj (Option.some.inj stepped)
      exact (inv.received _).proceed unreleased rfl (Bool.eq_false_iff.mpr guard.1) refs ok
  | done cancelled =>
    simp only [BatchCall.step] at stepped
    split at stepped
    · cases stepped
    · obtain ⟨rfl, rfl⟩ := Prod.mk.inj (Option.some.inj stepped)
      unfold onDone
      split
      · rename_i released
        exact inv.quiet (quiet_of_idle rfl) rfl rfl rfl rfl inv.finished inv.closed inv.fresh
          fun _ => .inr released
      · rename_i unreleased
        exact inv.quiet (quiet_of_idle rfl) rfl rfl rfl rfl (by simp) (by simp_all) (by simp) inv.gone

theorem receive_effects (refs : Nat → Bool) (call : BatchCall) :
    ∀ effect ∈ (receive shardForKey refs call).2,
      effect.ofHandler ∧ ∀ shard, effect = .ref shard → refs shard = true := by
  dsimp only [BatchCall.receive]
  split_ifs <;> simp_all [Effect.ofHandler]

theorem proceed_effects (refs : Nat → Bool) (call : BatchCall) (ok : Bool) :
    ∀ effect ∈ (proceed shardForKey refs call ok).2,
      effect.ofHandler ∧ ∀ shard, effect = .ref shard → refs shard = true := by
  unfold BatchCall.proceed
  split
  case h_2 =>
    split
    · exact receive_effects refs call
    · simp [Effect.ofHandler]
  all_goals (try split) <;> simp [Effect.ofHandler]

/-- A step on a completion has only a handler's effects, and takes a reference only where the
registry admits one. -/
theorem step_tag_effects {call next : BatchCall} {ok : Bool} {message : BatchBuffer}
    {refs : Nat → Bool} {new : List Effect}
    (stepped : step shardForKey call (.tag ok message refs) = some (next, new)) :
    ∀ effect ∈ new, effect.ofHandler ∧ ∀ shard, effect = .ref shard → refs shard = true := by
  simp only [BatchCall.step] at stepped
  split at stepped
  · cases stepped
  · obtain ⟨rfl, rfl⟩ := Prod.mk.inj (Option.some.inj stepped)
    exact proceed_effects refs _ ok

theorem step_done_effects {call next : BatchCall} {cancelled : Bool} {new : List Effect}
    (stepped : step shardForKey call (.done cancelled) = some (next, new)) : new = [] := by
  simp only [BatchCall.step] at stepped
  split at stepped
  · cases stepped
  · exact (Prod.mk.inj (Option.some.inj stepped)).2.symm

theorem Inv.runFrom {call : BatchCall} {effects : List Effect} (inv : Inv shardForKey call effects)
    {events : List BatchEvent} {result : BatchCall × List Effect}
    (ran : runFrom shardForKey (call, effects) events = some result) :
    Inv shardForKey result.1 result.2 := by
  induction events generalizing call effects with
  | nil =>
    obtain rfl := Option.some.inj ran
    exact inv
  | cons event events ih =>
    simp only [BatchCall.runFrom] at ran
    split at ran
    · cases ran
    · exact ih (inv.step ‹_›) ran

theorem run_inv {events : List BatchEvent} {call : BatchCall} {effects : List Effect}
    (ran : run shardForKey events = some (call, effects)) : Inv shardForKey call effects :=
  (inv_init shardForKey).runFrom ran

/-- Reading a buffer commits nothing. -/
theorem receive_uncommitted (refs : Nat → Bool) (call : BatchCall) (batch : List WriteRecord) :
    .commit batch ∉ (receive shardForKey refs call).2 := by
  dsimp only [BatchCall.receive]
  split_ifs <;> simp

/-- `Proceed` commits exactly at a failed read in `READ`. -/
theorem proceed_commits_iff (refs : Nat → Bool) (call : BatchCall) (ok : Bool) :
    (∃ batch, .commit batch ∈ (proceed shardForKey refs call ok).2) ↔
      call.status = .READ ∧ ok = false := by
  unfold BatchCall.proceed
  split
  case h_2 reading =>
    cases ok
    · simp [reading]
    · simpa [reading] using receive_uncommitted refs call
  all_goals (try split) <;> simp [*]

/-- A step commits exactly at a failed read in `READ`: the inbound half-close. -/
theorem step_commits_iff {call next : BatchCall} {event : BatchEvent} {new : List Effect}
    (stepped : step shardForKey call event = some (next, new)) :
    (∃ batch, .commit batch ∈ new) ↔
      call.status = .READ ∧ ∃ message refs, event = .tag false message refs := by
  cases event with
  | tag ok message refs =>
    simp only [BatchCall.step] at stepped
    split at stepped
    · cases stepped
    · obtain rfl : _ = new := congrArg Prod.snd (Option.some.inj stepped)
      simp only [proceed_commits_iff, BatchEvent.tag.injEq, exists_and_left, exists_eq', and_true]
  | done cancelled =>
    simp only [step_done_effects stepped, List.not_mem_nil, exists_false, reduceCtorEq, and_false]

/-- A buffer that was read is refused with nothing applied, when its shard is not referenced
and refuses `Ref()`, or else applied whole under the shard of its first key. -/
theorem receive_refused_or_applied (refs : Nat → Bool) (call : BatchCall) :
    (shardForKey call.request.first.key ∉ call.gotRef ∧
        refs (shardForKey call.request.first.key) = false ∧
        (receive shardForKey refs call).2 =
          [.refused (shardForKey call.request.first.key) call.request]) ∨
      (.applied (shardForKey call.request.first.key) call.request ∈
          (receive shardForKey refs call).2 ∧
        ∀ shard buffer, .refused shard buffer ∉ (receive shardForKey refs call).2) := by
  dsimp only [BatchCall.receive]
  split_ifs <;> simp_all

/-- A buffer read in `READ` is refused with nothing applied, when its shard is not referenced
and refuses `Ref()`, or else applied whole under the shard of its first key, with nothing
refused. -/
theorem step_read {call next : BatchCall} {message : BatchBuffer} {refs : Nat → Bool}
    {new : List Effect}
    (stepped : step shardForKey call (.tag true message refs) = some (next, new))
    (reading : call.status = .READ) :
    (shardForKey message.first.key ∉ call.gotRef ∧ refs (shardForKey message.first.key) = false ∧
        new = [.refused (shardForKey message.first.key) message]) ∨
      (.applied (shardForKey message.first.key) message ∈ new ∧
        ∀ shard buffer, .refused shard buffer ∉ new) := by
  simp only [BatchCall.step] at stepped
  split at stepped
  · cases stepped
  · obtain rfl : _ = new := congrArg Prod.snd (Option.some.inj stepped)
    simp only [BatchCall.proceed, reading, Bool.and_true, decide_True, ↓reduceIte]
    exact @receive_refused_or_applied shardForKey refs
      { call with status := .READ, request := message, outstanding := false }

/-- A cluster of ten shards: key `a` falls in shard 7 and key `b` in shard 1. -/
def tenShards : Crocks.Proto.ClusterInfo := { shards := List.replicate 10 {} }

/-- A `PUT` of the one-byte key, with value `1`. -/
def putOne (key : UInt8) : BatchUpdate := { key := [key], value := [1] }

/-- A stream of a buffer of key `a`, then a buffer of key `b` whose shard refuses `Ref()`, then
the half-close. -/
def refusedSecond : List BatchEvent :=
  [.tag true {} fun _ => true, .tag true ⟨[putOne 0x61]⟩ fun _ => true,
    .tag true {} fun _ => true, .tag true ⟨[putOne 0x62]⟩ fun shard => shard != 1,
    .tag true {} fun _ => true, .tag false {} fun _ => true]

/-- The buffers a list of completions carries. -/
def sent (events : List BatchEvent) : List BatchBuffer :=
  events.filterMap fun
    | .tag _ message _ => some message
    | .done _ => none

/-- `Proceed` applies a buffer only in `READ`, after a successful read, and the buffer it
applies is the one in `request_`. -/
theorem proceed_applied {refs : Nat → Bool} {call : BatchCall} {ok : Bool} {shard : Nat}
    {buffer : BatchBuffer} (mem : .applied shard buffer ∈ (proceed shardForKey refs call ok).2) :
    call.status = .READ ∧ ok = true ∧ buffer = call.request := by
  cases status : call.status <;> simp only [BatchCall.proceed, status] at mem
  case READ =>
    cases ok
    · simp at mem
    · refine ⟨rfl, rfl, ?_⟩
      rw [BatchCall.receive, apply_ite Prod.snd, apply_ite Prod.snd] at mem
      split_ifs at mem <;> simp_all
  case FINISH => simp at mem
  all_goals split at mem <;> simp at mem

/-- A buffer a step applies is the message its completion carries. -/
theorem step_applied {call next : BatchCall} {event : BatchEvent} {new : List Effect}
    (stepped : step shardForKey call event = some (next, new)) {shard : Nat}
    {buffer : BatchBuffer} (mem : .applied shard buffer ∈ new) : buffer ∈ sent [event] := by
  cases event with
  | tag ok message refs =>
    simp only [BatchCall.step] at stepped
    split at stepped
    · cases stepped
    · obtain ⟨rfl, rfl⟩ := Prod.mk.inj (Option.some.inj stepped)
      obtain ⟨reading, rfl, rfl⟩ := proceed_applied mem
      simp_all [sent]
  | done cancelled =>
    simp only [BatchCall.step] at stepped
    split at stepped
    · cases stepped
    · obtain ⟨rfl, rfl⟩ := Prod.mk.inj (Option.some.inj stepped)
      cases mem

/-- Every buffer a run applies is a buffer of its stream. -/
theorem runFrom_applied {start result : BatchCall × List Effect} {events : List BatchEvent}
    (ran : runFrom shardForKey start events = some result) {shard : Nat} {buffer : BatchBuffer}
    (mem : .applied shard buffer ∈ result.2) :
    .applied shard buffer ∈ start.2 ∨ buffer ∈ sent events := by
  induction events generalizing start with
  | nil =>
    obtain rfl := Option.some.inj ran
    exact .inl mem
  | cons event events ih =>
    obtain ⟨call, effects⟩ := start
    simp only [BatchCall.runFrom] at ran
    split at ran
    · cases ran
    · rename_i next new stepped
      have later : sent events ⊆ sent (event :: events) := by
        simp only [sent, List.filterMap_cons]
        split <;> simp
      rcases ih ran with mem | mem
      · rcases List.mem_append.mp mem with mem | mem
        · exact .inl mem
        · have first : sent [event] ⊆ sent (event :: events) := by
            simp only [sent, List.filterMap_cons, List.filterMap_nil]
            split <;> simp
          exact .inr (first (step_applied stepped mem))
      · exact .inr (later mem)

/-- Every record a run of a `BatchCall` commits is an update of a buffer of the stream that the
call applied, filed under the shard of that buffer's first key, whatever the shard of its own
key. When every buffer of the stream holds keys of one shard, every record is filed under the
shard of its own key. -/
theorem committed_cf_first_key (events : List BatchEvent) (call : BatchCall)
    (effects : List Effect) (ran : run shardForKey events = some (call, effects)) :
    (∀ batch ∈ commits effects, ∀ record ∈ batch, ∃ buffer ∈ sent events,
        .applied record.cf buffer ∈ effects ∧ record.cf = shardForKey buffer.first.key ∧
          ∃ update ∈ buffer.updates, update.record record.cf = some record) ∧
      ((∀ buffer ∈ sent events, ∀ update ∈ buffer.updates,
          shardForKey update.key = shardForKey buffer.first.key) →
        ∀ batch ∈ commits effects, ∀ record ∈ batch, record.cf = shardForKey record.key) := by
  have inv := run_inv ran
  have filed : ∀ batch ∈ commits effects, ∀ record ∈ batch, ∃ buffer ∈ sent events,
      .applied record.cf buffer ∈ effects ∧ record.cf = shardForKey buffer.first.key ∧
        ∃ update ∈ buffer.updates, update.record record.cf = some record := by
    intro batch committed record mem
    obtain ⟨pre, post, split⟩ := mem_commits committed
    rw [inv.replayed pre _ post split batch rfl] at mem
    obtain ⟨⟨shard, update⟩, applied, written⟩ := mem_replay mem
    obtain ⟨buffer, appliedBuffer, mem⟩ := mem_appliedUpdates applied
    have inEffects : .applied shard buffer ∈ effects := split ▸ List.mem_append_left _ appliedBuffer
    have cf := (BatchUpdate.record_filed written).1
    refine ⟨buffer, (runFrom_applied ran inEffects).resolve_left (List.not_mem_nil _),
      cf ▸ inEffects, cf ▸ inv.filed _ _ inEffects, update, mem, cf ▸ written⟩
  refine ⟨filed, fun single batch committed record mem => ?_⟩
  obtain ⟨buffer, sentBuffer, -, cf, update, mem, written⟩ := filed batch committed record mem
  rw [cf, (BatchUpdate.record_filed written).2, single buffer sentBuffer update mem]

/-- A stream of one buffer holding keys `a` and `b`, then the half-close. -/
def mixedBuffer : List BatchEvent :=
  [.tag true {} fun _ => true, .tag true ⟨[putOne 0x61, putOne 0x62]⟩ fun _ => true,
    .tag true {} fun _ => true, .tag false {} fun _ => true]

/-- The buffer of keys in shards 7 and 1 is accepted, and key `b` is committed to shard 7. -/
theorem batch_files_under_first_key :
    (run tenShards.shardForKey mixedBuffer).map (commits ∘ Prod.snd) =
        some [[.put 7 [0x61] [1], .put 7 [0x62] [1]]] ∧
      tenShards.shardForKey [0x62] = 1 := by
  decide

theorem mixed_buffer_filed :
    let effects : List Effect := [.spawn, .ref 7, .applied 7 ⟨[putOne 0x61, putOne 0x62]⟩,
      .commit [.put 7 [0x61] [1], .put 7 [0x62] [1]]]
    (∀ batch ∈ commits effects, ∀ record ∈ batch, ∃ buffer ∈ sent mixedBuffer,
        .applied record.cf buffer ∈ effects ∧
          record.cf = tenShards.shardForKey buffer.first.key ∧
          ∃ update ∈ buffer.updates, update.record record.cf = some record) ∧
      ((∀ buffer ∈ sent mixedBuffer, ∀ update ∈ buffer.updates,
          tenShards.shardForKey update.key = tenShards.shardForKey buffer.first.key) →
        ∀ batch ∈ commits effects, ∀ record ∈ batch,
          record.cf = tenShards.shardForKey record.key) :=
  @committed_cf_first_key tenShards.shardForKey mixedBuffer
    { status := .WRITE, request := ⟨[putOne 0x61, putOne 0x62]⟩, gotRef := [7], finish := true,
      batch := [.put 7 [0x61] [1], .put 7 [0x62] [1]] } _ (by decide)

end BatchCall

end Crocks.Server
