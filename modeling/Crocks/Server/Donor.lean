import Crocks.Server.Node

/-! # The donor stops writes to a shard before it ships it

`MigrateCall` calls `Unref(true)` on the shard it gives away, after which `Ref()` fails, and
waits in `WaitRefs` for the references of the handlers in flight before `DumpShard` takes the
snapshot the recipient ingests. When `Unref(true)` returns false an earlier call drained the
shard already and `WaitRefs` is skipped: that call waited, and no reference was taken since.

Over every interleaving of a node's steps from the node `AsyncServer::Run` starts, each handler
keeps the reference discipline and releases what it took, every dump follows the same call's
`Unref(true)` at a point where no handler holds the shard, and no handler commits a write to a
shard after its dump. The invariant `DonorInv` places each draining shard: no handler holds it,
or a migrate call waits on it in `WaitRefs`.
-/

namespace Crocks.Server

/-- Every dump of a shard comes after the same call's `Unref(true)` on it, at a point where no
handler holds a reference on the shard. -/
def DrainedBeforeDump (history : List (Caller × Effect)) : Prop :=
  Stepwise (fun pre entry => ∀ shard, entry.2 = .dump shard →
    (entry.1, .drain shard) ∈ pre ∧ ∀ index, ¬holding (trace pre (.handler index)) shard) history

/-- No handler commits a write to a shard's column family after the shard's dump. -/
def SealedAfterDump (history : List (Caller × Effect)) : Prop :=
  Stepwise (fun pre entry => ∀ records, entry.2 = .commit records →
    ∀ record ∈ records, ∀ caller, (caller, .dump record.cf) ∉ pre) history

/-- What a donor guarantees of its history: each handler keeps the reference discipline and has
released every reference it took once it is gone, and each shard is drained and quiet at its
dump and written no more after it. -/
structure DonorSafe (node : Node) : Prop where
  disciplined : ∀ index, Disciplined (trace node.history (.handler index))
  released : ∀ (index : Nat) (handler : Handler), node.handlers[index]? = some handler →
    handler.deleted = true →
    ∀ shard, (trace node.history (.handler index)).count (.unref shard) =
      (trace node.history (.handler index)).count (.ref shard)
  drained : DrainedBeforeDump node.history
  sealed : SealedAfterDump node.history

namespace Node

/-- A migrate call waits in `WaitRefs` on the shard, after an `Unref(true)` that returned
true. -/
def waitingOn (node : Node) (shard : Nat) : Prop :=
  ∃ (index : Nat) (call : MigrateCall), node.migrates[index]? = some call ∧
    call.status = .WAIT_REFS ∧
    call.retval = true ∧ call.request.shard = shard

variable (shardForKey : List UInt8 → Nat)

/-- Each handler keeps its own invariant over what it did, and a handler not yet created did
nothing. -/
structure HandlersInv (node : Node) : Prop where
  handlers : ∀ (index : Nat) (handler : Handler), node.handlers[index]? = some handler →
    handler.Inv shardForKey (trace node.history (.handler index))
  unborn : ∀ index, node.handlers.length ≤ index → trace node.history (.handler index) = []

/-- The donor's invariant. -/
structure DonorInv (node : Node) extends HandlersInv shardForKey node : Prop where
  /-- A draining shard is held by no handler, or a migrate call waits on it. -/
  settled : ∀ (shard : Nat) (handle : Shard), node.shards.«at» shard = some handle → handle.draining = true →
    node.quiescent shard = true ∨ node.waitingOn shard
  /-- A call in `WaitRefs` drained its shard, and no handler holds it if it was draining
  already. -/
  waiting : ∀ (index : Nat) (call : MigrateCall), node.migrates[index]? = some call →
    call.status = .WAIT_REFS →
    (∃ handle, node.shards.«at» call.request.shard = some handle ∧ handle.draining = true) ∧
    (call.retval = false → node.quiescent call.request.shard = true) ∧
    (.migrate index, .drain call.request.shard) ∈ node.history
  /-- A dumped shard takes no reference, and no handler holds it. -/
  dumps : ∀ (shard : Nat) (caller : Caller), (caller, Effect.dump shard) ∈ node.history →
    node.shards.admits shard = false ∧ node.quiescent shard = true
  drained : DrainedBeforeDump node.history
  sealed : SealedAfterDump node.history

variable {shardForKey}

theorem DonorInv.not_holding {node : Node} (inv : DonorInv shardForKey node) {shard : Nat}
    (quiet : node.quiescent shard = true) (index : Nat) :
    ¬holding (trace node.history (.handler index)) shard := by
  cases found : node.handlers[index]? with
  | none =>
    rw [inv.unborn index (List.getElem?_eq_none_iff.mp found)]
    simp [holding]
  | some handler =>
    rw [(inv.handlers index handler found).held, quiescent_iff.mp quiet index handler found]
    exact Bool.false_ne_true

/-- The handlers `AsyncServer::Run` creates are fresh. -/
theorem start_handlers_fresh :
    ∀ handler ∈ ({ shards := {} } : Node).handlers, handler.fresh = handler := by
  decide

/-- The handlers of the node `AsyncServer::Run` starts keep their invariant. -/
theorem handlersInv_start (shards : Shards) : HandlersInv shardForKey { shards } := by
  refine ⟨fun index handler found => ?_, fun _ _ => rfl⟩
  rw [← start_handlers_fresh handler (List.getElem?_mem found)]
  exact Handler.inv_fresh handler

/-- The node `AsyncServer::Run` starts: a call of each kind waits for a request, and the
migrate queue has one `MigrateCall`. -/
theorem donorInv_start (shards : Shards) : DonorInv shardForKey { shards } := by
  refine ⟨handlersInv_start shards, fun shard _ _ _ => .inl ?_,
    fun index call found waiting => ?_, fun _ _ absent => absurd absent (List.not_mem_nil _),
    Stepwise.nil _, Stepwise.nil _⟩
  · refine quiescent_iff.mpr fun index handler found => ?_
    rw [← start_handlers_fresh handler (List.getElem?_mem found)]
    exact Handler.fresh_holds handler shard
  · obtain rfl := List.mem_singleton.mp (List.getElem?_mem found)
    cases waiting

/-! ## A handler's step -/

section HandlerStep

variable {node next : Node} {index : Nat} {event : HandlerEvent}

/-- After a handler's step every handler keeps its invariant, and no handler yet to be created
did anything. -/
theorem HandlersInv.handler_step (inv : HandlersInv shardForKey node)
    (stepped : node.step shardForKey (.handler index event) = some next) :
    HandlersInv shardForKey next := by
  obtain ⟨handler, handler', new, found, moved, handlers, history, -, -⟩ :=
    step_handler shardForKey stepped
  have small := (List.getElem?_eq_some_iff.mp found).1
  refine ⟨fun other spawned at_ => ?_, fun other large => ?_⟩
  · rw [handlers] at at_
    simp only [history, trace_append, trace_map, Caller.handler.injEq]
    rcases getElem?_set_append small at_ with ⟨rfl, rfl⟩ | ⟨different, kept⟩ | ⟨large, fresh⟩
    · simpa using (inv.handlers _ handler found).step moved
    · simpa [different] using inv.handlers other spawned kept
    · have different : other ≠ index := by omega
      split at fresh
      · obtain rfl := List.mem_singleton.mp fresh
        simpa [different, inv.unborn other large] using Handler.inv_fresh handler'
      · cases fresh
  · simp only [handlers, List.length_append, List.length_set] at large
    have different : other ≠ index := by omega
    simp [history, different, inv.unborn other (by omega)]

/-- A handler's step makes no handler hold a shard the registry does not admit. -/
theorem DonorInv.quiescent_after (inv : DonorInv shardForKey node)
    (stepped : node.step shardForKey (.handler index event) = some next) (shard : Nat)
    (unadmitted : node.shards.admits shard = false) (quiet : node.quiescent shard = true) :
    next.quiescent shard = true := by
  obtain ⟨handler, handler', new, found, moved, handlers, -, -, -⟩ :=
    step_handler shardForKey stepped
  have small := (List.getElem?_eq_some_iff.mp found).1
  refine quiescent_iff.mpr fun other spawned at_ => ?_
  rw [handlers] at at_
  rcases getElem?_set_append small at_ with ⟨rfl, rfl⟩ | ⟨-, kept⟩ | ⟨-, fresh⟩
  · cases holds : spawned.holds shard
    · rfl
    · have now := (((inv.handlers other handler found).step moved).held shard).mpr holds
      have admitted :=
        (Handler.step_effects moved _ (ref_mem_of_holding (inv.not_holding quiet other) now)).2
          shard rfl
      simp [unadmitted] at admitted
  · exact quiescent_iff.mp quiet other spawned kept
  · split at fresh
    · rw [List.mem_singleton.mp fresh]
      exact Handler.fresh_holds _ _
    · cases fresh

/-- A handler commits to no dumped shard: it would have to hold it, and a dumped shard is held
by no handler and admits no reference. -/
theorem DonorInv.sealed_after (inv : DonorInv shardForKey node)
    (stepped : node.step shardForKey (.handler index event) = some next) :
    SealedAfterDump next.history := by
  obtain ⟨handler, handler', new, found, moved, -, history, -, -⟩ :=
    step_handler shardForKey stepped
  have own := Handler.step_effects moved
  rw [history]
  refine inv.sealed.map_append fun pre effect post split records committed record mem caller
    dumped => ?_
  simp only [List.mem_append, List.mem_map] at dumped
  rcases dumped with old | ⟨dump, mem', same⟩
  · obtain ⟨unadmitted, quiet⟩ := inv.dumps _ caller old
    have disciplined := ((inv.handlers index handler found).step moved).disciplined
    have held := disciplined.stepwise _ _ post (by rw [split, List.append_assoc])
    rw [show effect = .commit records from committed] at held
    have taken := ref_mem_of_holding (inv.not_holding quiet index) (held record mem)
    have admitted := (own _ (split ▸ List.mem_append_left _ taken)).2 _ rfl
    simp [unadmitted] at admitted
  · obtain ⟨-, rfl⟩ := Prod.mk.inj same
    exact Bool.false_ne_true (own (.dump record.cf) (split ▸ List.mem_append_left _ mem')).1

theorem DonorInv.handler_step (inv : DonorInv shardForKey node)
    (stepped : node.step shardForKey (.handler index event) = some next) :
    DonorInv shardForKey next := by
  have handlers := inv.toHandlersInv.handler_step stepped
  have quiet := inv.quiescent_after stepped
  have sealed := inv.sealed_after stepped
  obtain ⟨handler, handler', new, found, moved, -, history, shards, migrates⟩ :=
    step_handler shardForKey stepped
  have own := Handler.step_effects moved
  refine ⟨handlers, fun shard handle at_ draining => ?_,
    fun other call found' waiting => ?_, fun shard caller mem => ?_, ?_, sealed⟩
  · rw [shards] at at_
    rcases inv.settled shard handle at_ draining with idle | waited
    · exact .inl (quiet shard (by simp [Shards.admits, at_, draining]) idle)
    · exact .inr (by simpa [waitingOn, migrates] using waited)
  · rw [migrates] at found'
    obtain ⟨⟨handle, at_, draining⟩, idle, drained⟩ := inv.waiting other call found' waiting
    have unadmitted : node.shards.admits call.request.shard = false := by
      simp [Shards.admits, at_, draining]
    exact ⟨⟨handle, shards ▸ at_, draining⟩, fun retval => quiet _ unadmitted (idle retval),
      by simp [history, drained]⟩
  · rw [history] at mem
    simp only [List.mem_append, List.mem_map] at mem
    rcases mem with old | ⟨dump, mem', same⟩
    · obtain ⟨unadmitted, idle⟩ := inv.dumps shard caller old
      exact ⟨shards ▸ unadmitted, quiet shard unadmitted idle⟩
    · obtain ⟨-, rfl⟩ := Prod.mk.inj same
      exact (Bool.false_ne_true (own (.dump shard) mem').1).elim
  · rw [history]
    refine inv.drained.map_append fun pre effect post split shard dumped => ?_
    simp only at dumped
    subst dumped
    exact (Bool.false_ne_true (own (.dump shard) (split ▸ List.mem_append_right _ (.head _))).1).elim

end HandlerStep

/-! ## A migrate call's step -/

section MigrateStep

variable {node next : Node} {index : Nat} {call call' : MigrateCall} {event : MigrateEvent}
  {new : List Effect}

/-- While a migrate call steps, no other is in `WaitRefs`: the one waiting on a shard is the
stepping one. -/
theorem waitingOn_stepping (free : node.blocked index = false)
    (found : node.migrates[index]? = some call) {shard : Nat} (waiting : node.waitingOn shard) :
    call.status = .WAIT_REFS ∧ call.retval = true ∧ call.request.shard = shard := by
  obtain ⟨other, waiter, found', status, retval, request⟩ := waiting
  obtain rfl := waiting_of_blocked free found' status
  obtain rfl := Option.some.inj (found.symm.trans found')
  exact ⟨status, retval, request⟩

/-- A call returns from `WaitRefs` only when no handler holds its shard. -/
theorem DonorInv.quiet_of_resume (inv : DonorInv shardForKey node)
    (found : node.migrates[index]? = some call)
    (transition : MigrateCall.Transition node.shards.«at» node.quiescent call event call' new)
    (waiting : call.status = .WAIT_REFS) : node.quiescent call.request.shard = true := by
  have waited := (transition.resumes waiting).2.1
  cases retval : call.retval
  · exact (inv.waiting index call found waiting).2.1 retval
  · simpa [retval] using waited

/-- `Unref(true)` on a shard that is draining already finds no handler holding it: the call that
drained it waited. -/
theorem DonorInv.quiet_of_redrain (inv : DonorInv shardForKey node)
    (free : node.blocked index = false) (found : node.migrates[index]? = some call)
    (transition : MigrateCall.Transition node.shards.«at» node.quiescent call event call' new)
    (entered : call'.status = .WAIT_REFS) {handle : Shard}
    (at_ : node.shards.«at» call'.request.shard = some handle) (draining : handle.draining = true) :
    node.quiescent call'.request.shard = true := by
  rcases inv.settled _ handle at_ draining with idle | waited
  · exact idle
  · have resumed := (transition.resumes (waitingOn_stepping free found waited).1).1
    rw [entered] at resumed
    cases resumed

/-- A migrate call's step leaves the handlers and what they did as they were. -/
theorem HandlersInv.migrate_step (inv : HandlersInv shardForKey node)
    (stepped : node.step shardForKey (.migrate index event) = some next) :
    HandlersInv shardForKey next := by
  obtain ⟨-, -, -, new, -, -, -, history, -, handlers⟩ := step_migrate shardForKey stepped
  have traces : ∀ other, trace next.history (.handler other) = trace node.history (.handler other) :=
    fun other => by simp [history]
  exact ⟨fun other handler found => traces other ▸ inv.handlers other handler (handlers ▸ found),
    fun other large => traces other ▸ inv.unborn other (handlers ▸ large)⟩

theorem DonorInv.migrate_step (inv : DonorInv shardForKey node)
    (stepped : node.step shardForKey (.migrate index event) = some next) :
    DonorInv shardForKey next := by
  obtain ⟨free, call, call', new, found, moved, migrates, history, shards, handlers⟩ :=
    step_migrate shardForKey stepped
  have transition := MigrateCall.step_transition moved
  have small := (List.getElem?_eq_some_iff.mp found).1
  have quiet : ∀ shard, next.quiescent shard = node.quiescent shard := fun shard => by
    simp only [quiescent, handlers]
  refine {
    toHandlersInv := inv.toHandlersInv.migrate_step stepped
    settled := fun shard handle at_ draining => ?settled
    waiting := fun other waiter found' waiting => ?waiting
    dumps := fun shard caller mem => ?dumps
    drained := ?drained
    sealed := ?sealed }
  case settled =>
    rw [quiet]
    rw [shards] at at_
    rcases Shards.draining_of_foldl at_ draining with ⟨old, was, drained⟩ | mem
    · rcases inv.settled shard old was drained with idle | waited
      · exact .inl idle
      · obtain ⟨status, -, rfl⟩ := waitingOn_stepping free found waited
        exact .inl (inv.quiet_of_resume found transition status)
    · obtain ⟨handle', entered, at', retval, rfl⟩ := transition.waits (.inr ⟨shard, mem⟩)
      obtain rfl : shard = call'.request.shard := by simpa using mem
      cases drained : handle'.draining
      · exact .inr ⟨index, call', by simp [migrates, small], entered, by simp [retval, drained], rfl⟩
      · exact .inl (inv.quiet_of_redrain free found transition entered at' drained)
  case waiting =>
    rw [migrates] at found'
    rcases getElem?_set_append small found' with ⟨rfl, rfl⟩ | ⟨different, kept⟩ | ⟨-, fresh⟩
    · obtain ⟨handle, entered, at', retval, rfl⟩ := transition.waits (.inl waiting)
      refine ⟨⟨{ handle with draining := true }, ?_, rfl⟩, fun undrained => ?_, by simp [history]⟩
      · simp [shards, Shards.apply, at']
      · rw [quiet]
        exact inv.quiet_of_redrain free found transition entered at'
          (by simpa [undrained] using retval)
    · exact absurd (waiting_of_blocked free kept waiting) different
    · split at fresh
      · obtain rfl := List.mem_singleton.mp fresh
        cases waiting
      · cases fresh
  case dumps =>
    rw [history] at mem
    simp only [List.mem_append, List.mem_map] at mem
    rw [quiet]
    rcases mem with old | ⟨dump, mem', same⟩
    · obtain ⟨unadmitted, idle⟩ := inv.dumps shard caller old
      refine ⟨Bool.eq_false_iff.mpr fun admitted => ?_, idle⟩
      rw [shards] at admitted
      simp [Shards.admits_of_foldl admitted] at unadmitted
    · obtain ⟨-, rfl⟩ := Prod.mk.inj same
      obtain ⟨status, rfl⟩ := transition.dumps mem'
      obtain ⟨-, -, rfl⟩ := transition.resumes status
      obtain ⟨⟨handle, at_, draining⟩, -, -⟩ := inv.waiting index call found status
      exact ⟨by simp [shards, Shards.apply, Shards.admits, at_, draining],
        inv.quiet_of_resume found transition status⟩
  case drained =>
    rw [history]
    refine inv.drained.map_append fun pre effect post split shard dumped => ?_
    simp only at dumped
    subst dumped
    obtain ⟨status, rfl⟩ := transition.dumps (split ▸ List.mem_append_right _ (.head _))
    refine ⟨List.mem_append_left _ (inv.waiting index call found status).2.2, fun other => ?_⟩
    simpa using inv.not_holding (inv.quiet_of_resume found transition status) other
  case sealed =>
    rw [history]
    refine inv.sealed.map_append fun pre effect post split records committed => ?_
    simp only at committed
    subst committed
    exact absurd (split ▸ List.mem_append_right _ (.head _)) (transition.no_commit records)

end MigrateStep

theorem HandlersInv.step {node next : Node} (inv : HandlersInv shardForKey node)
    {event : NodeEvent} (stepped : node.step shardForKey event = some next) :
    HandlersInv shardForKey next := by
  cases event with
  | handler index event => exact inv.handler_step stepped
  | migrate index event => exact inv.migrate_step stepped

/-- Every handler, created or yet to be, keeps the reference discipline. -/
theorem HandlersInv.disciplined {node : Node} (inv : HandlersInv shardForKey node) (index : Nat) :
    Disciplined (trace node.history (.handler index)) := by
  cases found : node.handlers[index]? with
  | none =>
    rw [inv.unborn index (List.getElem?_eq_none_iff.mp found)]
    exact Disciplined.nil
  | some handler => exact (inv.handlers index handler found).disciplined

/-- A deleted handler has released every reference it took. -/
theorem HandlersInv.released {node : Node} (inv : HandlersInv shardForKey node) {index : Nat}
    {handler : Handler} (found : node.handlers[index]? = some handler)
    (deleted : handler.deleted = true) (shard : Nat) :
    (trace node.history (.handler index)).count (.unref shard) =
      (trace node.history (.handler index)).count (.ref shard) := by
  have free : ¬holding (trace node.history (.handler index)) shard := by
    rw [(inv.handlers index handler found).held, (inv.handlers index handler found).gone deleted]
    exact Bool.false_ne_true
  exact le_antisymm ((inv.disciplined index).released shard) (Nat.not_lt.mp free)

theorem DonorInv.step {node next : Node} (inv : DonorInv shardForKey node) {event : NodeEvent}
    (stepped : node.step shardForKey event = some next) : DonorInv shardForKey next := by
  cases event with
  | handler index event => exact inv.handler_step stepped
  | migrate index event => exact inv.migrate_step stepped

theorem DonorInv.run {node final : Node} (inv : DonorInv shardForKey node)
    {events : List NodeEvent} (ran : node.run shardForKey events = some final) :
    DonorInv shardForKey final := by
  induction events generalizing node with
  | nil => exact Option.some.inj ran ▸ inv
  | cons event events ih =>
    simp only [Node.run] at ran
    split at ran
    · cases ran
    · exact ih (inv.step ‹_›) ran

end Node

/-- Whatever the interleaving of the handlers' and the migrate calls' completions on a node
`AsyncServer::Run` started, every handler takes, holds and releases references by the
discipline, and has released all it took once it is gone; every dump of a shard follows the
same call's `Unref(true)` on it at a point where no handler holds the shard, also when
`Unref(true)` returned false and `WaitRefs` was skipped; and no handler commits a write to a
shard after its dump. -/
theorem donor_drains_before_dump (shardForKey : List UInt8 → Nat) (shards : Shards)
    (events : List NodeEvent) {node : Node}
    (ran : Node.run shardForKey { shards } events = some node) : DonorSafe node := by
  have inv := (Node.donorInv_start shards).run ran
  exact ⟨inv.disciplined, fun _ _ found deleted => inv.released found deleted, inv.drained,
    inv.sealed⟩

/-- A put on shard 0 takes its reference; the migrate call drains and gives shard 0; a second
put is refused; the first put writes and releases; then the shard is dumped. -/
def drainedPut : List NodeEvent :=
  [.handler 0 (.put (.tag true ⟨[1], [2]⟩)), .migrate 0 (.tag true {} false),
    .migrate 0 (.tag true {} false), .handler 3 (.put (.tag true ⟨[3], [4]⟩)),
    .handler 0 (.put .resume), .handler 0 (.put .resume), .migrate 0 .resume]

/-- The node after `drainedPut`, with every key in shard 0. -/
def drainedPutNode : Node :=
  (Node.run (fun _ => 0) { shards := ⟨[some {}]⟩ } drainedPut).getD { shards := {} }

theorem drained_put_safe :
    Node.run (fun _ => 0) { shards := ⟨[some {}]⟩ } drainedPut = some drainedPutNode ∧
      DonorSafe drainedPutNode :=
  ⟨by decide, donor_drains_before_dump (fun _ => 0) ⟨[some {}]⟩ drainedPut (by decide)⟩

end Crocks.Server
