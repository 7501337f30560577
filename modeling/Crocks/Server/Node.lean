import Crocks.Server.BatchCall
import Crocks.Server.WriteCall
import Crocks.Server.MigrateCall

/-!
# A node and its calls

A node runs its write handlers (`PutCall`, `DeleteCall`, `BatchCall`) on worker threads and
its `MigrateCall`s on the one thread of the migrate queue, over one shard registry. A step of
the node is a step of one call: a completion, a worker carrying on inside `Proceed`, or the
migrate thread returning from `WaitRefs`. Worker steps interleave in any order; the migrate
thread runs one call at a time and, while it is blocked in `WaitRefs`, no other migrate call
runs. Each call's effects go to the registry and to the node's history, tagged with the call.
-/

namespace Crocks.Server

/-- A write handler of the node. -/
inductive Handler where
  | put (call : WriteCall KeyValue)
  | delete (call : WriteCall Key)
  | batch (call : BatchCall)
  deriving DecidableEq, Repr

/-- A completion for a write handler, or its worker carrying on. -/
inductive HandlerEvent where
  | put (event : WriteEvent KeyValue)
  | delete (event : WriteEvent Key)
  | batchTag (ok : Bool) (message : BatchBuffer)
  | batchDone (cancelled : Bool)

namespace Handler

variable (shardForKey : List UInt8 → Nat)

/-- The handler's step, with `admits` the registry's answer to `shard && shard->Ref()`. -/
def step (admits : Nat → Bool) : Handler → HandlerEvent → Option (Handler × List Effect)
  | .put call, .put event =>
    (PutCall.step shardForKey admits call event).map fun result => (.put result.1, result.2)
  | .delete call, .delete event =>
    (DeleteCall.step shardForKey admits call event).map fun result => (.delete result.1, result.2)
  | .batch call, .batchTag ok message =>
    (BatchCall.step shardForKey call (.tag ok message admits)).map fun result =>
      (.batch result.1, result.2)
  | .batch call, .batchDone cancelled =>
    (BatchCall.step shardForKey call (.done cancelled)).map fun result =>
      (.batch result.1, result.2)
  | _, _ => none

/-- `new XCall(data_)`: a fresh handler of the same type. -/
def fresh : Handler → Handler
  | .put _ => .put {}
  | .delete _ => .delete {}
  | .batch _ => .batch {}

/-- Whether the handler holds a reference on the shard. -/
def holds : Handler → Nat → Bool
  | .put call, shard => call.holds shard
  | .delete call, shard => call.holds shard
  | .batch call, shard => decide (shard ∈ call.gotRef) && !call.finishCalled

/-- Whether the handler deleted itself. -/
def deleted : Handler → Bool
  | .put call => call.deleted
  | .delete call => call.deleted
  | .batch call => call.deleted

/-- The invariant of each kind of handler over its own trace. -/
def Inv : Handler → List Effect → Prop
  | .put call, effects => call.Inv effects
  | .delete call, effects => call.Inv effects
  | .batch call, effects => BatchCall.Inv shardForKey call effects

variable {shardForKey}

theorem inv_fresh (handler : Handler) : Inv shardForKey handler.fresh [] := by
  cases handler
  · exact WriteCall.inv_init
  · exact WriteCall.inv_init
  · exact BatchCall.inv_init shardForKey

@[simp] theorem fresh_holds (handler : Handler) (shard : Nat) : handler.fresh.holds shard = false := by
  cases handler <;> rfl

/-- A handler's step is its call's step: `PutCall`, `DeleteCall`, or `BatchCall` on a completion
that carries the registry's answers. -/
theorem step_some {handler next : Handler} {new : List Effect} {admits : Nat → Bool}
    {event : HandlerEvent} (stepped : handler.step shardForKey admits event = some (next, new)) :
    (∃ call call' event', handler = .put call ∧ next = .put call' ∧
      PutCall.step shardForKey admits call event' = some (call', new)) ∨
    (∃ call call' event', handler = .delete call ∧ next = .delete call' ∧
      DeleteCall.step shardForKey admits call event' = some (call', new)) ∨
    (∃ call call' ok message, handler = .batch call ∧ next = .batch call' ∧
      BatchCall.step shardForKey call (.tag ok message admits) = some (call', new)) ∨
    (∃ call call' cancelled, handler = .batch call ∧ next = .batch call' ∧
      BatchCall.step shardForKey call (.done cancelled) = some (call', new)) := by
  cases handler <;> cases event <;>
    simp only [Handler.step, Option.map_eq_some', reduceCtorEq, false_and, exists_false] at stepped
  all_goals
    obtain ⟨⟨call', new'⟩, stepped, equal⟩ := stepped
    obtain ⟨rfl, rfl⟩ := Prod.mk.inj equal
  · exact .inl ⟨_, _, _, rfl, rfl, stepped⟩
  · exact .inr (.inl ⟨_, _, _, rfl, rfl, stepped⟩)
  · exact .inr (.inr (.inl ⟨_, _, _, _, rfl, rfl, stepped⟩))
  · exact .inr (.inr (.inr ⟨_, _, _, rfl, rfl, stepped⟩))

theorem Inv.step {handler next : Handler} {effects new : List Effect} {admits : Nat → Bool}
    {event : HandlerEvent} (inv : Inv shardForKey handler effects)
    (stepped : handler.step shardForKey admits event = some (next, new)) :
    Inv shardForKey next (effects ++ new) := by
  rcases step_some stepped with ⟨call, call', event', rfl, rfl, called⟩ |
    ⟨call, call', event', rfl, rfl, called⟩ | ⟨call, call', ok, message, rfl, rfl, called⟩ |
    ⟨call, call', cancelled, rfl, rfl, called⟩
  · exact WriteCall.Inv.step (fun _ _ => WriteRecord.cf.eq_1 ..) inv called
  · exact WriteCall.Inv.step (fun _ _ => WriteRecord.cf.eq_2 ..) inv called
  · exact BatchCall.Inv.step inv called
  · exact BatchCall.Inv.step inv called

theorem Inv.held {handler : Handler} {effects : List Effect} (inv : Inv shardForKey handler effects)
    (shard : Nat) : holding effects shard ↔ handler.holds shard = true := by
  cases handler
  · exact WriteCall.Inv.held inv shard
  · exact WriteCall.Inv.held inv shard
  · simpa [Handler.holds] using BatchCall.Inv.held inv shard

theorem Inv.disciplined {handler : Handler} {effects : List Effect}
    (inv : Inv shardForKey handler effects) : Disciplined effects := by
  cases handler
  · exact WriteCall.Inv.disciplined inv
  · exact WriteCall.Inv.disciplined inv
  · exact BatchCall.Inv.disciplined inv

/-- A handler that deleted itself holds no reference. -/
theorem Inv.gone {handler : Handler} {effects : List Effect} (inv : Inv shardForKey handler effects)
    (deleted : handler.deleted = true) (shard : Nat) : handler.holds shard = false := by
  cases handler
  · simp [Handler.holds, WriteCall.holds, WriteCall.Inv.gone inv deleted]
  · simp [Handler.holds, WriteCall.holds, WriteCall.Inv.gone inv deleted]
  · rcases BatchCall.Inv.gone inv deleted with empty | released <;> simp [Handler.holds, *]

/-- A handler's step has only a handler's effects, and takes a reference only where the registry
admits one. -/
theorem step_effects {handler next : Handler} {new : List Effect} {admits : Nat → Bool}
    {event : HandlerEvent} (stepped : handler.step shardForKey admits event = some (next, new)) :
    ∀ effect ∈ new, effect.ofHandler ∧ ∀ shard, effect = .ref shard → admits shard = true := by
  rcases step_some stepped with ⟨call, call', event', -, -, stepped⟩ |
    ⟨call, call', event', -, -, stepped⟩ | ⟨call, call', ok, message, -, -, stepped⟩ |
    ⟨call, call', cancelled, -, -, stepped⟩
  · exact WriteCall.step_effects stepped
  · exact WriteCall.step_effects stepped
  · exact BatchCall.step_tag_effects stepped
  · simp [BatchCall.step_done_effects stepped]

end Handler

/-- Who performed an effect: a handler or a migrate call, by its index. -/
inductive Caller where
  | handler (index : Nat)
  | migrate (index : Nat)
  deriving DecidableEq, Repr

/-- A step of a node: one call's completion or continuation. -/
inductive NodeEvent where
  | handler (index : Nat) (event : HandlerEvent)
  | migrate (index : Nat) (event : MigrateEvent)

/-- A node: its registry, its calls, whether it still serves, and what its calls did. -/
structure Node where
  shards : Shards
  handlers : List Handler := [.put {}, .delete {}, .batch {}]
  migrates : List MigrateCall := [{}]
  running : Bool := true
  history : List (Caller × Effect) := []
  deriving DecidableEq, Repr

/-- What one caller did, in order. -/
def trace (history : List (Caller × Effect)) (caller : Caller) : List Effect :=
  history.filterMap fun entry => if entry.1 = caller then some entry.2 else none

namespace Node

variable (shardForKey : List UInt8 → Nat)

/-- `WaitRefs` may return: no handler holds a reference on the shard. -/
def quiescent (node : Node) (shard : Nat) : Bool :=
  node.handlers.all fun handler => !handler.holds shard

/-- The migrate thread is blocked in `WaitRefs` inside another call's `Proceed`. -/
def blocked (node : Node) (index : Nat) : Bool :=
  (List.range node.migrates.length).any fun other =>
    other != index && (node.migrates[other]?).any (·.status = .WAIT_REFS)

/-- Record one effect: the registry takes it, `leaveIfEmpty` stops a node whose registry is
empty, and the history keeps it. -/
def perform (caller : Caller) (node : Node) (effect : Effect) : Node :=
  { node with
    shards := node.shards.apply effect
    running := node.running && !(effect == .leaveIfEmpty && node.shards.empty)
    history := node.history ++ [(caller, effect)] }

/-- Record a step's effects in order. -/
def performAll (caller : Caller) (node : Node) (effects : List Effect) : Node :=
  effects.foldl (perform caller) node

/-- One step of the node, or `none` when the call cannot take it. -/
def step (node : Node) : NodeEvent → Option Node
  | .handler index event =>
    if node.running then
      match node.handlers[index]? with
      | none => none
      | some handler =>
        match handler.step shardForKey node.shards.admits event with
        | none => none
        | some (next, new) =>
          some (performAll (.handler index)
            { node with
              handlers := node.handlers.set index next ++
                if Effect.spawn ∈ new then [next.fresh] else [] }
            new)
    else none
  | .migrate index event =>
    if node.running && !node.blocked index then
      match node.migrates[index]? with
      | none => none
      | some call =>
        match MigrateCall.step node.shards.«at» node.quiescent call event with
        | none => none
        | some (next, new) =>
          some (performAll (.migrate index)
            { node with
              migrates := node.migrates.set index next ++
                if Effect.spawn ∈ new then [{}] else [] }
            new)
    else none

/-- Run the node through steps in order. -/
def run (node : Node) : List NodeEvent → Option Node
  | [] => some node
  | event :: events =>
    match step shardForKey node event with
    | none => none
    | some node => run node events

/-! ## What a step of the node does -/

@[simp] theorem performAll_handlers (caller : Caller) (node : Node) (new : List Effect) :
    (performAll caller node new).handlers = node.handlers := by
  induction new generalizing node with
  | nil => rfl
  | cons effect new ih => exact ih (perform caller node effect)

@[simp] theorem performAll_migrates (caller : Caller) (node : Node) (new : List Effect) :
    (performAll caller node new).migrates = node.migrates := by
  induction new generalizing node with
  | nil => rfl
  | cons effect new ih => exact ih (perform caller node effect)

@[simp] theorem performAll_history (caller : Caller) (node : Node) (new : List Effect) :
    (performAll caller node new).history = node.history ++ new.map (caller, ·) := by
  induction new generalizing node with
  | nil => exact (List.append_nil _).symm
  | cons effect new ih =>
    rw [show performAll caller node (effect :: new) =
      performAll caller (perform caller node effect) new from rfl, ih]
    simp only [perform, List.map_cons, List.append_assoc, List.singleton_append]

theorem performAll_shards (caller : Caller) (node : Node) (new : List Effect) :
    (performAll caller node new).shards = new.foldl Shards.apply node.shards := by
  induction new generalizing node with
  | nil => rfl
  | cons effect new ih => exact ih (perform caller node effect)

/-- A handler's effects leave the registry as it was. -/
theorem performAll_shards_of_handler {caller : Caller} {node : Node} {new : List Effect}
    (handler : ∀ effect ∈ new, effect.ofHandler) : (performAll caller node new).shards = node.shards := by
  rw [performAll_shards]
  induction new with
  | nil => rfl
  | cons effect new ih =>
    have kept : node.shards.apply effect = node.shards := by
      have own := handler effect (.head _)
      cases effect <;> first | rfl | cases own
    rw [List.foldl_cons, kept, ih fun other mem => handler other (.tail _ mem)]

/-- A step of a handler: the handler moves on and perhaps spawns a fresh one, and its effects go
to the history; the registry and the migrate calls stay as they were. -/
theorem step_handler {node next : Node} {index : Nat} {event : HandlerEvent}
    (stepped : step shardForKey node (.handler index event) = some next) :
    ∃ handler handler' new, node.handlers[index]? = some handler ∧
      handler.step shardForKey node.shards.admits event = some (handler', new) ∧
      next.handlers = node.handlers.set index handler' ++
        (if Effect.spawn ∈ new then [handler'.fresh] else []) ∧
      next.history = node.history ++ new.map (.handler index, ·) ∧
      next.shards = node.shards ∧ next.migrates = node.migrates := by
  simp only [step] at stepped
  split at stepped
  · split at stepped
    · cases stepped
    · rename_i handler found
      split at stepped
      · cases stepped
      · rename_i handler' new moved
        obtain rfl := Option.some.inj stepped
        exact ⟨handler, handler', new, found, moved, by simp, by simp,
          performAll_shards_of_handler fun effect mem => (Handler.step_effects moved effect mem).1,
          by simp⟩
  · cases stepped

/-- A step of a migrate call, when no other is blocked in `WaitRefs`: the call moves on and
perhaps spawns a fresh one, its effects go to the registry and to the history, and the handlers
stay as they were. -/
theorem step_migrate {node next : Node} {index : Nat} {event : MigrateEvent}
    (stepped : step shardForKey node (.migrate index event) = some next) :
    node.blocked index = false ∧ ∃ call call' new, node.migrates[index]? = some call ∧
      MigrateCall.step node.shards.«at» node.quiescent call event = some (call', new) ∧
      next.migrates = node.migrates.set index call' ++
        (if Effect.spawn ∈ new then [({} : MigrateCall)] else []) ∧
      next.history = node.history ++ new.map (.migrate index, ·) ∧
      next.shards = new.foldl Shards.apply node.shards ∧ next.handlers = node.handlers := by
  simp only [step] at stepped
  split at stepped
  · rename_i guard
    simp only [Bool.and_eq_true, Bool.not_eq_true'] at guard
    refine ⟨guard.2, ?_⟩
    split at stepped
    · cases stepped
    · rename_i call found
      split at stepped
      · cases stepped
      · rename_i call' new moved
        obtain rfl := Option.some.inj stepped
        exact ⟨call, call', new, found, moved, by simp, by simp, performAll_shards .., by simp⟩
  · cases stepped

/-- What the node's calls are after one of them moved on and perhaps spawned: the call that
moved, one of the others, or a spawned one. -/
theorem getElem?_set_append {α : Type} {calls extra : List α} {index other : Nat} {moved found : α}
    (small : index < calls.length) (at_ : (calls.set index moved ++ extra)[other]? = some found) :
    (other = index ∧ found = moved) ∨ (other ≠ index ∧ calls[other]? = some found) ∨
      (calls.length ≤ other ∧ found ∈ extra) := by
  by_cases inside : other < calls.length
  · rw [List.getElem?_append_left (by simpa using inside), List.getElem?_set] at at_
    by_cases same : index = other
    · subst same
      simp only [if_true, small, Option.some.injEq] at at_
      exact .inl ⟨rfl, at_.symm⟩
    · simp only [same, if_false] at at_
      exact .inr (.inl ⟨Ne.symm same, at_⟩)
  · rw [List.getElem?_append_right (by simpa using inside)] at at_
    exact .inr (.inr ⟨Nat.le_of_not_lt inside, List.getElem?_mem at_⟩)

theorem quiescent_iff {node : Node} {shard : Nat} :
    node.quiescent shard = true ↔
      ∀ (index : Nat) (handler : Handler), node.handlers[index]? = some handler →
        handler.holds shard = false := by
  simp only [quiescent, List.all_eq_true, Bool.not_eq_true', List.mem_iff_getElem?]
  exact ⟨fun quiet index handler found => quiet handler ⟨index, found⟩,
    fun quiet handler ⟨index, found⟩ => quiet index handler found⟩

/-- No migrate call but the stepping one is blocked in `WaitRefs`. -/
theorem waiting_of_blocked {node : Node} {index other : Nat} {call : MigrateCall}
    (free : node.blocked index = false) (found : node.migrates[other]? = some call)
    (waiting : call.status = .WAIT_REFS) : other = index := by
  by_contra different
  have small : other < node.migrates.length := (List.getElem?_eq_some_iff.mp found).1
  simp only [blocked, List.any_eq_false, List.mem_range] at free
  have := free other small
  simp_all

end Node

@[simp] theorem trace_nil (caller : Caller) : trace [] caller = [] := rfl

@[simp] theorem trace_append (history more : List (Caller × Effect)) (caller : Caller) :
    trace (history ++ more) caller = trace history caller ++ trace more caller :=
  List.filterMap_append ..

/-- What a caller did, of one caller's effects. -/
@[simp] theorem trace_map (new : List Effect) (caller other : Caller) :
    trace (new.map (caller, ·)) other = if other = caller then new else [] := by
  by_cases same : other = caller
  · subst same
    simp [trace, List.filterMap_map, Function.comp_def]
  · simp [trace, List.filterMap_map, Function.comp_def, same, Ne.symm same]

end Crocks.Server
