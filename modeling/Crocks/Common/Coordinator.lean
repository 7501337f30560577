import Crocks.Common.Info

/-! # Compare-and-swap on the info key

Every change to the cluster state goes through one key of the coordinator. A mutating method of
`Info` reads the key into `info_`, applies its change, and writes the result with a
compare-and-swap against what it read, reading again on a lost race. A server calls these
methods on two threads over its one `info_`, and its watcher thread also parses the key's watch
events into that `info_` (`Info::WatchNext`); no lock spans the methods' steps.

A method runs here as a sequence of atomic steps (`Phase`) on one thread of its process, and a
watch event delivered is a step of its own, so the steps of any number of threads of any number
of processes interleave. The key holds a blob, and every blob written to it is a `Serialize()`:
the model keeps the state the blob serializes, and takes every node's address to be UTF-8, as
the `host:port` text of a server's flags is.
`Parse` of the blob then gives that state back (`parse_serialize`), and two blobs are equal
exactly when their states are (`serialize_injective`), so the compare-and-swap compares states.
-/

namespace Crocks

open Crocks.Proto

/-- How a method knows what the key held: `Get()` and then `info_.Serialize()`, or the raw blob
of `etcd_.Get`, which it parses into `info_`. -/
inductive Expected where
  | reserialized
  | raw
  deriving DecidableEq, Repr

/-- A mutating method of `Info`: where its expected value comes from, whether it returns at
once on what `info_` holds before its loop, its early return on what it read, and its change
to `info_`. -/
structure Mutation where
  expected : Expected
  checksFirst : Bool := false
  settled : ClusterInfo → Bool := fun _ => false
  change : ClusterInfo → ClusterInfo

namespace Mutation

/-- `Info::GiveShard(shard)`. -/
def giveShard (shard : Nat) : Mutation :=
  { expected := .reserialized, change := (·.giveShard shard) }

/-- `Info::MigrationOver(shard)`. -/
def migrationOver (shard : Nat) : Mutation :=
  { expected := .reserialized, change := (·.migrationOver shard) }

/-- `Info::SetAvailable(id, available)`, which returns when the node is marked so already. -/
def setAvailable (id : Nat) (available : Bool) : Mutation :=
  { expected := .reserialized, settled := (·.isAvailable id == available),
    change := (·.setAvailable id available) }

/-- `Info::Remove(id)`, `crocksctl`'s request that a node leave. -/
def markRemove (id : Nat) : Mutation :=
  { expected := .reserialized, change := (·.markRemoveNode id) }

/-- `Info::Remove()`, a node leaving. -/
def remove (id : Nat) : Mutation :=
  { expected := .reserialized, change := (·.removeNode id) }

/-- `Info::Run()`, which returns before its loop, and in it, when the cluster runs already or
a shard is migrating. -/
def run : Mutation :=
  { expected := .raw, checksFirst := true,
    settled := fun info => info.isRunning || !info.noMigrations, change := (·.setRunning) }

end Mutation

/-- Where a method is in its loop: about to read the key (and return if settled), to take
`old_info = info_.Serialize()`, to change `info_`, or to try the compare-and-swap. -/
inductive Phase where
  | read
  | serialize
  | change
  | swap
  deriving DecidableEq, Repr

/-- Two states at UTF-8 addresses serialize alike only if they are equal: comparing the key's
blob with `old_info` compares the states they serialize. -/
theorem serialize_injective {info other : ClusterInfo} (valid : info.utf8 = true)
    (valid' : other.utf8 = true) (same : info.serialize = other.serialize) : info = other :=
  Option.some.inj ((ClusterInfo.parse_serialize info valid).symm.trans
    (same ▸ ClusterInfo.parse_serialize other valid'))

/-- A method under way, with the state whose blob it expects. -/
structure Task where
  mutation : Mutation
  phase : Phase := .read
  expected : ClusterInfo := {}

/-- A process's `Info` object: `info_`, how many of the key's writes its watcher has parsed,
and the method each of its threads runs on `info_`, if any. A server runs them on two threads:
the thread of `AsyncServer::Run`, which serves the `MigrateCall`s that call `GiveShard`,
`SetAvailable` and `Remove`, and its `WatchThread`, which calls `MigrationOver` and
`SetAvailable`. -/
structure Process where
  info : ClusterInfo
  seen : Nat := 0
  tasks : List (Option Task) := [none]

/-- A write to the key: by which process and method, what the key held, and what it holds
after. -/
structure Write where
  process : Nat
  mutation : Mutation
  before : ClusterInfo
  after : ClusterInfo

/-- The coordinator's info key, every write to it in order, and the processes. -/
structure Coordination where
  key : ClusterInfo
  writes : List Write := []
  processes : List Process

/-- What happens next: a thread of a process starts a method or takes the next step of its
method, or the process's watcher parses the next write. -/
inductive Event where
  | call (process thread : Nat) (mutation : Mutation)
  | step (process thread : Nat)
  | watch (process : Nat)

namespace Coordination

/-- One step of a method; `none` when it ends, with the write it made if any. -/
def advance (key info : ClusterInfo) (task : Task) :
    ClusterInfo × Option Task × Option ClusterInfo :=
  match task.phase with
  | .read =>
    if task.mutation.settled key then (key, none, none)
    else match task.mutation.expected with
      | .reserialized => (key, some { task with phase := .serialize }, none)
      | .raw => (key, some { task with phase := .change, expected := key }, none)
  | .serialize => (info, some { task with phase := .change, expected := info }, none)
  | .change => (task.mutation.change info, some { task with phase := .swap }, none)
  | .swap =>
    if key = task.expected then (info, none, some info)
    else (info, some { task with phase := .read }, none)

/-- One event; `none` when it cannot happen: a call to a busy thread, a step of an idle one, or
a watch event not yet written. -/
def step (state : Coordination) : Event → Option Coordination
  | .call index thread mutation => do
    let process ← state.processes[index]?
    let running ← process.tasks[thread]?
    if running.isSome then none
    else if mutation.checksFirst && mutation.settled process.info then some state
    else some { state with
      processes := state.processes.set index
        { process with tasks := process.tasks.set thread (some { mutation }) } }
  | .step index thread => do
    let process ← state.processes[index]?
    let running ← process.tasks[thread]?
    let task ← running
    let (info, task', written) := advance state.key process.info task
    let state := { state with
      processes := state.processes.set index
        { process with info, tasks := process.tasks.set thread task' } }
    match written with
    | none => some state
    | some after =>
      some { state with
        key := after
        writes := state.writes ++ [⟨index, task.mutation, state.key, after⟩] }
  | .watch index => do
    let process ← state.processes[index]?
    let write ← state.writes[process.seen]?
    some { state with
      processes := state.processes.set index
        { process with info := write.after, seen := process.seen + 1 } }

/-- Run the events in order. -/
def run (state : Coordination) : List Event → Option Coordination
  | [] => some state
  | event :: events => (state.step event).bind (run · events)

end Coordination

/-- The history is sequential: every write is the serialization of its method's change applied
to exactly what the key held before it. -/
def Sequential (writes : List Write) : Prop :=
  ∀ write ∈ writes, write.after = write.mutation.change write.before

/-! ## A lagging watch event rolls back a write -/

/-- Two available nodes; shard 0 migrates from node 0 to node 1. -/
def migratingPair : ClusterInfo :=
  { state := 2, numNodes := 2, nodes := [{ available := true }, { id := 1, available := true }],
    shards := [{ migrating := true, «to» := 1 }, { master := 1 }] }

/-- Node 0, a server with its `Run` thread and its watcher thread, and two processes that set
node 1's availability, all with `migratingPair` in `info_`. -/
def lostUpdateStart : Coordination :=
  { key := migratingPair,
    processes := [{ info := migratingPair, tasks := [none, none] }, { info := migratingPair },
      { info := migratingPair }] }

/-- A client marks node 1 unavailable; node 1 marks itself available again; then node 0 gives
shard 0 away on its `Run` thread, and its watcher parses the first write between `Get` and
`info_.GiveShard`. -/
def lostUpdateEvents : List Event :=
  [.call 1 0 (.setAvailable 1 false), .step 1 0, .step 1 0, .step 1 0, .step 1 0,
    .call 2 0 (.setAvailable 1 true), .step 2 0, .step 2 0, .step 2 0, .step 2 0,
    .call 0 0 (.giveShard 0), .step 0 0, .step 0 0, .watch 0, .step 0 0, .step 0 0]

/-- The third write replaces what the key held (`migratingPair`, node 1 available) with shard 0
given away from the state of the first write, in which node 1 is unavailable: node 1's own
write is lost. -/
theorem lagging_watch_loses_update :
    (Coordination.run lostUpdateStart lostUpdateEvents).map
        (fun state => state.writes.map fun write => (write.process, write.before, write.after)) =
      some [(1, migratingPair, migratingPair.setAvailable 1 false),
        (2, migratingPair.setAvailable 1 false, migratingPair),
        (0, migratingPair, (migratingPair.setAvailable 1 false).giveShard 0)] ∧
      (migratingPair.setAvailable 1 false).giveShard 0 ≠ migratingPair.giveShard 0 := by
  decide

/-- The key after the writes' changes, applied in order from `key`. -/
def replay (key : ClusterInfo) (writes : List Write) : ClusterInfo :=
  writes.foldl (fun key write => write.mutation.change key) key

/-! ## Calm runs keep the history sequential

A method's `info_` is what it will write: after `old_info` is taken, `info_` must stay the state
`old_info` serializes, and after the change it must stay that state changed. The compare-and-swap
then writes the change of exactly what the key held. Two things write a process's `info_` besides
the method itself: a watch event, and another thread's method when it reads the key into
`info_` or changes it. Either one in the window breaks the method; one that comes before
`old_info` is taken does not, since `old_info` is taken from whatever `info_` then holds, and
reading `info_` to take another `old_info` or to write it leaves it as it is. -/

namespace Task

/-- Whether the method has taken `old_info` and not yet tried its swap. -/
def committing (task : Task) : Bool :=
  task.phase == .change || task.phase == .swap

/-- Whether the method's next step writes `info_`: reading the key into it, or changing it. -/
def writesInfo (task : Task) : Bool :=
  task.phase == .read || task.phase == .change

/-- A method's `info_` is `old_info`'s state until its change, and that state changed after it. -/
def Consistent (info : ClusterInfo) (task : Task) : Prop :=
  (task.phase = .change → info = task.expected) ∧
    (task.phase = .swap → info = task.mutation.change task.expected)

/-- A method outside its window is consistent with any `info_`. -/
theorem consistent_of_not_committing {task : Task} (idle : task.committing = false)
    (info : ClusterInfo) : task.Consistent info := by
  simp only [committing, Bool.or_eq_false_iff, beq_eq_false_iff_ne] at idle
  exact ⟨fun atChange => absurd atChange idle.1, fun atSwap => absurd atSwap idle.2⟩

end Task

/-- Whether a thread of the process other than `thread` is in its read-to-swap window. -/
def Process.committingBesides (process : Process) (thread : Nat) : Bool :=
  (process.tasks.set thread none).any fun running => running.any Task.committing

/-- Whether some thread of the process is in its read-to-swap window. -/
def Process.committing (process : Process) : Bool :=
  process.tasks.any fun running => running.any Task.committing

namespace Coordination

/-- The history so far is sequential and every running method is consistent with its process's
`info_`. -/
structure Consistent (state : Coordination) : Prop where
  sequential : Sequential state.writes
  tasks : ∀ process ∈ state.processes, ∀ task, some task ∈ process.tasks →
    task.Consistent process.info

/-- Whether an event writes no `info_` under a method in its window: a watch event reaches a
process none of whose threads is in its window, and a step that writes `info_` is taken while
no other thread of its process is in its window. -/
def calm (state : Coordination) : Event → Bool
  | .watch index => !(state.processes[index]?.any Process.committing)
  | .step index thread =>
    state.processes[index]?.all fun process =>
      (process.tasks[thread]?.all fun running => !(running.any Task.writesInfo)) ||
        !process.committingBesides thread
  | .call .. => true

/-- Whether every event of a run is calm in the state it reaches. -/
def calmRun (state : Coordination) : List Event → Bool
  | [] => true
  | event :: events =>
    state.calm event && match state.step event with
      | some next => calmRun next events
      | none => true

theorem consistent_of_idle {state : Coordination} (fresh : state.writes = [])
    (idle : ∀ process ∈ state.processes, ∀ running ∈ process.tasks, running = none) :
    state.Consistent :=
  ⟨by simp [fresh, Sequential], fun process mem _ running => by
    cases idle process mem _ running⟩

/-- A step of a consistent method leaves it consistent. -/
theorem advance_consistent {key info : ClusterInfo} {task next : Task}
    (consistent : task.Consistent info) (stepped : (advance key info task).2.1 = some next) :
    next.Consistent (advance key info task).1 := by
  generalize stepping : advance key info task = result at stepped ⊢
  unfold advance at stepping
  split at stepping
  · split at stepping
    · subst stepping; cases stepped
    · split at stepping <;> subst stepping <;> cases stepped <;> simp [Task.Consistent]
  · subst stepping; cases stepped; simp [Task.Consistent]
  · subst stepping; cases stepped; simp [Task.Consistent, consistent.1 ‹_›]
  · split at stepping <;> subst stepping <;> cases stepped; simp [Task.Consistent]

/-- A step that does not write `info_` leaves it as it is. -/
theorem advance_info {key info : ClusterInfo} {task : Task} (keeps : task.writesInfo = false) :
    (advance key info task).1 = info := by
  unfold advance
  simp only [Task.writesInfo, Bool.or_eq_false_iff, beq_eq_false_iff_ne] at keeps
  split
  · exact absurd ‹_› keeps.1
  · rfl
  · exact absurd ‹_› keeps.2
  · split <;> rfl

/-- A consistent method writes the change of exactly what the key holds. -/
theorem advance_writes {key info after : ClusterInfo} {task : Task}
    (consistent : task.Consistent info) (wrote : (advance key info task).2.2 = some after) :
    after = task.mutation.change key := by
  generalize stepping : advance key info task = result at wrote
  unfold advance at stepping
  split at stepping
  · split at stepping
    · subst stepping; cases wrote
    · split at stepping <;> subst stepping <;> cases wrote
  · subst stepping; cases wrote
  · subst stepping; cases wrote
  · split at stepping <;> subst stepping <;> cases wrote
    rw [consistent.2 ‹_›, ‹key = task.expected›]

/-- A method found in a thread list after one thread's slot is set is the one set there, or a
method of another thread. -/
theorem mem_set_slot {tasks : List (Option Task)} {thread : Nat} {slot : Option Task}
    {task : Task} (mem : some task ∈ tasks.set thread slot) :
    slot = some task ∨ some task ∈ tasks.set thread none := by
  obtain ⟨i, found⟩ := List.mem_iff_getElem?.mp mem
  rw [List.getElem?_set] at found
  split_ifs at found with same
  · exact .inl (Option.some.inj found)
  · exact .inr (List.mem_iff_getElem?.mpr ⟨i, by rw [List.getElem?_set, if_neg same]; exact found⟩)

/-- A step of a method, and the write it makes if any. -/
theorem step_step {state next : Coordination} {index thread : Nat}
    (stepped : state.step (.step index thread) = some next) :
    ∃ process task, state.processes[index]? = some process ∧
      process.tasks[thread]? = some (some task) ∧
      next.processes = state.processes.set index
        { process with
          info := (advance state.key process.info task).1
          tasks := process.tasks.set thread (advance state.key process.info task).2.1 } ∧
      next.writes = state.writes ++ ((advance state.key process.info task).2.2.map
        fun after => ⟨index, task.mutation, state.key, after⟩).toList ∧
      next.key = (advance state.key process.info task).2.2.getD state.key := by
  simp only [step, Option.bind_eq_bind, Option.bind_eq_some] at stepped
  obtain ⟨process, found, running, slot, task, rfl, stepped⟩ := stepped
  refine ⟨process, task, found, slot, ?_⟩
  cases wrote : (advance state.key process.info task).2.2 <;> simp only [wrote] at stepped <;>
    cases stepped <;> simp [wrote]

/-- A calm step of a method keeps every method of its process consistent. -/
theorem Consistent.stepTasks {process : Process} {key : ClusterInfo} {thread : Nat} {task : Task}
    (consistent : ∀ task, some task ∈ process.tasks → task.Consistent process.info)
    (slot : process.tasks[thread]? = some (some task))
    (calm : !task.writesInfo || !process.committingBesides thread) :
    ∀ other, some other ∈ process.tasks.set thread (advance key process.info task).2.1 →
      other.Consistent (advance key process.info task).1 := by
  intro other mem
  rcases mem_set_slot mem with stepped | besides
  · exact advance_consistent (consistent task (List.getElem?_mem slot)) stepped
  · have old : some other ∈ process.tasks := by
      rcases List.mem_or_eq_of_mem_set besides with old | absurd
      exacts [old, by cases absurd]
    cases keeps : task.writesInfo
    · rw [advance_info keeps]
      exact consistent other old
    · simp only [keeps, Bool.not_true, Bool.false_or, Bool.not_eq_true', Process.committingBesides,
        List.any_eq_false] at calm
      exact Task.consistent_of_not_committing (by simpa using calm _ besides) _

/-- A calm step of a consistent state is consistent, and writes the change of what the key
held. -/
theorem Consistent.step {state next : Coordination} {event : Event} (consistent : state.Consistent)
    (calm : state.calm event = true) (stepped : state.step event = some next) :
    next.Consistent ∧ ∃ new, next.writes = state.writes ++ new ∧
      next.key = replay state.key new := by
  cases event with
  | call index thread mutation =>
    simp only [Coordination.step, Option.bind_eq_bind, Option.bind_eq_some] at stepped
    obtain ⟨process, found, running, -, stepped⟩ := stepped
    split at stepped
    · cases stepped
    split at stepped <;> cases stepped
    · exact ⟨consistent, [], by simp, rfl⟩
    refine ⟨⟨consistent.sequential, fun other mem task running => ?_⟩, [], by simp, rfl⟩
    rcases List.mem_or_eq_of_mem_set mem with old | rfl
    · exact consistent.tasks other old task running
    · rcases List.mem_or_eq_of_mem_set running with old | new
      · exact consistent.tasks process (List.getElem?_mem found) task old
      · cases new; simp [Task.Consistent]
  | step index thread =>
    obtain ⟨process, task, found, slot, processes, writes, key⟩ := step_step stepped
    have before := consistent.tasks process (List.getElem?_mem found)
    refine ⟨⟨?_, fun other mem => ?_⟩, _, writes, ?_⟩
    · rw [writes]
      intro write mem
      rcases List.mem_append.mp mem with old | new
      · exact consistent.sequential write old
      · cases wrote : (advance state.key process.info task).2.2 <;> simp [wrote] at new
        subst new
        exact advance_writes (before task (List.getElem?_mem slot)) wrote
    · rw [processes] at mem
      rcases List.mem_or_eq_of_mem_set mem with old | rfl
      · exact consistent.tasks other old
      · simp only [Coordination.calm, found, Option.all_some, slot, Option.any_some,
          Bool.or_eq_true] at calm
        exact Consistent.stepTasks before slot (by simpa using calm)
    · cases wrote : (advance state.key process.info task).2.2
      · simp [key, wrote, replay]
      · simp [key, wrote, replay,
          advance_writes (before task (List.getElem?_mem slot)) wrote]
  | watch index =>
    simp only [Coordination.step, Option.bind_eq_bind, Option.bind_eq_some, Option.some.injEq]
      at stepped
    obtain ⟨process, found, write, _, rfl⟩ := stepped
    simp only [Coordination.calm, found, Option.any_some, Bool.not_eq_true', Process.committing,
      List.any_eq_false] at calm
    refine ⟨⟨consistent.sequential, fun other mem task running => ?_⟩, [], by simp, rfl⟩
    rcases List.mem_or_eq_of_mem_set mem with old | rfl
    · exact consistent.tasks other old task running
    · exact Task.consistent_of_not_committing (by simpa using calm _ running) _

/-- Every calm run from a consistent state is sequential: its writes extend the history, each
is its method's change of what the key held, and the key is their replay. -/
theorem calm_run_replays {start final : Coordination} {events : List Event}
    (consistent : start.Consistent) (calm : start.calmRun events = true)
    (ran : start.run events = some final) :
    ∃ new, final.writes = start.writes ++ new ∧ Sequential final.writes ∧
      final.key = replay start.key new := by
  induction events generalizing start with
  | nil => cases ran; exact ⟨[], by simp, consistent.sequential, rfl⟩
  | cons event events ih =>
    obtain ⟨next, stepped, ran⟩ := Option.bind_eq_some.mp ran
    simp only [calmRun, stepped, Bool.and_eq_true] at calm
    obtain ⟨consistent', new, writes, key⟩ := consistent.step calm.1 stepped
    obtain ⟨rest, writes', sequential, key'⟩ := ih consistent' calm.2 ran
    exact ⟨new ++ rest, by simp [writes', writes], sequential, by simp [key', key, replay]⟩

end Coordination

/-- Node 0's `Run` thread gives shard 0 away, and its watcher parses the first write between
the method's `Get` and `old_info`: the swap against the parsed state fails. Node 0's watcher
thread then calls `MigrationOver`, whose `Get` comes before the `Run` thread's retry; the retry
writes the change of what the key holds, and `MigrationOver` takes its `old_info` after it. -/
def calmEvents : List Event :=
  lostUpdateEvents.take 10 ++ [.call 0 0 (.giveShard 0), .step 0 0, .watch 0, .step 0 0,
    .step 0 0, .step 0 0, .call 0 1 (.migrationOver 0), .step 0 1, .step 0 0, .step 0 0,
    .step 0 0, .step 0 0, .step 0 1, .step 0 1, .step 0 1]

theorem calm_watch_retries :
    ∃ final, lostUpdateStart.run calmEvents = some final ∧
      ∃ new, final.writes = lostUpdateStart.writes ++ new ∧ Sequential final.writes ∧
        final.key = replay lostUpdateStart.key new :=
  ⟨_, rfl, @Coordination.calm_run_replays lostUpdateStart _ calmEvents
    (Coordination.consistent_of_idle rfl (by simp [lostUpdateStart])) (by decide) rfl⟩

end Crocks
