import Crocks.Common.Info

/-! # The client's routing and retry loop

`ClusterImpl` keeps a local copy of the cluster state (`info_`) and a connection per node
(`nodes_`), and runs every operation through `Operation`. It sends the request to the master of
the key's shard and, on `INVALID_ARGUMENT` or `UNAVAILABLE`, refreshes its copy and retries; a
node that does not answer is probed with `Ping` and, when the client is configured to, reported
unavailable to the coordinator.

The answers come from a `World`: the status of each RPC, the value of each read of the info key
and the outcome of each compare-and-swap, each in the order the client asks. The model records
what the client sends, over which connection, next to the address `info_` lists for the node.
A run stops (`Except.error`, with the client as it was) where the process would: a call through
a null connection, `EnsureRpc` on a failed `Ping`, or a loop that outlasts its fuel.
-/

namespace Crocks.Client

open Crocks.Proto

/-- The status an RPC returns, by its gRPC code. -/
inductive Status where
  | OK
  | INVALID_ARGUMENT
  /-- `UNAVAILABLE`, with the message "The former master has crashed" or without it. -/
  | UNAVAILABLE (formerMasterCrashed : Bool)
  /-- Any other code. -/
  | other
  deriving DecidableEq, Repr

/-- `Status::IsUnavailable()`. -/
def Status.isUnavailable : Status → Bool
  | .UNAVAILABLE _ => true
  | _ => false

/-- The answers the client gets, each in the order it asks. -/
structure World where
  /-- The status of the `n`-th RPC, an operation or a `Ping`. -/
  rpc : Nat → Status
  /-- The value of the `n`-th read of the info key (`Get`, `Watch` or `WatchNext`). -/
  read : Nat → ClusterInfo
  /-- Whether the `n`-th compare-and-swap on the info key succeeds. -/
  swap : Nat → Bool

/-- The two settings of `Options` that `Operation` reads. -/
structure Options where
  waitOnUnhealthy : Bool
  informOnUnavailable : Bool
  deriving DecidableEq, Repr

/-- What the client sent. `connection` is the address of the `Node` that `nodes_[index]` holds,
`none` for a null one; `listed` is the address `info_` lists for the node at that moment. -/
inductive Sent where
  | op (index : Nat) (connection : Option ProtoString) (listed : ProtoString)
  | ping (index : Nat) (connection : Option ProtoString) (listed : ProtoString) (status : Status)
  /-- `info_.SetAvailable(index, false)`. -/
  | inform (index : Nat)
  deriving DecidableEq

/-- `ClusterImpl`'s members, with how many answers of each kind it has had and what it sent. -/
structure ClusterImpl where
  info : ClusterInfo
  nodes : Nat → Option ProtoString
  rpcs : Nat := 0
  reads : Nat := 0
  swaps : Nat := 0
  sent : List Sent := []

namespace ClusterImpl

variable (world : World)

/-- `Info::Get()`: read the info key into `info_`. -/
def get (client : ClusterImpl) : ClusterImpl :=
  { client with info := world.read client.reads, reads := client.reads + 1 }

/-- A compare-and-swap on the info key. -/
def swap (client : ClusterImpl) : Bool × ClusterImpl :=
  (world.swap client.swaps, { client with swaps := client.swaps + 1 })

/-- `delete nodes_[index]; nodes_[index] = nullptr`. -/
def drop (client : ClusterImpl) (index : Nat) : ClusterImpl :=
  { client with nodes := fun other => if other = index then none else client.nodes other }

/-- `ClusterImpl::Update()`: read the info key, then drop the connection of every node whose
address is empty and open one to every listed node that has none. -/
def update (client : ClusterImpl) : ClusterImpl :=
  let client := client.get world
  { client with
    nodes := fun index =>
      if index < client.info.nodes.length then
        if (client.info.address index).bytes = [] then none
        else if client.nodes index = none then some (client.info.address index)
        else client.nodes index
      else client.nodes index }

/-- `op(NodeForKey(key))`: the operation goes to the key's master; a null connection stops the
run. -/
def send (key : List UInt8) (client : ClusterImpl) : Except ClusterImpl (Status × ClusterImpl) :=
  let index := client.info.indexForKey key
  let client := { client with
    sent := client.sent ++ [.op index (client.nodes index) (client.info.address index)] }
  if client.nodes index = none then .error client
  else .ok (world.rpc client.rpcs, { client with rpcs := client.rpcs + 1 })

/-- `NodeForKey(key)->Ping()`. -/
def ping (key : List UInt8) (client : ClusterImpl) : Except ClusterImpl (Status × ClusterImpl) :=
  let index := client.info.indexForKey key
  let status := world.rpc client.rpcs
  let client := { client with
    rpcs := client.rpcs + 1
    sent := client.sent ++ [.ping index (client.nodes index) (client.info.address index) status] }
  if client.nodes index = none then .error client else .ok (status, client)

/-- `Info::SetAvailable(id, available)`: read the info key, stop if the node is marked so
already, and otherwise write the change with a compare-and-swap, until one succeeds. -/
def setAvailable : Nat → ClusterImpl → Nat → Bool → Except ClusterImpl ClusterImpl
  | 0, client, _, _ => .error client
  | fuel + 1, client, id, available =>
    let client := client.get world
    if client.info.isAvailable id = available then .ok client
    else
      let (succeeded, client) := { client with info := client.info.setAvailable id available }.swap world
      if succeeded then .ok client else setAvailable fuel client id available

/-- The loop of `Info::WaitUntilHealthy()`: `WatchNext` until the cluster is healthy. -/
def watchUntilHealthy : Nat → ClusterImpl → Except ClusterImpl ClusterImpl
  | 0, client => .error client
  | fuel + 1, client =>
    if client.info.isHealthy then .ok client else watchUntilHealthy fuel (client.get world)

/-- `Info::WaitUntilHealthy()`: `Watch` reads the info key, then the loop. -/
def waitUntilHealthy (fuel : Nat) (client : ClusterImpl) : Except ClusterImpl ClusterImpl :=
  watchUntilHealthy world fuel (client.get world)

/-- The loop of `Info::Run()`: read the info key and, unless the cluster is running or
migrating, mark it running with a compare-and-swap, until one succeeds. -/
def runLoop : Nat → ClusterImpl → Except ClusterImpl ClusterImpl
  | 0, client => .error client
  | fuel + 1, client =>
    let client := client.get world
    if client.info.isRunning || !client.info.noMigrations then .ok client
    else
      let (succeeded, client) := { client with info := client.info.setRunning }.swap world
      if succeeded then .ok client else runLoop fuel client

/-- `Info::Run()`. -/
def run (fuel : Nat) (client : ClusterImpl) : Except ClusterImpl ClusterImpl :=
  if client.info.isRunning || !client.info.noMigrations then .ok client
  else runLoop world fuel client

/-- `ClusterImpl::ClusterImpl(options, address)`: read the info key, let `Info::Run()` start the
cluster, and open a connection to every node with an address. -/
def start (fuel : Nat) : Except ClusterImpl ClusterImpl := do
  let client ← run world fuel (({ info := {}, nodes := fun _ => none } : ClusterImpl).get world)
  return { client with
    nodes := fun index =>
      if index < client.info.nodes.length ∧ (client.info.address index).bytes ≠ [] then
        some (client.info.address index)
      else none }

variable (options : Options)

section Key

variable (key : List UInt8)

/-- The probing loop of `Operation`: while the cluster looks healthy and the node does not
answer, drop the key's master's connection, refresh, ping the key's master again, and, if
configured to, report the node unavailable. -/
def probe : Nat → Status → ClusterImpl → Except ClusterImpl ClusterImpl
  | 0, _, client => .error client
  | fuel + 1, ping, client =>
    if client.info.isHealthy && ping != .OK then do
      let id := client.info.indexForKey key
      let (ping, client) ← ((client.drop id).update world).ping world key
      let client ← if options.informOnUnavailable then
          setAvailable world fuel { client with sent := client.sent ++ [.inform id] } id false
        else .ok client
      probe fuel ping client
    else .ok client

/-- `Operation` on `UNAVAILABLE` from node `id` without the former master's message: drop the
connection and refresh; retry at once if the key has a new master (`some` status), and
otherwise ping it, probing while it does not answer. `EnsureRpc` stops the process on a `Ping`
that fails otherwise than `UNAVAILABLE`. -/
def recover (fuel id : Nat) (client : ClusterImpl) : Except ClusterImpl (Option Status × ClusterImpl) := do
  let client := (client.drop id).update world
  if client.info.indexForKey key ≠ id then
    let (status, client) ← client.send world key
    return (some status, client)
  let (ping, client) ← client.ping world key
  if ping = .OK then return (none, client)
  if !ping.isUnavailable then throw client
  let client ← probe world options key fuel ping client
  return (none, client)

/-- The loop of `ClusterImpl::Operation`, from the status of the last try. -/
def retry : Nat → Status → ClusterImpl → Except ClusterImpl (Status × ClusterImpl)
  | 0, _, client => .error client
  | fuel + 1, status, client =>
    if !(status.isUnavailable || status == .INVALID_ARGUMENT) then .ok (status, client)
    else if status = .INVALID_ARGUMENT then do
      let (status, client) ← (client.update world).send world key
      retry fuel status client
    else do
      let id := client.info.indexForKey key
      let (shortcut, client) ← if status = .UNAVAILABLE true then .ok (none, client)
        else recover world options key fuel id client
      match shortcut with
      | some status => retry fuel status client
      | none =>
        if !client.info.isHealthy then
          let id := client.info.indexForKey key
          if !options.waitOnUnhealthy then return (status, client)
          let client ← waitUntilHealthy world fuel client
          let (status, client) ← ((client.drop id).update world).send world key
          retry fuel status client
        else
          let (status, client) ← client.send world key
          retry fuel status client

/-- `ClusterImpl::Operation(op, key)`. -/
def operation (fuel : Nat) (client : ClusterImpl) : Except ClusterImpl (Status × ClusterImpl) := do
  let (status, client) ← client.send world key
  retry world options key fuel status client

end Key

/-- A client's life: its construction, then an operation on each key in turn. -/
def session (fuel : Nat) (keys : List (List UInt8)) : Except ClusterImpl ClusterImpl := do
  let client ← start world fuel
  keys.foldlM (fun client key => Prod.snd <$> operation world options key fuel client) client

/-- The client a run ends with, whether it returned or stopped. -/
def final : Except ClusterImpl ClusterImpl → ClusterImpl
  | .ok client => client
  | .error client => client

end ClusterImpl

/-! ## Runs that report a live node and call through a null connection -/

/-- The address `a`. -/
def addressA : ProtoString := ⟨[97]⟩

/-- The address `c`. -/
def addressC : ProtoString := ⟨[99]⟩

/-- A running cluster of one node, at `a`, that masters its one shard. -/
def soloInfo : ClusterInfo :=
  { state := 1, numNodes := 1, nodes := [{ address := addressA, available := true }],
    shards := [{}] }

/-- The same cluster after nodes 1 and 2 joined and the shard moved to node 2, at `c`. -/
def movedInfo : ClusterInfo :=
  { state := 1, numNodes := 3,
    nodes := [{ address := addressA, available := true },
      { address := ⟨[98]⟩, id := 1, available := true },
      { address := addressC, id := 2, available := true }],
    shards := [{ master := 2 }] }

/-- Node 0 answers neither the operation nor the first `Ping`, then answers again; the cluster
state stays `soloInfo`. -/
def recoveringWorld : World where
  rpc n := if n < 2 then .UNAVAILABLE false else .OK
  read _ := soloInfo
  swap _ := true

/-- A client that informs: node 0 answers the second `Ping`, and the client reports it
unavailable right after. -/
theorem client_informs_after_answered_ping :
    (ClusterImpl.final (ClusterImpl.session recoveringWorld ⟨true, true⟩ 4 [[1]])).sent =
      [.op 0 (some addressA) addressA, .ping 0 (some addressA) addressA (.UNAVAILABLE false),
        .ping 0 (some addressA) addressA .OK, .inform 0, .op 0 (some addressA) addressA] := by
  decide

/-- As `recoveringWorld`, but the read inside `Info::SetAvailable` finds the shard moved to
node 2, which the client never connected to. -/
def movingWorld : World where
  rpc n := if n < 2 then .UNAVAILABLE false else .OK
  read n := if n < 3 then soloInfo else movedInfo
  swap _ := true

/-- The client retries on the master `info_` names after `SetAvailable` refreshed it, through
`nodes_[2]`, which no `Update` has filled. -/
theorem client_sends_through_null_node :
    (ClusterImpl.final (ClusterImpl.session movingWorld ⟨true, true⟩ 4 [[1]])).sent =
      [.op 0 (some addressA) addressA, .ping 0 (some addressA) addressA (.UNAVAILABLE false),
        .ping 0 (some addressA) addressA .OK, .inform 0, .op 2 none addressC] := by
  decide

/-! ## What a run returns

A run either returns a result or stops with the client as it was. `Lands stopped done` says
what holds of each, and the rules below (bind, conditional, map) carry it through the
`do`-blocks of the model. `Operation` leaves its loop only on a status it does not retry, or
when it gives up on an unhealthy cluster. -/

namespace ClusterImpl

/-- What a run of the client ends with: `done` of what it returns, and `stopped` of the
client where it stops. -/
def Lands {α : Type} (stopped : ClusterImpl → Prop) (done : α → Prop) :
    Except ClusterImpl α → Prop
  | .ok result => done result
  | .error client => stopped client

section Rules

variable {α β : Type} {stopped : ClusterImpl → Prop} {done : α → Prop} {done' : β → Prop}

theorem Lands.bind {x : Except ClusterImpl α} {f : α → Except ClusterImpl β}
    (first : Lands stopped done x) (rest : ∀ result, done result → Lands stopped done' (f result)) :
    Lands stopped done' (x >>= f) := by
  cases x with
  | error client => exact first
  | ok result => exact rest result first

theorem Lands.ite {condition : Prop} [Decidable condition] {yes no : Except ClusterImpl α}
    (ifYes : condition → Lands stopped done yes) (ifNo : ¬condition → Lands stopped done no) :
    Lands stopped done (if condition then yes else no) := by
  split
  exacts [ifYes ‹_›, ifNo ‹_›]

theorem Lands.map {x : Except ClusterImpl α} {f : α → β} (first : Lands stopped done x)
    (rest : ∀ result, done result → done' (f result)) : Lands stopped done' (f <$> x) := by
  cases x with
  | error client => exact first
  | ok result => exact rest result first

/-- Every run lands somewhere. -/
theorem Lands.anywhere (x : Except ClusterImpl α) : Lands (fun _ => True) (fun _ => True) x := by
  cases x <;> trivial

end Rules

/-- `Operation` is done with a status it does not retry, or with any status when the cluster
state is unhealthy and the client does not wait. -/
def Settled (options : Options) (result : Status × ClusterImpl) : Prop :=
  !(result.1.isUnavailable || result.1 == .INVALID_ARGUMENT) ∨
    (options.waitOnUnhealthy = false ∧ result.2.info.isHealthy = false)

theorem retry_settles (world : World) (options : Options) (key : List UInt8) (fuel : Nat)
    (status : Status) (client : ClusterImpl) :
    Lands (fun _ => True) (Settled options) (retry world options key fuel status client) := by
  induction fuel generalizing status client with
  | zero => trivial
  | succ fuel ih =>
    simp only [retry, pure_bind]
    refine Lands.ite (fun final => .inl final) fun _ => Lands.ite
      (fun _ => Lands.bind (Lands.anywhere _) fun result _ => ih result.1 result.2) fun _ =>
        Lands.ite (fun _ => Lands.bind (Lands.anywhere _) ?_) fun _ =>
          Lands.bind (Lands.anywhere _) ?_
    all_goals
      rintro ⟨_ | status', client'⟩ -
      · exact Lands.ite (fun unhealthy => Lands.ite
          (fun impatient => .inr ⟨by simpa using impatient, by simpa using unhealthy⟩) fun _ =>
            Lands.bind (Lands.anywhere _) fun _ _ => Lands.bind (Lands.anywhere _)
              fun result _ => ih result.1 result.2)
          fun _ => Lands.bind (Lands.anywhere _) fun result _ => ih result.1 result.2
      · exact ih status' client'

/-- Whatever the cluster answers, `Operation` returns `UNAVAILABLE` or `INVALID_ARGUMENT`
only when its copy of the cluster state is unhealthy and it is not configured to wait. -/
theorem operation_returns_settled {world : World} {options : Options} {key : List UInt8}
    {fuel : Nat} {client next : ClusterImpl} {status : Status}
    (returned : operation world options key fuel client = .ok (status, next)) :
    !(status.isUnavailable || status == .INVALID_ARGUMENT) ∨
      (options.waitOnUnhealthy = false ∧ next.info.isHealthy = false) := by
  have settles : Lands (fun _ => True) (Settled options) (operation world options key fuel client) :=
    Lands.bind (Lands.anywhere _) fun result _ =>
      retry_settles world options key fuel result.1 result.2
  rw [returned] at settles
  exact settles

end ClusterImpl

/-! ## Without reports, every request goes through the listed connection

Let every snapshot of the cluster state list an address for every key's master, and let no
snapshot give a node another address than another one gives it, empty apart. `Update` then
leaves a connection to the listed address for every node `info_` lists. Every path of
`Operation` that reads the cluster state calls `Update` before it sends, unless the client
reports nodes unavailable: `Info::SetAvailable` reads the cluster state into `info_`, and no
`Update` follows it. -/

/-- Whether a request went through a connection to the address `info_` listed for its node. -/
def Sent.routed : Sent → Bool
  | .op _ connection listed => connection == some listed
  | .ping _ connection listed _ => connection == some listed
  | .inform _ => true

/-- What the snapshots the client reads give: an address for every key's master, and at most one
address for each node. -/
structure Snapshots (world : World) : Prop where
  masters : ∀ n key, ((world.read n).address ((world.read n).indexForKey key)).bytes ≠ []
  stable : ∀ n m index, ((world.read n).address index).bytes ≠ [] →
    ((world.read m).address index).bytes ≠ [] →
    (world.read n).address index = (world.read m).address index

namespace ClusterImpl

/-- What holds of the client between any two of its steps: `info_` routes keys and lists
addresses as a snapshot does, every connection is to an address a snapshot lists for its node,
and every request so far went through the listed connection. -/
structure Sound (world : World) (client : ClusterImpl) : Prop where
  snapshot : ∃ n, client.info.address = (world.read n).address ∧
    client.info.indexForKey = (world.read n).indexForKey
  connections : ∀ index address, client.nodes index = some address →
    address.bytes ≠ [] ∧ ∃ n, (world.read n).address index = address
  routed : client.sent.all Sent.routed = true

/-- A sound client with a connection for every node `info_` lists, as `Update` leaves it. -/
structure Synced (world : World) (client : ClusterImpl) extends Sound world client : Prop where
  connected : ∀ index, (client.info.address index).bytes ≠ [] → client.nodes index ≠ none

section Routing

variable {world : World} {client : ClusterImpl}

/-- A bind on a step that returns a synced client. -/
theorem Lands.bind_synced {α β : Type} {done : β → Prop} {x : Except ClusterImpl (α × ClusterImpl)}
    {f : α × ClusterImpl → Except ClusterImpl β}
    (first : Lands (Sound world) (fun result => Synced world result.2) x)
    (rest : ∀ result client, Synced world client → Lands (Sound world) done (f (result, client))) :
    Lands (Sound world) done (x >>= f) :=
  Lands.bind first fun result => rest result.1 result.2

theorem Sound.get (sound : Sound world client) : Sound world (client.get world) :=
  ⟨⟨client.reads, rfl, rfl⟩, sound.connections, sound.routed⟩

theorem Sound.swap (sound : Sound world client) : Sound world (client.swap world).2 :=
  ⟨sound.snapshot, sound.connections, sound.routed⟩

theorem Sound.setRunning (sound : Sound world client) :
    Sound world { client with info := client.info.setRunning } :=
  ⟨sound.snapshot, sound.connections, sound.routed⟩

theorem Sound.drop (sound : Sound world client) (index : Nat) : Sound world (client.drop index) := by
  refine ⟨sound.snapshot, fun other address held => ?_, sound.routed⟩
  simp only [ClusterImpl.drop] at held
  split at held
  · cases held
  · exact sound.connections other address held

theorem address_empty_of_unlisted {info : ClusterInfo} {index : Nat}
    (unlisted : info.nodes.length ≤ index) : (info.address index).bytes = [] := by
  rw [ClusterInfo.address, List.getD_eq_default _ _ unlisted]
  rfl

/-- `Update` connects every listed node, to the address it lists. -/
theorem Sound.update (sound : Sound world client) : Synced world (client.update world) := by
  refine ⟨⟨⟨client.reads, rfl, rfl⟩, fun index address held => ?_, sound.routed⟩, fun index listed => ?_⟩
  · simp only [ClusterImpl.update, ClusterImpl.get] at held
    split at held
    · split at held
      · cases held
      · split at held
        · cases held
          exact ⟨‹_›, client.reads, rfl⟩
        · exact sound.connections index address held
    · exact sound.connections index address held
  · simp only [ClusterImpl.update, ClusterImpl.get] at listed ⊢
    have present : index < (world.read client.reads).nodes.length :=
      Nat.lt_of_not_le fun unlisted => listed (address_empty_of_unlisted unlisted)
    simp only [present, listed, if_true, if_false]
    split <;> simp_all

variable (snapshots : Snapshots world)
include snapshots

/-- A synced client holds a connection to the listed address of every key's master. -/
theorem Synced.routes (synced : Synced world client) (key : List UInt8) :
    client.nodes (client.info.indexForKey key) =
      some (client.info.address (client.info.indexForKey key)) := by
  obtain ⟨n, address, route⟩ := synced.snapshot
  have listed : (client.info.address (client.info.indexForKey key)).bytes ≠ [] := by
    rw [address, route]
    exact snapshots.masters n key
  obtain ⟨held, holds⟩ := Option.ne_none_iff_exists'.mp (synced.connected _ listed)
  obtain ⟨nonempty, m, at_m⟩ := synced.connections _ held holds
  rw [holds, ← at_m, address]
  rw [address] at listed
  exact congrArg some (snapshots.stable m n _ (at_m ▸ nonempty) listed)

theorem Synced.send (synced : Synced world client) (key : List UInt8) :
    Lands (Sound world) (fun result => Synced world result.2) (client.send world key) := by
  simp only [ClusterImpl.send, synced.routes snapshots key, reduceCtorEq, if_false]
  exact ⟨⟨synced.snapshot, synced.connections, by simp [synced.routed, Sent.routed]⟩,
    synced.connected⟩

theorem Synced.ping (synced : Synced world client) (key : List UInt8) :
    Lands (Sound world) (fun result => Synced world result.2) (client.ping world key) := by
  simp only [ClusterImpl.ping, synced.routes snapshots key, reduceCtorEq, if_false]
  exact ⟨⟨synced.snapshot, synced.connections, by simp [synced.routed, Sent.routed]⟩,
    synced.connected⟩

omit snapshots

theorem watchUntilHealthy_lands (fuel : Nat) (sound : Sound world client) :
    Lands (Sound world) (Sound world) (watchUntilHealthy world fuel client) := by
  induction fuel generalizing client with
  | zero => exact sound
  | succ fuel ih =>
    simp only [watchUntilHealthy]
    split
    · exact sound
    · exact ih sound.get

theorem runLoop_lands (fuel : Nat) (sound : Sound world client) :
    Lands (Sound world) (Sound world) (runLoop world fuel client) := by
  induction fuel generalizing client with
  | zero => exact sound
  | succ fuel ih =>
    simp only [runLoop]
    split
    · exact sound.get
    · split
      · exact sound.get.setRunning.swap
      · exact ih sound.get.setRunning.swap

/-- The constructor leaves a synced client. -/
theorem start_lands (fuel : Nat) : Lands (Sound world) (Synced world) (start world fuel) := by
  have read : Sound world (({ info := {}, nodes := fun _ => none } : ClusterImpl).get world) :=
    ⟨⟨0, rfl, rfl⟩, (fun _ _ held => by cases held), rfl⟩
  have ran : Lands (Sound world) (Sound world)
      (run world fuel (({ info := {}, nodes := fun _ => none } : ClusterImpl).get world)) := by
    simp only [run]
    split
    · exact read
    · exact runLoop_lands fuel read
  refine Lands.bind ran fun client sound => ?_
  refine ⟨⟨sound.snapshot, fun index address held => ?_, sound.routed⟩, fun index listed => ?_⟩
  · simp only at held
    split at held
    · cases held
      obtain ⟨n, address, -⟩ := sound.snapshot
      exact ⟨‹_ ∧ _›.2, n, by rw [← address]⟩
    · cases held
  · have present : index < client.info.nodes.length :=
      Nat.lt_of_not_le fun unlisted => listed (address_empty_of_unlisted unlisted)
    simp [present, listed]

include snapshots

variable {options : Options} (quiet : options.informOnUnavailable = false) (key : List UInt8)
include quiet

theorem probe_lands (fuel : Nat) (ping : Status) (synced : Synced world client) :
    Lands (Sound world) (Synced world) (probe world options key fuel ping client) := by
  induction fuel generalizing ping client with
  | zero => exact synced.toSound
  | succ fuel ih =>
    simp only [probe, quiet, Bool.false_eq_true, if_false]
    split
    · exact Lands.bind_synced (((synced.toSound.drop _).update).ping snapshots key)
        fun ping _ synced => ih ping synced
    · exact synced

theorem recover_lands (fuel id : Nat) (synced : Synced world client) :
    Lands (Sound world) (fun result => Synced world result.2) (recover world options key fuel id client) := by
  have refreshed := (synced.toSound.drop id).update
  simp only [recover, pure_bind]
  split
  · exact Lands.bind_synced (refreshed.send snapshots key) fun _ _ synced => synced
  · refine Lands.bind_synced (refreshed.ping snapshots key) fun ping client synced => ?_
    dsimp only
    split
    · exact synced
    split
    · exact synced.toSound
    · exact Lands.bind (probe_lands snapshots quiet key fuel ping synced) fun _ synced => synced

/-- Every retry of `Operation` sends through the listed connection. -/
theorem retry_lands (fuel : Nat) (status : Status) (synced : Synced world client) :
    Lands (Sound world) (fun result => Synced world result.2)
      (retry world options key fuel status client) := by
  induction fuel generalizing status client with
  | zero => exact synced.toSound
  | succ fuel ih =>
    simp only [retry, pure_bind]
    refine Lands.ite (fun _ => synced) fun _ => Lands.ite (fun _ => ?_) fun _ => Lands.ite
      (fun _ => Lands.bind_synced synced ?_) fun _ =>
        Lands.bind_synced (recover_lands snapshots quiet key fuel _ synced) ?_
    · exact Lands.bind_synced ((synced.toSound.update).send snapshots key)
        fun status _ synced => ih status synced
    all_goals
      rintro (_ | status) client synced
      · exact Lands.ite (fun _ => Lands.ite (fun _ => synced) fun _ =>
          Lands.bind (watchUntilHealthy_lands fuel synced.toSound.get) fun client sound =>
            Lands.bind_synced ((sound.drop _).update.send snapshots key)
              fun status _ synced => ih status synced)
          fun _ => Lands.bind_synced (synced.send snapshots key) fun status _ synced => ih status synced
      · exact ih status synced

theorem operation_lands (fuel : Nat) (synced : Synced world client) :
    Lands (Sound world) (fun result => Synced world result.2) (operation world options key fuel client) :=
  Lands.bind_synced (synced.send snapshots key) fun status _ synced =>
    retry_lands snapshots quiet key fuel status synced

theorem session_lands (fuel : Nat) (keys : List (List UInt8)) :
    Lands (Sound world) (Synced world) (session world options fuel keys) := by
  refine Lands.bind (start_lands fuel) fun client synced => ?_
  induction keys generalizing client with
  | nil => exact synced
  | cons key keys ih =>
    rw [List.foldlM_cons]
    exact Lands.bind (Lands.map (operation_lands snapshots quiet key fuel synced)
      fun _ synced => synced) fun _ synced => ih _ synced

/-- A client that does not report nodes unavailable sends every request and every `Ping`
through a connection to the address its `info_` lists for the node, whether its session
returns or stops. -/
theorem session_sends_through_listed (fuel : Nat) (keys : List (List UInt8)) :
    (final (session world options fuel keys)).sent.all Sent.routed = true := by
  have landed := session_lands snapshots quiet fuel keys
  generalize session world options fuel keys = result at landed ⊢
  cases result with
  | ok client => exact landed.routed
  | error client => exact landed.routed

end Routing

end ClusterImpl

/-- The run of `recoveringWorld` with reports off: the client pings node 0 until it answers,
and retries on it. -/
theorem quiet_client_retries_listed :
    (ClusterImpl.final (ClusterImpl.session recoveringWorld ⟨true, false⟩ 4 [[1]])).sent =
      [.op 0 (some addressA) addressA, .ping 0 (some addressA) addressA (.UNAVAILABLE false),
        .ping 0 (some addressA) addressA .OK, .op 0 (some addressA) addressA] ∧
    (ClusterImpl.final (ClusterImpl.session recoveringWorld ⟨true, false⟩ 4 [[1]])).sent.all
      Sent.routed = true :=
  ⟨by decide, ClusterImpl.session_sends_through_listed
    ⟨fun _ _ => by simp [recoveringWorld, soloInfo, ClusterInfo.indexForKey,
      ClusterInfo.indexForShard, ClusterInfo.shardForKey, ClusterInfo.address, addressA],
      fun _ _ _ _ _ => rfl⟩ rfl 4 [[1]]⟩

end Crocks.Client
