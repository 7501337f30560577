import Crocks.Server.Donor
import Crocks.Common.Info

/-! # Servers and the coordinator

A cluster is the coordinator's state and its servers, each a `Node` with its registry and its
calls. A server's step is a step of one of its calls; the effects that reach the coordinator
change the cluster state: `Info::GiveShard`, `Info::SetAvailable(peer, false)` from a cancelled
migration, and `Info::Remove()` when a removal leaves the registry empty. A recipient's
`WatchThread` creates the local shard it is about to request (`Shards::Add`), and calls
`Info::MigrationOver` once it has ingested it.

The coordinator's writes are atomic here (`Coordinator` models their compare-and-swap loops),
and every server reads the coordinator's state where the code reads its own copy of it.
-/

namespace Crocks.Server

open Crocks.Proto

/-- The coordinator's state and the servers, by id. -/
structure Cluster where
  info : ClusterInfo
  servers : List Node

/-- A step of the cluster. -/
inductive ClusterEvent where
  /-- A step of one of server `id`'s calls. -/
  | server (id : Nat) (event : NodeEvent)
  /-- `WatchThread` of server `id` creates a shard it is to request from an available node,
  unless it is the master of the shard or has a handle for it already. -/
  | importShard (id shard : Nat)
  /-- `WatchThread` of server `id` has ingested the shard: `Info::MigrationOver(shard)`. -/
  | migrationOver (id shard : Nat)

/-- The cluster state after a server's effects, in order, from the registry it had before
them: `Info::Remove()` runs when a removal leaves the registry empty. -/
def informAll (id : Nat) : Shards → ClusterInfo → List Effect → ClusterInfo
  | _, info, [] => info
  | shards, info, effect :: effects =>
    let shards := shards.apply effect
    informAll id shards
      (match effect with
        | .giveShard shard => info.giveShard shard
        | .markUnavailable peer => info.setAvailable peer false
        | .leaveIfEmpty => if shards.empty then info.removeNode id else info
        | _ => info)
      effects

namespace Cluster

/-- One step of the cluster, or `none` when it cannot happen. Modelled from the spec:
`Info::Tasks()` lists the shards migrating to the server, by the node they migrate from. -/
def step (cluster : Cluster) : ClusterEvent → Option Cluster
  | .server id event => do
    let node ← cluster.servers[id]?
    let next ← node.step cluster.info.shardForKey event
    let effects := (next.history.drop node.history.length).map Prod.snd
    some
      { info := informAll id node.shards cluster.info effects
        servers := cluster.servers.set id next }
  | .importShard id shard => do
    let node ← cluster.servers[id]?
    let entry ← cluster.info.shards[shard]?
    if !(entry.migrating && entry.«to».toNat == id && cluster.info.isAvailable entry.«from».toNat) then
      none
    else if cluster.info.indexForShard shard ≠ id ∧ node.shards.«at» shard = none then
      some { cluster with
        servers := cluster.servers.set id { node with shards := node.shards.add shard } }
    else some cluster
  | .migrationOver _ shard => some { cluster with info := cluster.info.migrationOver shard }

/-- Run the cluster through steps in order. -/
def run (cluster : Cluster) : List ClusterEvent → Option Cluster
  | [] => some cluster
  | event :: events => (cluster.step event).bind (run · events)

end Cluster

/-! ## A recipient takes writes before the handoff -/

/-- Node 0 masters the one shard, which migrates to node 1; both are available. -/
def handoffPending : ClusterInfo :=
  { state := 2, numNodes := 2, nodes := [{ available := true }, { id := 1, available := true }],
    shards := [{ migrating := true, «to» := 1 }] }

/-- Node 0 serves the shard; node 1 has no handle yet. -/
def handoffCluster : Cluster :=
  { info := handoffPending, servers := [{ shards := ⟨[some {}]⟩ }, { shards := {} }] }

/-- Node 1's `WatchThread` creates the shard; a client whose copy of the cluster state names node
1 sends it a `Put`, which references the shard and writes. -/
theorem recipient_commits_before_handoff :
    (Cluster.run handoffCluster [.importShard 1 0,
        .server 1 (.handler 0 (.put (.tag true ⟨[1], [2]⟩))),
        .server 1 (.handler 0 (.put .resume))]).map
      (fun cluster => (cluster.info.indexForShard 0, cluster.servers[1]?.map (·.history))) =
      some (0, some [(.handler 0, .spawn), (.handler 0, .ref 0),
        (.handler 0, .commit [.put 0 [1] [2]])]) := by
  decide

/-! ## A broken migration stream gives away a shard nobody asked for -/

/-- Three available nodes. Node 2 masters shards 0 and 1, and shard 1 migrates to node 1;
node 0 masters shard 2. -/
def donorTrio : ClusterInfo :=
  { state := 2, numNodes := 3,
    nodes := [{ available := true }, { id := 1, available := true },
      { id := 2, available := true }],
    shards := [{ master := 2 }, { master := 2, migrating := true, «from» := 2, «to» := 1 },
      { master := 0 }] }

/-- Node 0 holds shard 2, node 1 nothing, and node 2 shards 0 and 1. -/
def donorTrioCluster : Cluster :=
  { info := donorTrio,
    servers := [{ shards := ⟨[none, none, some {}]⟩ }, { shards := {} },
      { shards := ⟨[some {}, some {}]⟩ }] }

/-- Node 1's `WatchThread` creates shard 1 and opens the `Migrate` stream to node 2, and the
stream breaks before its request arrives: node 2's call is matched and its first read fails.
Node 2 goes on with the request it never got, for shard 0, and gives shard 0 to the shard
entry's `to`, node 0; the writes and reads that follow fail, and the done notification comes
cancelled. Node 0 still serves, the coordinator names it master of shard 0, and its registry
has no shard 0. -/
theorem broken_read_gives_shard_away :
    (Cluster.run donorTrioCluster [.importShard 1 1,
        .server 2 (.migrate 0 (.tag true {} false)), .server 2 (.migrate 0 (.tag false {} false)),
        .server 2 (.migrate 0 .resume), .server 2 (.migrate 0 (.tag false {} false)),
        .server 2 (.migrate 0 (.tag false {} false)), .server 2 (.migrate 0 (.tag false {} false)),
        .server 2 (.migrate 0 (.done true 1))]).map
      (fun cluster => (cluster.info.indexForShard 0,
        cluster.servers[0]?.map fun node => (node.running, node.shards.«at» 0))) =
      some (0, some (true, none)) := by
  decide

/-! ## Handlers keep the reference discipline in every cluster run

No change of the cluster state changes the number of shards, so every server routes keys to
shards by one function throughout a run, and the handlers' invariant of `Node` holds of every
server: a shard import only adds a handle to the registry. -/

theorem informAll_shardForKey (id : Nat) (shards : Shards) (info : ClusterInfo)
    (effects : List Effect) : (informAll id shards info effects).shardForKey = info.shardForKey := by
  induction effects generalizing shards info with
  | nil => rfl
  | cons effect effects ih =>
    cases effect <;> simp [informAll, ih, apply_ite ClusterInfo.shardForKey]

/-- Each handler keeps the reference discipline, and has released every reference it took once
it is gone. -/
structure HandlersSafe (node : Node) : Prop where
  disciplined : ∀ index, Disciplined (trace node.history (.handler index))
  released : ∀ (index : Nat) (handler : Handler), node.handlers[index]? = some handler →
    handler.deleted = true → ∀ shard, (trace node.history (.handler index)).count (.unref shard) =
      (trace node.history (.handler index)).count (.ref shard)

namespace Cluster

/-- Every server's handlers keep their invariant, over the routing of the cluster state. -/
def HandlersKept (cluster : Cluster) : Prop :=
  ∀ server ∈ cluster.servers, Node.HandlersInv cluster.info.shardForKey server

theorem HandlersKept.step {cluster next : Cluster} {event : ClusterEvent}
    (kept : cluster.HandlersKept) (stepped : cluster.step event = some next) :
    next.HandlersKept := by
  cases event with
  | server id event =>
    simp only [Cluster.step, Option.bind_eq_bind, Option.bind_eq_some, Option.some.injEq]
      at stepped
    obtain ⟨node, found, moved, stepped, rfl⟩ := stepped
    intro server mem
    simp only [informAll_shardForKey]
    rcases List.mem_or_eq_of_mem_set mem with old | rfl
    · exact kept server old
    · exact (kept node (List.getElem?_mem found)).step stepped
  | importShard id shard =>
    simp only [Cluster.step, Option.bind_eq_bind, Option.bind_eq_some] at stepped
    obtain ⟨node, found, entry, -, stepped⟩ := stepped
    split at stepped
    · cases stepped
    split at stepped <;> cases stepped
    · intro server mem
      rcases List.mem_or_eq_of_mem_set mem with old | rfl
      · exact kept server old
      · exact ⟨(kept node (List.getElem?_mem found)).handlers,
          (kept node (List.getElem?_mem found)).unborn⟩
    · exact kept
  | migrationOver id shard =>
    cases stepped
    intro server mem
    simpa using kept server mem

theorem HandlersKept.run {cluster final : Cluster} {events : List ClusterEvent}
    (kept : cluster.HandlersKept) (ran : cluster.run events = some final) : final.HandlersKept := by
  induction events generalizing cluster with
  | nil => exact Option.some.inj ran ▸ kept
  | cons event events ih =>
    obtain ⟨next, stepped, ran⟩ := Option.bind_eq_some.mp ran
    exact ih (kept.step stepped) ran

end Cluster

/-- However the servers' calls, their shard imports and the coordinator's writes interleave in a
cluster of servers `AsyncServer::Run` started, every handler of every server keeps the
reference discipline and has released all it took once it is gone. -/
theorem cluster_handlers_release {start final : Cluster} {events : List ClusterEvent}
    (fresh : ∀ server ∈ start.servers, server = { shards := server.shards })
    (ran : start.run events = some final) : ∀ server ∈ final.servers, HandlersSafe server := by
  have kept : start.HandlersKept := fun server mem => by
    rw [fresh server mem]
    exact Node.handlersInv_start server.shards
  intro server mem
  have inv := kept.run ran server mem
  exact ⟨inv.disciplined, fun _ _ found deleted => inv.released found deleted⟩

/-- Node 1 imports shard 0, and a put commits to it there. -/
def handoffEvents : List ClusterEvent :=
  [.importShard 1 0, .server 1 (.handler 0 (.put (.tag true ⟨[1], [2]⟩))),
    .server 1 (.handler 0 (.put .resume))]

theorem handoff_handlers_release :
    ∃ final, handoffCluster.run handoffEvents = some final ∧
      ∀ server ∈ final.servers, HandlersSafe server :=
  ⟨_, rfl, @cluster_handlers_release handoffCluster _ handoffEvents (by decide) rfl⟩

end Crocks.Server
