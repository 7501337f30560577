import Crocks.Proto.Info

/-!
# The cluster state's queries

`Info` wraps a `ClusterInfo` message with the queries and the changes the server, the client
and `crocksctl` make of it. The `Info` methods themselves are under `src/` (after
`src/client/cluster_impl.h`), but the `ClusterInfo` helper class they delegate to is not: the
definitions here follow the spec where the code that calls them does not pin them down, and
each says so.
-/

namespace Crocks.Proto

/-- One byte of the reflected CRC-32 (polynomial `0xEDB88320`). -/
def crc32Byte (crc : UInt32) (byte : UInt8) : UInt32 :=
  (List.range 8).foldl
    (fun crc _ => if crc &&& 1 = 1 then (crc >>> 1) ^^^ 0xEDB88320 else crc >>> 1)
    (crc ^^^ byte.toUInt32)

/-- The 32-bit CRC of a key's bytes. -/
def crc32 (bytes : List UInt8) : UInt32 :=
  bytes.foldl crc32Byte 0xFFFFFFFF ^^^ 0xFFFFFFFF

/-- Modelled from the spec: `ClusterInfo::ShardForKey` is not under `src/`. The spec pins the
routing function to a 32-bit CRC of the key bytes, modulo the number of shards. -/
def ClusterInfo.shardForKey (info : ClusterInfo) (key : List UInt8) : Nat :=
  (crc32 key).toNat % info.shards.length

/-- Modelled from the spec: `ClusterInfo::IndexForShard`, the shard's master. -/
def ClusterInfo.indexForShard (info : ClusterInfo) (shard : Nat) : Nat :=
  (info.shards.getD shard {}).master.toNat

/-- Modelled from the spec: `ClusterInfo::IndexForKey`, the master of the key's shard. -/
def ClusterInfo.indexForKey (info : ClusterInfo) (key : List UInt8) : Nat :=
  info.indexForShard (info.shardForKey key)

/-- Modelled from the spec: `ClusterInfo::Address(id)`, empty for a node the cluster does not
list. -/
def ClusterInfo.address (info : ClusterInfo) (id : Nat) : ProtoString :=
  (info.nodes.getD id {}).address

/-- Modelled from the spec: `ClusterInfo::IsAvailable(id)`. -/
def ClusterInfo.isAvailable (info : ClusterInfo) (id : Nat) : Bool :=
  (info.nodes.getD id {}).available

/-- Modelled from the spec: `ClusterInfo::IsHealthy()`, every shard's master is available. -/
def ClusterInfo.isHealthy (info : ClusterInfo) : Bool :=
  info.shards.all fun shard => info.isAvailable shard.master.toNat

/-- Modelled from the spec: `ClusterInfo::SetAvailable(id, available)`. -/
def ClusterInfo.setAvailable (info : ClusterInfo) (id : Nat) (available : Bool) : ClusterInfo :=
  { info with nodes := info.nodes.set id { info.nodes.getD id {} with available } }

@[simp] theorem ClusterInfo.shardForKey_setAvailable (info : ClusterInfo) (id : Nat)
    (available : Bool) : (info.setAvailable id available).shardForKey = info.shardForKey :=
  rfl

/-- Modelled from the spec: `ClusterInfo::IsRunning()`, the state is `RUNNING`. -/
def ClusterInfo.isRunning (info : ClusterInfo) : Bool :=
  info.state = 1

/-- Modelled from the spec: `ClusterInfo::NoMigrations()`, no shard is migrating. -/
def ClusterInfo.noMigrations (info : ClusterInfo) : Bool :=
  info.shards.all fun shard => !shard.migrating

/-- Modelled from the spec: `ClusterInfo::IsMigrating(shard)`, the shard's migration flag. -/
def ClusterInfo.isMigrating (info : ClusterInfo) (shard : Nat) : Bool :=
  (info.shards.getD shard {}).migrating

/-- Modelled from the spec: `ClusterInfo::SetRunning()`. -/
def ClusterInfo.setRunning (info : ClusterInfo) : ClusterInfo :=
  { info with state := 1 }

@[simp] theorem ClusterInfo.shardForKey_setRunning (info : ClusterInfo) :
    info.setRunning.shardForKey = info.shardForKey :=
  rfl

/-- Modelled from the spec: `ClusterInfo::GiveShard(id, shard)` makes the shard's recipient
(`to`) its master. -/
def ClusterInfo.giveShard (info : ClusterInfo) (shard : Nat) : ClusterInfo :=
  { info with shards := info.shards.modify (fun entry => { entry with master := entry.to }) shard }

@[simp] theorem ClusterInfo.shardForKey_giveShard (info : ClusterInfo) (shard : Nat) :
    (info.giveShard shard).shardForKey = info.shardForKey := by
  funext key
  simp [shardForKey, giveShard]

/-- Modelled from the spec: `ClusterInfo::MigrationOver(shard)` clears the shard's migration, and
the cluster runs again once no shard is migrating. -/
def ClusterInfo.migrationOver (info : ClusterInfo) (shard : Nat) : ClusterInfo :=
  let info := { info with
    shards := info.shards.modify
      (fun entry => { entry with migrating := false, «from» := 0, «to» := 0 }) shard }
  if info.noMigrations then info.setRunning else info

@[simp] theorem ClusterInfo.shardForKey_migrationOver (info : ClusterInfo) (shard : Nat) :
    (info.migrationOver shard).shardForKey = info.shardForKey := by
  funext key
  unfold migrationOver
  dsimp only
  split <;> simp [shardForKey, setRunning]

/-- Modelled from the spec: `ClusterInfo::MarkRemoveNode(id)` flags the node for removal. -/
def ClusterInfo.markRemoveNode (info : ClusterInfo) (id : Nat) : ClusterInfo :=
  { info with nodes := info.nodes.modify (fun node => { node with remove := true }) id }

/-- Modelled from the spec: `ClusterInfo::RemoveNode(id)` clears the node's address. -/
def ClusterInfo.removeNode (info : ClusterInfo) (id : Nat) : ClusterInfo :=
  { info with nodes := info.nodes.modify (fun node => { node with address := .empty }) id }

@[simp] theorem ClusterInfo.shardForKey_removeNode (info : ClusterInfo) (id : Nat) :
    (info.removeNode id).shardForKey = info.shardForKey :=
  rfl

/-! ## What the changes do to a shard's entry -/

theorem ClusterInfo.getD_shards_giveShard (info : ClusterInfo) (given shard : Nat) :
    (info.giveShard given).shards.getD shard {} =
      if given = shard then
        { info.shards.getD shard {} with master := (info.shards.getD shard {}).to }
      else info.shards.getD shard {} := by
  simp only [giveShard, List.getD_eq_getElem?_getD, List.getElem?_modify]
  cases info.shards[shard]? <;> split <;> rfl

theorem ClusterInfo.getD_shards_migrationOver (info : ClusterInfo) (over shard : Nat) :
    (info.migrationOver over).shards.getD shard {} =
      if over = shard then
        { info.shards.getD shard {} with migrating := false, «from» := 0, «to» := 0 }
      else info.shards.getD shard {} := by
  unfold migrationOver
  dsimp only
  split <;>
  · simp only [setRunning, List.getD_eq_getElem?_getD, List.getElem?_modify]
    cases info.shards[shard]? <;> split <;> rfl

/-- `GiveShard` makes the shard's recipient its master and changes no other master. -/
@[simp] theorem ClusterInfo.indexForShard_giveShard (info : ClusterInfo) (given shard : Nat) :
    (info.giveShard given).indexForShard shard =
      if given = shard then (info.shards.getD shard {}).to.toNat else info.indexForShard shard := by
  rw [indexForShard, getD_shards_giveShard]
  split <;> rfl

@[simp] theorem ClusterInfo.indexForShard_migrationOver (info : ClusterInfo) (over shard : Nat) :
    (info.migrationOver over).indexForShard shard = info.indexForShard shard := by
  rw [indexForShard, getD_shards_migrationOver]
  split <;> rfl

@[simp] theorem ClusterInfo.indexForShard_setAvailable (info : ClusterInfo) (id : Nat)
    (available : Bool) (shard : Nat) :
    (info.setAvailable id available).indexForShard shard = info.indexForShard shard :=
  rfl

@[simp] theorem ClusterInfo.indexForShard_removeNode (info : ClusterInfo) (id shard : Nat) :
    (info.removeNode id).indexForShard shard = info.indexForShard shard :=
  rfl

/-- `GiveShard` keeps where every shard goes. -/
theorem ClusterInfo.to_giveShard (info : ClusterInfo) (given shard : Nat) :
    ((info.giveShard given).shards.getD shard {}).to = (info.shards.getD shard {}).to := by
  rw [getD_shards_giveShard]
  split <;> rfl

@[simp] theorem ClusterInfo.isMigrating_giveShard (info : ClusterInfo) (given shard : Nat) :
    (info.giveShard given).isMigrating shard = info.isMigrating shard := by
  rw [isMigrating, getD_shards_giveShard]
  split <;> rfl

/-- `MigrationOver` ends the shard's migration and no other. -/
@[simp] theorem ClusterInfo.isMigrating_migrationOver (info : ClusterInfo) (over shard : Nat) :
    (info.migrationOver over).isMigrating shard =
      if over = shard then false else info.isMigrating shard := by
  rw [isMigrating, getD_shards_migrationOver]
  split <;> rfl

@[simp] theorem ClusterInfo.isMigrating_setAvailable (info : ClusterInfo) (id : Nat)
    (available : Bool) (shard : Nat) :
    (info.setAvailable id available).isMigrating shard = info.isMigrating shard :=
  rfl

@[simp] theorem ClusterInfo.isMigrating_removeNode (info : ClusterInfo) (id shard : Nat) :
    (info.removeNode id).isMigrating shard = info.isMigrating shard :=
  rfl

end Crocks.Proto
