import Crocks.Proto.Wire

/-!
# The cluster state message

`src/proto/info.proto` declares the blob `Info` stores under the coordinator's info key:
a `ClusterInfo` with the cluster's state, its nodes and its shards. The library writes a
proto3 message field by field in field-number order and leaves out every field that holds
its default value; a repeated message field is written once per element. Reading folds the
fields read into the default message: a scalar is replaced, a repeated element appended,
and a field the schema does not know (or of an unexpected wire type) is skipped.

A `string` field holds the bytes of a `std::string`, which the writer copies as they are, but
the proto3 parser refuses a `string` field that is not UTF-8. The round trip
(`serialize_roundtrip`) therefore holds for every cluster state whose addresses are UTF-8
(`ClusterInfo.utf8`), and a state with an address that is not is written to a blob that no
`Parse` reads back (`non_utf8_address_unparsed`).
-/

namespace Crocks.Proto

/-- Unicode's well-formed byte sequences (Table 3-7), by lead byte: how many bytes follow it
and the range of the first of them; every later byte lies in `0x80` to `0xBF`. -/
def utf8Sequence (lead : UInt8) : Option (Nat × UInt8 × UInt8) :=
  if lead < 0x80 then some (0, 0, 0)
  else if 0xC2 ≤ lead ∧ lead ≤ 0xDF then some (1, 0x80, 0xBF)
  else if lead = 0xE0 then some (2, 0xA0, 0xBF)
  else if 0xE1 ≤ lead ∧ lead ≤ 0xEC then some (2, 0x80, 0xBF)
  else if lead = 0xED then some (2, 0x80, 0x9F)
  else if 0xEE ≤ lead ∧ lead ≤ 0xEF then some (2, 0x80, 0xBF)
  else if lead = 0xF0 then some (3, 0x90, 0xBF)
  else if 0xF1 ≤ lead ∧ lead ≤ 0xF3 then some (3, 0x80, 0xBF)
  else if lead = 0xF4 then some (3, 0x80, 0x8F)
  else none

/-- Check the sequences of a byte list, at most `fuel` of them. -/
def validUtf8From : Nat → List UInt8 → Bool
  | _, [] => true
  | 0, _ :: _ => false
  | fuel + 1, lead :: rest =>
    match utf8Sequence lead with
    | none => false
    | some (count, low, high) =>
      decide (count ≤ rest.length) &&
        (count == 0 || rest.head?.all fun first => low ≤ first && first ≤ high) &&
        ((rest.take count).drop 1).all (fun byte => 0x80 ≤ byte && byte ≤ 0xBF) &&
        validUtf8From fuel (rest.drop count)

/-- `IsStructurallyValidUTF8`, which the parser applies to every proto3 `string` field. -/
def validUtf8 (bytes : List UInt8) : Bool :=
  validUtf8From bytes.length bytes

/-- A `std::string` in a proto3 `string` field: any bytes. -/
structure ProtoString where
  /-- The bytes of the `std::string`. -/
  bytes : List UInt8
  deriving DecidableEq

/-- The empty string, a string field's default. -/
def ProtoString.empty : ProtoString := ⟨[]⟩

/-- `crocks.pb.NodeInfo`. -/
structure NodeInfo where
  /-- `host:port`, empty once the node has removed itself. -/
  address : ProtoString := .empty
  id : BitVec 32 := 0
  numShards : BitVec 32 := 0
  available : Bool := false
  remove : Bool := false
  deriving DecidableEq

/-- `crocks.pb.ShardInfo`. -/
structure ShardInfo where
  master : BitVec 32 := 0
  migrating : Bool := false
  «from» : BitVec 32 := 0
  «to» : BitVec 32 := 0
  deriving DecidableEq

/-- `crocks.pb.ClusterInfo`. `state` holds the number of a `ClusterInfo.State` value
(`INIT` 0, `RUNNING` 1, `MIGRATING` 2); a proto3 enum field keeps any number it reads. -/
structure ClusterInfo where
  state : BitVec 32 := 0
  numNodes : BitVec 32 := 0
  nodes : List NodeInfo := []
  shards : List ShardInfo := []
  deriving DecidableEq

/-! ## Writing -/

/-- `WriteInt32` (and `WriteEnum`) of a field that is not zero: a negative value is sign
extended to 64 bits and takes ten bytes. -/
def int32Field (number : Nat) (value : BitVec 32) : List Field :=
  if value = 0 then [] else [⟨number, .varint (value.signExtend 64).toNat⟩]

/-- `WriteBool` of a field that is set. -/
def boolField (number : Nat) (value : Bool) : List Field :=
  if value then [⟨number, .varint 1⟩] else []

/-- `WriteString` of a field that is not empty. -/
def stringField (number : Nat) (value : ProtoString) : List Field :=
  if value.bytes = [] then [] else [⟨number, .lengthDelimited value.bytes⟩]

/-- The fields of a `NodeInfo`, in field-number order. -/
def NodeInfo.fields (node : NodeInfo) : List Field :=
  stringField 1 node.address ++ int32Field 2 node.id ++ int32Field 3 node.numShards ++
    boolField 4 node.available ++ boolField 5 node.remove

/-- The fields of a `ShardInfo`, in field-number order. -/
def ShardInfo.fields (shard : ShardInfo) : List Field :=
  int32Field 1 shard.master ++ boolField 2 shard.migrating ++ int32Field 3 shard.«from» ++
    int32Field 4 shard.«to»

/-- `NodeInfo::SerializeToString`. -/
def NodeInfo.serialize (node : NodeInfo) : List UInt8 := writeFields node.fields

/-- `ShardInfo::SerializeToString`. -/
def ShardInfo.serialize (shard : ShardInfo) : List UInt8 := writeFields shard.fields

/-- The fields of a `ClusterInfo`: each node and each shard is an embedded message. -/
def ClusterInfo.fields (info : ClusterInfo) : List Field :=
  int32Field 1 info.state ++ int32Field 2 info.numNodes ++
    info.nodes.map (fun node => ⟨3, .lengthDelimited node.serialize⟩) ++
    info.shards.map (fun shard => ⟨4, .lengthDelimited shard.serialize⟩)

/-- `ClusterInfo::Serialize`, the blob stored under the info key. -/
def ClusterInfo.serialize (info : ClusterInfo) : List UInt8 := writeFields info.fields

/-- Whether every node's address is UTF-8, as the parser asks of a `string` field. -/
def ClusterInfo.utf8 (info : ClusterInfo) : Bool :=
  info.nodes.all fun node => validUtf8 node.address.bytes

/-! ## Reading -/

/-- `NodeInfo::MergePartialFromCodedStream`, one field. -/
def NodeInfo.mergeField (node : NodeInfo) : Field → Option NodeInfo
  | ⟨1, .lengthDelimited payload⟩ =>
    if validUtf8 payload then some { node with address := ⟨payload⟩ } else none
  | ⟨2, .varint value⟩ => some { node with id := .ofNat 32 value }
  | ⟨3, .varint value⟩ => some { node with numShards := .ofNat 32 value }
  | ⟨4, .varint value⟩ => some { node with available := value != 0 }
  | ⟨5, .varint value⟩ => some { node with remove := value != 0 }
  | _ => some node

/-- `ShardInfo::MergePartialFromCodedStream`, one field. -/
def ShardInfo.mergeField (shard : ShardInfo) : Field → Option ShardInfo
  | ⟨1, .varint value⟩ => some { shard with master := .ofNat 32 value }
  | ⟨2, .varint value⟩ => some { shard with migrating := value != 0 }
  | ⟨3, .varint value⟩ => some { shard with «from» := .ofNat 32 value }
  | ⟨4, .varint value⟩ => some { shard with «to» := .ofNat 32 value }
  | _ => some shard

/-- `NodeInfo::ParseFromString`. -/
def NodeInfo.parse (bytes : List UInt8) : Option NodeInfo :=
  (readMessage bytes).bind fun fields => fields.foldlM NodeInfo.mergeField {}

/-- `ShardInfo::ParseFromString`. -/
def ShardInfo.parse (bytes : List UInt8) : Option ShardInfo :=
  (readMessage bytes).bind fun fields => fields.foldlM ShardInfo.mergeField {}

/-- `ClusterInfo::MergePartialFromCodedStream`, one field: an embedded node or shard that does
not parse fails the whole message. -/
def ClusterInfo.mergeField (info : ClusterInfo) : Field → Option ClusterInfo
  | ⟨1, .varint value⟩ => some { info with state := .ofNat 32 value }
  | ⟨2, .varint value⟩ => some { info with numNodes := .ofNat 32 value }
  | ⟨3, .lengthDelimited payload⟩ =>
    (NodeInfo.parse payload).map fun node => { info with nodes := info.nodes ++ [node] }
  | ⟨4, .lengthDelimited payload⟩ =>
    (ShardInfo.parse payload).map fun shard => { info with shards := info.shards ++ [shard] }
  | _ => some info

/-- `ClusterInfo::Parse`, reading a blob of the info key. -/
def ClusterInfo.parse (bytes : List UInt8) : Option ClusterInfo :=
  (readMessage bytes).bind fun fields => fields.foldlM ClusterInfo.mergeField {}

/-! ## Round trip -/

/-- Sign extension to 64 bits keeps the low 32 bits, so an `int32` is read back from its
varint. -/
@[simp] theorem setWidth_signExtend (value : BitVec 32) :
    (value.signExtend 64).setWidth 32 = value := by
  ext bit
  simp [BitVec.getLsbD_setWidth, BitVec.getLsbD_signExtend]
  omega

theorem int32Field_valid (number : Nat) (value : BitVec 32) (positive : 0 < number)
    (small : number < 2 ^ 29) : ∀ field ∈ int32Field number value, field.Valid := by
  unfold int32Field
  split
  · simp
  · simp only [List.mem_singleton, forall_eq]
    exact ⟨positive, small, (value.signExtend 64).isLt⟩

theorem boolField_valid (number : Nat) (value : Bool) (positive : 0 < number)
    (small : number < 2 ^ 29) : ∀ field ∈ boolField number value, field.Valid := by
  unfold boolField
  split
  · simp only [List.mem_singleton, forall_eq]
    exact ⟨positive, small, show 1 < 2 ^ 64 by decide⟩
  · simp

theorem stringField_valid (number : Nat) (value : ProtoString) (positive : 0 < number)
    (small : number < 2 ^ 29) : ∀ field ∈ stringField number value, field.Valid := by
  unfold stringField
  split
  · simp
  · simp only [List.mem_singleton, forall_eq]
    exact ⟨positive, small, trivial⟩

section Merge

variable {Message : Type} (merge : Message → Field → Option Message) (start : Message)

/-- Merging an `int32` field into a message whose field is still zero stores its value. -/
theorem foldlM_int32Field (number : Nat) (value : BitVec 32) (store : BitVec 32 → Message)
    (stored : ∀ raw, merge start ⟨number, .varint raw⟩ = some (store (.ofNat 32 raw)))
    (unset : store 0 = start) :
    (int32Field number value).foldlM merge start = some (store value) := by
  unfold int32Field
  split
  · simp_all
  · simp [stored]

/-- Merging a `bool` field into a message whose field is still false stores its value. -/
theorem foldlM_boolField (number : Nat) (value : Bool) (store : Bool → Message)
    (stored : ∀ raw, merge start ⟨number, .varint raw⟩ = some (store (raw != 0)))
    (unset : store false = start) :
    (boolField number value).foldlM merge start = some (store value) := by
  cases value <;> simp [boolField, stored, unset]

/-- Merging a UTF-8 `string` field into a message whose field is still empty stores its value. -/
theorem foldlM_stringField (number : Nat) (value : ProtoString) (store : ProtoString → Message)
    (stored : ∀ payload, validUtf8 payload = true →
      merge start ⟨number, .lengthDelimited payload⟩ = some (store ⟨payload⟩))
    (unset : store .empty = start) (valid : validUtf8 value.bytes = true) :
    (stringField number value).foldlM merge start = some (store value) := by
  obtain ⟨bytes⟩ := value
  unfold stringField
  split
  · rename_i empty
    simp only at empty
    subst empty
    simpa using unset.symm
  · simp [stored _ valid]

end Merge

/-- A node at a UTF-8 address is rebuilt from its fields. -/
theorem NodeInfo.foldlM_fields (node : NodeInfo) (valid : validUtf8 node.address.bytes = true) :
    node.fields.foldlM mergeField {} = some node := by
  obtain ⟨address, id, numShards, available, remove⟩ := node
  simp only [fields, List.foldlM_append]
  rw [foldlM_stringField mergeField {} 1 address (fun value => { address := value })
    (fun _ valid => if_pos valid) rfl valid]
  simp only [Option.bind_eq_bind, Option.some_bind]
  rw [foldlM_int32Field mergeField { address } 2 id (fun value => { address, id := value })
    (fun _ => rfl) rfl]
  simp only [Option.some_bind]
  rw [foldlM_int32Field mergeField { address, id } 3 numShards
    (fun value => { address, id, numShards := value }) (fun _ => rfl) rfl]
  simp only [Option.some_bind]
  rw [foldlM_boolField mergeField { address, id, numShards } 4 available
    (fun value => { address, id, numShards, available := value })
    (fun _ => rfl) rfl]
  simp only [Option.some_bind]
  exact foldlM_boolField mergeField { address, id, numShards, available } 5 remove _
    (fun _ => rfl) rfl

/-- A shard is rebuilt from its fields. -/
theorem ShardInfo.foldlM_fields (shard : ShardInfo) :
    shard.fields.foldlM mergeField {} = some shard := by
  obtain ⟨master, migrating, source, target⟩ := shard
  simp only [fields, List.foldlM_append]
  rw [foldlM_int32Field mergeField {} 1 master (fun value => { master := value })
    (fun _ => rfl) rfl]
  simp only [Option.bind_eq_bind, Option.some_bind]
  rw [foldlM_boolField mergeField { master } 2 migrating
    (fun value => { master, migrating := value }) (fun _ => rfl) rfl]
  simp only [Option.some_bind]
  rw [foldlM_int32Field mergeField { master, migrating } 3 source
    (fun value => { master, migrating, «from» := value }) (fun _ => rfl) rfl]
  simp only [Option.some_bind]
  exact foldlM_int32Field mergeField { master, migrating, «from» := source } 4 target _
    (fun _ => rfl) rfl

theorem NodeInfo.fields_valid (node : NodeInfo) : ∀ field ∈ node.fields, field.Valid := by
  simp only [fields, List.mem_append]
  rintro field ((((mem | mem) | mem) | mem) | mem)
  · exact stringField_valid 1 _ (by decide) (by decide) field mem
  · exact int32Field_valid 2 _ (by decide) (by decide) field mem
  · exact int32Field_valid 3 _ (by decide) (by decide) field mem
  · exact boolField_valid 4 _ (by decide) (by decide) field mem
  · exact boolField_valid 5 _ (by decide) (by decide) field mem

theorem ShardInfo.fields_valid (shard : ShardInfo) : ∀ field ∈ shard.fields, field.Valid := by
  simp only [fields, List.mem_append]
  rintro field (((mem | mem) | mem) | mem)
  · exact int32Field_valid 1 _ (by decide) (by decide) field mem
  · exact boolField_valid 2 _ (by decide) (by decide) field mem
  · exact int32Field_valid 3 _ (by decide) (by decide) field mem
  · exact int32Field_valid 4 _ (by decide) (by decide) field mem

theorem ClusterInfo.fields_valid (info : ClusterInfo) : ∀ field ∈ info.fields, field.Valid := by
  simp only [fields, List.mem_append, List.mem_map]
  rintro field (((mem | mem) | ⟨node, -, rfl⟩) | ⟨shard, -, rfl⟩)
  · exact int32Field_valid 1 _ (by decide) (by decide) field mem
  · exact int32Field_valid 2 _ (by decide) (by decide) field mem
  · simp [Field.Valid, WireValue.Valid]
  · simp [Field.Valid, WireValue.Valid]

theorem NodeInfo.parse_serialize (node : NodeInfo) (valid : validUtf8 node.address.bytes = true) :
    parse node.serialize = some node := by
  simp only [parse, serialize, readMessage_writeFields _ node.fields_valid, Option.some_bind,
    foldlM_fields node valid]

@[simp] theorem ShardInfo.parse_serialize (shard : ShardInfo) :
    parse shard.serialize = some shard := by
  simp only [parse, serialize, readMessage_writeFields _ shard.fields_valid, Option.some_bind,
    foldlM_fields]

/-- The embedded nodes at UTF-8 addresses are appended in order. -/
theorem ClusterInfo.foldlM_nodes (nodes : List NodeInfo) (info : ClusterInfo)
    (valid : nodes.all (fun node => validUtf8 node.address.bytes) = true) :
    (nodes.map fun node => (⟨3, .lengthDelimited node.serialize⟩ : Field)).foldlM mergeField
      info = some { info with nodes := info.nodes ++ nodes } := by
  induction nodes generalizing info with
  | nil => simp
  | cons node nodes ih =>
    simp only [List.all_cons, Bool.and_eq_true] at valid
    simp [mergeField, NodeInfo.parse_serialize node valid.1, ih _ valid.2]

/-- The embedded shards are appended in order. -/
theorem ClusterInfo.foldlM_shards (shards : List ShardInfo) (info : ClusterInfo) :
    (shards.map fun shard => (⟨4, .lengthDelimited shard.serialize⟩ : Field)).foldlM mergeField
      info = some { info with shards := info.shards ++ shards } := by
  induction shards generalizing info with
  | nil => simp
  | cons shard shards ih => simp [mergeField, ih]

/-- A cluster state whose addresses are UTF-8 is rebuilt from its fields. -/
theorem ClusterInfo.foldlM_fields (info : ClusterInfo) (valid : info.utf8 = true) :
    info.fields.foldlM mergeField {} = some info := by
  obtain ⟨state, numNodes, nodes, shards⟩ := info
  simp only [fields, List.foldlM_append]
  rw [foldlM_int32Field mergeField {} 1 state (fun value => { state := value })
    (fun _ => rfl) rfl]
  simp only [Option.bind_eq_bind, Option.some_bind]
  rw [foldlM_int32Field mergeField { state } 2 numNodes
    (fun value => { state, numNodes := value }) (fun _ => rfl) rfl]
  simp [foldlM_nodes _ _ valid, foldlM_shards]

/-- Parsing a serialized cluster state whose addresses are UTF-8 gives it back. -/
theorem ClusterInfo.parse_serialize (info : ClusterInfo) (valid : info.utf8 = true) :
    parse info.serialize = some info := by
  simp only [parse, serialize, readMessage_writeFields _ info.fields_valid, Option.some_bind,
    foldlM_fields info valid]

/-- Both laws of the blob under the info key, for every cluster state whose addresses are UTF-8:
parsing a serialized state gives it back, and re-serializing a parsed blob of the writer gives
the blob back. -/
theorem serialize_roundtrip :
    (∀ info : ClusterInfo, info.utf8 = true → ClusterInfo.parse info.serialize = some info) ∧
      ∀ info : ClusterInfo, info.utf8 = true →
        (ClusterInfo.parse info.serialize).map ClusterInfo.serialize = some info.serialize :=
  ⟨ClusterInfo.parse_serialize, fun info valid => by
    rw [ClusterInfo.parse_serialize info valid]; rfl⟩

/-- A running cluster of one available node at address `a`. -/
def utf8AddressInfo : ClusterInfo :=
  { state := 1, nodes := [{ address := ⟨[0x61]⟩, available := true }] }

/-- The cluster at address `a` is read back from its blob. -/
theorem utf8_address_roundtrip :
    utf8AddressInfo.utf8 = true ∧
      ClusterInfo.parse utf8AddressInfo.serialize = some utf8AddressInfo :=
  ⟨by decide, serialize_roundtrip.1 _ (by decide)⟩

/-- The same cluster with its node at the one byte `0xFF`, which is not UTF-8. -/
def nonUtf8AddressInfo : ClusterInfo :=
  { state := 1, nodes := [{ address := ⟨[0xFF]⟩, available := true }] }

/-- The writer copies the address as it is, and the parser refuses the blob it wrote. -/
theorem non_utf8_address_unparsed :
    nonUtf8AddressInfo.serialize = [8, 1, 26, 5, 10, 1, 255, 32, 1] ∧
      ClusterInfo.parse nonUtf8AddressInfo.serialize = none := by
  have blob : nonUtf8AddressInfo.serialize = [8, 1, 26, 5, 10, 1, 255, 32, 1] := by
    simp [nonUtf8AddressInfo, ClusterInfo.serialize, ClusterInfo.fields, NodeInfo.serialize,
      NodeInfo.fields, writeFields, Field.write, WireValue.write, WireValue.wireType, int32Field,
      boolField, stringField, writeVarint_of_lt]
  exact ⟨blob, by rw [blob]; decide⟩

end Crocks.Proto
