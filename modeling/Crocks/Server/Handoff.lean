import Crocks.Server.MigrateCall
import Crocks.Common.Coordinator

/-!
# The handoff of a shard

`AsyncServer::WatchThread` imports each shard that `Info::Tasks()` lists for its node. It opens a
`Migrate` stream to the donor and sends the request. It reads the donor's empty acknowledgement,
then waits until its own copy of the cluster state names it the shard's master. Then it reads
the chunks the donor streams, up to one marked `finished`, writes the request again as a
confirmation, and declares the migration over with `Info::MigrationOver`. The donor's side is
the `MigrateCall` of `Crocks.Server.MigrateCall`. Here the two sides run against each other over
one stream, with the coordinator's key between them.

The stream delivers in order in each direction. A side's read fails once the call is over for
it: for the recipient once the donor's status has come or the connection broke, and for the
donor once the connection broke or the recipient left the task (its `ClientContext` goes, which
cancels the call). A broken connection loses what was in flight. The recipient's `Info` methods
run on its watch thread, between its own `WatchNext` calls, so each is one step: its
compare-and-swap loop takes effect at the write that succeeds, on the state it read. The donor's
`Info` methods run on its `Run` thread beside its watcher; they are one step here too, which
leaves out the lagging watch event of `Crocks.Common.Coordinator`. The donor's handlers are not
part of this model, so `WaitRefs` may return at any time, and a broken connection always ends
the stream with `UNAVAILABLE`. What `ShardMigrator::ReadChunk` gives after `DumpShard` is a
parameter of the import, and `ShardImporter::WriteChunk` records what it is given.
-/

namespace Crocks.Server

open Crocks.Proto

/-- `pb::MigrateResponse` of `info.proto`: `WatchThread` reads `finished`, and `chunk` stands for
what `ShardImporter::WriteChunk` takes; `eof` and `largest_key`, which only the importer reads,
are left out. -/
structure MigrateResponse where
  finished : Bool := false
  chunk : List UInt8 := []
  deriving DecidableEq, Repr

/-- The status codes a `Migrate` stream ends with: the donor's `Finish(Status::OK)`, its
`Finish(invalid_status)`, and a broken connection. -/
inductive GrpcCode where
  | OK
  | INVALID_ARGUMENT
  | UNAVAILABLE
  deriving DecidableEq, Repr

/-- The `Migrate` stream between the recipient's `WatchThread` and the donor's `MigrateCall`. The
last four fields are ghost: they record what each side wrote and read. -/
structure Stream where
  /-- `stub->Migrate(&context)` has started the call. -/
  opened : Bool := false
  /-- What the recipient wrote that the donor has not read. -/
  toDonor : List MigrateRequest := []
  /-- What the donor wrote that the recipient has not read. -/
  toRecipient : List MigrateResponse := []
  /-- The status of the donor's `Finish`, once it reached the recipient. -/
  status : Option GrpcCode := none
  /-- The recipient has left the task, and its `ClientContext` with it. -/
  closed : Bool := false
  /-- The connection broke. -/
  broken : Bool := false
  /-- Every response the donor wrote, in order. -/
  sent : List MigrateResponse := []
  /-- Every response the recipient read, in order. -/
  received : List MigrateResponse := []
  /-- How many requests the recipient wrote. -/
  requestsWritten : Nat := 0
  /-- How many requests the donor read. -/
  requestsRead : Nat := 0
  deriving DecidableEq, Repr

namespace Stream

/-- Whether the call is over for the recipient: the donor's status came, or the connection
broke. -/
def over (stream : Stream) : Bool :=
  stream.broken || stream.status.isSome

/-- The recipient's `Write(request)`, or `none` when it fails on a call that is over. -/
def write (stream : Stream) (request : MigrateRequest) : Option Stream :=
  if stream.over then none
  else some { stream with
    toDonor := stream.toDonor ++ [request], requestsWritten := stream.requestsWritten + 1 }

/-- The recipient's `Read`: the next response with the stream after it, `some none` when the read
fails on a call that is over, and `none` while it blocks. -/
def read (stream : Stream) : Option (Option (MigrateResponse × Stream)) :=
  match stream.toRecipient with
  | response :: rest =>
    some (some (response,
      { stream with toRecipient := rest, received := stream.received ++ [response] }))
  | [] => if stream.over then some none else none

/-- What the recipient's `Finish()` returns, or `none` while it blocks. -/
def finished (stream : Stream) : Option GrpcCode :=
  match stream.status with
  | some code => some code
  | none => if stream.broken then some .UNAVAILABLE else none

/-- The donor's `Write(response)`, lost on a broken connection. -/
def send (stream : Stream) (response : MigrateResponse) : Stream :=
  { stream with
    toRecipient := if stream.broken then stream.toRecipient else stream.toRecipient ++ [response]
    sent := stream.sent ++ [response] }

/-- The donor's `Finish(status)`, whose status reaches a recipient still in the call. -/
def finish (stream : Stream) (code : GrpcCode) : Stream :=
  if stream.broken || stream.closed then stream else { stream with status := some code }

end Stream

/-! ## What each operation of a stream does -/

namespace Stream

/-- A read that brings a response takes the head of what is in flight to the recipient. -/
theorem read_eq_message {stream : Stream} {response : MigrateResponse} {next : Stream}
    (read : stream.read = some (some (response, next))) :
    ∃ rest, stream.toRecipient = response :: rest ∧
      next = { stream with toRecipient := rest, received := stream.received ++ [response] } := by
  unfold Stream.read at read
  split at read
  · cases read
    exact ⟨_, ‹_›, rfl⟩
  · split at read <;> cases read

/-- A read fails only with nothing in flight, on a call over for the recipient. -/
theorem read_eq_failed {stream : Stream} (read : stream.read = some none) :
    stream.toRecipient = [] ∧ stream.over = true := by
  unfold Stream.read at read
  split at read
  · cases read
  · split at read
    · exact ⟨‹_›, ‹_›⟩
    · cases read

/-- `Finish()` returns any code but `UNAVAILABLE` only as the donor's own status. -/
theorem status_of_finished {stream : Stream} {code : GrpcCode}
    (finished : stream.finished = some code) (available : code ≠ .UNAVAILABLE) :
    stream.status = some code := by
  unfold Stream.finished at finished
  split at finished
  · exact finished ▸ ‹_›
  · split at finished
    · cases finished
      exact absurd rfl available
    · cases finished

/-- The donor's `Finish` leaves what is in flight to the recipient as it is. -/
@[simp] theorem finish_toRecipient (stream : Stream) (code : GrpcCode) :
    (stream.finish code).toRecipient = stream.toRecipient := by
  unfold finish
  split <;> rfl

/-- The donor's `Finish` does not break the connection. -/
@[simp] theorem finish_broken (stream : Stream) (code : GrpcCode) :
    (stream.finish code).broken = stream.broken := by
  unfold finish
  split <;> rfl

/-- A write that succeeds puts the request in flight to the donor. -/
theorem write_eq_some {stream next : Stream} {request : MigrateRequest}
    (written : stream.write request = some next) :
    stream.over = false ∧ next = { stream with
      toDonor := stream.toDonor ++ [request], requestsWritten := stream.requestsWritten + 1 } := by
  unfold write at written
  split at written
  · cases written
  · rename_i open_
    exact ⟨by simpa using open_, (Option.some.inj written).symm⟩

/-- A write fails only on a call over for the recipient. -/
theorem write_eq_none {stream : Stream} {request : MigrateRequest}
    (failed : stream.write request = none) : stream.over = true := by
  unfold write at failed
  split at failed
  · assumption
  · cases failed

/-- A read blocks only with nothing in flight, on a call still live for the recipient. -/
theorem read_eq_none {stream : Stream} (blocked : stream.read = none) :
    stream.toRecipient = [] ∧ stream.over = false := by
  unfold Stream.read at blocked
  split at blocked
  · cases blocked
  · split at blocked
    · cases blocked
    · rename_i live
      exact ⟨‹_›, Bool.eq_false_iff.mpr live⟩

/-- `Finish()` returns exactly once the call is over for the recipient. -/
theorem finished_isSome (stream : Stream) : stream.finished.isSome = stream.over := by
  unfold finished over
  cases stream.status <;> cases stream.broken <;> rfl

end Stream

/-- Where `WatchThread` is in its import of the shard. -/
inductive ImportStatus where
  /-- About to check the donor's availability, create the shard and send the request. -/
  | REQUEST
  /-- In the first `Read`, for the donor's acknowledgement. -/
  | ACK
  /-- In the loop over `WatchNext` until `info_` names this node the shard's master. -/
  | WAIT_MASTER
  /-- In the second `Read`, for the first chunk. -/
  | FIRST
  /-- At the top of the loop over the chunks, with a response to handle. -/
  | CHUNK
  /-- In the loop's `Read`. -/
  | READ
  /-- About to write the request again, as the confirmation. -/
  | CONFIRM
  /-- In `Finish()`. -/
  | FINISH
  /-- In `MigrationOver`'s loop over `WatchNext` until `info_` shows the migration over:
  `confirmed` after a stream that finished `OK`, and not after `INVALID_ARGUMENT`. -/
  | OVER (confirmed : Bool)
  /-- Gone on to the next task. -/
  | LEFT
  /-- Stopped by `EnsureRpc`. -/
  | EXITED
  /-- `set_importing(false)`: the shard is imported. -/
  | IMPORTED
  deriving DecidableEq, Repr

/-- The recipient: `info_`, how many of the key's writes its watcher has parsed, its registry, the
response it holds, and every response it gave `ShardImporter::WriteChunk`. -/
structure Recipient where
  status : ImportStatus := .REQUEST
  info : ClusterInfo
  seen : Nat := 0
  shards : Shards
  response : MigrateResponse := {}
  imported : List MigrateResponse := []
  deriving DecidableEq

/-- An import under way: the coordinator's key and the state each write to it left, in order;
the recipient; the donor's call, its registry, and what `ShardMigrator::ReadChunk` has yet to
give; and the stream. -/
structure Handoff where
  key : ClusterInfo
  writes : List ClusterInfo := []
  recipient : Recipient
  donor : MigrateCall := {}
  donorShards : Shards
  pending : List MigrateResponse := []
  stream : Stream := {}
  deriving DecidableEq

/-- What an import is about: the recipient's and the donor's ids, the shard, the recipient's
`importer.num()`, and the responses `ShardMigrator::ReadChunk` gives after `DumpShard`. -/
structure Transfer where
  recipient : Nat
  donor : Nat
  shard : Nat
  startFrom : Nat := 0
  dump : List MigrateResponse

/-- The request `WatchThread` sends: `set_shard(shard_id)`, `set_start_from(importer.num())`. -/
def Transfer.request (transfer : Transfer) : MigrateRequest :=
  ⟨transfer.shard, transfer.startFrom⟩

/-- A step of the import. -/
inductive HandoffEvent where
  /-- `WatchThread` takes its next step. -/
  | recipient
  /-- The donor's outstanding operation completes, and `Proceed` runs. -/
  | donor
  /-- The donor's migrate thread returns from `WaitRefs`. -/
  | resume
  /-- The donor's call is done. -/
  | done
  /-- The connection breaks. -/
  | fail
  deriving DecidableEq, Repr

namespace Handoff

variable (transfer : Transfer)

/-- A write to the info key. -/
def publish (handoff : Handoff) (info : ClusterInfo) : Handoff :=
  { handoff with key := info, writes := handoff.writes ++ [info] }

/-- A method of the recipient's `Info`: `Get()` refreshes `info_`, and the method writes its
change unless what it read settles it. -/
def recipientCalls (handoff : Handoff) (mutation : Mutation) : Handoff :=
  if mutation.settled handoff.key then
    { handoff with recipient := { handoff.recipient with info := handoff.key } }
  else
    let info := mutation.change handoff.key
    { handoff.publish info with recipient := { handoff.recipient with info } }

/-- A method of the donor's `Info`. -/
def donorCalls (handoff : Handoff) (mutation : Mutation) : Handoff :=
  if mutation.settled handoff.key then handoff else handoff.publish (mutation.change handoff.key)

/-- The recipient moves on in its import. -/
def moveTo (handoff : Handoff) (status : ImportStatus) : Handoff :=
  { handoff with recipient := { handoff.recipient with status } }

/-- The recipient leaves the task, and the stream's context with it. -/
def leave (handoff : Handoff) (status : ImportStatus) : Handoff :=
  { handoff.moveTo status with stream := { handoff.stream with closed := true } }

/-- `HandleError(status, node_id)`, after which the recipient leaves the task: `UNAVAILABLE` marks
the donor unavailable, and `EnsureRpc` stops the process on any other error. -/
def handleError (handoff : Handoff) : GrpcCode → Handoff
  | .OK => handoff.leave .LEFT
  | .UNAVAILABLE => (handoff.recipientCalls (.setAvailable transfer.donor false)).leave .LEFT
  | .INVALID_ARGUMENT => handoff.leave .EXITED

/-- `MigrationOver(importer, shard_id)` up to its wait: `Info::MigrationOver(shard_id)`. -/
def announce (handoff : Handoff) (confirmed : Bool) : Handoff :=
  (handoff.recipientCalls (.migrationOver transfer.shard)).moveTo (.OVER confirmed)

/-- `Info::WatchNext`: the watcher parses the key's next write into `info_`, or blocks. -/
def watchNext (handoff : Handoff) : Option Handoff := do
  let info ← handoff.writes[handoff.recipient.seen]?
  some { handoff with
    recipient := { handoff.recipient with info, seen := handoff.recipient.seen + 1 } }

/-- A `Read(&response)` of the recipient: on a response it moves to `next`, on a failed read it
does `failed`, and otherwise it blocks. -/
def readThen (handoff : Handoff) (next : ImportStatus) (failed : Option Handoff) :
    Option Handoff :=
  match handoff.stream.read with
  | some (some (response, stream)) =>
    some { handoff with stream, recipient := { handoff.recipient with response, status := next } }
  | some none => failed
  | none => none

/-- The step `WatchThread` takes next in its import of the shard, or `none` while it blocks and
once it has left. -/
def recipientStep (handoff : Handoff) : Option Handoff :=
  let recipient := handoff.recipient
  match recipient.status with
  | .REQUEST =>
    if !recipient.info.isAvailable transfer.donor then some (handoff.leave .LEFT)
    else
      let shards :=
        if recipient.info.indexForShard transfer.shard ≠ transfer.recipient ∧
            recipient.shards.«at» transfer.shard = none then
          recipient.shards.add transfer.shard
        else recipient.shards
      let handoff := { handoff with
        recipient := { recipient with shards }, stream := { handoff.stream with opened := true } }
      match handoff.stream.write transfer.request with
      | some stream => some { handoff.moveTo .ACK with stream }
      | none => handoff.stream.finished.map (handoff.handleError transfer)
  | .ACK =>
    handoff.readThen .WAIT_MASTER (handoff.stream.finished.map fun code =>
      if code = .INVALID_ARGUMENT then handoff.announce transfer false
      else handoff.handleError transfer code)
  | .WAIT_MASTER =>
    if recipient.info.indexForShard transfer.shard = transfer.recipient then
      some (handoff.moveTo .FIRST)
    else handoff.watchNext
  | .FIRST => handoff.readThen .CHUNK (handoff.stream.finished.map (handoff.handleError transfer))
  | .CHUNK =>
    if recipient.response.finished then some (handoff.moveTo .CONFIRM)
    else some { handoff with
      recipient := { recipient with
        imported := recipient.imported ++ [recipient.response], status := .READ } }
  | .READ => handoff.readThen .CHUNK (some (handoff.moveTo .CONFIRM))
  | .CONFIRM =>
    some { handoff.moveTo .FINISH with
      stream := (handoff.stream.write transfer.request).getD handoff.stream }
  | .FINISH =>
    handoff.stream.finished.map fun code =>
      if code = .OK then handoff.announce transfer true else handoff.handleError transfer code
  | .OVER confirmed => do
    let handoff ← handoff.watchNext
    if handoff.recipient.info.isMigrating transfer.shard then some handoff
    else some (handoff.leave (if confirmed then .IMPORTED else .LEFT))
  | .LEFT | .EXITED | .IMPORTED => none

/-- What the completion of the donor's outstanding operation brings: its `ok`, the request a read
fills `request_` with, and the stream after it; `none` while the operation is pending. The
first completion matches the call to the recipient's stream. -/
def donorCompletion (handoff : Handoff) : Option (Bool × MigrateRequest × Stream) :=
  let stream := handoff.stream
  match handoff.donor.status with
  | .REQUEST => if stream.opened then some (true, {}, stream) else none
  | .READ | .DONE =>
    if stream.broken || stream.closed then some (false, {}, stream)
    else
      match stream.toDonor with
      | request :: rest =>
        some (true, request,
          { stream with toDonor := rest, requestsRead := stream.requestsRead + 1 })
      | [] => none
  | .WRITE => some (!(stream.broken || stream.closed), {}, stream)
  | .FINISH => some (true, {}, stream)
  | .WAIT_REFS => none

/-- What `Proceed` does on the stream, by the status it runs in: `READ` writes the empty
acknowledgement, or finishes with `invalid_status` when the node does not have the shard of
`request_`; `WRITE` writes the response `ReadChunk` gave; `DONE` finishes with `Status::OK`. -/
def donorWrites (handoff : Handoff) (request : MigrateRequest) (stream : Stream) : Stream :=
  match handoff.donor.status with
  | .READ =>
    match handoff.donorShards.«at» request.shard with
    | none => stream.finish .INVALID_ARGUMENT
    | some _ => stream.send {}
  | .WRITE =>
    match handoff.pending with
    | response :: _ => stream.send response
    | [] => stream
  | .DONE => stream.finish .OK
  | _ => stream

/-- One effect of the donor's call on the donor's node: `Unref(true)` and `Shards::Remove` on its
registry, `DumpShard` on its migrator, and its `Info` methods on the key. -/
def donorEffect (handoff : Handoff) : Effect → Handoff
  | .giveShard shard => handoff.donorCalls (.giveShard shard)
  | .markUnavailable node => handoff.donorCalls (.setAvailable node false)
  | .leaveIfEmpty =>
    if handoff.donorShards.empty then handoff.donorCalls (.remove transfer.donor) else handoff
  | .dump _ => { handoff with pending := transfer.dump }
  | effect => { handoff with donorShards := handoff.donorShards.apply effect }

/-- The effects of a step of the donor's call, in order. -/
def donorEffects (handoff : Handoff) (effects : List Effect) : Handoff :=
  effects.foldl (donorEffect transfer) handoff

/-- The completion of the donor's outstanding operation, and `Proceed(ok)` on it. -/
def donorStep (handoff : Handoff) : Option Handoff := do
  let (ok, message, stream) ← handoff.donorCompletion
  let (call, effects) ← MigrateCall.step handoff.donorShards.«at» (fun _ => true) handoff.donor
    (.tag ok message !handoff.pending.isEmpty)
  let stream := handoff.donorWrites (handoff.donor.fill ok message).request stream
  let pending := if handoff.donor.status = .WRITE then handoff.pending.tail else handoff.pending
  some (donorEffects transfer { handoff with donor := call, stream, pending } effects)

/-- A step of the import, or `none` when it cannot happen. The donor's done notification comes
once its status reached the recipient, or, cancelled, once the call is over without it. -/
def step (handoff : Handoff) : HandoffEvent → Option Handoff
  | .recipient => handoff.recipientStep transfer
  | .donor => handoff.donorStep transfer
  | .resume => do
    let (call, effects) ←
      MigrateCall.step handoff.donorShards.«at» (fun _ => true) handoff.donor .resume
    some (donorEffects transfer { handoff with donor := call } effects)
  | .done =>
    let stream := handoff.stream
    if stream.status.isNone && !(stream.broken || stream.closed) then none
    else do
      let (call, effects) ← MigrateCall.step handoff.donorShards.«at» (fun _ => true)
        handoff.donor (.done stream.status.isNone transfer.recipient)
      some (donorEffects transfer { handoff with donor := call } effects)
  | .fail =>
    if handoff.stream.broken then none
    else some { handoff with
      stream := { handoff.stream with broken := true, toDonor := [], toRecipient := [] } }

/-- Run the import through steps in order. -/
def run (handoff : Handoff) : List HandoffEvent → Option Handoff
  | [] => some handoff
  | event :: events => (handoff.step transfer event).bind (run · events)

end Handoff

/-! ## What each step of an import does -/

namespace Handoff

variable {transfer : Transfer}

/-- A read of the recipient either takes a response and moves on, or fails and does what it
does on a failure. -/
theorem readThen_eq {handoff after : Handoff} {next : ImportStatus} {failed : Option Handoff}
    (stepped : handoff.readThen next failed = some after) :
    (∃ response rest, handoff.stream.toRecipient = response :: rest ∧
      after = { handoff with
        stream := { handoff.stream with
          toRecipient := rest, received := handoff.stream.received ++ [response] }
        recipient := { handoff.recipient with response, status := next } }) ∨
    (handoff.stream.toRecipient = [] ∧ handoff.stream.over = true ∧ failed = some after) := by
  unfold readThen at stepped
  split at stepped
  · rename_i response stream read
    obtain ⟨rest, head, rfl⟩ := Stream.read_eq_message read
    exact .inl ⟨response, rest, head, (Option.some.inj stepped).symm⟩
  · rename_i read
    exact .inr ⟨(Stream.read_eq_failed read).1, (Stream.read_eq_failed read).2, stepped⟩
  · cases stepped

/-- A method of the recipient's `Info` changes only the key and `info_`, and writes the key once
at most. -/
theorem recipientCalls_eq (handoff : Handoff) (mutation : Mutation) :
    ∃ key extra info, extra.length ≤ 1 ∧ handoff.recipientCalls mutation =
      { handoff with
        key, writes := handoff.writes ++ extra, recipient := { handoff.recipient with info } } := by
  unfold recipientCalls publish
  split
  · exact ⟨_, [], _, Nat.zero_le _, by rw [List.append_nil]⟩
  · exact ⟨_, [_], _, le_refl _, rfl⟩

@[simp] theorem recipientCalls_stream (handoff : Handoff) (mutation : Mutation) :
    (handoff.recipientCalls mutation).stream = handoff.stream := by
  unfold recipientCalls
  split <;> rfl

@[simp] theorem recipientCalls_status (handoff : Handoff) (mutation : Mutation) :
    (handoff.recipientCalls mutation).recipient.status = handoff.recipient.status := by
  unfold recipientCalls
  split <;> rfl

/-- `WatchNext` parses the key's next write into `info_`. -/
theorem watchNext_eq {handoff after : Handoff} (stepped : handoff.watchNext = some after) :
    ∃ info, handoff.writes[handoff.recipient.seen]? = some info ∧ after = { handoff with
      recipient := { handoff.recipient with info, seen := handoff.recipient.seen + 1 } } := by
  obtain ⟨info, found, stepped⟩ := Option.bind_eq_some.mp stepped
  exact ⟨info, found, (Option.some.inj stepped).symm⟩

/-- A method of the donor's `Info` changes only the key, and writes it once at most. -/
theorem donorCalls_eq (handoff : Handoff) (mutation : Mutation) :
    ∃ key extra, extra.length ≤ 1 ∧ handoff.donorCalls mutation =
      { handoff with key, writes := handoff.writes ++ extra } := by
  unfold donorCalls publish
  split
  · exact ⟨_, [], Nat.zero_le _, by rw [List.append_nil]⟩
  · exact ⟨_, [_], le_refl _, rfl⟩

/-- An effect of the donor's call changes, besides the key, only the donor's registry and
migrator. -/
theorem donorEffect_frame (handoff : Handoff) (effect : Effect) :
    ∃ key extra, extra.length ≤ 1 ∧ donorEffect transfer handoff effect = { handoff with
      key := key
      writes := handoff.writes ++ extra
      donorShards := handoff.donorShards.apply effect
      pending := match effect with
        | .dump _ => transfer.dump
        | _ => handoff.pending } := by
  cases effect <;> simp only [donorEffect]
  case giveShard | markUnavailable => exact donorCalls_eq _ _
  case leaveIfEmpty =>
    split
    · exact donorCalls_eq _ _
    · exact ⟨_, [], Nat.zero_le _, by rw [List.append_nil]; rfl⟩
  all_goals exact ⟨_, [], Nat.zero_le _, by rw [List.append_nil] <;> rfl⟩

/-- The effects of a step of the donor's call change, besides the key, only its registry and
migrator, each by the effects in order. -/
theorem donorEffects_frame (transfer : Transfer) (handoff : Handoff) (effects : List Effect) :
    ∃ key extra, extra.length ≤ effects.length ∧
      donorEffects transfer handoff effects = { handoff with
      key := key
      writes := handoff.writes ++ extra
      donorShards := effects.foldl Shards.apply handoff.donorShards
      pending := effects.foldl (fun pending effect => match effect with
        | .dump _ => transfer.dump
        | _ => pending) handoff.pending } := by
  induction effects generalizing handoff with
  | nil => exact ⟨_, [], le_refl _, by rw [List.append_nil]; rfl⟩
  | cons effect effects ih =>
    obtain ⟨key, extra, once, eq⟩ := donorEffect_frame handoff effect
    obtain ⟨key', extra', each, eq'⟩ := ih (donorEffect transfer handoff effect)
    refine ⟨key', extra ++ extra', by simp only [List.length_append, List.length_cons]; omega, ?_⟩
    rw [donorEffects, List.foldl_cons, ← donorEffects, eq', eq, ← List.append_assoc]
    cases effect <;> rfl

/-- The effects of draining a shard and giving it away: `Unref(true)`, then `GiveShard`'s
write. -/
theorem donorEffects_give (handoff : Handoff) (shard : Nat) :
    donorEffects transfer handoff [.drain shard, .giveShard shard] = { handoff with
      key := handoff.key.giveShard shard
      writes := handoff.writes ++ [handoff.key.giveShard shard]
      donorShards := handoff.donorShards.apply (.drain shard) } :=
  rfl

/-- A read of the donor fails on a call that is over for it, and otherwise brings the next
request. -/
theorem donorCompletion_reading {handoff : Handoff} {ok : Bool} {message : MigrateRequest}
    {stream : Stream} (completion : handoff.donorCompletion = some (ok, message, stream))
    (reading : handoff.donor.reading = true) :
    (handoff.stream.broken || handoff.stream.closed) = true ∧ ok = false ∧
      handoff.stream = stream ∨
    (handoff.stream.broken || handoff.stream.closed) = false ∧ ok = true ∧
      ∃ rest, handoff.stream.toDonor = message :: rest ∧ stream = { handoff.stream with
        toDonor := rest, requestsRead := handoff.stream.requestsRead + 1 } := by
  unfold donorCompletion at completion
  have status : handoff.donor.status = .READ ∨ handoff.donor.status = .DONE := by
    simpa [MigrateCall.reading] using reading
  rcases status with status | status <;> simp only [status] at completion <;>
  · split at completion
    · cases completion
      exact .inl ⟨‹_›, rfl, rfl⟩
    · split at completion
      · cases completion
        exact .inr ⟨Bool.eq_false_iff.mpr ‹_›, rfl, _, ‹_›, rfl⟩
      · cases completion

/-- Any other completion leaves the stream as it is; the first one succeeds. -/
theorem donorCompletion_unread {handoff : Handoff} {ok : Bool} {message : MigrateRequest}
    {stream : Stream} (completion : handoff.donorCompletion = some (ok, message, stream))
    (unread : handoff.donor.reading = false) :
    handoff.stream = stream ∧ (handoff.donor.status = .REQUEST → ok = true) := by
  unfold donorCompletion at completion
  cases status : handoff.donor.status <;> simp only [status] at completion
  case READ | DONE => simp [MigrateCall.reading, status] at unread
  case REQUEST =>
    split at completion <;> cases completion
    exact ⟨rfl, fun _ => rfl⟩
  case WAIT_REFS => cases completion
  all_goals
    cases completion
    exact ⟨rfl, nofun⟩

/-- A completion of the donor changes only the requests in flight to it and how many it read. -/
theorem donorCompletion_frame {handoff : Handoff} {ok : Bool} {message : MigrateRequest}
    {stream : Stream} (completion : handoff.donorCompletion = some (ok, message, stream)) :
    ∃ toDonor requestsRead, stream = { handoff.stream with toDonor, requestsRead } := by
  cases reading : handoff.donor.reading
  · exact ⟨_, _, (donorCompletion_unread completion reading).1.symm⟩
  · rcases donorCompletion_reading completion reading with
      ⟨-, -, rfl⟩ | ⟨-, -, -, -, rfl⟩ <;> exact ⟨_, _, rfl⟩

/-- No completion of the donor changes the status the recipient sees. -/
theorem donorCompletion_status {handoff : Handoff} {ok : Bool} {message : MigrateRequest}
    {stream : Stream} (completion : handoff.donorCompletion = some (ok, message, stream)) :
    stream.status = handoff.stream.status := by
  obtain ⟨_, _, rfl⟩ := donorCompletion_frame completion
  rfl

/-- The donor's writes never take back a status that reached the recipient. -/
theorem donorWrites_status (handoff : Handoff) (request : MigrateRequest) {stream : Stream}
    (announced : stream.status.isSome = true) :
    (handoff.donorWrites request stream).status.isSome = true := by
  unfold donorWrites Stream.finish
  repeat' split
  all_goals simp [Stream.send, announced]

/-- The donor's writes change only what is in flight to the recipient, what the donor sent, and
the status. -/
theorem donorWrites_frame (handoff : Handoff) (request : MigrateRequest) (stream : Stream) :
    ∃ toRecipient sent status, handoff.donorWrites request stream =
      { stream with toRecipient, sent, status } := by
  unfold donorWrites Stream.send Stream.finish
  repeat' split
  all_goals exact ⟨_, _, _, rfl⟩

/-- A step of the donor's call is a completion, a transition of `MigrateCall`, the writes of
`Proceed` and the transition's effects. -/
theorem donorStep_eq {handoff after : Handoff}
    (stepped : handoff.donorStep transfer = some after) :
    ∃ ok message stream call effects,
      handoff.donorCompletion = some (ok, message, stream) ∧
      MigrateCall.step handoff.donorShards.«at» (fun _ => true) handoff.donor
        (.tag ok message !handoff.pending.isEmpty) = some (call, effects) ∧
      after = donorEffects transfer { handoff with
        donor := call
        stream := handoff.donorWrites (handoff.donor.fill ok message).request stream
        pending := if handoff.donor.status = .WRITE then handoff.pending.tail
          else handoff.pending } effects := by
  unfold donorStep at stepped
  obtain ⟨⟨ok, message, stream⟩, completion, stepped⟩ := Option.bind_eq_some.mp stepped
  obtain ⟨⟨call, effects⟩, moved, stepped⟩ := Option.bind_eq_some.mp stepped
  exact ⟨ok, message, stream, call, effects, completion, moved, (Option.some.inj stepped).symm⟩

/-- The donor's operation completes on a call the recipient has opened, unless it is a read with
no request to take, or the call waits in `WaitRefs`. -/
theorem donorCompletion_isSome {handoff : Handoff} (opened : handoff.stream.opened = true)
    (requested : handoff.donor.reading = true → handoff.stream.toDonor ≠ [])
    (running : handoff.donor.status ≠ .WAIT_REFS) : handoff.donorCompletion.isSome = true := by
  unfold donorCompletion
  cases status : handoff.donor.status
  case READ | DONE =>
    obtain ⟨request, rest, head⟩ :=
      List.exists_cons_of_ne_nil (requested (by simp [MigrateCall.reading, status]))
    simp only [head]
    split <;> rfl
  case WAIT_REFS => exact absurd status running
  all_goals simp [opened]

/-- The donor's call steps once its operation has completed, unless it is gone, has nothing in
flight, waits in `WaitRefs`, or succeeds on a read after one failed. -/
theorem donorStep_isSome {handoff : Handoff} {ok : Bool} {message : MigrateRequest}
    {stream : Stream} (completion : handoff.donorCompletion = some (ok, message, stream))
    (deleted : handoff.donor.deleted = false) (outstanding : handoff.donor.outstanding = true)
    (running : handoff.donor.status ≠ .WAIT_REFS)
    (open_ : (handoff.donor.reading && handoff.donor.readClosed && ok) = false) :
    (handoff.donorStep transfer).isSome = true := by
  have open_ : ¬((handoff.donor.reading = true ∧ handoff.donor.readClosed = true) ∧ ok = true) := by
    simpa using open_
  simp [donorStep, completion, MigrateCall.step, deleted, outstanding, running, open_]

/-- The donor's thread returns from `WaitRefs` whenever it waits there. -/
theorem resume_isSome {handoff : Handoff} (waiting : handoff.donor.status = .WAIT_REFS) :
    (handoff.step transfer .resume).isSome = true := by
  simp [step, MigrateCall.step, MigrateCall.resume, waiting]

/-- A read of the recipient blocks only with nothing in flight, while the call is live for it
or when it does nothing on a failure. -/
theorem readThen_eq_none {handoff : Handoff} {next : ImportStatus} {failed : Option Handoff}
    (blocked : handoff.readThen next failed = none) :
    handoff.stream.toRecipient = [] ∧ (handoff.stream.over = false ∨ failed = none) := by
  unfold readThen at blocked
  split at blocked
  · cases blocked
  · exact ⟨(Stream.read_eq_failed ‹_›).1, .inr blocked⟩
  · exact ⟨(Stream.read_eq_none ‹_›).1, .inl (Stream.read_eq_none ‹_›).2⟩

/-- `Finish()` blocks only while the call is live for the recipient. -/
theorem finished_map_eq_none {stream : Stream} {α : Type} {f : GrpcCode → α}
    (blocked : stream.finished.map f = none) : stream.over = false := by
  rw [← Stream.finished_isSome, Option.map_eq_none'.mp blocked, Option.isSome_none]

/-- `WatchThread` blocks only on a read with nothing in flight or in `Finish()`, while the call
is live for it; on a watch with no write left to parse; or once it has left the task. -/
theorem recipientStep_eq_none {handoff : Handoff}
    (blocked : handoff.recipientStep transfer = none) :
    (handoff.recipient.status = .ACK ∨ handoff.recipient.status = .FIRST ∨
        handoff.recipient.status = .READ) ∧
      handoff.stream.toRecipient = [] ∧ handoff.stream.over = false ∨
    handoff.recipient.status = .FINISH ∧ handoff.stream.over = false ∨
    (handoff.recipient.status = .WAIT_MASTER ∧
          handoff.recipient.info.indexForShard transfer.shard ≠ transfer.recipient ∨
        ∃ confirmed, handoff.recipient.status = .OVER confirmed) ∧
      handoff.writes[handoff.recipient.seen]? = none ∨
    handoff.recipient.status = .LEFT ∨ handoff.recipient.status = .EXITED ∨
      handoff.recipient.status = .IMPORTED := by
  obtain ⟨key, writes, ⟨status, info, seen, shards, response, imported⟩, donor, donorShards,
    pending, stream⟩ := handoff
  cases status <;> simp only [recipientStep] at blocked
  case REQUEST =>
    split at blocked
    · cases blocked
    · split at blocked
      · cases blocked
      · have := finished_map_eq_none blocked
        simp [Stream.write_eq_none ‹_›] at this
  case ACK | FIRST =>
    obtain ⟨empty, live⟩ := readThen_eq_none blocked
    exact .inl ⟨by simp, empty, live.elim id finished_map_eq_none⟩
  case READ =>
    obtain ⟨empty, live⟩ := readThen_eq_none blocked
    exact .inl ⟨by simp, empty, live.resolve_right nofun⟩
  case WAIT_MASTER =>
    split at blocked
    · cases blocked
    · refine .inr (.inr (.inl ⟨.inl ⟨rfl, ‹_›⟩, ?_⟩))
      cases found : writes[seen]? <;> simp_all [watchNext]
  case CHUNK => split at blocked <;> cases blocked
  case FINISH => exact .inr (.inl ⟨rfl, finished_map_eq_none blocked⟩)
  case OVER confirmed =>
    refine .inr (.inr (.inl ⟨.inr ⟨confirmed, rfl⟩, ?_⟩))
    cases found : writes[seen]? <;> simp_all [watchNext]
    split at blocked <;> cases blocked
  case LEFT => simp
  case EXITED => simp
  case IMPORTED => simp
  all_goals cases blocked

end Handoff

/-- An import about to start: the recipient's `info_` is the key, and the donor's call waits for
a stream. -/
def Handoff.start (key : ClusterInfo) (recipientShards donorShards : Shards) : Handoff :=
  { key, recipient := { info := key, shards := recipientShards }, donorShards }

/-- Shard 0 migrates from node 0, which holds it, to node 1; both nodes are available. -/
def handoffInfo : ClusterInfo :=
  { state := 2, numNodes := 2, nodes := [{ available := true }, { id := 1, available := true }],
    shards := [{ migrating := true, «to» := 1 }] }

/-- Node 1 imports shard 0 from node 0, which streams one chunk and then the last response. -/
def handoffTransfer : Transfer :=
  { recipient := 1, donor := 0, shard := 0, dump := [{ chunk := [7] }, { finished := true }] }

/-- The whole import: the recipient sends its request; the donor matches the call, drains and
gives the shard away, acknowledges, dumps it and streams it; the recipient reads the
acknowledgement, waits until `info_` names it the master, reads both responses, confirms and
announces the migration over; the donor finishes, and its call is done. -/
def handoffRun : List HandoffEvent :=
  [.recipient, .donor, .donor, .resume, .donor, .donor, .donor, .recipient, .recipient,
    .recipient, .recipient, .recipient, .recipient, .recipient, .recipient, .donor,
    .recipient, .recipient, .donor, .done]

example :
    ((Handoff.start handoffInfo {} ⟨[some {}]⟩).run handoffTransfer handoffRun).map
      (fun handoff => (handoff.recipient.status, handoff.recipient.imported,
        handoff.key.indexForShard 0, handoff.key.isMigrating 0, handoff.donor.deleted)) =
      some (.IMPORTED, [{ chunk := [7] }], 1, false, true) := by
  decide

end Crocks.Server
