import Crocks.Server.Handoff

/-!
# What the stream of an import carries

The two sides of an import write and read one stream, each from its own thread, and the
connection may break at any point. `Carried` is what every run keeps, whatever the order of the
steps: the responses reach the recipient in the order the donor wrote them (`Stream.Ordered`),
every request in flight is the import's own (`Stream.Requested`), each side has written and read
what its place in the protocol says (`RecipientReads`, `DonorSends`), and the donor's status is
tied to what the recipient holds: `OK` only once the recipient has read the dump up to its
finished response, `INVALID_ARGUMENT` only for a shard the donor never held. The donor drops the
shard from its registry only after an `OK`.

Each step of either side keeps `Carried` (`Carried.recipientStep`, `Carried.donorStep`,
`Carried.resume`, `Carried.done`, `Carried.fail`), and so does every run (`Carried.run`).
-/

namespace Crocks.Server

open Crocks.Proto

namespace Stream

/-- The donor's responses: those written reach the recipient in order, and a broken connection
loses those in flight. It reads four fields of a stream, and holds over changes to the others. -/
structure ResponseOrder (broken : Bool) (inFlight sent received : List MigrateResponse) : Prop where
  lost : broken = true → inFlight = []
  fifo : broken = false → sent = received ++ inFlight
  delivered : received <+: sent

/-- The stream's responses are in order. -/
abbrev Ordered (stream : Stream) : Prop :=
  ResponseOrder stream.broken stream.toRecipient stream.sent stream.received

namespace Ordered

variable {stream : Stream} (ordered : stream.Ordered)
include ordered

/-- A response the donor writes goes behind those in flight. -/
theorem send (response : MigrateResponse) : (stream.send response).Ordered where
  lost broken := by
    dsimp only [Stream.send] at broken ⊢
    simp [broken, ordered.lost broken]
  fifo intact := by
    dsimp only [Stream.send] at intact ⊢
    simp [intact, ordered.fifo intact]
  delivered := ordered.delivered.trans (List.prefix_append _ _)

/-- The recipient reads the response at the head. -/
theorem receive {response : MigrateResponse} {rest : List MigrateResponse}
    (head : stream.toRecipient = response :: rest) :
    Ordered { stream with toRecipient := rest, received := stream.received ++ [response] } := by
  have intact : stream.broken = false := by
    cases broken : stream.broken
    · rfl
    · simp [ordered.lost broken] at head
  have sent := ordered.fifo intact
  exact ⟨fun broken => absurd broken (by simp [intact]), fun _ => by simp [sent, head],
    ⟨rest, by simp [sent, head]⟩⟩

/-- A broken connection loses what was in flight. -/
theorem fail : Ordered { stream with broken := true, toDonor := [], toRecipient := [] } where
  lost _ := rfl
  fifo broken := nomatch broken
  delivered := ordered.delivered

end Ordered

/-- The recipient's requests: each in flight is the import's request, and on a live connection
those written are those read and those in flight. -/
structure RequestCount (request : MigrateRequest) (broken : Bool) (inFlight : List MigrateRequest)
    (written read : Nat) : Prop where
  requests : ∀ sent ∈ inFlight, sent = request
  counted : broken = false → written = read + inFlight.length

/-- The stream's requests are counted. -/
abbrev Requested (request : MigrateRequest) (stream : Stream) : Prop :=
  RequestCount request stream.broken stream.toDonor stream.requestsWritten stream.requestsRead

namespace Requested

variable {request : MigrateRequest} {stream : Stream}

/-- A broken connection loses the requests in flight. -/
theorem fail :
    Requested request { stream with broken := true, toDonor := [], toRecipient := [] } where
  requests _ mem := absurd mem (List.not_mem_nil _)
  counted broken := nomatch broken

variable (requested : stream.Requested request)
include requested

/-- The recipient writes the import's request. -/
theorem write {next : Stream} (written : stream.write request = some next) :
    next.Requested request := by
  obtain ⟨-, rfl⟩ := write_eq_some written
  refine ⟨fun sent mem => ?_, fun intact => ?_⟩
  · exact (List.mem_append.mp mem).elim (requested.requests sent) List.mem_singleton.mp
  · simp only [List.length_append, List.length_singleton, requested.counted intact]
    omega

/-- The donor reads the request at the head, which is the import's. -/
theorem pop {message : MigrateRequest} {rest : List MigrateRequest}
    (head : stream.toDonor = message :: rest) :
    message = request ∧
      Requested request
        { stream with toDonor := rest, requestsRead := stream.requestsRead + 1 } := by
  refine ⟨requested.requests message (by simp [head]),
    fun sent mem => requested.requests sent (by simp [head, mem]), fun intact => ?_⟩
  have counted := requested.counted intact
  simp only [head, List.length_cons] at counted
  show stream.requestsWritten = stream.requestsRead + 1 + rest.length
  omega

end Requested

end Stream

/-- The recipient read the acknowledgement, then the chunks it imported, then the finished
response it holds. -/
def Recipient.Complete (recipient : Recipient) (received : List MigrateResponse) : Prop :=
  recipient.response.finished = true ∧
    ∃ ack, received = ack :: (recipient.imported ++ [recipient.response])

/-- What the recipient has written and read, by where it is. -/
def RecipientReads (recipient : Recipient) (stream : Stream) : Prop :=
  match recipient.status with
  | .REQUEST =>
    stream.requestsWritten = 0 ∧ stream.received = [] ∧ stream.status = none ∧
      recipient.imported = []
  | .ACK => stream.requestsWritten = 1 ∧ stream.received = [] ∧ recipient.imported = []
  | .WAIT_MASTER | .FIRST =>
    stream.requestsWritten = 1 ∧ stream.received.length = 1 ∧ recipient.imported = []
  | .CHUNK =>
    stream.requestsWritten = 1 ∧
      ∃ ack, stream.received = ack :: (recipient.imported ++ [recipient.response])
  | .READ => stream.requestsWritten = 1 ∧ ∃ ack, stream.received = ack :: recipient.imported
  | .CONFIRM =>
    stream.requestsWritten = 1 ∧ stream.received ≠ [] ∧
      (stream.over = true ∨ recipient.Complete stream.received)
  | .FINISH =>
    stream.received ≠ [] ∧ (stream.requestsWritten = 1 ∧ stream.over = true ∨
      stream.requestsWritten = 2 ∧ recipient.Complete stream.received)
  | .OVER confirmed => stream.status = some (if confirmed then .OK else .INVALID_ARGUMENT)
  | .IMPORTED => stream.status = some .OK ∧ stream.closed = true
  | .LEFT => stream.closed = true
  | .EXITED => False

/-- What the donor has written and read, by where its call is: nothing before its first read; the
acknowledgement up to `WaitRefs`; then the acknowledgement and the dump, with what `ReadChunk`
has yet to give. Past its first read on a live call, it has read one request. -/
def DonorSends (dump : List MigrateResponse) (status : MigrateStatus)
    (sent pending : List MigrateResponse) (read : Nat) (live : Bool) : Prop :=
  match status with
  | .REQUEST | .READ => sent = [] ∧ pending = [] ∧ read = 0
  | .WAIT_REFS => sent = [{}] ∧ pending = [] ∧ (live = true → read = 1)
  | .WRITE => sent ++ pending = {} :: dump ∧ (live = true → read = 1)
  | .DONE => sent = {} :: dump ∧ (live = true → read = 1)
  | .FINISH => True


/-- What holds of a live call holds of one that is over. -/
theorem DonorSends.mono {dump : List MigrateResponse} {status : MigrateStatus}
    {sent pending : List MigrateResponse} {read : Nat} {live live' : Bool}
    (sends : DonorSends dump status sent pending read live) (fewer : live' = true → live = true) :
    DonorSends dump status sent pending read live' := by
  unfold DonorSends at sends ⊢
  split at sends <;> simp_all

namespace RecipientReads

variable {recipient : Recipient} {stream : Stream} (reads : RecipientReads recipient stream)
include reads

/-- The donor's status reaching a recipient that has sent its request keeps what it has read. -/
theorem finish (unfinished : stream.status = none) (started : recipient.status ≠ .REQUEST)
    (code : GrpcCode) : RecipientReads recipient { stream with status := some code } := by
  unfold RecipientReads at reads ⊢
  cases status : recipient.status <;> simp only [status] at reads started ⊢
  case REQUEST => exact absurd rfl started
  case CONFIRM => exact ⟨reads.1, reads.2.1, .inl (by simp [Stream.over])⟩
  case FINISH =>
    exact ⟨reads.1, reads.2.imp (fun once => ⟨once.1, by simp [Stream.over]⟩) id⟩
  case OVER => simp [unfinished] at reads
  case IMPORTED => simp [unfinished] at reads
  all_goals exact reads

/-- A broken connection keeps what the recipient has read. -/
theorem fail : RecipientReads recipient
    { stream with broken := true, toDonor := [], toRecipient := [] } := by
  unfold RecipientReads at reads ⊢
  cases status : recipient.status <;> simp only [status] at reads ⊢
  case CONFIRM => exact ⟨reads.1, reads.2.1, .inl (by simp [Stream.over])⟩
  case FINISH =>
    exact ⟨reads.1, reads.2.imp (fun once => ⟨once.1, by simp [Stream.over]⟩) id⟩
  all_goals exact reads

/-- A recipient that has written its request twice, while the call is live for the donor, waits in
`Finish()` after reading a finished response. -/
theorem confirmed (twice : 2 ≤ stream.requestsWritten) (unfinished : stream.status = none)
    (open_ : stream.closed = false) :
    recipient.status = .FINISH ∧ recipient.Complete stream.received := by
  unfold RecipientReads at reads
  cases status : recipient.status <;> simp only [status] at reads
  case FINISH =>
    rcases reads.2 with ⟨once, -⟩ | ⟨-, complete⟩
    · omega
    · exact ⟨rfl, complete⟩
  case OVER => simp [unfinished] at reads
  case IMPORTED => simp [unfinished] at reads
  case LEFT => simp [open_] at reads
  all_goals omega

end RecipientReads

/-- What every run of an import keeps of the stream and of the two sides' progress on it. -/
structure Carried (transfer : Transfer) (initialShards : Shards) (handoff : Handoff) : Prop where
  /-- `Finish` has run only in `FINISH`. -/
  finishCalled : handoff.donor.finishCalled = true → handoff.donor.status = .FINISH
  /-- The donor's status reached the recipient only once its call is in `FINISH`. -/
  finishedLast : handoff.stream.status.isSome = true → handoff.donor.status = .FINISH
  /-- The donor finishes with `OK` or `INVALID_ARGUMENT`. -/
  codes : handoff.stream.status ≠ some .UNAVAILABLE
  /-- The requests on the stream. -/
  requested : handoff.stream.Requested transfer.request
  /-- The responses on the stream. -/
  ordered : handoff.stream.Ordered
  /-- What the donor has written and read. -/
  sends : DonorSends transfer.dump handoff.donor.status handoff.stream.sent handoff.pending
    handoff.stream.requestsRead !(handoff.stream.broken || handoff.stream.closed)
  /-- What the recipient has written and read. -/
  reads : RecipientReads handoff.recipient handoff.stream
  /-- An `OK` reached a recipient that read the dump up to its finished response. -/
  confirmed : handoff.stream.status = some .OK →
    (handoff.recipient.status = .FINISH ∨ handoff.recipient.status = .OVER true ∨
      handoff.recipient.status = .IMPORTED) ∧
    handoff.recipient.imported ++ [handoff.recipient.response] <+: transfer.dump ∧
    handoff.recipient.response.finished = true
  /-- An `INVALID_ARGUMENT` answers a request for a shard the donor never held, before any
  response. -/
  refused : handoff.stream.status = some .INVALID_ARGUMENT →
    handoff.stream.sent = [] ∧ handoff.donorShards.«at» transfer.shard = none ∧
      initialShards.«at» transfer.shard = none
  /-- The donor drops a shard it held only after an `OK`. -/
  kept : handoff.donorShards.«at» transfer.shard = none →
    initialShards.«at» transfer.shard = none ∨ handoff.stream.status = some .OK

namespace Handoff

variable {transfer : Transfer} {initialShards : Shards}

/-- An import starts with nothing written or read. -/
theorem carried_start (key : ClusterInfo) (recipientShards : Shards) :
    Carried transfer initialShards (Handoff.start key recipientShards initialShards) where
  finishCalled := by simp [start]
  finishedLast := by simp [start]
  codes := by simp [start]
  requested := ⟨by simp [start], fun _ => rfl⟩
  ordered := ⟨by simp [start], fun _ => rfl, List.prefix_refl _⟩
  sends := ⟨rfl, rfl, rfl⟩
  reads := ⟨rfl, rfl, rfl, rfl⟩
  confirmed := by simp [start]
  refused := by simp [start]
  kept := .inl

end Handoff

namespace Carried

variable {transfer : Transfer} {initialShards : Shards} {handoff : Handoff}
  (carried : Carried transfer initialShards handoff)
include carried

/-- A method of the recipient's `Info` keeps what runs keep. -/
theorem recipientCalls (mutation : Mutation) :
    Carried transfer initialShards (handoff.recipientCalls mutation) := by
  obtain ⟨key, writes, info, -, eq⟩ := Handoff.recipientCalls_eq handoff mutation
  rw [eq]
  exact { carried with }

/-- `WatchNext` keeps what runs keep. -/
theorem watchNext {after : Handoff} (stepped : handoff.watchNext = some after) :
    Carried transfer initialShards after := by
  obtain ⟨info, -, rfl⟩ := Handoff.watchNext_eq stepped
  exact { carried with }

/-- The recipient moving on keeps what runs keep when it has read what its new place says. -/
theorem moveTo {status : ImportStatus}
    (reads : RecipientReads { handoff.recipient with status } handoff.stream)
    (confirmed : handoff.stream.status = some .OK →
      status = .FINISH ∨ status = .OVER true ∨ status = .IMPORTED) :
    Carried transfer initialShards (handoff.moveTo status) :=
  { carried with reads, confirmed := fun ok => ⟨confirmed ok, (carried.confirmed ok).2⟩ }

/-- So does its leaving the task, which cancels the call. -/
theorem leave {status : ImportStatus}
    (reads :
      RecipientReads { handoff.recipient with status } { handoff.stream with closed := true })
    (confirmed : handoff.stream.status = some .OK →
      status = .FINISH ∨ status = .OVER true ∨ status = .IMPORTED) :
    Carried transfer initialShards (handoff.leave status) :=
  { carried with
    sends := carried.sends.mono fun live => by simp [Handoff.leave, Handoff.moveTo] at live
    reads
    confirmed := fun ok => ⟨confirmed ok, (carried.confirmed ok).2⟩ }

/-- A read of the recipient keeps what runs keep when it takes the response at the head. -/
theorem received {response : MigrateResponse} {rest : List MigrateResponse}
    (head : handoff.stream.toRecipient = response :: rest) {next : ImportStatus}
    (reads : RecipientReads { handoff.recipient with response, status := next }
      { handoff.stream with
        toRecipient := rest, received := handoff.stream.received ++ [response] })
    (unconfirmed : handoff.stream.status ≠ some .OK) :
    Carried transfer initialShards { handoff with
      stream := { handoff.stream with
        toRecipient := rest, received := handoff.stream.received ++ [response] }
      recipient := { handoff.recipient with response, status := next } } :=
  { carried with
    ordered := carried.ordered.receive head
    reads
    confirmed := fun ok => absurd ok unconfirmed }

/-- `HandleError` keeps what runs keep on any code but `INVALID_ARGUMENT`. -/
theorem handleError {code : GrpcCode} (available : code ≠ .INVALID_ARGUMENT)
    (unconfirmed : handoff.stream.status ≠ some .OK) :
    Carried transfer initialShards (handoff.handleError transfer code) := by
  cases code with
  | OK => exact carried.leave rfl fun ok => absurd ok unconfirmed
  | UNAVAILABLE =>
    exact (carried.recipientCalls _).leave rfl fun ok => absurd (by simpa using ok) unconfirmed
  | INVALID_ARGUMENT => exact absurd rfl available

/-- `MigrationOver` keeps what runs keep on the status it is called after. -/
theorem announce (confirmed : Bool)
    (status : handoff.stream.status = some (if confirmed then .OK else .INVALID_ARGUMENT)) :
    Carried transfer initialShards (handoff.announce transfer confirmed) :=
  (carried.recipientCalls _).moveTo (by simpa using status) fun ok => by
    cases confirmed <;> simp_all

/-- Before `Finish()` the recipient has seen no `OK`. -/
theorem unconfirmed (early : handoff.recipient.status ≠ .FINISH ∧
      handoff.recipient.status ≠ .OVER true ∧ handoff.recipient.status ≠ .IMPORTED) :
    handoff.stream.status ≠ some .OK := fun ok => by
  rcases (carried.confirmed ok).1 with same | same | same <;> simp_all

/-- A step of `WatchThread` keeps what runs keep. -/
theorem recipientStep {after : Handoff} (stepped : handoff.recipientStep transfer = some after) :
    Carried transfer initialShards after := by
  obtain ⟨key, writes, ⟨status, info, seen, shards, response, imported⟩, donor, donorShards,
    pending, stream⟩ := handoff
  have unconfirmed := carried.unconfirmed
  have reads := carried.reads
  cases status <;> simp only [Handoff.recipientStep] at stepped unconfirmed <;>
    dsimp only [RecipientReads] at reads
  case REQUEST =>
    obtain ⟨written, received, none_, imported⟩ := reads
    split at stepped
    · cases stepped
      exact carried.leave rfl fun ok => by simp [none_] at ok
    · split at stepped
      · rename_i next write
        obtain ⟨open_, rfl⟩ := Stream.write_eq_some write
        cases stepped
        exact { carried with
          requested :=
            (show Stream.Requested _ { stream with opened := true } from carried.requested).write
              write
          reads := ⟨by simp [written], received, imported⟩
          confirmed := fun ok => by simp [none_] at ok }
      · obtain ⟨code, finished, rfl⟩ := Option.map_eq_some'.mp stepped
        refine Carried.handleError ?_ (fun invalid => ?_) ?_
        · exact { carried with }
        · subst invalid
          have := Stream.status_of_finished finished (by decide)
          simp [none_] at this
        · simp [none_]
  case ACK =>
    obtain ⟨written, received, imported⟩ := reads
    rcases Handoff.readThen_eq stepped with ⟨response, rest, head, rfl⟩ | ⟨-, -, failed⟩
    · exact carried.received head ⟨written, by simp [received], imported⟩
        (unconfirmed (by simp))
    · obtain ⟨code, finished, rfl⟩ := Option.map_eq_some'.mp failed
      split
      · rename_i invalid
        exact carried.announce false
          (by simpa [invalid] using Stream.status_of_finished finished (by simp [invalid]))
      · exact carried.handleError ‹_› (unconfirmed (by simp))
  case WAIT_MASTER =>
    split at stepped
    · cases stepped
      exact carried.moveTo reads fun ok => absurd ok (unconfirmed (by simp))
    · exact carried.watchNext stepped
  case FIRST =>
    obtain ⟨written, single, imported⟩ := reads
    obtain ⟨ack, received⟩ := List.length_eq_one.mp single
    rcases Handoff.readThen_eq stepped with ⟨response, rest, head, rfl⟩ | ⟨-, -, failed⟩
    · exact carried.received head ⟨written, ack, by simp [received, imported]⟩
        (unconfirmed (by simp))
    · obtain ⟨code, finished, rfl⟩ := Option.map_eq_some'.mp failed
      refine carried.handleError (fun invalid => ?_) (unconfirmed (by simp))
      subst invalid
      have nothing : stream.sent = [] :=
        (carried.refused (Stream.status_of_finished finished (by decide))).1
      have := carried.ordered.delivered
      simp [nothing, received] at this
  case CHUNK =>
    obtain ⟨written, ack, received⟩ := reads
    split at stepped
    · cases stepped
      exact carried.moveTo ⟨written, by simp [received], .inr ⟨‹_›, ack, received⟩⟩
        fun ok => absurd ok (unconfirmed (by simp))
    · cases stepped
      exact { carried with
        reads := ⟨written, ack, received⟩
        confirmed := fun ok => absurd ok (unconfirmed (by simp)) }
  case READ =>
    obtain ⟨written, ack, received⟩ := reads
    rcases Handoff.readThen_eq stepped with ⟨response, rest, head, rfl⟩ | ⟨-, over, failed⟩
    · exact carried.received head ⟨written, ack, by simp [received]⟩ (unconfirmed (by simp))
    · cases failed
      exact carried.moveTo ⟨written, by simp [received], .inl over⟩
        fun ok => absurd ok (unconfirmed (by simp))
  case CONFIRM =>
    obtain ⟨written, received, complete⟩ := reads
    cases stepped
    cases write : stream.write transfer.request with
    | none =>
      simp only [write, Option.getD_none]
      exact carried.moveTo ⟨received, .inl ⟨written, Stream.write_eq_none write⟩⟩
        fun ok => absurd ok (unconfirmed (by simp))
    | some next =>
      have requested := carried.requested.write write
      obtain ⟨open_, rfl⟩ := Stream.write_eq_some write
      simp only [open_, Bool.false_eq_true, false_or] at complete
      exact { carried with
        requested
        reads := ⟨received, .inr ⟨by simp [written], complete⟩⟩
        confirmed := fun ok => absurd ok (unconfirmed (by simp)) }
  case FINISH =>
    obtain ⟨received, -⟩ := reads
    obtain ⟨code, finished, rfl⟩ := Option.map_eq_some'.mp stepped
    split
    · rename_i ok
      exact carried.announce true
        (by simpa [ok] using Stream.status_of_finished finished (by simp [ok]))
    · rename_i notOk
      refine carried.handleError (fun invalid => ?_) (fun ok => ?_)
      · subst invalid
        have nothing : stream.sent = [] :=
          (carried.refused (Stream.status_of_finished finished (by decide))).1
        have := carried.ordered.delivered
        simp [nothing, received] at this
      · have ok : stream.status = some .OK := ok
        have : stream.finished = some .OK := by simp [Stream.finished, ok]
        exact notOk (Option.some.inj (finished.symm.trans this))
  case OVER confirmed =>
    obtain ⟨watched, next, stepped⟩ := Option.bind_eq_some.mp stepped
    have carried := carried.watchNext next
    obtain ⟨info, -, rfl⟩ := Handoff.watchNext_eq next
    split at stepped
    · cases stepped
      exact carried
    · cases stepped
      refine carried.leave ?_ fun ok => ?_
      · cases confirmed
        · rfl
        · exact ⟨reads, rfl⟩
      · cases confirmed
        · simp_all [RecipientReads]
        · simp
  all_goals cases stepped

/-- Before its call finishes, the donor's status has not reached the recipient. -/
theorem unfinished (running : handoff.donor.status ≠ .FINISH) : handoff.stream.status = none := by
  cases finished : handoff.stream.status
  · rfl
  · exact absurd (carried.finishedLast (by simp [finished])) running

/-- A request in flight on a live connection comes from a recipient past its first write. -/
theorem started {message : MigrateRequest} {rest : List MigrateRequest}
    (head : handoff.stream.toDonor = message :: rest) (intact : handoff.stream.broken = false) :
    handoff.recipient.status ≠ .REQUEST := fun requesting => by
  have reads := carried.reads
  have counted := carried.requested.counted intact
  simp only [RecipientReads, requesting] at reads
  simp only [head, List.length_cons] at counted
  omega

/-- A step of the donor's call keeps what runs keep. -/
theorem donorStep {after : Handoff} (stepped : handoff.donorStep transfer = some after) :
    Carried transfer initialShards after := by
  obtain ⟨ok, message, next, call, effects, completion, moved, rfl⟩ :=
    Handoff.donorStep_eq stepped
  obtain ⟨key', writes', -, frame⟩ := Handoff.donorEffects_frame transfer _ effects
  rw [frame]
  obtain ⟨key, writes, recipient, ⟨status, request, retval, called, onDoneCalled, deleted,
    outstanding, readClosed⟩, donorShards, pending, stream⟩ := handoff
  generalize chunked : (!pending.isEmpty) = chunk at moved
  cases MigrateCall.step_transition moved with
  | accept _ _ requesting =>
    obtain rfl : status = .REQUEST := requesting
    obtain ⟨rfl, -⟩ := Handoff.donorCompletion_unread completion rfl
    exact { carried with
      finishCalled := fun c => nomatch carried.finishCalled c
      finishedLast := fun s => nomatch carried.finishedLast s }
  | shutdown _ _ requesting =>
    obtain rfl : status = .REQUEST := requesting
    exact nomatch (Handoff.donorCompletion_unread completion rfl).2 rfl
  | absent _ _ _ reading _ missing =>
    obtain rfl : status = .READ := reading
    have none_ : stream.status = none := carried.unfinished nofun
    have sends : stream.sent = [] ∧ pending = [] ∧ stream.requestsRead = 0 := carried.sends
    rcases Handoff.donorCompletion_reading completion rfl with
      ⟨dead, rfl, rfl⟩ | ⟨live, rfl, rest, head, rfl⟩
    · simp only [Handoff.donorWrites, missing, Stream.finish, dead, if_true]
      exact { carried with
        finishCalled := fun _ => rfl
        finishedLast := fun _ => rfl
        sends := trivial }
    · obtain ⟨rfl, requested⟩ := carried.requested.pop head
      simp only [Handoff.donorWrites, missing, Stream.finish, live, Bool.false_eq_true,
        ↓reduceIte]
      have started := carried.started head (Bool.or_eq_false_iff.mp live).1
      exact { carried with
        finishCalled := fun _ => rfl
        finishedLast := fun _ => rfl
        codes := nofun
        requested
        sends := trivial
        reads := carried.reads.finish none_ started _
        confirmed := nofun
        refused := fun _ =>
          ⟨sends.1, missing, (carried.kept missing).resolve_right (by simp [none_])⟩
        kept := fun gone => .inl ((carried.kept gone).resolve_right (by simp [none_])) }
  | drain _ _ _ shard reading _ found =>
    obtain rfl : status = .READ := reading
    have none_ : stream.status = none := carried.unfinished nofun
    have sends : stream.sent = [] ∧ pending = [] ∧ stream.requestsRead = 0 := carried.sends
    rcases Handoff.donorCompletion_reading completion rfl with
      ⟨dead, rfl, rfl⟩ | ⟨live, rfl, rest, head, rfl⟩
    · simp only [Handoff.donorWrites, found]
      exact { carried with
        finishCalled := fun c => nomatch carried.finishCalled c
        finishedLast := fun s => nomatch carried.finishedLast s
        ordered := carried.ordered.send {}
        sends :=
          ⟨by simp [Stream.send, sends.1], sends.2.1, fun l => by simp [Stream.send, dead] at l⟩
        refused := fun invalid => nomatch none_.symm.trans invalid
        kept := fun gone => carried.kept ((Shards.at_apply_drain_eq_none donorShards _ _).mp gone) }
    · obtain ⟨rfl, requested⟩ := carried.requested.pop head
      simp only [Handoff.donorWrites, found]
      exact { carried with
        finishCalled := fun c => nomatch carried.finishCalled c
        finishedLast := fun s => nomatch carried.finishedLast s
        requested
        ordered := carried.ordered.send {}
        sends :=
          ⟨by simp [Stream.send, sends.1], sends.2.1, fun _ => by simp [Stream.send, sends.2.2]⟩
        refused := fun invalid => nomatch none_.symm.trans invalid
        kept := fun gone => carried.kept ((Shards.at_apply_drain_eq_none donorShards _ _).mp gone) }
  | chunk _ _ writing =>
    obtain rfl : status = .WRITE := writing
    obtain ⟨rfl, -⟩ := Handoff.donorCompletion_unread completion rfl
    have none_ : stream.status = none := carried.unfinished nofun
    obtain _ | ⟨response, rest⟩ := pending
    · simp at chunked
    have sends : stream.sent ++ response :: rest = {} :: transfer.dump ∧ _ := carried.sends
    simp only [Handoff.donorWrites]
    exact { carried with
      ordered := carried.ordered.send response
      sends := ⟨by simpa [Stream.send] using sends.1, sends.2⟩
      refused := fun invalid => nomatch none_.symm.trans invalid }
  | lastChunk _ _ writing =>
    obtain rfl : status = .WRITE := writing
    obtain ⟨rfl, -⟩ := Handoff.donorCompletion_unread completion rfl
    obtain _ | ⟨response, rest⟩ := pending
    · have sends : stream.sent ++ [] = {} :: transfer.dump ∧ _ := carried.sends
      rw [List.append_nil] at sends
      exact { carried with
        finishCalled := fun c => nomatch carried.finishCalled c
        finishedLast := fun s => nomatch carried.finishedLast s
        sends }
    · simp at chunked
  | confirm _ _ _ confirming _ =>
    obtain rfl : status = .DONE := confirming
    have none_ : stream.status = none := carried.unfinished nofun
    have sends : stream.sent = {} :: transfer.dump ∧
        ((!(stream.broken || stream.closed)) = true → stream.requestsRead = 1) := carried.sends
    rcases Handoff.donorCompletion_reading completion rfl with
      ⟨dead, rfl, rfl⟩ | ⟨live, rfl, rest, head, rfl⟩
    · simp only [Handoff.donorWrites, Stream.finish, dead, if_true]
      exact { carried with
        finishCalled := fun _ => rfl
        finishedLast := fun _ => rfl
        sends := trivial }
    · obtain ⟨-, requested⟩ := carried.requested.pop head
      have twice : 2 ≤ stream.requestsWritten := by
        have counted : stream.requestsWritten = stream.requestsRead + stream.toDonor.length :=
          carried.requested.counted (Bool.or_eq_false_iff.mp live).1
        have read := sends.2 (by simpa using live)
        rw [show stream.toDonor = message :: rest from head, List.length_cons] at counted
        omega
      obtain ⟨finishing, complete⟩ :
          recipient.status = .FINISH ∧ recipient.Complete stream.received :=
        carried.reads.confirmed twice none_ (Bool.or_eq_false_iff.mp live).2
      have shipped : recipient.imported ++ [recipient.response] <+: transfer.dump := by
        obtain ⟨ack, received⟩ := complete.2
        have delivered : stream.received <+: stream.sent := carried.ordered.delivered
        rw [received, sends.1] at delivered
        exact (List.cons_prefix_cons.mp delivered).2
      simp only [Handoff.donorWrites, Stream.finish, live, Bool.false_eq_true, ↓reduceIte]
      exact { carried with
        finishCalled := fun _ => rfl
        finishedLast := fun _ => rfl
        codes := nofun
        requested
        sends := trivial
        reads := carried.reads.finish none_ (by simp [finishing]) _
        confirmed := fun _ => ⟨.inl finishing, shipped, complete.1⟩
        refused := nofun
        kept := fun _ => .inr rfl }
  | finish _ _ _ finishing =>
    obtain rfl : status = .FINISH := finishing
    obtain ⟨rfl, -⟩ := Handoff.donorCompletion_unread completion rfl
    exact { carried with finishCalled := fun _ => rfl }

/-- The donor's return from `WaitRefs` keeps what runs keep. -/
theorem resume {after : Handoff} (stepped : handoff.step transfer .resume = some after) :
    Carried transfer initialShards after := by
  obtain ⟨⟨call, effects⟩, moved, stepped⟩ := Option.bind_eq_some.mp stepped
  obtain rfl := Option.some.inj stepped
  obtain ⟨key', writes', -, frame⟩ := Handoff.donorEffects_frame transfer _ effects
  rw [frame]
  obtain ⟨key, writes, recipient, ⟨status, request, retval, called, onDoneCalled, deleted,
    outstanding, readClosed⟩, donorShards, pending, stream⟩ := handoff
  cases MigrateCall.step_transition moved with
  | dump waiting _ =>
    obtain rfl : status = .WAIT_REFS := waiting
    have sends : stream.sent = [{}] ∧ pending = [] ∧ _ := carried.sends
    exact { carried with
      finishCalled := fun c => nomatch carried.finishCalled c
      finishedLast := fun s => nomatch carried.finishedLast s
      sends := ⟨by simp [sends.1], sends.2.2⟩ }

/-- The donor's done notification keeps what runs keep: `OnDone` removes the shard only after its
status reached the recipient. -/
theorem done {after : Handoff} (stepped : handoff.step transfer .done = some after) :
    Carried transfer initialShards after := by
  simp only [Handoff.step] at stepped
  split at stepped
  · cases stepped
  rename_i notified
  obtain ⟨⟨call, effects⟩, moved, stepped⟩ := Option.bind_eq_some.mp stepped
  obtain rfl := Option.some.inj stepped
  obtain ⟨key', writes', -, frame⟩ := Handoff.donorEffects_frame transfer _ effects
  rw [frame]
  generalize cancelling : handoff.stream.status.isNone = cancelled at moved notified
  cases MigrateCall.step_transition moved with
  | done _ _ _ _ _ =>
    have finishes : (handoff.donor.onDone cancelled transfer.recipient).1.status = .FINISH := by
      simp only [MigrateCall.onDone_status]
      split
      · exact carried.finishCalled ‹_›
      · rfl
    cases cancelled
    · obtain ⟨code, coded⟩ := Option.isSome_iff_exists.mp (by simpa using cancelling)
      exact { carried with
        finishCalled := fun _ => finishes
        finishedLast := fun _ => finishes
        sends := finishes ▸ trivial
        refused := fun invalid =>
          have ⟨nothing, gone, absent⟩ := carried.refused invalid
          ⟨nothing, by simp [Shards.apply, gone], absent⟩
        kept := fun _ => by
          by_cases held : handoff.donorShards.«at» transfer.shard = none
          · exact carried.kept held
          · cases code
            · exact .inr coded
            · exact .inl (carried.refused coded).2.2
            · exact absurd coded carried.codes }
    · exact { carried with
        finishCalled := fun _ => finishes
        finishedLast := fun _ => finishes
        sends := finishes ▸ trivial }

/-- A broken connection keeps what runs keep. -/
theorem fail {after : Handoff} (stepped : handoff.step transfer .fail = some after) :
    Carried transfer initialShards after := by
  simp only [Handoff.step] at stepped
  split at stepped
  · cases stepped
  · cases stepped
    exact { carried with
      requested := Stream.Requested.fail
      ordered := carried.ordered.fail
      sends := carried.sends.mono fun live => by simp at live
      reads := carried.reads.fail }

/-- Every step of an import keeps what runs keep. -/
theorem step {event : HandoffEvent} {after : Handoff}
    (stepped : handoff.step transfer event = some after) :
    Carried transfer initialShards after := by
  cases event
  case recipient => exact carried.recipientStep stepped
  case donor => exact carried.donorStep stepped
  case resume => exact carried.resume stepped
  case done => exact carried.done stepped
  case fail => exact carried.fail stepped

/-- Every run of an import keeps what runs keep. -/
theorem run {events : List HandoffEvent} {after : Handoff}
    (ran : handoff.run transfer events = some after) : Carried transfer initialShards after := by
  induction events generalizing handoff with
  | nil =>
    cases ran
    exact carried
  | cons event events ih =>
    obtain ⟨next, stepped, ran⟩ := Option.bind_eq_some.mp ran
    exact ih (carried.step stepped) ran

end Carried

end Crocks.Server
