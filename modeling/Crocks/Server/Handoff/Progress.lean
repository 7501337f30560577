import Crocks.Server.Handoff.Routing
import Crocks.Server.Handoff.Termination

/-!
# An import never deadlocks

`WatchThread` waits for the donor's acknowledgement before it waits to see itself the shard's
master, and the source says why: "We wait for these events in reverse order to avoid a
deadlock". `Progressing` is what every run keeps that rules out a state where no side can move:
until it finishes, the donor's call is live with an operation in flight; a finished call has had
its status reach the recipient, or is over for it; the recipient's end of the stream is open
until it leaves the task; and each wait of its watcher has a write ahead that ends it, since the
donor writes the acknowledgement only after `GiveShard`, and the recipient's own
`MigrationOver` is a write its watcher has yet to parse.

With the two other invariants this gives `import_never_deadlocks`: in every run of an import
whose dump holds a finished response ("Even if the shard is empty, one message will be sent"),
until the recipient has left the task or imported the shard, the recipient, the donor's call or
the donor's thread in `WaitRefs` can take a step. Since every step lowers the budget of
`Handoff.remaining`, those steps alone carry every run to its end (`import_completes`).
-/

namespace Crocks.Server

open Crocks.Proto

/-- A write of the key at or after the `seen`-th passes `holds`: the watcher has it ahead. -/
def Ahead (writes : List ClusterInfo) (seen : Nat) (holds : ClusterInfo → Bool) : Prop :=
  ∃ j info, seen ≤ j ∧ writes[j]? = some info ∧ holds info = true

namespace Ahead

variable {writes : List ClusterInfo} {seen : Nat} {holds : ClusterInfo → Bool}

/-- More writes keep a write ahead. -/
theorem append (ahead : Ahead writes seen holds) (extra : List ClusterInfo) :
    Ahead (writes ++ extra) seen holds := by
  obtain ⟨j, info, later, found, passes⟩ := ahead
  refine ⟨j, info, later, ?_, passes⟩
  rw [List.getElem?_append_left (List.getElem?_eq_some_iff.mp found).1, found]

/-- A write the watcher has not reached is ahead of it. -/
theorem publish {info : ClusterInfo} (caught : seen ≤ writes.length) (passes : holds info = true) :
    Ahead (writes ++ [info]) seen holds :=
  ⟨writes.length, info, caught, by simp, passes⟩

/-- Every write is ahead of a watcher that has parsed none. -/
theorem of_mem {info : ClusterInfo} (mem : info ∈ writes) (passes : holds info = true) :
    Ahead writes 0 holds := by
  obtain ⟨j, found⟩ := List.mem_iff_getElem?.mp mem
  exact ⟨j, info, Nat.zero_le _, found, passes⟩

/-- A watcher with a write ahead has a write to parse next. -/
theorem next (ahead : Ahead writes seen holds) : ∃ info, writes[seen]? = some info := by
  obtain ⟨j, info, later, found, -⟩ := ahead
  have within := (List.getElem?_eq_some_iff.mp found).1
  exact ⟨_, List.getElem?_eq_getElem (by omega)⟩

/-- Parsing a write that fails `holds` keeps the write ahead. -/
theorem skip (ahead : Ahead writes seen holds) {info : ClusterInfo}
    (found : writes[seen]? = some info) (fails : holds info = false) :
    Ahead writes (seen + 1) holds := by
  obtain ⟨j, other, later, found', passes⟩ := ahead
  refine ⟨j, other, Nat.succ_le_of_lt (Nat.lt_of_le_of_ne later fun same => ?_), found', passes⟩
  subst same
  obtain rfl := Option.some.inj (found.symm.trans found')
  simp [fails] at passes

end Ahead

/-- What the recipient's place says of its watcher and of its end of the stream: it parses no
write before the acknowledgement; each of its waits for the key has a write ahead that ends it;
and its end of the stream is open, from its first write, until it leaves the task. -/
def Watching (transfer : Transfer) (recipient : Recipient) (writes : List ClusterInfo)
    (opened closed : Bool) : Prop :=
  match recipient.status with
  | .REQUEST => recipient.seen = 0 ∧ closed = false
  | .ACK => recipient.seen = 0 ∧ opened = true ∧ closed = false
  | .WAIT_MASTER =>
    opened = true ∧ closed = false ∧
      (recipient.info.indexForShard transfer.shard = transfer.recipient ∨
        Ahead writes recipient.seen (·.indexForShard transfer.shard == transfer.recipient))
  | .FIRST | .CHUNK | .READ | .CONFIRM | .FINISH => opened = true ∧ closed = false
  | .OVER _ =>
    opened = true ∧ closed = false ∧ Ahead writes recipient.seen (!·.isMigrating transfer.shard)
  | .LEFT | .EXITED | .IMPORTED => True

namespace Watching

variable {transfer : Transfer} {recipient : Recipient} {writes : List ClusterInfo}
  {opened closed : Bool}

/-- More writes keep what the recipient's place says. -/
theorem append (watching : Watching transfer recipient writes opened closed)
    (extra : List ClusterInfo) : Watching transfer recipient (writes ++ extra) opened closed := by
  unfold Watching at watching ⊢
  cases status : recipient.status <;> simp only [status] at watching ⊢
  case WAIT_MASTER => exact ⟨watching.1, watching.2.1, watching.2.2.imp_right (·.append extra)⟩
  case OVER => exact ⟨watching.1, watching.2.1, watching.2.2.append extra⟩
  all_goals exact watching

/-- A new `info_` keeps what the recipient's place says, outside its wait for mastership. -/
theorem inform (watching : Watching transfer recipient writes opened closed)
    (waiting : recipient.status ≠ .WAIT_MASTER) (info : ClusterInfo) :
    Watching transfer { recipient with info } writes opened closed := by
  unfold Watching at watching ⊢
  cases status : recipient.status <;> simp only [status] at watching ⊢
  case WAIT_MASTER => exact absurd status waiting
  all_goals exact watching

end Watching

/-- What the donor's place says of its call: until it finishes, the call is live with an
operation in flight, and has written the acknowledgement once it writes chunks; a finished
call has had its status reach the recipient, or is over for it. -/
def DonorRuns (call : MigrateCall) (status : Option GrpcCode) (dead : Bool)
    (sent : List MigrateResponse) : Prop :=
  match call.status with
  | .FINISH => status.isSome = true ∨ dead = true
  | .WRITE => call.deleted = false ∧ call.outstanding = true ∧ sent ≠ []
  | .REQUEST | .READ | .WAIT_REFS | .DONE => call.deleted = false ∧ call.outstanding = true

/-- What holds of a live call holds of one that is over. -/
theorem DonorRuns.dead {call : MigrateCall} {status : Option GrpcCode} {dead dead' : Bool}
    {sent : List MigrateResponse} (runs : DonorRuns call status dead sent)
    (more : dead = true → dead' = true) : DonorRuns call status dead' sent := by
  unfold DonorRuns at runs ⊢
  split at runs
  · exact runs.imp_right more
  all_goals exact runs

/-- A call that has not finished is live with an operation in flight. -/
theorem DonorRuns.live {call : MigrateCall} {status : Option GrpcCode} {dead : Bool}
    {sent : List MigrateResponse} (runs : DonorRuns call status dead sent)
    (running : call.status ≠ .FINISH) : call.deleted = false ∧ call.outstanding = true := by
  unfold DonorRuns at runs
  cases finished : call.status <;> simp only [finished] at runs
  case FINISH => exact absurd finished running
  case WRITE => exact ⟨runs.1, runs.2.1⟩
  all_goals exact runs

/-- A finished call has had its status reach the recipient, or is over for it. -/
theorem DonorRuns.over {call : MigrateCall} {status : Option GrpcCode} {dead : Bool}
    {sent : List MigrateResponse} (runs : DonorRuns call status dead sent)
    (finished : call.status = .FINISH) : status.isSome = true ∨ dead = true := by
  simpa only [DonorRuns, finished] using runs

/-- What every run of an import keeps that lets one of its sides move. -/
structure Progressing (transfer : Transfer) (handoff : Handoff) : Prop where
  /-- The recipient gave the importer only unfinished responses. -/
  chunks : ∀ response ∈ handoff.recipient.imported, response.finished = false
  /-- A read of the donor fails only on a call that is over for it. -/
  readOpen : handoff.donor.readClosed = true →
    (handoff.stream.broken || handoff.stream.closed) = true
  /-- What the donor's place says of its call. -/
  runs : DonorRuns handoff.donor handoff.stream.status
    (handoff.stream.broken || handoff.stream.closed) handoff.stream.sent
  /-- The watcher has parsed only writes the key has had. -/
  seenBound : handoff.recipient.seen ≤ handoff.writes.length
  /-- A response the recipient read or has in flight comes after a write that names it the
  shard's master, unless it has left the task. -/
  acked : handoff.stream.received ++ handoff.stream.toRecipient ≠ [] →
    handoff.stream.closed = true ∨
      ∃ info ∈ handoff.writes, info.indexForShard transfer.shard = transfer.recipient
  /-- What the recipient's place says of its watcher and of its end of the stream. -/
  watching : Watching transfer handoff.recipient handoff.writes handoff.stream.opened
    handoff.stream.closed

/-- A request the donor has yet to read is in flight, on a connection that has not broken. -/
theorem Carried.toDonor_ne_nil {transfer : Transfer} {initialShards : Shards} {handoff : Handoff}
    (carried : Carried transfer initialShards handoff) (intact : handoff.stream.broken = false)
    (behind : handoff.stream.requestsRead < handoff.stream.requestsWritten) :
    handoff.stream.toDonor ≠ [] := fun empty => by
  have counted := carried.requested.counted intact
  simp only [empty, List.length_nil] at counted
  omega

/-- An import starts progressing. -/
theorem Handoff.progressing_start {transfer : Transfer} (key : ClusterInfo)
    (recipientShards donorShards : Shards) :
    Progressing transfer (Handoff.start key recipientShards donorShards) where
  chunks := nofun
  readOpen := nofun
  runs := ⟨rfl, rfl⟩
  seenBound := Nat.zero_le _
  acked sent := absurd rfl sent
  watching := ⟨rfl, rfl⟩

namespace Progressing

variable {transfer : Transfer} {handoff : Handoff} (progressing : Progressing transfer handoff)
include progressing

/-- More writes of the key keep what runs keep. -/
theorem append (extra : List ClusterInfo) (key : ClusterInfo) :
    Progressing transfer { handoff with key, writes := handoff.writes ++ extra } where
  chunks := progressing.chunks
  readOpen := progressing.readOpen
  runs := progressing.runs
  seenBound := progressing.seenBound.trans (by simp)
  acked sent := (progressing.acked sent).imp_right fun ⟨info, mem, routes⟩ =>
    ⟨info, List.mem_append_left _ mem, routes⟩
  watching := progressing.watching.append extra

/-- A method of the recipient's `Info`, outside its wait for mastership, keeps what runs
keep. -/
theorem recipientCalls (mutation : Mutation) (waiting : handoff.recipient.status ≠ .WAIT_MASTER) :
    Progressing transfer (handoff.recipientCalls mutation) := by
  obtain ⟨key, extra, info, -, eq⟩ := Handoff.recipientCalls_eq handoff mutation
  rw [eq]
  exact { progressing.append extra key with
    watching := (progressing.watching.append extra).inform waiting info }

/-- The recipient moving on keeps what runs keep when its new place's conditions hold. -/
theorem moveTo {status : ImportStatus}
    (watching : Watching transfer { handoff.recipient with status } handoff.writes
      handoff.stream.opened handoff.stream.closed) :
    Progressing transfer (handoff.moveTo status) :=
  { progressing with watching }

/-- Leaving the task keeps what runs keep. -/
theorem leave {status : ImportStatus}
    (left : status = .LEFT ∨ status = .EXITED ∨ status = .IMPORTED) :
    Progressing transfer (handoff.leave status) where
  chunks := progressing.chunks
  readOpen _ := by simp [Handoff.leave]
  runs := progressing.runs.dead fun _ => by simp [Handoff.leave]
  seenBound := progressing.seenBound
  acked _ := .inl rfl
  watching := by rcases left with rfl | rfl | rfl <;> trivial

/-- A read of the recipient keeps what runs keep when it takes the response at the head and
its new place's conditions hold. -/
theorem received {response : MigrateResponse} {rest : List MigrateResponse}
    (head : handoff.stream.toRecipient = response :: rest) {next : ImportStatus}
    (watching : Watching transfer { handoff.recipient with response, status := next }
      handoff.writes handoff.stream.opened handoff.stream.closed) :
    Progressing transfer { handoff with
      stream := { handoff.stream with
        toRecipient := rest, received := handoff.stream.received ++ [response] }
      recipient := { handoff.recipient with response, status := next } } :=
  { progressing with
    acked := fun _ => progressing.acked (by simp [head])
    watching }

/-- `WatchNext` keeps what runs keep when the new place's conditions hold. -/
theorem watched {info : ClusterInfo}
    (found : handoff.writes[handoff.recipient.seen]? = some info) (status : ImportStatus)
    (watching : Watching transfer
      { handoff.recipient with info, seen := handoff.recipient.seen + 1, status }
      handoff.writes handoff.stream.opened handoff.stream.closed) :
    Progressing transfer { handoff with
      recipient := { handoff.recipient with info, seen := handoff.recipient.seen + 1, status } } :=
  { progressing with
    seenBound := (List.getElem?_eq_some_iff.mp found).1
    watching }

/-- `HandleError` keeps what runs keep. -/
theorem handleError (code : GrpcCode) (waiting : handoff.recipient.status ≠ .WAIT_MASTER) :
    Progressing transfer (handoff.handleError transfer code) := by
  cases code with
  | OK => exact progressing.leave (.inl rfl)
  | UNAVAILABLE => exact (progressing.recipientCalls _ waiting).leave (.inl rfl)
  | INVALID_ARGUMENT => exact progressing.leave (.inr (.inl rfl))

/-- `MigrationOver` keeps what runs keep from a place where the stream is open: its own write
is ahead of the watcher. -/
theorem announce (confirmed : Bool) (opened : handoff.stream.opened = true)
    (open_ : handoff.stream.closed = false) :
    Progressing transfer (handoff.announce transfer confirmed) :=
  { progressing.append [handoff.key.migrationOver transfer.shard]
      (handoff.key.migrationOver transfer.shard) with
    watching := ⟨opened, open_, .publish progressing.seenBound (by simp [Mutation.migrationOver])⟩ }

/-- A step of `WatchThread` keeps what runs keep. -/
theorem recipientStep {after : Handoff} (stepped : handoff.recipientStep transfer = some after) :
    Progressing transfer after := by
  obtain ⟨key, writes, ⟨status, info, seen, shards, response, imported⟩, donor, donorShards,
    pending, stream⟩ := handoff
  have watching := progressing.watching
  cases status <;> simp only [Handoff.recipientStep] at stepped <;>
    dsimp only [Watching] at watching
  case REQUEST =>
    obtain ⟨unwatched, open_⟩ := watching
    split at stepped
    · cases stepped
      exact progressing.leave (.inl rfl)
    · split at stepped
      · obtain ⟨-, rfl⟩ := Stream.write_eq_some ‹_›
        cases stepped
        exact { progressing with watching := ⟨unwatched, rfl, open_⟩ }
      · obtain ⟨code, -, rfl⟩ := Option.map_eq_some'.mp stepped
        refine Progressing.handleError ?_ code nofun
        exact { progressing with }
  case ACK =>
    obtain ⟨unwatched, opened, open_⟩ := watching
    rcases Handoff.readThen_eq stepped with ⟨response, rest, head, rfl⟩ | ⟨-, -, failed⟩
    · obtain ⟨master, mem, routes⟩ :=
        (progressing.acked (by simp [show stream.toRecipient = _ from head])).resolve_left
          (by simp [open_])
      exact progressing.received head
        ⟨opened, open_, .inr (unwatched ▸ Ahead.of_mem mem (by simpa using routes))⟩
    · obtain ⟨code, -, rfl⟩ := Option.map_eq_some'.mp failed
      split
      · exact progressing.announce false opened open_
      · exact progressing.handleError code nofun
  case WAIT_MASTER =>
    obtain ⟨opened, open_, mastering⟩ := watching
    split at stepped
    · cases stepped
      exact progressing.moveTo ⟨opened, open_⟩
    · rename_i foreign
      obtain ⟨info', found, rfl⟩ := Handoff.watchNext_eq stepped
      refine progressing.watched found .WAIT_MASTER ⟨opened, open_, ?_⟩
      by_cases routes : info'.indexForShard transfer.shard = transfer.recipient
      · exact .inl routes
      · exact .inr ((mastering.resolve_left foreign).skip found (by simpa using routes))
  case FIRST =>
    rcases Handoff.readThen_eq stepped with ⟨response, rest, head, rfl⟩ | ⟨-, -, failed⟩
    · exact progressing.received head watching
    · obtain ⟨code, -, rfl⟩ := Option.map_eq_some'.mp failed
      exact progressing.handleError code nofun
  case CHUNK =>
    split at stepped <;> cases stepped
    · exact progressing.moveTo watching
    · rename_i unfinished
      exact { progressing with
        chunks := fun chunk mem => (List.mem_append.mp mem).elim (progressing.chunks chunk)
          fun last => List.mem_singleton.mp last ▸ Bool.eq_false_iff.mpr unfinished
        watching }
  case READ =>
    rcases Handoff.readThen_eq stepped with ⟨response, rest, head, rfl⟩ | ⟨-, -, failed⟩
    · exact progressing.received head watching
    · cases failed
      exact progressing.moveTo watching
  case CONFIRM =>
    cases stepped
    cases write : stream.write transfer.request with
    | none => exact progressing.moveTo watching
    | some next =>
      obtain ⟨-, rfl⟩ := Stream.write_eq_some write
      exact { progressing with watching }
  case FINISH =>
    obtain ⟨code, -, rfl⟩ := Option.map_eq_some'.mp stepped
    split
    · exact progressing.announce true watching.1 watching.2
    · exact progressing.handleError code nofun
  case OVER confirmed =>
    obtain ⟨opened, open_, ahead⟩ := watching
    obtain ⟨watched, next, stepped⟩ := Option.bind_eq_some.mp stepped
    obtain ⟨info', found, rfl⟩ := Handoff.watchNext_eq next
    split at stepped <;> cases stepped
    · exact progressing.watched found (.OVER confirmed)
        ⟨opened, open_, ahead.skip found (by simpa using ‹_›)⟩
    · exact (progressing.watched found .LEFT trivial).leave (by cases confirmed <;> simp)
  all_goals cases stepped

/-- A response in flight or read comes after a write naming the recipient the master, among any
writes that extend the key's. -/
theorem acked_of_prefix {writes : List ClusterInfo} (grown : handoff.writes <+: writes)
    (sent : handoff.stream.received ++ handoff.stream.toRecipient ≠ []) :
    handoff.stream.closed = true ∨
      ∃ info ∈ writes, info.indexForShard transfer.shard = transfer.recipient :=
  (progressing.acked sent).imp_right fun ⟨info, mem, routes⟩ => ⟨info, grown.subset mem, routes⟩

/-- A completion of the donor's operation closes it for reading only on a call over for it. -/
theorem fill_readOpen {ok : Bool} {message : MigrateRequest} {stream : Stream}
    (completion : handoff.donorCompletion = some (ok, message, stream))
    (closed : (handoff.donor.fill ok message).readClosed = true) :
    (handoff.stream.broken || handoff.stream.closed) = true := by
  simp only [MigrateCall.fill, Bool.or_eq_true, Bool.and_eq_true, Bool.not_eq_true'] at closed
  rcases closed with closed | ⟨reading, failed⟩
  · exact progressing.readOpen closed
  · rcases Handoff.donorCompletion_reading completion reading with ⟨dead, -, -⟩ | ⟨-, rfl, -⟩
    · exact dead
    · cases failed

/-- A step on the donor's side keeps what runs keep when the donor's call and the stream after it
keep the donor's part, the key only gains writes, and the recipient's end of the stream is as it
was. -/
theorem donorSide {call : MigrateCall} {stream : Stream} {writes : List ClusterInfo}
    (grown : handoff.writes <+: writes) (key : ClusterInfo) (donorShards : Shards)
    (pending : List MigrateResponse) (opened : stream.opened = handoff.stream.opened)
    (closed : stream.closed = handoff.stream.closed)
    (readOpen : call.readClosed = true → (stream.broken || stream.closed) = true)
    (runs : DonorRuns call stream.status (stream.broken || stream.closed) stream.sent)
    (acked : stream.received ++ stream.toRecipient ≠ [] → stream.closed = true ∨
      ∃ info ∈ writes, info.indexForShard transfer.shard = transfer.recipient) :
    Progressing transfer
      { handoff with key, writes, donor := call, stream, donorShards, pending } := by
  obtain ⟨extra, rfl⟩ := grown
  exact {
    readOpen := readOpen
    runs := runs
    acked := acked
    chunks := progressing.chunks
    seenBound := progressing.seenBound.trans (by simp)
    watching := by rw [opened, closed]; exact progressing.watching.append extra }

/-- A step of the donor's call keeps what runs keep: it writes the acknowledgement only after
`GiveShard` names the recipient the master, on a call live for it. -/
theorem donorStep {initialShards : Shards} {initial : ClusterInfo}
    (carried : Carried transfer initialShards handoff) (routed : Routed transfer initial handoff)
    {after : Handoff} (stepped : handoff.donorStep transfer = some after) :
    Progressing transfer after := by
  obtain ⟨ok, message, next, call, effects, completion, moved, rfl⟩ :=
    Handoff.donorStep_eq stepped
  have readOpen := progressing.fill_readOpen completion
  have runs := progressing.runs
  obtain ⟨key, writes, recipient, ⟨status, request, retval, called, onDoneCalled, deleted,
    outstanding, readClosed⟩, donorShards, pending, stream⟩ := handoff
  generalize chunked : (!pending.isEmpty) = chunk at moved
  cases MigrateCall.step_transition moved with
  | accept _ _ requesting =>
    obtain rfl : status = .REQUEST := requesting
    obtain ⟨rfl, -⟩ := Handoff.donorCompletion_unread completion rfl
    exact progressing.donorSide (List.prefix_refl _) _ _ _ rfl rfl readOpen
      ⟨(runs.live nofun).1, rfl⟩ progressing.acked
  | shutdown _ _ requesting =>
    obtain rfl : status = .REQUEST := requesting
    exact nomatch (Handoff.donorCompletion_unread completion rfl).2 rfl
  | absent _ _ _ reading _ missing =>
    obtain rfl : status = .READ := reading
    rcases Handoff.donorCompletion_reading completion rfl with
      ⟨dead, rfl, rfl⟩ | ⟨live, rfl, rest, head, rfl⟩
    · simp only [Handoff.donorWrites, missing, Stream.finish, dead, if_true]
      exact progressing.donorSide (List.prefix_refl _) _ _ _ rfl rfl readOpen (.inr dead)
        progressing.acked
    · simp only [Handoff.donorWrites, missing, Stream.finish, live, Bool.false_eq_true,
        ↓reduceIte]
      exact progressing.donorSide (List.prefix_refl _) _ _ _ rfl rfl readOpen (.inl rfl)
        progressing.acked
  | drain _ _ _ shard reading _ found =>
    obtain rfl : status = .READ := reading
    have bound := routed.headed.resolve_right nofun
    rcases Handoff.donorCompletion_reading completion rfl with
      ⟨dead, rfl, rfl⟩ | ⟨live, rfl, rest, head, rfl⟩
    · simp only [Handoff.donorWrites, found, Handoff.donorEffects_give]
      refine progressing.donorSide (List.prefix_append _ _) _ _ _ rfl rfl readOpen
        ⟨(runs.live nofun).1, rfl⟩ fun sent => ?_
      cases closed : stream.closed
      · have broken : stream.broken = true := by simpa [closed] using dead
        exact progressing.acked_of_prefix (List.prefix_append _ _)
          (by simpa [Stream.send, broken] using sent)
      · exact .inl closed
    · obtain ⟨rfl, -⟩ := carried.requested.pop head
      simp only [Handoff.donorWrites, found, Handoff.donorEffects_give]
      refine progressing.donorSide (List.prefix_append _ _) _ _ _ rfl rfl readOpen
        ⟨(runs.live nofun).1, rfl⟩
        fun _ => .inr ⟨_, List.mem_append_right _ (List.mem_singleton_self _), ?_⟩
      simpa [Mutation.giveShard, MigrateCall.fill, MigrateCall.reading, Transfer.request]
        using bound
  | chunk _ _ writing =>
    obtain rfl : status = .WRITE := writing
    have runs : deleted = false ∧ outstanding = true ∧ stream.sent ≠ [] := runs
    obtain ⟨rfl, -⟩ := Handoff.donorCompletion_unread completion rfl
    obtain _ | ⟨response, rest⟩ := pending
    · simp at chunked
    simp only [Handoff.donorWrites]
    refine progressing.donorSide (List.prefix_refl _) _ _ _ rfl rfl readOpen
      ⟨runs.1, rfl, by simp [Stream.send]⟩ fun sent => progressing.acked fun empty => ?_
    cases broken : stream.broken
    · exact runs.2.2 ((carried.ordered.fifo broken).trans empty)
    · exact sent (by simpa [Stream.send, broken] using empty)
  | lastChunk _ _ writing =>
    obtain rfl : status = .WRITE := writing
    obtain ⟨rfl, -⟩ := Handoff.donorCompletion_unread completion rfl
    obtain _ | ⟨response, rest⟩ := pending
    · exact progressing.donorSide (List.prefix_refl _) _ _ _ rfl rfl readOpen
        ⟨(runs.live nofun).1, rfl⟩ progressing.acked
    · simp at chunked
  | confirm _ _ _ confirming _ =>
    obtain rfl : status = .DONE := confirming
    rcases Handoff.donorCompletion_reading completion rfl with
      ⟨dead, rfl, rfl⟩ | ⟨live, rfl, rest, head, rfl⟩
    · simp only [Handoff.donorWrites, Stream.finish, dead, if_true]
      exact progressing.donorSide (List.prefix_refl _) _ _ _ rfl rfl readOpen (.inr dead)
        progressing.acked
    · simp only [Handoff.donorWrites, Stream.finish, live, Bool.false_eq_true, ↓reduceIte]
      exact progressing.donorSide (List.prefix_refl _) _ _ _ rfl rfl readOpen (.inl rfl)
        progressing.acked
  | finish _ _ _ finishing =>
    obtain rfl : status = .FINISH := finishing
    obtain ⟨rfl, -⟩ := Handoff.donorCompletion_unread completion rfl
    exact progressing.donorSide (List.prefix_refl _) _ _ _ rfl rfl readOpen runs
      progressing.acked

/-- The donor's return from `WaitRefs` keeps what runs keep: the call writes chunks after the
acknowledgement. -/
theorem resume {initialShards : Shards} (carried : Carried transfer initialShards handoff)
    {after : Handoff} (stepped : handoff.step transfer .resume = some after) :
    Progressing transfer after := by
  obtain ⟨⟨call, effects⟩, moved, stepped⟩ := Option.bind_eq_some.mp stepped
  obtain rfl := Option.some.inj stepped
  have runs := progressing.runs
  have sends := carried.sends
  obtain ⟨key, writes, recipient, ⟨status, request, retval, called, onDoneCalled, deleted,
    outstanding, readClosed⟩, donorShards, pending, stream⟩ := handoff
  cases MigrateCall.step_transition moved with
  | dump waiting _ =>
    obtain rfl : status = .WAIT_REFS := waiting
    have sends : stream.sent = [{}] ∧ _ := sends
    exact progressing.donorSide (List.prefix_refl _) _ _ _ rfl rfl progressing.readOpen
      ⟨(runs.live nofun).1, (runs.live nofun).2, by simp [sends.1]⟩ progressing.acked

/-- The donor's done notification keeps what runs keep: it comes once the call is over for the
recipient, or its status reached it. -/
theorem done {initialShards : Shards} (carried : Carried transfer initialShards handoff)
    {after : Handoff} (stepped : handoff.step transfer .done = some after) :
    Progressing transfer after := by
  simp only [Handoff.step] at stepped
  split at stepped
  · cases stepped
  rename_i notified
  obtain ⟨⟨call, effects⟩, moved, stepped⟩ := Option.bind_eq_some.mp stepped
  obtain rfl := Option.some.inj stepped
  obtain ⟨key, extra, -, frame⟩ := Handoff.donorEffects_frame transfer _ effects
  rw [frame]
  cases MigrateCall.step_transition moved with
  | done _ _ _ _ _ =>
    have finishes : (handoff.donor.onDone handoff.stream.status.isNone
        transfer.recipient).1.status = .FINISH := by
      simp only [MigrateCall.onDone_status]
      split
      · exact carried.finishCalled ‹_›
      · rfl
    refine progressing.donorSide (List.prefix_append _ _) _ _ _ rfl rfl
      (fun closed => progressing.readOpen (by simpa using closed)) ?_
      (progressing.acked_of_prefix (List.prefix_append _ _))
    unfold DonorRuns
    rw [finishes]
    cases announced : handoff.stream.status
    · refine .inr ?_
      cases broken : handoff.stream.broken
      · simpa [broken, announced] using notified
      · rfl
    · exact .inl (by simp [announced])

/-- A broken connection keeps what runs keep. -/
theorem fail {after : Handoff} (stepped : handoff.step transfer .fail = some after) :
    Progressing transfer after := by
  simp only [Handoff.step] at stepped
  split at stepped
  · cases stepped
  · cases stepped
    exact progressing.donorSide (List.prefix_refl _) handoff.key handoff.donorShards
      handoff.pending rfl rfl (fun _ => rfl) (progressing.runs.dead fun _ => rfl)
      fun sent => progressing.acked fun empty => sent (by simp [List.append_eq_nil.mp empty])

/-- Every step of an import keeps what runs keep. -/
theorem step {initialShards : Shards} {initial : ClusterInfo}
    (carried : Carried transfer initialShards handoff) (routed : Routed transfer initial handoff)
    {event : HandoffEvent} {after : Handoff} (stepped : handoff.step transfer event = some after) :
    Progressing transfer after := by
  cases event
  case recipient => exact progressing.recipientStep stepped
  case donor => exact progressing.donorStep carried routed stepped
  case resume => exact progressing.resume carried stepped
  case done => exact progressing.done carried stepped
  case fail => exact progressing.fail stepped

/-- Every run of an import keeps what runs keep. -/
theorem run {initialShards : Shards} {initial : ClusterInfo}
    (carried : Carried transfer initialShards handoff) (routed : Routed transfer initial handoff)
    {events : List HandoffEvent} {after : Handoff}
    (ran : handoff.run transfer events = some after) : Progressing transfer after := by
  induction events generalizing handoff with
  | nil =>
    cases ran
    exact progressing
  | cons event events ih =>
    obtain ⟨next, stepped, ran⟩ := Option.bind_eq_some.mp ran
    exact ih (progressing.step carried routed stepped) (carried.step stepped)
      (routed.step carried stepped) ran

/-- The donor's side can step while its call is live and has not finished, once the recipient
has opened the call, and while a read of the donor has a request to take. -/
theorem donorMoves (live : (handoff.stream.broken || handoff.stream.closed) = false)
    (unfinished : handoff.stream.status = none) (opened : handoff.stream.opened = true)
    (requested : handoff.donor.reading = true → handoff.stream.toDonor ≠ []) :
    (handoff.step transfer .donor).isSome = true ∨
      (handoff.step transfer .resume).isSome = true := by
  have readOpen : handoff.donor.readClosed = false :=
    Bool.eq_false_iff.mpr fun closed => by simp [progressing.readOpen closed] at live
  by_cases waiting : handoff.donor.status = .WAIT_REFS
  · exact .inr (Handoff.resume_isSome waiting)
  have running : handoff.donor.status ≠ .FINISH := fun finished => by
    simpa [unfinished, live] using progressing.runs.over finished
  obtain ⟨⟨ok, message, next⟩, completion⟩ :=
    Option.isSome_iff_exists.mp (Handoff.donorCompletion_isSome opened requested waiting)
  obtain ⟨deleted, outstanding⟩ := progressing.runs.live running
  exact .inl (Handoff.donorStep_isSome completion deleted outstanding waiting (by simp [readOpen]))

/-- While the recipient waits on the acknowledgement or on the dump with nothing in flight, the
donor has not written the finished response that ends the dump: what the donor wrote is what
the recipient read, and that holds no finished response. -/
theorem unsent {initialShards : Shards} (carried : Carried transfer initialShards handoff)
    (ends : ∃ response ∈ transfer.dump, response.finished = true)
    (reading : handoff.recipient.status = .ACK ∨ handoff.recipient.status = .FIRST ∨
      handoff.recipient.status = .READ)
    (intact : handoff.stream.broken = false) (empty : handoff.stream.toRecipient = []) :
    handoff.donor.status ≠ .DONE := fun done => by
  obtain ⟨last, mem, finished⟩ := ends
  have sends := carried.sends
  simp only [DonorSends, done] at sends
  have fifo := carried.ordered.fifo intact
  rw [empty, List.append_nil, sends.1] at fifo
  have reads := carried.reads
  rcases reading with status | status | status <;> simp only [RecipientReads, status] at reads
  · simp [reads.2.1] at fifo
  · simp [← fifo, List.eq_nil_of_length_eq_zero] at reads
    simp [reads.2.1] at mem
  · obtain ⟨-, ack, received⟩ := reads
    rw [received, List.cons.injEq] at fifo
    simp [progressing.chunks last (fifo.2 ▸ mem)] at finished

/-- A recipient waiting on a read with nothing in flight, on a call live for it, leaves the
donor's side a step: the donor has the recipient's request in flight in `READ`, and has not
reached `DONE`. -/
theorem readMoves {initialShards : Shards} (carried : Carried transfer initialShards handoff)
    (ends : ∃ response ∈ transfer.dump, response.finished = true)
    (reading : handoff.recipient.status = .ACK ∨ handoff.recipient.status = .FIRST ∨
      handoff.recipient.status = .READ)
    (empty : handoff.stream.toRecipient = []) (live : handoff.stream.over = false) :
    (handoff.step transfer .donor).isSome = true ∨
      (handoff.step transfer .resume).isSome = true := by
  obtain ⟨intact, unfinished⟩ : handoff.stream.broken = false ∧ handoff.stream.status = none := by
    simpa [Stream.over] using live
  have reads := carried.reads
  have watching := progressing.watching
  obtain ⟨written, opened, open_⟩ : handoff.stream.requestsWritten = 1 ∧
      handoff.stream.opened = true ∧ handoff.stream.closed = false := by
    rcases reading with status | status | status <;>
      simp only [RecipientReads, Watching, status] at reads watching
    exacts [⟨reads.1, watching.2⟩, ⟨reads.1, watching⟩, ⟨reads.1, watching⟩]
  refine progressing.donorMoves (by simp [intact, open_]) unfinished opened fun donorReads => ?_
  have unsent := progressing.unsent carried ends reading intact empty
  have sends := carried.sends
  cases status : handoff.donor.status <;> simp [MigrateCall.reading, status] at donorReads unsent
  simp only [DonorSends, status] at sends
  exact carried.toDonor_ne_nil intact (by omega)

/-- A recipient waiting in `Finish()` on a call live for it leaves the donor's side a step: the
donor has the confirming request in flight in `DONE`, and is past `READ`. -/
theorem finishMoves {initialShards : Shards} (carried : Carried transfer initialShards handoff)
    (finishing : handoff.recipient.status = .FINISH) (live : handoff.stream.over = false) :
    (handoff.step transfer .donor).isSome = true ∨
      (handoff.step transfer .resume).isSome = true := by
  obtain ⟨intact, unfinished⟩ : handoff.stream.broken = false ∧ handoff.stream.status = none := by
    simpa [Stream.over] using live
  have reads := carried.reads
  have watching := progressing.watching
  simp only [RecipientReads, Watching, finishing] at reads watching
  obtain ⟨received, ⟨-, over⟩ | ⟨written, -⟩⟩ := reads
  · simp [Stream.over, intact, unfinished] at over
  refine progressing.donorMoves (by simp [intact, watching.2]) unfinished watching.1
    fun donorReads => ?_
  have sends := carried.sends
  cases status : handoff.donor.status <;> simp [MigrateCall.reading, status] at donorReads <;>
    simp only [DonorSends, status] at sends
  · have delivered := carried.ordered.delivered
    simp [sends.1, received] at delivered
  · have read := sends.2 (by simp [intact, watching.2])
    exact carried.toDonor_ne_nil intact (by omega)

/-- The watcher never waits for good: waiting for its mastership or for its `MigrationOver`, it
has a write of the key to parse next. -/
theorem watches
    (waits : handoff.recipient.status = .WAIT_MASTER ∧
        handoff.recipient.info.indexForShard transfer.shard ≠ transfer.recipient ∨
      ∃ confirmed, handoff.recipient.status = .OVER confirmed) :
    ∃ info, handoff.writes[handoff.recipient.seen]? = some info := by
  have watching := progressing.watching
  rcases waits with ⟨waiting, foreign⟩ | ⟨confirmed, over⟩
  · simp only [Watching, waiting] at watching
    exact (watching.2.2.resolve_left foreign).next
  · simp only [Watching, over] at watching
    exact watching.2.2.next

/-- A state that keeps what runs keep, whose recipient has neither left the task nor imported the
shard, leaves the recipient, the donor's call or its thread in `WaitRefs` a step. -/
theorem moves {initialShards : Shards} (carried : Carried transfer initialShards handoff)
    (ends : ∃ response ∈ transfer.dump, response.finished = true)
    (present : handoff.recipient.status ≠ .LEFT)
    (importing : handoff.recipient.status ≠ .IMPORTED) :
    (handoff.step transfer .recipient).isSome = true ∨
      (handoff.step transfer .donor).isSome = true ∨
      (handoff.step transfer .resume).isSome = true := by
  cases blocked : handoff.recipientStep transfer with
  | some _ => exact .inl (by simp [Handoff.step, blocked])
  | none =>
  refine .inr ?_
  rcases Handoff.recipientStep_eq_none blocked with
    ⟨reading, empty, live⟩ | ⟨finishing, live⟩ | ⟨waits, none_⟩ | left | exited | imported
  · exact progressing.readMoves carried ends reading empty live
  · exact progressing.finishMoves carried finishing live
  · obtain ⟨info, found⟩ := progressing.watches waits
    simp [found] at none_
  · exact absurd left present
  · have reads := carried.reads
    simp only [RecipientReads, exited] at reads
  · exact absurd imported importing

/-- From a state that keeps what runs keep, the recipient, the donor's call and its thread in
`WaitRefs` carry the import on, with no other step, until the recipient has left the task or
imported the shard: one of them can always move, and each step lowers `Handoff.remaining`. -/
theorem completes {initialShards : Shards} {initial : ClusterInfo}
    (carried : Carried transfer initialShards handoff) (routed : Routed transfer initial handoff)
    (ends : ∃ response ∈ transfer.dump, response.finished = true) :
    ∃ more final, more ⊆ [.recipient, .donor, .resume] ∧ handoff.run transfer more = some final ∧
      (final.recipient.status = .LEFT ∨ final.recipient.status = .IMPORTED) := by
  obtain ⟨budget, counted⟩ : ∃ budget, handoff.remaining transfer = budget := ⟨_, rfl⟩
  induction budget using Nat.strong_induction_on generalizing handoff with
  | _ budget ih =>
  by_cases ended : handoff.recipient.status = .LEFT ∨ handoff.recipient.status = .IMPORTED
  · exact ⟨[], handoff, List.nil_subset _, rfl, ended⟩
  obtain ⟨present, importing⟩ := not_or.mp ended
  obtain ⟨event, own, next, stepped⟩ : ∃ event ∈ [HandoffEvent.recipient, .donor, .resume],
      ∃ next, handoff.step transfer event = some next := by
    rcases progressing.moves carried ends present importing with moved | moved | moved <;>
      exact ⟨_, by simp, Option.isSome_iff_exists.mp moved⟩
  obtain ⟨more, final, own', ran, finished⟩ :=
    ih _ (counted ▸ Handoff.remaining_step stepped) (progressing.step carried routed stepped)
      (carried.step stepped) (routed.step carried stepped) rfl
  exact ⟨event :: more, final, List.cons_subset.mpr ⟨own, own'⟩,
    by simp [Handoff.run, stepped, ran], finished⟩

end Progressing

section Runs

variable {transfer : Transfer} {key : ClusterInfo} {recipientShards donorShards : Shards}
  {events : List HandoffEvent} {after : Handoff}

/-- An import never deadlocks: in every run whose dump holds a finished response, until the
recipient has left the task or imported the shard, the recipient, the donor's call or the
donor's thread in `WaitRefs` can take a step. -/
theorem import_never_deadlocks (ready : Ready transfer key)
    (ends : ∃ response ∈ transfer.dump, response.finished = true)
    (ran : (Handoff.start key recipientShards donorShards).run transfer events = some after)
    (present : after.recipient.status ≠ .LEFT) (importing : after.recipient.status ≠ .IMPORTED) :
    (after.step transfer .recipient).isSome = true ∨
      (after.step transfer .donor).isSome = true ∨
      (after.step transfer .resume).isSome = true := by
  have carried := (Handoff.carried_start key recipientShards).run ran
  have progressing := (Handoff.progressing_start key recipientShards donorShards).run
    (Handoff.carried_start key recipientShards)
    (Handoff.routed_start ready recipientShards donorShards) ran
  exact progressing.moves carried ends present importing

/-- After its first write the recipient waits on the acknowledgement, and the donor's call can
take the request. -/
theorem handoff_waits_on_donor :
    ∃ after, (Handoff.start handoffInfo {} ⟨[some {}]⟩).run handoffTransfer [.recipient] =
        some after ∧
      (after.step handoffTransfer .recipient).isSome = false ∧
      ((after.step handoffTransfer .recipient).isSome = true ∨
        (after.step handoffTransfer .donor).isSome = true ∨
        (after.step handoffTransfer .resume).isSome = true) :=
  ⟨_, rfl, by decide, import_never_deadlocks ⟨by decide, by decide⟩ (by decide)
    (show (Handoff.start handoffInfo {} ⟨[some {}]⟩).run handoffTransfer [.recipient] = some _
      from rfl)
    (by decide) (by decide)⟩

/-- Every run of an import can be carried to its end by the two sides' own steps: from every
state it reaches, with a dump that holds a finished response, some order of steps of the
recipient, the donor's call and its thread in `WaitRefs` brings the recipient to leave the task or
to import the shard. -/
theorem import_completes (ready : Ready transfer key)
    (ends : ∃ response ∈ transfer.dump, response.finished = true)
    (ran : (Handoff.start key recipientShards donorShards).run transfer events = some after) :
    ∃ more final, more ⊆ [.recipient, .donor, .resume] ∧ after.run transfer more = some final ∧
      (final.recipient.status = .LEFT ∨ final.recipient.status = .IMPORTED) :=
  ((Handoff.progressing_start key recipientShards donorShards).run
    (Handoff.carried_start key recipientShards)
    (Handoff.routed_start ready recipientShards donorShards) ran).completes
    ((Handoff.carried_start key recipientShards).run ran)
    ((Handoff.routed_start ready recipientShards donorShards).run
      (Handoff.carried_start key recipientShards) ran) ends

/-- The import of shard 0 can be carried from its start to its end by the two sides. -/
theorem handoff_can_complete :
    ∃ more final, more ⊆ [.recipient, .donor, .resume] ∧
      (Handoff.start handoffInfo {} ⟨[some {}]⟩).run handoffTransfer more = some final ∧
      (final.recipient.status = .LEFT ∨ final.recipient.status = .IMPORTED) :=
  import_completes ⟨by decide, by decide⟩ (by decide)
    (show (Handoff.start handoffInfo {} ⟨[some {}]⟩).run handoffTransfer [] = some _ from rfl)

end Runs

end Crocks.Server
