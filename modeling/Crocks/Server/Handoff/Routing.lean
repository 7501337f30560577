import Crocks.Server.Handoff.Transport

/-!
# Who serves a shard during its import

The coordinator's key routes each shard to its master, and an import moves a shard from the
donor to the recipient: the donor drains the shard and then names the recipient its master
(`Info::GiveShard`), and the recipient waits until its own `info_` shows this before it serves
the shard. `Routed` is what every run keeps of the key, of the recipient's `info_` and of the
donor's registry. Its step lemmas use `Carried`: `MigrationOver` comes only after the donor's
status reached the recipient, which is once the donor's call has finished.

From the two invariants, over every run of an import from a state `Info::Tasks` lists it by:
the recipient serves the shard only while the donor refuses it (`serving_exclusive`); an
imported shard holds the dump, is the recipient's, and its migration is over
(`imported_complete`); the donor drops the shard only once the recipient holds the dump
(`dropped_after_transfer`); the key shows the migration over only after the whole dump was
read, or for a shard the donor never held (`over_after_transfer`); and no answer of the donor
makes `EnsureRpc` stop the recipient (`import_never_exits`).
-/

namespace Crocks.Server

open Crocks.Proto

/-- Whether the recipient has passed its wait for mastership: from there on, the source says,
requests for the shard are accepted. -/
def ImportStatus.serving : ImportStatus → Bool
  | .FIRST | .CHUNK | .READ | .CONFIRM | .FINISH | .OVER true | .IMPORTED => true
  | _ => false

/-- The shard's entry in the key sends it to the recipient, whose master the recipient is not
yet: the entry `Info::Tasks` lists the import by. -/
structure Ready (transfer : Transfer) (key : ClusterInfo) : Prop where
  /-- The shard migrates to the recipient. -/
  bound : (key.shards.getD transfer.shard {}).to.toNat = transfer.recipient
  /-- The recipient is not the shard's master. -/
  foreign : key.indexForShard transfer.shard ≠ transfer.recipient

/-- A state the key has held during the import: the one it started from, or one written since. -/
def Handoff.Written (initial : ClusterInfo) (handoff : Handoff) (info : ClusterInfo) : Prop :=
  info = initial ∨ info ∈ handoff.writes

/-- A write adds the state it writes to those the key has held. -/
theorem Handoff.written_publish {initial : ClusterInfo} {handoff : Handoff}
    {info other : ClusterInfo} :
    (handoff.publish info).Written initial other ↔
      handoff.Written initial other ∨ other = info := by
  simp [Written, publish, or_assoc]

/-- What every run of an import keeps of the key and of the donor's registry. -/
structure Routed (transfer : Transfer) (initial : ClusterInfo) (handoff : Handoff) : Prop where
  /-- The key holds a state it was given. -/
  keyWritten : handoff.Written initial handoff.key
  /-- So does the recipient's `info_`. -/
  viewWritten : handoff.Written initial handoff.recipient.info
  /-- The shard still goes to the recipient, until the donor's call has finished. -/
  headed : (handoff.key.shards.getD transfer.shard {}).to.toNat = transfer.recipient ∨
    handoff.donor.status = .FINISH
  /-- Once any state has named the recipient the shard's master, the key does, and the donor's
  registry refuses the shard. -/
  handedOff : ∀ info, handoff.Written initial info →
    info.indexForShard transfer.shard = transfer.recipient →
    handoff.key.indexForShard transfer.shard = transfer.recipient ∧
      handoff.donorShards.admits transfer.shard = false
  /-- A recipient serving the shard has seen itself named its master. -/
  served : handoff.recipient.status.serving = true →
    ∃ info, handoff.Written initial info ∧
      info.indexForShard transfer.shard = transfer.recipient
  /-- Once any state has shown the migration over, the key does. -/
  settled : ∀ info, handoff.Written initial info →
    info.isMigrating transfer.shard = false → handoff.key.isMigrating transfer.shard = false
  /-- An imported shard's migration is over in the recipient's `info_`. -/
  viewSettled : handoff.recipient.status = .IMPORTED →
    handoff.recipient.info.isMigrating transfer.shard = false
  /-- The migration is over in the key only once the donor's status reached the recipient,
  unless it was over from the start. -/
  cleared : handoff.key.isMigrating transfer.shard = false →
    initial.isMigrating transfer.shard = false ∨ handoff.stream.status.isSome = true

/-- An import from a state that lists it starts routed. -/
theorem Handoff.routed_start {transfer : Transfer} {key : ClusterInfo} (ready : Ready transfer key)
    (recipientShards donorShards : Shards) :
    Routed transfer key (Handoff.start key recipientShards donorShards) where
  keyWritten := .inl rfl
  viewWritten := .inl rfl
  headed := .inl ready.bound
  handedOff info written routes := by
    rcases written with rfl | mem
    · exact absurd routes ready.foreign
    · simp [start] at mem
  served := nofun
  settled info written settles := by
    rcases written with rfl | mem
    · exact settles
    · simp [start] at mem
  viewSettled := nofun
  cleared := .inl

namespace Routed

variable {transfer : Transfer} {initial : ClusterInfo} {handoff : Handoff}
  (routed : Routed transfer initial handoff)
include routed

/-- A write to the key keeps what runs keep when it names the recipient the shard's master only
once the donor refuses it, keeps where the shard goes while the donor's call runs, and never
starts the migration again. -/
theorem publish {info : ClusterInfo}
    (master : info.indexForShard transfer.shard = handoff.key.indexForShard transfer.shard ∨
      info.indexForShard transfer.shard = transfer.recipient ∧
        handoff.donorShards.admits transfer.shard = false)
    (migrating : handoff.key.isMigrating transfer.shard = false →
      info.isMigrating transfer.shard = false)
    (headed : (info.shards.getD transfer.shard {}).to.toNat = transfer.recipient ∨
      handoff.donor.status = .FINISH)
    (cleared : info.isMigrating transfer.shard = false →
      handoff.key.isMigrating transfer.shard = false ∨ handoff.stream.status.isSome = true) :
    Routed transfer initial (handoff.publish info) where
  keyWritten := Handoff.written_publish.mpr (.inr rfl)
  viewWritten := Handoff.written_publish.mpr (.inl routed.viewWritten)
  headed := headed
  handedOff other written routes := by
    rcases Handoff.written_publish.mp written with was | rfl
    · obtain ⟨keyed, refused⟩ := routed.handedOff other was routes
      exact ⟨master.elim (·.trans keyed) (·.1), refused⟩
    · rcases master with same | ⟨-, refused⟩
      · exact ⟨routes, (routed.handedOff _ routed.keyWritten (same.symm.trans routes)).2⟩
      · exact ⟨routes, refused⟩
  served serving :=
    (routed.served serving).imp fun _ ⟨was, routes⟩ =>
      ⟨Handoff.written_publish.mpr (.inl was), routes⟩
  settled other written settles := by
    rcases Handoff.written_publish.mp written with was | rfl
    · exact migrating (routed.settled other was settles)
    · exact settles
  viewSettled := routed.viewSettled
  cleared over := (cleared over).elim routed.cleared .inr

/-- A method of the recipient's `Info` that keeps the shard's master keeps what runs keep. -/
theorem recipientCalls (mutation : Mutation)
    (master : (mutation.change handoff.key).indexForShard transfer.shard =
      handoff.key.indexForShard transfer.shard)
    (migrating : handoff.key.isMigrating transfer.shard = false →
      (mutation.change handoff.key).isMigrating transfer.shard = false)
    (headed : ((mutation.change handoff.key).shards.getD transfer.shard {}).to.toNat =
      transfer.recipient ∨ handoff.donor.status = .FINISH)
    (cleared : (mutation.change handoff.key).isMigrating transfer.shard = false →
      handoff.key.isMigrating transfer.shard = false ∨ handoff.stream.status.isSome = true)
    (present : handoff.recipient.status ≠ .IMPORTED) :
    Routed transfer initial (handoff.recipientCalls mutation) := by
  unfold Handoff.recipientCalls
  split
  · exact { routed with
      viewWritten := routed.keyWritten
      viewSettled := fun imported => absurd imported present }
  · have published := routed.publish (.inl master) migrating headed cleared
    exact { published with
      viewWritten := published.keyWritten
      viewSettled := fun imported => absurd imported present }

/-- A method of the donor's `Info` keeps what runs keep under the conditions of a write. -/
theorem donorCalls (mutation : Mutation)
    (master : (mutation.change handoff.key).indexForShard transfer.shard =
        handoff.key.indexForShard transfer.shard ∨
      (mutation.change handoff.key).indexForShard transfer.shard = transfer.recipient ∧
        handoff.donorShards.admits transfer.shard = false)
    (migrating : handoff.key.isMigrating transfer.shard = false →
      (mutation.change handoff.key).isMigrating transfer.shard = false)
    (headed : ((mutation.change handoff.key).shards.getD transfer.shard {}).to.toNat =
      transfer.recipient ∨ handoff.donor.status = .FINISH)
    (cleared : (mutation.change handoff.key).isMigrating transfer.shard = false →
      handoff.key.isMigrating transfer.shard = false ∨ handoff.stream.status.isSome = true) :
    Routed transfer initial (handoff.donorCalls mutation) := by
  unfold Handoff.donorCalls
  split
  · exact routed
  · exact routed.publish master migrating headed cleared

/-- The recipient moving on keeps what runs keep when it serves only after seeing itself the
master, and is imported only with the migration over in `info_`. -/
theorem moveTo {status : ImportStatus}
    (served : status.serving = true →
      ∃ info, handoff.Written initial info ∧
        info.indexForShard transfer.shard = transfer.recipient)
    (settled : status = .IMPORTED → handoff.recipient.info.isMigrating transfer.shard = false) :
    Routed transfer initial (handoff.moveTo status) :=
  { routed with served, viewSettled := settled }

/-- So does its leaving the task. -/
theorem leave {status : ImportStatus}
    (served : status.serving = true →
      ∃ info, handoff.Written initial info ∧
        info.indexForShard transfer.shard = transfer.recipient)
    (settled : status = .IMPORTED → handoff.recipient.info.isMigrating transfer.shard = false) :
    Routed transfer initial (handoff.leave status) :=
  { routed.moveTo served settled with }

/-- A read of the recipient keeps what runs keep when it goes on serving only if it served. -/
theorem read {response : MigrateResponse} {rest : List MigrateResponse} {next : ImportStatus}
    (served : next.serving = true → handoff.recipient.status.serving = true)
    (settled : next ≠ .IMPORTED) :
    Routed transfer initial { handoff with
      stream := { handoff.stream with
        toRecipient := rest, received := handoff.stream.received ++ [response] }
      recipient := { handoff.recipient with response, status := next } } :=
  { routed with
    served := fun serving => routed.served (served serving)
    viewSettled := fun imported => absurd imported settled }

/-- `WatchNext` keeps what runs keep before the shard is imported. -/
theorem watchNext {after : Handoff} (stepped : handoff.watchNext = some after)
    (present : handoff.recipient.status ≠ .IMPORTED) : Routed transfer initial after := by
  obtain ⟨info, found, rfl⟩ := Handoff.watchNext_eq stepped
  exact { routed with
    viewWritten := .inr (List.getElem?_mem found)
    viewSettled := fun imported => absurd imported present }

/-- `HandleError` keeps what runs keep. -/
theorem handleError (code : GrpcCode) (present : handoff.recipient.status ≠ .IMPORTED) :
    Routed transfer initial (handoff.handleError transfer code) := by
  cases code with
  | OK => exact routed.leave nofun nofun
  | UNAVAILABLE =>
    exact (routed.recipientCalls _ rfl id routed.headed .inl present).leave nofun nofun
  | INVALID_ARGUMENT => exact routed.leave nofun nofun

/-- `MigrationOver` keeps what runs keep once the donor's call has finished. -/
theorem announce (confirmed : Bool) (announced : handoff.stream.status.isSome = true)
    (finishing : handoff.donor.status = .FINISH) (present : handoff.recipient.status ≠ .IMPORTED)
    (served :
      (ImportStatus.OVER confirmed).serving = true → handoff.recipient.status.serving = true) :
    Routed transfer initial (handoff.announce transfer confirmed) :=
  have called := routed.recipientCalls (.migrationOver transfer.shard)
    (by simp [Mutation.migrationOver]) (fun _ => by simp [Mutation.migrationOver]) (.inr finishing)
    (fun _ => .inr announced) present
  called.moveTo (fun over => called.served (by simpa using served over)) nofun

/-- A step of `WatchThread` keeps what runs keep. -/
theorem recipientStep {initialShards : Shards} (carried : Carried transfer initialShards handoff)
    {after : Handoff} (stepped : handoff.recipientStep transfer = some after) :
    Routed transfer initial after := by
  obtain ⟨key, writes, ⟨status, info, seen, shards, response, imported⟩, donor, donorShards,
    pending, stream⟩ := handoff
  cases status <;> simp only [Handoff.recipientStep] at stepped
  case REQUEST =>
    split at stepped
    · cases stepped
      exact routed.leave nofun nofun
    · split at stepped
      · obtain ⟨-, rfl⟩ := Stream.write_eq_some ‹_›
        cases stepped
        exact { routed with served := nofun, viewSettled := nofun }
      · obtain ⟨code, -, rfl⟩ := Option.map_eq_some'.mp stepped
        refine Routed.handleError ?_ code nofun
        exact { routed with }
  case ACK =>
    rcases Handoff.readThen_eq stepped with ⟨response, rest, -, rfl⟩ | ⟨-, -, failed⟩
    · exact routed.read nofun nofun
    · obtain ⟨code, finished, rfl⟩ := Option.map_eq_some'.mp failed
      split
      · rename_i invalid
        have status := Stream.status_of_finished finished (by simp [invalid])
        have announced : stream.status.isSome = true := by simp [status]
        exact routed.announce false announced (carried.finishedLast announced) nofun nofun
      · exact routed.handleError code nofun
  case WAIT_MASTER =>
    split at stepped
    · cases stepped
      exact routed.moveTo (fun _ => ⟨info, routed.viewWritten, ‹_›⟩) nofun
    · exact routed.watchNext stepped nofun
  case FIRST =>
    rcases Handoff.readThen_eq stepped with ⟨response, rest, -, rfl⟩ | ⟨-, -, failed⟩
    · exact routed.read (fun _ => rfl) nofun
    · obtain ⟨code, -, rfl⟩ := Option.map_eq_some'.mp failed
      exact routed.handleError code nofun
  case CHUNK =>
    split at stepped <;> cases stepped
    · exact routed.moveTo (fun _ => routed.served rfl) nofun
    · exact { routed with served := fun _ => routed.served rfl, viewSettled := nofun }
  case READ =>
    rcases Handoff.readThen_eq stepped with ⟨response, rest, -, rfl⟩ | ⟨-, -, failed⟩
    · exact routed.read (fun _ => rfl) nofun
    · cases failed
      exact routed.moveTo (fun _ => routed.served rfl) nofun
  case CONFIRM =>
    cases stepped
    have moved := @Routed.moveTo _ _ _ routed .FINISH (fun _ => routed.served rfl) nofun
    cases write : stream.write transfer.request with
    | none => exact moved
    | some next =>
      obtain ⟨-, rfl⟩ := Stream.write_eq_some write
      exact { moved with }
  case FINISH =>
    obtain ⟨code, finished, rfl⟩ := Option.map_eq_some'.mp stepped
    split
    · rename_i ok
      have status := Stream.status_of_finished finished (by simp [ok])
      have announced : stream.status.isSome = true := by simp [status]
      exact routed.announce true announced (carried.finishedLast announced) nofun fun _ => rfl
    · exact routed.handleError code nofun
  case OVER confirmed =>
    obtain ⟨watched, next, stepped⟩ := Option.bind_eq_some.mp stepped
    have routed := routed.watchNext next nofun
    obtain ⟨info', -, rfl⟩ := Handoff.watchNext_eq next
    split at stepped <;> cases stepped
    · exact routed
    · rename_i over
      refine routed.leave (fun serving => ?_) (fun imported => ?_)
      · cases confirmed
        · exact nomatch serving
        · exact routed.served rfl
      · cases confirmed
        · exact nomatch imported
        · exact Bool.eq_false_iff.mpr over
  all_goals cases stepped

/-- An effect of the donor's call keeps what runs keep, when it gives the shard away only once
the donor refuses it, and while it goes to the recipient. -/
theorem donorEffect (effect : Effect)
    (giving : ∀ shard, effect = .giveShard shard → shard = transfer.shard →
      handoff.donorShards.admits transfer.shard = false ∧
        (handoff.key.shards.getD transfer.shard {}).to.toNat = transfer.recipient) :
    Routed transfer initial (Handoff.donorEffect transfer handoff effect) := by
  cases effect <;> simp only [Handoff.donorEffect]
  case giveShard shard =>
    refine routed.donorCalls _ ?_ (fun settled => by simpa [Mutation.giveShard] using settled)
      (by simpa only [Mutation.giveShard, ClusterInfo.to_giveShard] using routed.headed)
      (fun over => .inl (by simpa [Mutation.giveShard] using over))
    by_cases same : shard = transfer.shard
    · subst same
      obtain ⟨refused, bound⟩ := giving _ rfl rfl
      exact .inr ⟨(ClusterInfo.indexForShard_giveShard _ _ _).trans ((if_pos rfl).trans bound),
        refused⟩
    · exact .inl (by simp [Mutation.giveShard, same])
  case markUnavailable node => exact routed.donorCalls _ (.inl rfl) id routed.headed .inl
  case leaveIfEmpty =>
    split
    · exact routed.donorCalls _ (.inl rfl) id routed.headed .inl
    · exact routed
  case dump => exact { routed with }
  all_goals exact { routed with
    handedOff := fun info written routes =>
      (routed.handedOff info written routes).imp_right fun refused =>
        Bool.eq_false_iff.mpr fun admitted => by simp [Shards.admits_of_apply admitted] at refused }

/-- Effects that give no shard away keep what runs keep. -/
theorem donorEffects_quiet {effects : List Effect}
    (quiet : ∀ shard, .giveShard shard ∉ effects) :
    Routed transfer initial (Handoff.donorEffects transfer handoff effects) := by
  induction effects generalizing handoff with
  | nil => exact routed
  | cons effect effects ih =>
    exact ih (routed.donorEffect effect fun shard given _ =>
        absurd (given ▸ List.mem_cons_self _ _) (quiet shard))
      fun shard mem => quiet shard (List.mem_cons_of_mem _ mem)

/-- A transition of the donor's call, with its effects, keeps what runs keep: it gives a shard
away only from `READ`, right after draining it. -/
theorem proceeds {event : MigrateEvent} {call : MigrateCall} {effects : List Effect}
    (transition : MigrateCall.Transition handoff.donorShards.«at» (fun _ => true) handoff.donor
      event call effects)
    {stream : Stream}
    (announced : handoff.stream.status.isSome = true → stream.status.isSome = true)
    (pending : List MigrateResponse) :
    Routed transfer initial
      (Handoff.donorEffects transfer { handoff with donor := call, stream, pending } effects) := by
  have moved : Routed transfer initial { handoff with donor := call, stream, pending } :=
    { routed with
      headed := routed.headed.imp_right transition.finished
      cleared := fun over => (routed.cleared over).imp_right announced }
  by_cases giving : ∃ shard, .giveShard shard ∈ effects
  · obtain ⟨shard, given⟩ := giving
    obtain ⟨reading, rfl⟩ := transition.gives given
    have bound := routed.headed.resolve_right (by simp [reading])
    exact (moved.donorEffect (.drain shard) nofun).donorEffect (.giveShard shard)
      fun _ given same => ⟨by
        obtain rfl := Effect.giveShard.inj given
        subst same
        exact Shards.admits_apply_drain _ _, bound⟩
  · exact moved.donorEffects_quiet fun shard mem => giving ⟨shard, mem⟩

/-- Every step of an import keeps what runs keep. -/
theorem step {initialShards : Shards} (carried : Carried transfer initialShards handoff)
    {event : HandoffEvent} {after : Handoff} (stepped : handoff.step transfer event = some after) :
    Routed transfer initial after := by
  cases event
  case recipient => exact routed.recipientStep carried stepped
  case donor =>
    obtain ⟨ok, message, next, call, effects, completion, moved, rfl⟩ :=
      Handoff.donorStep_eq stepped
    refine routed.proceeds (MigrateCall.step_transition moved) (fun announced => ?_) _
    exact Handoff.donorWrites_status _ _
      ((Handoff.donorCompletion_status completion).symm ▸ announced)
  case resume =>
    obtain ⟨⟨call, effects⟩, moved, stepped⟩ := Option.bind_eq_some.mp stepped
    obtain rfl := Option.some.inj stepped
    exact routed.proceeds (MigrateCall.step_transition moved) id handoff.pending
  case done =>
    simp only [Handoff.step] at stepped
    split at stepped
    · cases stepped
    obtain ⟨⟨call, effects⟩, moved, stepped⟩ := Option.bind_eq_some.mp stepped
    obtain rfl := Option.some.inj stepped
    exact routed.proceeds (MigrateCall.step_transition moved) id handoff.pending
  case fail =>
    simp only [Handoff.step] at stepped
    split at stepped
    · cases stepped
    · cases stepped
      exact { routed with }

/-- Every run of an import keeps what runs keep. -/
theorem run {initialShards : Shards} (carried : Carried transfer initialShards handoff)
    {events : List HandoffEvent} {after : Handoff}
    (ran : handoff.run transfer events = some after) :
    Routed transfer initial after := by
  induction events generalizing handoff with
  | nil =>
    cases ran
    exact routed
  | cons event events ih =>
    obtain ⟨next, stepped, ran⟩ := Option.bind_eq_some.mp ran
    exact ih (routed.step carried stepped) (carried.step stepped) ran

end Routed

/-- Responses read up to a finished one, from a dump whose chunks are all unfinished, are the
chunks and the last response. -/
theorem chunks_of_shipped {imported chunks : List MigrateResponse} {response last : MigrateResponse}
    (shipped : imported ++ [response] <+: chunks ++ [last]) (finished : response.finished = true)
    (unfinished : ∀ chunk ∈ chunks, chunk.finished = false) :
    imported = chunks ∧ response = last := by
  induction imported generalizing chunks with
  | nil =>
    cases chunks with
    | nil => exact ⟨rfl, by simpa using shipped⟩
    | cons chunk chunks =>
      obtain ⟨rfl, -⟩ := List.cons_prefix_cons.mp shipped
      simp [unfinished response (.head _)] at finished
  | cons head imported ih =>
    cases chunks with
    | nil => simpa using shipped.length_le
    | cons chunk chunks =>
      obtain ⟨rfl, rest⟩ := List.cons_prefix_cons.mp shipped
      obtain ⟨rfl, rfl⟩ := ih rest fun chunk mem => unfinished chunk (.tail _ mem)
      exact ⟨rfl, rfl⟩

section Runs

variable {transfer : Transfer} {key : ClusterInfo} {recipientShards donorShards : Shards}
  {events : List HandoffEvent} {after : Handoff}

/-- While the recipient serves the shard, the key names it the shard's master and the donor's
registry refuses new references to the shard. -/
theorem serving_exclusive (ready : Ready transfer key)
    (ran : (Handoff.start key recipientShards donorShards).run transfer events = some after)
    (serving : after.recipient.status.serving = true) :
    after.key.indexForShard transfer.shard = transfer.recipient ∧
      after.donorShards.admits transfer.shard = false := by
  have routed := (Handoff.routed_start ready recipientShards donorShards).run
    (Handoff.carried_start key recipientShards) ran
  obtain ⟨info, written, routes⟩ := routed.served serving
  exact routed.handedOff info written routes

/-- Midway through the import, with the donor in `WaitRefs` and the recipient about to read its
first response, the recipient serves the shard and the donor refuses it. -/
theorem handoff_serves_exclusively :
    ∃ after, (Handoff.start handoffInfo {} ⟨[some {}]⟩).run handoffTransfer
        [.recipient, .donor, .donor, .recipient, .recipient, .recipient] = some after ∧
      after.recipient.status.serving = true ∧
      after.key.indexForShard 0 = 1 ∧ after.donorShards.admits 0 = false :=
  ⟨_, rfl, by decide, serving_exclusive ⟨by decide, by decide⟩
    (show (Handoff.start handoffInfo {} ⟨[some {}]⟩).run handoffTransfer
      [.recipient, .donor, .donor, .recipient, .recipient, .recipient] = some _ from rfl)
    (by decide)⟩

/-- A recipient that has imported the shard holds the dump's chunks, and the key names it the
master with the migration over. -/
theorem imported_complete (ready : Ready transfer key) {chunks : List MigrateResponse}
    {last : MigrateResponse} (dumped : transfer.dump = chunks ++ [last])
    (unfinished : ∀ chunk ∈ chunks, chunk.finished = false)
    (ran : (Handoff.start key recipientShards donorShards).run transfer events = some after)
    (imported : after.recipient.status = .IMPORTED) :
    after.recipient.imported = chunks ∧ after.recipient.response = last ∧
      after.key.indexForShard transfer.shard = transfer.recipient ∧
      after.key.isMigrating transfer.shard = false := by
  have carried := (Handoff.carried_start key recipientShards).run ran
  have routed := (Handoff.routed_start ready recipientShards donorShards).run
    (Handoff.carried_start key recipientShards) ran
  have reads := carried.reads
  simp only [RecipientReads, imported] at reads
  obtain ⟨-, shipped, finished⟩ := carried.confirmed reads.1
  obtain ⟨info, written, routes⟩ := routed.served (by simp [imported, ImportStatus.serving])
  obtain ⟨same, last⟩ := chunks_of_shipped (dumped ▸ shipped) finished unfinished
  exact ⟨same, last, (routed.handedOff info written routes).1,
    routed.settled _ routed.viewWritten (routed.viewSettled imported)⟩

/-- The whole import ends with node 1 holding the chunk, named the master, with the migration
over. -/
theorem handoff_imports_completely :
    ∃ after,
      (Handoff.start handoffInfo {} ⟨[some {}]⟩).run handoffTransfer handoffRun = some after ∧
      after.recipient.status = .IMPORTED ∧
      after.recipient.imported = [{ chunk := [7] }] ∧
      after.recipient.response = { finished := true } ∧
      after.key.indexForShard 0 = 1 ∧ after.key.isMigrating 0 = false :=
  ⟨_, rfl, by decide, imported_complete ⟨by decide, by decide⟩
    (show handoffTransfer.dump = [{ chunk := [7] }] ++ [{ finished := true }] from rfl)
    (by decide)
    (show (Handoff.start handoffInfo {} ⟨[some {}]⟩).run handoffTransfer handoffRun = some _
      from rfl)
    (by decide)⟩

/-- The donor's registry drops a shard it held only once the recipient holds the whole dump. -/
theorem dropped_after_transfer {chunks : List MigrateResponse} {last : MigrateResponse}
    (dumped : transfer.dump = chunks ++ [last])
    (unfinished : ∀ chunk ∈ chunks, chunk.finished = false)
    (ran : (Handoff.start key recipientShards donorShards).run transfer events = some after)
    (held : donorShards.«at» transfer.shard ≠ none)
    (dropped : after.donorShards.«at» transfer.shard = none) :
    after.recipient.imported = chunks ∧ after.recipient.response = last := by
  have carried := (Handoff.carried_start key recipientShards).run ran
  obtain ⟨-, shipped, finished⟩ := carried.confirmed ((carried.kept dropped).resolve_left held)
  exact chunks_of_shipped (dumped ▸ shipped) finished unfinished

/-- At the end of the whole import the donor has dropped shard 0, and node 1 holds the dump. -/
theorem handoff_drops_after_transfer :
    ∃ after,
      (Handoff.start handoffInfo {} ⟨[some {}]⟩).run handoffTransfer handoffRun = some after ∧
      after.donorShards.«at» 0 = none ∧
      after.recipient.imported = [{ chunk := [7] }] ∧
      after.recipient.response = { finished := true } :=
  ⟨_, rfl, by decide, dropped_after_transfer
    (show handoffTransfer.dump = [{ chunk := [7] }] ++ [{ finished := true }] from rfl)
    (by decide)
    (show (Handoff.start handoffInfo {} ⟨[some {}]⟩).run handoffTransfer handoffRun = some _
      from rfl)
    (by decide) (by decide)⟩

/-- The key shows a migration over only after a transfer of the whole dump, or when the donor
never held the shard. -/
theorem over_after_transfer (ready : Ready transfer key)
    (migrating : key.isMigrating transfer.shard = true) {chunks : List MigrateResponse}
    {last : MigrateResponse} (dumped : transfer.dump = chunks ++ [last])
    (unfinished : ∀ chunk ∈ chunks, chunk.finished = false)
    (ran : (Handoff.start key recipientShards donorShards).run transfer events = some after)
    (over : after.key.isMigrating transfer.shard = false) :
    after.recipient.imported = chunks ∧ after.recipient.response = last ∨
      donorShards.«at» transfer.shard = none := by
  have carried := (Handoff.carried_start key recipientShards).run ran
  have routed := (Handoff.routed_start ready recipientShards donorShards).run
    (Handoff.carried_start key recipientShards) ran
  obtain ⟨code, coded⟩ := Option.isSome_iff_exists.mp
    ((routed.cleared over).resolve_left (by simp [migrating]))
  cases code with
  | OK =>
    obtain ⟨-, shipped, finished⟩ := carried.confirmed coded
    exact .inl (chunks_of_shipped (dumped ▸ shipped) finished unfinished)
  | INVALID_ARGUMENT => exact .inr (carried.refused coded).2.2
  | UNAVAILABLE => exact absurd coded carried.codes

/-- At the end of the whole import the key shows the migration over, after node 1 read the
whole dump. -/
theorem handoff_over_after_transfer :
    ∃ after,
      (Handoff.start handoffInfo {} ⟨[some {}]⟩).run handoffTransfer handoffRun = some after ∧
      after.key.isMigrating 0 = false ∧
      (after.recipient.imported = [{ chunk := [7] }] ∧
          after.recipient.response = { finished := true } ∨
        (⟨[some {}]⟩ : Shards).«at» 0 = none) :=
  ⟨_, rfl, by decide, over_after_transfer ⟨by decide, by decide⟩ (by decide)
    (show handoffTransfer.dump = [{ chunk := [7] }] ++ [{ finished := true }] from rfl)
    (by decide)
    (show (Handoff.start handoffInfo {} ⟨[some {}]⟩).run handoffTransfer handoffRun = some _
      from rfl)
    (by decide)⟩

/-- No error of an import stops the recipient's process: `EnsureRpc` is never reached. -/
theorem import_never_exits
    (ran : (Handoff.start key recipientShards donorShards).run transfer events = some after) :
    after.recipient.status ≠ .EXITED := fun exited => by
  have reads := ((Handoff.carried_start key recipientShards).run ran).reads
  simp only [RecipientReads, exited] at reads

/-- A donor without the shard refuses the request with `INVALID_ARGUMENT`; the recipient
announces the migration over and goes on to its next task. -/
theorem handoff_refusal_continues :
    ∃ after, (Handoff.start handoffInfo {} {}).run handoffTransfer
        [.recipient, .donor, .donor, .recipient, .recipient] = some after ∧
      after.recipient.status = .LEFT ∧ after.recipient.status ≠ .EXITED :=
  ⟨_, rfl, by decide, import_never_exits
    (show (Handoff.start handoffInfo {} {}).run handoffTransfer
      [.recipient, .donor, .donor, .recipient, .recipient] = some _ from rfl)⟩

end Runs

end Crocks.Server
