import Crocks.Server.Handoff.Progress

/-!
# An import over an unbroken connection succeeds

`WatchThread` leaves a task without the shard when its `info_` shows the donor unavailable, when a
read or `Finish()` fails and `HandleError` runs, or when the donor refuses the request with
`invalid_status` and `MigrationOver` follows. Over a connection that never breaks, from a donor
whose registry has the shard and a key that shows the donor available, none of these happens: the
donor finishes only with `OK`, and that reaches the recipient only in `Finish()`. So every run
without a break keeps the recipient in the task (`Staying.run`). Since one side can always move
until the recipient leaves or imports the shard, an import that no side can carry on has imported
it (`import_ends_imported`), and the steps that carry every run to its end carry it on until the
shard is imported (`import_succeeds`).
-/

namespace Crocks.Server

open Crocks.Proto

/-- The recipient is in the task over a connection that has not broken, and before its request its
`info_` shows the donor available. -/
structure Staying (transfer : Transfer) (recipient : Recipient) (broken : Bool) : Prop where
  /-- The connection has not broken. -/
  intact : broken = false
  /-- The recipient has not left the task. -/
  present : recipient.status ≠ .LEFT
  /-- Before its request, `info_` shows the donor available. -/
  available : recipient.status = .REQUEST → recipient.info.isAvailable transfer.donor = true

/-- An import starts with the recipient in the task when the key shows the donor available. -/
theorem Handoff.staying_start {transfer : Transfer} {key : ClusterInfo}
    (available : key.isAvailable transfer.donor = true) (recipientShards donorShards : Shards) :
    Staying transfer (Handoff.start key recipientShards donorShards).recipient
      (Handoff.start key recipientShards donorShards).stream.broken :=
  ⟨rfl, nofun, fun _ => available⟩

/-- Over an unbroken connection, from a donor that held the shard, `Finish()` returns only the
donor's `OK`, and only once the recipient is in `Finish()` or past it. -/
theorem Carried.finished_ok {transfer : Transfer} {initialShards : Shards} {handoff : Handoff}
    (carried : Carried transfer initialShards handoff)
    (held : initialShards.«at» transfer.shard ≠ none) (intact : handoff.stream.broken = false)
    {code : GrpcCode} (finished : handoff.stream.finished = some code) :
    code = .OK ∧ (handoff.recipient.status = .FINISH ∨ handoff.recipient.status = .OVER true ∨
      handoff.recipient.status = .IMPORTED) := by
  have announced : handoff.stream.status = some code := by
    unfold Stream.finished at finished
    split at finished <;> simp_all
  cases code
  case OK => exact ⟨rfl, (carried.confirmed announced).1⟩
  case INVALID_ARGUMENT => exact absurd (carried.refused announced).2.2 held
  case UNAVAILABLE => exact absurd announced carried.codes

namespace Staying

variable {transfer : Transfer} {recipient : Recipient} {broken : Bool}

/-- A recipient that moves on to a place other than its start, and not out of the task, stays. -/
theorem moved (staying : Staying transfer recipient broken) {recipient' : Recipient}
    {broken' : Bool} (kept : broken' = broken) (present : recipient'.status ≠ .LEFT)
    (started : recipient'.status ≠ .REQUEST) : Staying transfer recipient' broken' :=
  ⟨kept.trans staying.intact, present, fun request => absurd request started⟩

variable {initialShards : Shards} {handoff after : Handoff}

/-- A step of `WatchThread` keeps the recipient in the task: it finds the donor available, no read
of it fails, `Finish()` returns `OK`, and the migration is over with that `OK`. -/
theorem recipientStep (carried : Carried transfer initialShards handoff)
    (held : initialShards.«at» transfer.shard ≠ none)
    (staying : Staying transfer handoff.recipient handoff.stream.broken)
    (stepped : handoff.recipientStep transfer = some after) :
    Staying transfer after.recipient after.stream.broken := by
  have ends : ∀ {code}, handoff.stream.finished = some code → _ :=
    carried.finished_ok held staying.intact
  have reads := carried.reads
  obtain ⟨key, writes, ⟨status, info, seen, shards, response, imported⟩, donor, donorShards,
    pending, stream⟩ := handoff
  cases status <;> simp only [Handoff.recipientStep] at stepped
  case REQUEST =>
    split at stepped
    · rename_i unavailable
      simp [staying.available rfl] at unavailable
    split at stepped
    · obtain ⟨-, rfl⟩ := Stream.write_eq_some ‹_›
      cases stepped
      exact staying.moved rfl nofun nofun
    · obtain ⟨code, finished, -⟩ := Option.map_eq_some'.mp stepped
      simpa using (ends finished).2
  case ACK | FIRST =>
    rcases Handoff.readThen_eq stepped with ⟨response, rest, -, rfl⟩ | ⟨-, -, failed⟩
    · exact staying.moved rfl nofun nofun
    · obtain ⟨code, finished, -⟩ := Option.map_eq_some'.mp failed
      simpa using (ends finished).2
  case WAIT_MASTER =>
    split at stepped
    · cases stepped
      exact staying.moved rfl nofun nofun
    · obtain ⟨info, -, rfl⟩ := Handoff.watchNext_eq stepped
      exact staying.moved rfl nofun nofun
  case CHUNK =>
    split at stepped <;> cases stepped <;> exact staying.moved rfl nofun nofun
  case READ =>
    rcases Handoff.readThen_eq stepped with ⟨response, rest, -, rfl⟩ | ⟨-, -, failed⟩
    · exact staying.moved rfl nofun nofun
    · cases failed
      exact staying.moved rfl nofun nofun
  case CONFIRM =>
    cases stepped
    cases write : stream.write transfer.request with
    | none => exact staying.moved (by simp [write]) nofun nofun
    | some next =>
      obtain ⟨-, rfl⟩ := Stream.write_eq_some write
      exact staying.moved (by simp [write]) nofun nofun
  case FINISH =>
    obtain ⟨code, finished, rfl⟩ := Option.map_eq_some'.mp stepped
    obtain ⟨rfl, -⟩ := ends finished
    exact staying.moved (by simp [Handoff.announce, Handoff.moveTo]) nofun nofun
  case OVER confirmed =>
    obtain ⟨watched, next, stepped⟩ := Option.bind_eq_some.mp stepped
    obtain ⟨info, -, rfl⟩ := Handoff.watchNext_eq next
    obtain rfl : confirmed = true := by
      cases confirmed
      · exact absurd (carried.refused reads).2.2 held
      · rfl
    split at stepped <;> cases stepped <;> exact staying.moved rfl nofun nofun
  case LEFT => exact absurd rfl staying.present
  all_goals cases stepped

/-- A step of the donor's call, or of its thread in `WaitRefs`, or its done notification leaves
the recipient as it was and the connection unbroken. -/
theorem donorSide (staying : Staying transfer handoff.recipient handoff.stream.broken)
    {event : HandoffEvent} (donor : event = .donor ∨ event = .resume ∨ event = .done)
    (stepped : handoff.step transfer event = some after) :
    Staying transfer after.recipient after.stream.broken := by
  rcases donor with rfl | rfl | rfl
  · obtain ⟨ok, message, stream, call, effects, completion, -, rfl⟩ :=
      Handoff.donorStep_eq stepped
    obtain ⟨toDonor, requestsRead, rfl⟩ := Handoff.donorCompletion_frame completion
    obtain ⟨toRecipient, sent, status, written⟩ := Handoff.donorWrites_frame handoff
      (handoff.donor.fill ok message).request { handoff.stream with toDonor, requestsRead }
    obtain ⟨key, extra, -, frame⟩ := Handoff.donorEffects_frame transfer _ effects
    rw [frame, written]
    exact staying
  · obtain ⟨⟨call, effects⟩, -, stepped⟩ := Option.bind_eq_some.mp stepped
    obtain ⟨key, extra, -, frame⟩ := Handoff.donorEffects_frame transfer _ effects
    rw [← Option.some.inj stepped, frame]
    exact staying
  · simp only [Handoff.step] at stepped
    split at stepped
    · cases stepped
    obtain ⟨⟨call, effects⟩, -, stepped⟩ := Option.bind_eq_some.mp stepped
    obtain ⟨key, extra, -, frame⟩ := Handoff.donorEffects_frame transfer _ effects
    rw [← Option.some.inj stepped, frame]
    exact staying

/-- Every step but a break keeps the recipient in the task. -/
theorem step (carried : Carried transfer initialShards handoff)
    (held : initialShards.«at» transfer.shard ≠ none)
    (staying : Staying transfer handoff.recipient handoff.stream.broken) {event : HandoffEvent}
    (kept : event ≠ .fail) (stepped : handoff.step transfer event = some after) :
    Staying transfer after.recipient after.stream.broken := by
  cases event
  case recipient => exact staying.recipientStep carried held stepped
  case donor => exact staying.donorSide (.inl rfl) stepped
  case resume => exact staying.donorSide (.inr (.inl rfl)) stepped
  case done => exact staying.donorSide (.inr (.inr rfl)) stepped
  case fail => exact absurd rfl kept

/-- Every run without a break keeps the recipient in the task. -/
theorem run (carried : Carried transfer initialShards handoff)
    (held : initialShards.«at» transfer.shard ≠ none)
    (staying : Staying transfer handoff.recipient handoff.stream.broken)
    {events : List HandoffEvent} (unbroken : HandoffEvent.fail ∉ events)
    (ran : handoff.run transfer events = some after) :
    Staying transfer after.recipient after.stream.broken := by
  induction events generalizing handoff with
  | nil =>
    cases ran
    exact staying
  | cons event events ih =>
    simp only [List.mem_cons, not_or] at unbroken
    obtain ⟨next, stepped, ran⟩ := Option.bind_eq_some.mp ran
    exact ih (carried.step stepped)
      (staying.step carried held (Ne.symm unbroken.1) stepped) unbroken.2 ran

end Staying

section Runs

variable {transfer : Transfer} {key : ClusterInfo} {recipientShards donorShards : Shards}
  {events : List HandoffEvent} {after : Handoff}

/-- An import over a connection that has not broken, from a key that shows the donor available and
a donor whose registry has the shard, can always be carried on to its success: from every state
such a run reaches, some order of steps of the recipient, the donor's call and its thread in
`WaitRefs` brings the recipient to import the shard. -/
theorem import_succeeds (ready : Ready transfer key)
    (ends : ∃ response ∈ transfer.dump, response.finished = true)
    (available : key.isAvailable transfer.donor = true)
    (held : donorShards.«at» transfer.shard ≠ none)
    (ran : (Handoff.start key recipientShards donorShards).run transfer events = some after)
    (unbroken : HandoffEvent.fail ∉ events) :
    ∃ more final, more ⊆ [.recipient, .donor, .resume] ∧ after.run transfer more = some final ∧
      final.recipient.status = .IMPORTED := by
  have carried := (Handoff.carried_start key recipientShards).run ran
  have routed := (Handoff.routed_start ready recipientShards donorShards).run
    (Handoff.carried_start key recipientShards) ran
  have progressing := (Handoff.progressing_start key recipientShards donorShards).run
    (Handoff.carried_start key recipientShards)
    (Handoff.routed_start ready recipientShards donorShards) ran
  have staying := (Handoff.staying_start available recipientShards donorShards).run
    (Handoff.carried_start key recipientShards) held unbroken ran
  obtain ⟨more, final, own, finished, ended⟩ := progressing.completes carried routed ends
  have stays := staying.run carried held (fun failed => by simpa using own failed) finished
  exact ⟨more, final, own, finished, ended.resolve_left stays.present⟩

/-- Over a connection that has not broken, from a key that shows the donor available and a donor
whose registry has the shard, an import that neither side can carry on has imported the shard:
whatever order the two sides took their steps in, the recipient never stops short of it. -/
theorem import_ends_imported (ready : Ready transfer key)
    (ends : ∃ response ∈ transfer.dump, response.finished = true)
    (available : key.isAvailable transfer.donor = true)
    (held : donorShards.«at» transfer.shard ≠ none)
    (ran : (Handoff.start key recipientShards donorShards).run transfer events = some after)
    (unbroken : HandoffEvent.fail ∉ events)
    (stuck : (after.step transfer .recipient).isSome = false ∧
      (after.step transfer .donor).isSome = false ∧
      (after.step transfer .resume).isSome = false) :
    after.recipient.status = .IMPORTED := by
  have carried := (Handoff.carried_start key recipientShards).run ran
  have progressing := (Handoff.progressing_start key recipientShards donorShards).run
    (Handoff.carried_start key recipientShards)
    (Handoff.routed_start ready recipientShards donorShards) ran
  have staying := (Handoff.staying_start available recipientShards donorShards).run
    (Handoff.carried_start key recipientShards) held unbroken ran
  by_contra importing
  rcases progressing.moves carried ends staying.present importing with moved | moved | moved <;>
    simp [stuck] at moved

/-- The whole import of shard 0 ends with the shard imported, and neither side can move on. -/
theorem handoff_ends_imported :
    ∃ after, (Handoff.start handoffInfo {} ⟨[some {}]⟩).run handoffTransfer handoffRun =
        some after ∧ after.recipient.status = .IMPORTED :=
  ⟨_, rfl, import_ends_imported ⟨by decide, by decide⟩ (by decide) (by decide) (by decide)
    (show (Handoff.start handoffInfo {} ⟨[some {}]⟩).run handoffTransfer handoffRun = some _
      from rfl)
    (by decide) (by decide)⟩

/-- After node 1's first write, its import of shard 0 can be carried on until it has the shard. -/
theorem handoff_can_succeed :
    ∃ after, (Handoff.start handoffInfo {} ⟨[some {}]⟩).run handoffTransfer [.recipient] =
        some after ∧
      ∃ more final, more ⊆ [.recipient, .donor, .resume] ∧
        after.run handoffTransfer more = some final ∧ final.recipient.status = .IMPORTED :=
  ⟨_, rfl, import_succeeds ⟨by decide, by decide⟩ (by decide) (by decide) (by decide)
    (show (Handoff.start handoffInfo {} ⟨[some {}]⟩).run handoffTransfer [.recipient] = some _
      from rfl)
    (by decide)⟩

end Runs

end Crocks.Server
