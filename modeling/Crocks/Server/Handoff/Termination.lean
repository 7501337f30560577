import Crocks.Server.Handoff

/-!
# How long an import runs

No run of an import goes on for ever, whatever the order of the two sides' steps and wherever
the connection breaks. `Handoff.remaining` bounds the steps an import has left: the recipient's
place, with the responses it may still read; the donor's call, with the chunks `ReadChunk` has
left and its done notification; the key's writes the watcher has yet to parse; and the
connection, which breaks once at most. Every step lowers it, a write of the key being paid for
by the step of the side that makes it (`Handoff.remaining_step`), so a run of an import from its
start has at most `3 * transfer.dump.length + 28` steps (`import_terminates`).
-/

namespace Crocks.Server

open Crocks.Proto

/-- How many responses the donor's call may still write: the acknowledgement and the dump before
it drains the shard, the dump until it writes chunks, what `ReadChunk` has left while it writes
them, and none after the last. -/
def MigrateCall.unwritten (call : MigrateCall) (dump : Nat) (pending : List MigrateResponse) :
    Nat :=
  match call.status with
  | .REQUEST | .READ => dump + 1
  | .WAIT_REFS => dump
  | .WRITE => pending.length
  | .DONE | .FINISH => 0

/-- A bound on the steps the recipient has left, given how many responses it may still read:
each read of a response is two steps, the read and what `WatchThread` does with it. -/
def ImportStatus.remaining (unread : Nat) : ImportStatus → Nat
  | .REQUEST => 2 * unread + 15
  | .ACK => 2 * unread + 14
  | .WAIT_MASTER => 2 * unread + 13
  | .FIRST => 2 * unread + 12
  | .CHUNK => 2 * unread + 11
  | .READ => 2 * unread + 10
  | .CONFIRM => 6
  | .FINISH => 5
  | .OVER _ => 2
  | .LEFT | .EXITED | .IMPORTED => 0

@[simp] theorem ImportStatus.remaining_LEFT (unread : Nat) : ImportStatus.LEFT.remaining unread = 0 :=
  rfl

@[simp] theorem ImportStatus.remaining_EXITED (unread : Nat) :
    ImportStatus.EXITED.remaining unread = 0 :=
  rfl

@[simp] theorem ImportStatus.remaining_OVER (unread : Nat) (confirmed : Bool) :
    (ImportStatus.OVER confirmed).remaining unread = 2 :=
  rfl

/-- Fewer responses to read leave the recipient fewer steps. -/
theorem ImportStatus.remaining_mono (status : ImportStatus) {unread unread' : Nat}
    (fewer : unread' ≤ unread) : status.remaining unread' ≤ status.remaining unread := by
  cases status <;> simp only [remaining] <;> omega

/-- A bound on the steps the donor's call has left: a completion for each place, one a chunk in
`WRITE`, and the done notification, with room for the key's writes each makes. -/
def MigrateCall.remaining (call : MigrateCall) (dump : Nat) (pending : List MigrateResponse) :
    Nat :=
  (match call.status with
    | .REQUEST => dump + 7
    | .READ => dump + 6
    | .WAIT_REFS => dump + 4
    | .WRITE => pending.length + 3
    | .DONE => 2
    | .FINISH => if call.outstanding then 1 else 0) +
    if call.onDoneCalled then 0 else 3

/-- `OnDone` leaves the call three steps fewer: it comes once, and finishes the call or leaves its
place as it was. -/
theorem MigrateCall.remaining_onDone (call : MigrateCall) (cancelled : Bool) (peer dump : Nat)
    (pending : List MigrateResponse) (fresh : call.onDoneCalled = false) :
    (call.onDone cancelled peer).1.remaining dump pending + 3 ≤ call.remaining dump pending := by
  unfold MigrateCall.onDone
  split
  · simp [MigrateCall.remaining, fresh]
  · cases status : call.status <;> cases outstanding : call.outstanding <;>
      simp [MigrateCall.remaining, fresh, status, outstanding]

/-- `OnDone` leaves the donor no more responses to write. -/
theorem MigrateCall.unwritten_onDone (call : MigrateCall) (cancelled : Bool) (peer dump : Nat)
    (pending : List MigrateResponse) :
    (call.onDone cancelled peer).1.unwritten dump pending ≤ call.unwritten dump pending := by
  unfold MigrateCall.onDone
  split <;> simp [MigrateCall.unwritten]

/-- How many responses the recipient may still read: those in flight, and those the donor may
still write. -/
def Handoff.unread (transfer : Transfer) (handoff : Handoff) : Nat :=
  handoff.stream.toRecipient.length +
    handoff.donor.unwritten transfer.dump.length handoff.pending

/-- A bound on the steps an import has left. -/
def Handoff.remaining (transfer : Transfer) (handoff : Handoff) : Nat :=
  handoff.recipient.status.remaining (handoff.unread transfer) +
    handoff.donor.remaining transfer.dump.length handoff.pending +
    (handoff.writes.length - handoff.recipient.seen) +
    if handoff.stream.broken then 0 else 1

namespace Handoff

/-- An import starts with `3 * transfer.dump.length + 28` steps at most ahead of it. -/
theorem remaining_start (transfer : Transfer) (key : ClusterInfo)
    (recipientShards donorShards : Shards) :
    (Handoff.start key recipientShards donorShards).remaining transfer =
      3 * transfer.dump.length + 28 := by
  simp [remaining, start, unread, ImportStatus.remaining, MigrateCall.remaining,
    MigrateCall.unwritten]
  omega

/-- `HandleError` ends the recipient's part of the budget, writing the key once at most. -/
theorem remaining_handleError (transfer : Transfer) {handoff : Handoff} (code : GrpcCode)
    (busy : 2 ≤ handoff.recipient.status.remaining (handoff.unread transfer)) :
    (handoff.handleError transfer code).remaining transfer < handoff.remaining transfer := by
  obtain ⟨key, extra, info, once, eq⟩ :=
    recipientCalls_eq handoff (.setAvailable transfer.donor false)
  simp only [unread] at busy
  cases code <;>
    simp only [handleError, leave, moveTo, eq, remaining, unread, ImportStatus.remaining_LEFT,
      ImportStatus.remaining_EXITED, List.length_append] <;>
    omega

/-- `MigrationOver` leaves the recipient two steps, writing the key once. -/
theorem remaining_announce (transfer : Transfer) {handoff : Handoff} (confirmed : Bool)
    (busy : 4 ≤ handoff.recipient.status.remaining (handoff.unread transfer)) :
    (handoff.announce transfer confirmed).remaining transfer < handoff.remaining transfer := by
  obtain ⟨key, extra, info, once, eq⟩ :=
    recipientCalls_eq handoff (.migrationOver transfer.shard)
  simp only [unread] at busy
  simp only [announce, moveTo, eq, remaining, unread, ImportStatus.remaining_OVER,
    List.length_append]
  omega

/-- A step of the donor's side lowers the budget when it leaves the recipient as it was, leaves it
no more responses to read, and lowers the donor's part by more than the key's writes it makes. -/
theorem remaining_lt (transfer : Transfer) {handoff after : Handoff}
    (recipient : after.recipient = handoff.recipient)
    (unread : after.unread transfer ≤ handoff.unread transfer)
    (grown : handoff.writes.length ≤ after.writes.length)
    (lower : after.donor.remaining transfer.dump.length after.pending + after.writes.length +
        (if after.stream.broken then 0 else 1) <
      handoff.donor.remaining transfer.dump.length handoff.pending + handoff.writes.length +
        (if handoff.stream.broken then 0 else 1)) :
    after.remaining transfer < handoff.remaining transfer := by
  have fewer := handoff.recipient.status.remaining_mono unread
  simp only [remaining, recipient] at fewer ⊢
  omega

/-- A step of `WatchThread` lowers the budget: it reads a response, moves to a place with less
left, parses a write of the key, or ends its import. -/
theorem remaining_recipientStep {transfer : Transfer} {handoff after : Handoff}
    (stepped : handoff.recipientStep transfer = some after) :
    after.remaining transfer < handoff.remaining transfer := by
  obtain ⟨key, writes, ⟨status, info, seen, shards, response, imported⟩, donor, donorShards,
    pending, stream⟩ := handoff
  cases status <;> simp only [recipientStep] at stepped
  case REQUEST =>
    split at stepped
    · cases stepped
      simp only [remaining, unread, leave, moveTo, ImportStatus.remaining]
      omega
    · split at stepped
      · obtain ⟨-, rfl⟩ := Stream.write_eq_some ‹_›
        cases stepped
        simp only [remaining, unread, moveTo, ImportStatus.remaining]
        omega
      · obtain ⟨code, -, rfl⟩ := Option.map_eq_some'.mp stepped
        exact (remaining_handleError transfer code (by simp [ImportStatus.remaining])).trans_eq rfl
  case ACK =>
    rcases readThen_eq stepped with ⟨response, rest, head, rfl⟩ | ⟨-, -, failed⟩
    · simp only at head
      simp only [remaining, unread, ImportStatus.remaining, head, List.length_cons]
      omega
    · obtain ⟨code, -, rfl⟩ := Option.map_eq_some'.mp failed
      split
      · exact remaining_announce transfer false (by simp [ImportStatus.remaining])
      · exact remaining_handleError transfer code (by simp [ImportStatus.remaining])
  case WAIT_MASTER =>
    split at stepped
    · cases stepped
      simp only [remaining, unread, moveTo, ImportStatus.remaining]
      omega
    · obtain ⟨info', found, rfl⟩ := watchNext_eq stepped
      have within : seen < writes.length := (List.getElem?_eq_some_iff.mp found).1
      simp only [remaining, unread]
      omega
  case FIRST =>
    rcases readThen_eq stepped with ⟨response, rest, head, rfl⟩ | ⟨-, -, failed⟩
    · simp only at head
      simp only [remaining, unread, ImportStatus.remaining, head, List.length_cons]
      omega
    · obtain ⟨code, -, rfl⟩ := Option.map_eq_some'.mp failed
      exact remaining_handleError transfer code (by simp [ImportStatus.remaining])
  case CHUNK =>
    split at stepped <;> cases stepped <;>
      simp only [remaining, unread, moveTo, ImportStatus.remaining] <;>
      omega
  case READ =>
    rcases readThen_eq stepped with ⟨response, rest, head, rfl⟩ | ⟨-, -, failed⟩
    · simp only at head
      simp only [remaining, unread, ImportStatus.remaining, head, List.length_cons]
      omega
    · cases failed
      simp only [remaining, unread, moveTo, ImportStatus.remaining]
      omega
  case CONFIRM =>
    cases stepped
    cases write : stream.write transfer.request with
    | none =>
      simp only [remaining, unread, moveTo, ImportStatus.remaining, Option.getD_none]
      omega
    | some next =>
      obtain ⟨-, rfl⟩ := Stream.write_eq_some write
      simp only [remaining, unread, moveTo, ImportStatus.remaining, Option.getD_some]
      omega
  case FINISH =>
    obtain ⟨code, -, rfl⟩ := Option.map_eq_some'.mp stepped
    split
    · exact remaining_announce transfer true (by simp [ImportStatus.remaining])
    · exact remaining_handleError transfer code (by simp [ImportStatus.remaining])
  case OVER confirmed =>
    obtain ⟨watched, next, stepped⟩ := Option.bind_eq_some.mp stepped
    obtain ⟨info', found, rfl⟩ := watchNext_eq next
    have within : seen < writes.length := (List.getElem?_eq_some_iff.mp found).1
    cases confirmed <;> split at stepped <;> cases stepped <;>
      simp only [remaining, leave, moveTo, ImportStatus.remaining, Bool.false_eq_true, ↓reduceIte] <;>
      omega
  all_goals cases stepped

/-- A completion of the donor's operation lowers the budget: its call moves to a place with less
left or writes a chunk, and pays for the key's write when it gives the shard away. -/
theorem remaining_donorStep {transfer : Transfer} {handoff after : Handoff}
    (stepped : handoff.donorStep transfer = some after) :
    after.remaining transfer < handoff.remaining transfer := by
  obtain ⟨ok, message, next, call, effects, completion, moved, rfl⟩ := donorStep_eq stepped
  obtain ⟨key, writes, recipient, ⟨status, request, retval, called, onDoneCalled, deleted,
    outstanding, readClosed⟩, donorShards, pending, stream⟩ := handoff
  obtain rfl : outstanding = true := by
    by_contra idle
    simp [MigrateCall.step, idle] at moved
  generalize chunked : (!pending.isEmpty) = chunk at moved
  cases MigrateCall.step_transition moved with
  | accept _ _ requesting =>
    obtain rfl : status = .REQUEST := requesting
    obtain ⟨rfl, -⟩ := donorCompletion_unread completion rfl
    refine remaining_lt transfer rfl ?_ ?_ ?_ <;>
      simp only [unread, donorEffects, List.foldl, donorEffect, donorWrites,
        MigrateCall.unwritten, MigrateCall.remaining, MigrateCall.fill, ↓reduceIte] <;> omega
  | shutdown _ _ requesting =>
    obtain rfl : status = .REQUEST := requesting
    exact nomatch (donorCompletion_unread completion rfl).2 rfl
  | absent _ _ _ reading _ missing =>
    obtain rfl : status = .READ := reading
    rcases donorCompletion_reading completion rfl with
      ⟨-, rfl, rfl⟩ | ⟨-, rfl, rest, -, rfl⟩ <;>
    simp only [donorWrites, missing] <;>
    refine remaining_lt transfer rfl ?_ ?_ ?_ <;>
      simp only [unread, Stream.finish_toRecipient, Stream.finish_broken, donorEffects,
        List.foldl, MigrateCall.unwritten, MigrateCall.remaining, MigrateCall.fill,
        ↓reduceIte] <;> omega
  | drain _ _ _ shard reading _ found =>
    obtain rfl : status = .READ := reading
    rcases donorCompletion_reading completion rfl with
      ⟨dead, rfl, rfl⟩ | ⟨live, rfl, rest, head, rfl⟩ <;>
    simp only [donorWrites, found, donorEffects_give] <;>
    cases broken : stream.broken <;>
    refine remaining_lt transfer rfl ?_ ?_ ?_ <;>
      simp only [unread, Stream.send, broken, MigrateCall.unwritten, MigrateCall.remaining,
        MigrateCall.fill, List.length_append, List.length_singleton, if_true,
        Bool.false_eq_true, ↓reduceIte] <;> omega
  | chunk _ _ writing =>
    obtain rfl : status = .WRITE := writing
    obtain ⟨rfl, -⟩ := donorCompletion_unread completion rfl
    obtain _ | ⟨response, rest⟩ := pending
    · simp at chunked
    cases broken : stream.broken <;>
    refine remaining_lt transfer rfl ?_ ?_ ?_ <;>
      simp only [unread, donorEffects, List.foldl, donorWrites, Stream.send, broken,
        MigrateCall.unwritten, MigrateCall.remaining, MigrateCall.fill, List.length_append,
        List.length_cons, List.length_nil, List.tail_cons, if_true, Bool.false_eq_true,
        ↓reduceIte] <;> omega
  | lastChunk _ _ writing =>
    obtain rfl : status = .WRITE := writing
    obtain ⟨rfl, -⟩ := donorCompletion_unread completion rfl
    obtain _ | ⟨response, rest⟩ := pending
    · refine remaining_lt transfer rfl ?_ ?_ ?_ <;>
        simp only [unread, donorEffects, List.foldl, donorWrites, MigrateCall.unwritten,
          MigrateCall.remaining, MigrateCall.fill, List.tail_nil, List.length_nil,
          ↓reduceIte] <;> omega
    · simp at chunked
  | confirm _ _ _ confirming _ =>
    obtain rfl : status = .DONE := confirming
    rcases donorCompletion_reading completion rfl with
      ⟨-, rfl, rfl⟩ | ⟨-, rfl, rest, -, rfl⟩ <;>
    refine remaining_lt transfer rfl ?_ ?_ ?_ <;>
      simp only [unread, donorWrites, Stream.finish_toRecipient, Stream.finish_broken,
        donorEffects, List.foldl, MigrateCall.unwritten, MigrateCall.remaining, MigrateCall.fill,
        ↓reduceIte] <;> omega
  | finish _ _ _ finishing =>
    obtain rfl : status = .FINISH := finishing
    obtain ⟨rfl, -⟩ := donorCompletion_unread completion rfl
    refine remaining_lt transfer rfl ?_ ?_ ?_ <;>
      simp only [unread, donorEffects, List.foldl, donorWrites, MigrateCall.unwritten,
        MigrateCall.remaining, MigrateCall.fill, Bool.false_eq_true, ↓reduceIte] <;> omega

/-- The donor's return from `WaitRefs` lowers the budget: `DumpShard` leaves the dump to write. -/
theorem remaining_resume {transfer : Transfer} {handoff after : Handoff}
    (stepped : handoff.step transfer .resume = some after) :
    after.remaining transfer < handoff.remaining transfer := by
  obtain ⟨⟨call, effects⟩, moved, stepped⟩ := Option.bind_eq_some.mp stepped
  obtain rfl := Option.some.inj stepped
  obtain ⟨key, writes, recipient, ⟨status, request, retval, called, onDoneCalled, deleted,
    outstanding, readClosed⟩, donorShards, pending, stream⟩ := handoff
  cases MigrateCall.step_transition moved with
  | dump waiting _ =>
    obtain rfl : status = .WAIT_REFS := waiting
    refine remaining_lt transfer rfl ?_ ?_ ?_ <;>
      simp only [unread, donorEffects, List.foldl, donorEffect, MigrateCall.unwritten,
        MigrateCall.remaining] <;> omega

/-- The donor's done notification lowers the budget: it comes once, and finishes the call, paying
for the two writes of the key it may make. -/
theorem remaining_done {transfer : Transfer} {handoff after : Handoff}
    (stepped : handoff.step transfer .done = some after) :
    after.remaining transfer < handoff.remaining transfer := by
  simp only [step] at stepped
  split at stepped
  · cases stepped
  obtain ⟨⟨call, effects⟩, moved, stepped⟩ := Option.bind_eq_some.mp stepped
  obtain rfl := Option.some.inj stepped
  obtain ⟨key, extra, few, frame⟩ := donorEffects_frame transfer _ effects
  rw [frame]
  cases MigrateCall.step_transition moved with
  | done _ _ fresh _ _ =>
    generalize handoff.stream.status.isNone = cancelled
    have paid := handoff.donor.remaining_onDone cancelled transfer.recipient
      transfer.dump.length handoff.pending fresh
    have unwritten := handoff.donor.unwritten_onDone cancelled transfer.recipient
      transfer.dump.length handoff.pending
    simp only [MigrateCall.onDone_effects, List.length_cons, List.length_nil] at few
    cases cancelled <;> refine remaining_lt transfer rfl ?_ (by simp) ?_ <;>
      simp only [unread, List.length_append, MigrateCall.onDone_effects, List.foldl, ↓reduceIte,
        Bool.false_eq_true] <;> omega

/-- A broken connection lowers the budget: it breaks once, and loses what was in flight. -/
theorem remaining_fail {transfer : Transfer} {handoff after : Handoff}
    (stepped : handoff.step transfer .fail = some after) :
    after.remaining transfer < handoff.remaining transfer := by
  simp only [step] at stepped
  split at stepped
  · cases stepped
  · rename_i intact
    cases stepped
    refine remaining_lt transfer rfl ?_ (le_refl _) ?_ <;> simp [unread, intact]

/-- Every step of an import lowers the budget. -/
theorem remaining_step {transfer : Transfer} {handoff after : Handoff} {event : HandoffEvent}
    (stepped : handoff.step transfer event = some after) :
    after.remaining transfer < handoff.remaining transfer := by
  cases event
  case recipient => exact remaining_recipientStep stepped
  case donor => exact remaining_donorStep stepped
  case resume => exact remaining_resume stepped
  case done => exact remaining_done stepped
  case fail => exact remaining_fail stepped

/-- A run of an import takes no more steps than its budget, less what it leaves. -/
theorem run_length_le {transfer : Transfer} {handoff after : Handoff}
    {events : List HandoffEvent} (ran : handoff.run transfer events = some after) :
    events.length + after.remaining transfer ≤ handoff.remaining transfer := by
  induction events generalizing handoff with
  | nil =>
    cases ran
    simp
  | cons event events ih =>
    obtain ⟨next, stepped, ran⟩ := Option.bind_eq_some.mp ran
    have rest := ih ran
    have lower := remaining_step stepped
    simp only [List.length_cons]
    omega

end Handoff

/-- No run of an import goes on for ever: from its start, in any order of the two sides' steps
and wherever the connection breaks, a run has at most `3 * transfer.dump.length + 28` steps. -/
theorem import_terminates {transfer : Transfer} {key : ClusterInfo}
    {recipientShards donorShards : Shards} {events : List HandoffEvent} {after : Handoff}
    (ran : (Handoff.start key recipientShards donorShards).run transfer events = some after) :
    events.length ≤ 3 * transfer.dump.length + 28 := by
  have bounded := Handoff.run_length_le ran
  rw [Handoff.remaining_start] at bounded
  omega

/-- The whole import of shard 0 takes its 20 steps, within the bound of 34 for a dump of two
responses. -/
theorem handoff_run_bounded :
    ∃ after,
      (Handoff.start handoffInfo {} ⟨[some {}]⟩).run handoffTransfer handoffRun = some after ∧
      handoffRun.length ≤ 3 * handoffTransfer.dump.length + 28 :=
  ⟨_, rfl, import_terminates
    (show (Handoff.start handoffInfo {} ⟨[some {}]⟩).run handoffTransfer handoffRun = some _
      from rfl)⟩

end Crocks.Server
