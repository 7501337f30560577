import Crocks.Server.Shards

/-!
# The donor's side of a migration

`MigrateCall` serves the `Migrate` RPC on the donor. Its first read brings the recipient's
`MigrateRequest`; the donor then stops new writes to the shard with `Unref(true)`, publishes
the handoff with `Info::GiveShard`, acknowledges, waits for the writes in flight
(`WaitRefs`, skipped when `Unref(true)` finds the shard already draining), and takes the
snapshot it streams (`DumpShard`). After the last chunk it reads the recipient's confirmation
and finishes; `OnDone` removes the shard from the registry, or marks the recipient
unavailable when the call was cancelled.

`Proceed` never reads `ok` after `REQUEST`: a read that fails leaves `request_` as it was, and
the call goes on with it. `migrate_failed_reads_proceed` runs the call on a failed first read
and on a failed confirming read.
-/

namespace Crocks.Server

/-- `pb::MigrateRequest`. -/
structure MigrateRequest where
  shard : Nat := 0
  startFrom : Nat := 0
  deriving DecidableEq, Repr

/-- `MigrateCall::CallStatus`, with the point inside `Proceed(READ)` where the migrate thread
blocks in `WaitRefs` before `DumpShard`. -/
inductive MigrateStatus where
  | REQUEST
  | READ
  | WAIT_REFS
  | WRITE
  | DONE
  | FINISH
  deriving DecidableEq, Repr

/-- A `MigrateCall`'s members, with the state of its stream: whether a read has failed, after
which no read brings a message. -/
structure MigrateCall where
  status : MigrateStatus := .REQUEST
  request : MigrateRequest := {}
  /-- What `Unref(true)` returned. -/
  retval : Bool := false
  finishCalled : Bool := false
  onDoneCalled : Bool := false
  deleted : Bool := false
  outstanding : Bool := true
  readClosed : Bool := false
  deriving DecidableEq, Repr

/-- A completion the migrate queue delivers to a `MigrateCall`, or its thread returning from
`WaitRefs`. -/
inductive MigrateEvent where
  /-- The outstanding operation completes; a read that succeeds fills `request_` with the
  message. `chunk` is what `migrator_->ReadChunk` answers if the call is in `WRITE`. -/
  | tag (ok : Bool) (message : MigrateRequest) (chunk : Bool)
  /-- `WaitRefs` returns, and `DumpShard` takes the snapshot. -/
  | resume
  /-- The done notification; `peer` is the id the recipient put in the call's metadata. -/
  | done (cancelled : Bool) (peer : Nat)

namespace MigrateCall

/-- `MigrateCall::Proceed(ok)`, up to `WaitRefs`. `shardAt` is the registry's
`Shards::at`. -/
def proceed (shardAt : Nat → Option Shard) (call : MigrateCall) (ok chunk : Bool) :
    MigrateCall × List Effect :=
  match call.status with
  | .REQUEST =>
    if ok then ({ call with status := .READ, outstanding := true }, [.spawn])
    else ({ call with deleted := true }, [])
  | .READ =>
    match shardAt call.request.shard with
    | none => ({ call with status := .FINISH, outstanding := true }, [])
    | some shard =>
      ({ call with status := .WAIT_REFS, retval := !shard.draining, outstanding := true },
        [.drain call.request.shard, .giveShard call.request.shard])
  | .WRITE =>
    if chunk then ({ call with status := .WRITE, outstanding := true }, [])
    else ({ call with status := .DONE, outstanding := true }, [])
  | .DONE => ({ call with status := .FINISH, outstanding := true }, [])
  | .FINISH => ({ call with finishCalled := true, deleted := call.onDoneCalled }, [])
  | .WAIT_REFS => (call, [])

/-- The rest of `Proceed(READ)`: `WaitRefs` returns once no reference on the shard is
outstanding (`quiescent`), unless `Unref(true)` returned false; then `DumpShard` runs. -/
def resume (quiescent : Nat → Bool) (call : MigrateCall) : Option (MigrateCall × List Effect) :=
  if call.status = .WAIT_REFS && (!call.retval || quiescent call.request.shard)
  then some ({ call with status := .WRITE }, [.dump call.request.shard])
  else none

/-- Whether the operation in flight is a read: the one `REQUEST` starts, and the one after
the last chunk. -/
def reading (call : MigrateCall) : Bool :=
  call.status = .READ || call.status = .DONE

/-- `MigrateCall::OnDone`. -/
def onDone (call : MigrateCall) (cancelled : Bool) (peer : Nat) : MigrateCall × List Effect :=
  ((if call.finishCalled then { call with onDoneCalled := true, deleted := true }
    else { call with onDoneCalled := true, status := .FINISH }),
    (if cancelled then .markUnavailable peer else .remove call.request.shard) :: [.leaveIfEmpty])

@[simp] theorem onDone_status (call : MigrateCall) (cancelled : Bool) (peer : Nat) :
    (call.onDone cancelled peer).1.status = if call.finishCalled then call.status else .FINISH := by
  unfold onDone
  split <;> rfl

@[simp] theorem onDone_readClosed (call : MigrateCall) (cancelled : Bool) (peer : Nat) :
    (call.onDone cancelled peer).1.readClosed = call.readClosed := by
  unfold onDone
  split <;> rfl

@[simp] theorem onDone_effects (call : MigrateCall) (cancelled : Bool) (peer : Nat) :
    (call.onDone cancelled peer).2 =
      [if cancelled then .markUnavailable peer else .remove call.request.shard, .leaveIfEmpty] :=
  rfl

/-- The call as a completion leaves it: a read that succeeds fills `request_`, one that fails
closes the stream for reading. -/
def fill (call : MigrateCall) (ok : Bool) (message : MigrateRequest) : MigrateCall :=
  { call with
    request := if call.reading && ok then message else call.request
    readClosed := call.readClosed || (call.reading && !ok)
    outstanding := false }

/-- One completion. A read fails once one has failed; the done notification of a call that
was not cancelled comes after `Finish`; and nothing reaches a call whose thread is blocked in
`WaitRefs`. -/
def step (shardAt : Nat → Option Shard) (quiescent : Nat → Bool) (call : MigrateCall) :
    MigrateEvent → Option (MigrateCall × List Effect)
  | .tag ok message chunk =>
    if call.deleted || !call.outstanding || call.status = .WAIT_REFS ||
        (call.reading && call.readClosed && ok) then none
    else some (proceed shardAt (call.fill ok message) ok chunk)
  | .resume => resume quiescent call
  | .done cancelled peer =>
    if call.deleted || call.onDoneCalled || call.status = .WAIT_REFS ||
        !(cancelled || call.status = .FINISH) then none
    else some (onDone call cancelled peer)

/-- Deliver completions in order against a fixed registry with no write in flight, collecting
the effects. -/
def runFrom (shardAt : Nat → Option Shard) :
    MigrateCall × List Effect → List MigrateEvent → Option (MigrateCall × List Effect)
  | state, [] => some state
  | (call, effects), event :: events =>
    match step shardAt (fun _ => true) call event with
    | none => none
    | some (call, new) => runFrom shardAt (call, effects ++ new) events

/-- A run of a fresh call. -/
def run (shardAt : Nat → Option Shard) (events : List MigrateEvent) :
    Option (MigrateCall × List Effect) :=
  runFrom shardAt ({}, []) events

/-! ## The transitions of a migrate call -/

/-- What one step of a `MigrateCall` can do, transition by transition. A completion moves the
call on from `call.fill ok message`. -/
inductive Transition (shardAt : Nat → Option Shard) (quiescent : Nat → Bool) (call : MigrateCall) :
    MigrateEvent → MigrateCall → List Effect → Prop
  /-- `REQUEST`, matched: a fresh call takes its place and the first read starts. -/
  | accept (message : MigrateRequest) (chunk : Bool) (status : call.status = .REQUEST) :
    Transition shardAt quiescent call (.tag true message chunk)
      { call.fill true message with status := .READ, outstanding := true } [.spawn]
  /-- `REQUEST`, at shutdown. -/
  | shutdown (message : MigrateRequest) (chunk : Bool) (status : call.status = .REQUEST) :
    Transition shardAt quiescent call (.tag false message chunk)
      { call.fill false message with deleted := true } []
  /-- `READ` on a shard the node does not have: `InvalidArgument`. -/
  | absent (ok : Bool) (message : MigrateRequest) (chunk : Bool) (status : call.status = .READ)
    (open_ : (call.readClosed && ok) = false)
    (missing : shardAt (call.fill ok message).request.shard = none) :
    Transition shardAt quiescent call (.tag ok message chunk)
      { call.fill ok message with status := .FINISH, outstanding := true } []
  /-- `READ` on a shard the node has: `Unref(true)`, `GiveShard`, then `WaitRefs`. -/
  | drain (ok : Bool) (message : MigrateRequest) (chunk : Bool) (shard : Shard)
    (status : call.status = .READ) (open_ : (call.readClosed && ok) = false)
    (found : shardAt (call.fill ok message).request.shard = some shard) :
    Transition shardAt quiescent call (.tag ok message chunk)
      { call.fill ok message with
        status := .WAIT_REFS, retval := !shard.draining, outstanding := true }
      [.drain (call.fill ok message).request.shard, .giveShard (call.fill ok message).request.shard]
  /-- `WRITE` with a chunk to send. -/
  | chunk (ok : Bool) (message : MigrateRequest) (status : call.status = .WRITE) :
    Transition shardAt quiescent call (.tag ok message true)
      { call.fill ok message with status := .WRITE, outstanding := true } []
  /-- `WRITE` after the last chunk: the confirming read starts. -/
  | lastChunk (ok : Bool) (message : MigrateRequest) (status : call.status = .WRITE) :
    Transition shardAt quiescent call (.tag ok message false)
      { call.fill ok message with status := .DONE, outstanding := true } []
  /-- `DONE`: `Finish`. -/
  | confirm (ok : Bool) (message : MigrateRequest) (chunk : Bool) (status : call.status = .DONE)
    (open_ : (call.readClosed && ok) = false) :
    Transition shardAt quiescent call (.tag ok message chunk)
      { call.fill ok message with status := .FINISH, outstanding := true } []
  /-- `FINISH`. -/
  | finish (ok : Bool) (message : MigrateRequest) (chunk : Bool) (status : call.status = .FINISH) :
    Transition shardAt quiescent call (.tag ok message chunk)
      { call.fill ok message with finishCalled := true, deleted := call.onDoneCalled } []
  /-- `WaitRefs` returns, and `DumpShard` runs. -/
  | dump (status : call.status = .WAIT_REFS)
    (waited : (!call.retval || quiescent call.request.shard) = true) :
    Transition shardAt quiescent call .resume { call with status := .WRITE }
      [.dump call.request.shard]
  /-- The done notification. -/
  | done (cancelled : Bool) (peer : Nat) (fresh : call.onDoneCalled = false)
    (running : call.status ≠ .WAIT_REFS) (finished : cancelled = true ∨ call.status = .FINISH) :
    Transition shardAt quiescent call (.done cancelled peer) (onDone call cancelled peer).1
      (onDone call cancelled peer).2

/-- Every step of a migrate call is one of its transitions. -/
theorem step_transition {shardAt : Nat → Option Shard} {quiescent : Nat → Bool}
    {call next : MigrateCall} {event : MigrateEvent} {new : List Effect}
    (stepped : step shardAt quiescent call event = some (next, new)) :
    Transition shardAt quiescent call event next new := by
  cases event with
  | tag ok message chunk =>
    simp only [step] at stepped
    split at stepped
    · cases stepped
    · rename_i guard
      simp only [Bool.or_eq_true, decide_eq_true_eq, Bool.and_eq_true, not_or, not_and,
        Bool.not_eq_true'] at guard
      have open_ : call.reading = true → (call.readClosed && ok) = false := fun reading => by
        cases closed : call.readClosed <;> cases ok <;> simp_all
      replace stepped := Option.some.inj stepped
      unfold proceed at stepped
      rw [show (call.fill ok message).status = call.status from rfl] at stepped
      split at stepped
      · rename_i status
        split at stepped <;> obtain ⟨rfl, rfl⟩ := Prod.mk.inj stepped
        · rename_i accepted
          subst accepted
          exact .accept message chunk status
        · rename_i refused
          simp only [Bool.not_eq_true] at refused
          subst refused
          exact .shutdown message chunk status
      · rename_i status
        have closed := open_ (by simp [reading, status])
        split at stepped <;> obtain ⟨rfl, rfl⟩ := Prod.mk.inj stepped
        · exact .absent ok message chunk status closed ‹_›
        · exact .drain ok message chunk _ status closed ‹_›
      · rename_i status
        split at stepped <;> obtain ⟨rfl, rfl⟩ := Prod.mk.inj stepped
        · rename_i more
          subst more
          exact .chunk ok message status
        · rename_i last
          simp only [Bool.not_eq_true] at last
          subst last
          exact .lastChunk ok message status
      · rename_i status
        obtain ⟨rfl, rfl⟩ := Prod.mk.inj stepped
        exact .confirm ok message chunk status (open_ (by simp [reading, status]))
      · rename_i status
        obtain ⟨rfl, rfl⟩ := Prod.mk.inj stepped
        exact .finish ok message chunk status
      · rename_i status
        exact absurd status guard.1.2
  | resume =>
    simp only [step, resume] at stepped
    split at stepped
    · rename_i guard
      simp only [Bool.and_eq_true, decide_eq_true_eq] at guard
      obtain ⟨rfl, rfl⟩ := Prod.mk.inj (Option.some.inj stepped)
      exact .dump guard.1 guard.2
    · cases stepped
  | done cancelled peer =>
    simp only [step] at stepped
    split at stepped
    · cases stepped
    · rename_i guard
      obtain ⟨rfl, rfl⟩ := Prod.mk.inj (Option.some.inj stepped)
      simp only [Bool.or_eq_true, decide_eq_true_eq, Bool.not_eq_true', not_or,
        Bool.not_eq_false] at guard
      refine .done cancelled peer (by simpa using guard.1.1.2) guard.1.2 ?_
      simpa using guard.2

namespace Transition

variable {shardAt : Nat → Option Shard} {quiescent : Nat → Bool} {call next : MigrateCall}
  {event : MigrateEvent} {new : List Effect}

/-- Only `Proceed(READ)` on a shard the node has drains, and it alone enters `WaitRefs`. -/
theorem waits (transition : Transition shardAt quiescent call event next new)
    (entered : next.status = .WAIT_REFS ∨ ∃ shard, .drain shard ∈ new) :
    ∃ shard, next.status = .WAIT_REFS ∧ shardAt next.request.shard = some shard ∧
      next.retval = !shard.draining ∧
      new = [.drain next.request.shard, .giveShard next.request.shard] := by
  cases transition with
  | drain ok message chunk shard status open_ found => exact ⟨shard, rfl, found, rfl, rfl⟩
  | done cancelled peer fresh running finished =>
    simp only [onDone_status, onDone_effects] at entered
    cases cancelled <;> split at entered <;> simp_all
  | _ => simp_all [fill]

/-- A call in `WaitRefs` can only return from it: once no reference is outstanding, or at once
when `Unref(true)` returned false. It dumps the shard then. -/
theorem resumes (transition : Transition shardAt quiescent call event next new)
    (waiting : call.status = .WAIT_REFS) :
    next.status = .WRITE ∧ (!call.retval || quiescent call.request.shard) = true ∧
      new = [.dump call.request.shard] := by
  cases transition with
  | dump status waited => exact ⟨rfl, waited, rfl⟩
  | done cancelled peer fresh running finished => exact absurd waiting running
  | _ => simp_all

/-- Only the return from `WaitRefs` dumps a shard, the one the call drained. -/
theorem dumps (transition : Transition shardAt quiescent call event next new) {shard : Nat}
    (dumped : .dump shard ∈ new) : call.status = .WAIT_REFS ∧ call.request.shard = shard := by
  cases transition with
  | dump status waited => exact ⟨status, (Effect.dump.inj (List.mem_singleton.mp dumped)).symm⟩
  | done cancelled peer fresh running finished => cases cancelled <;> simp at dumped
  | _ => simp_all

/-- A migrate call writes nothing to the database. -/
theorem no_commit (transition : Transition shardAt quiescent call event next new)
    (records : List WriteRecord) : .commit records ∉ new := by
  cases transition with
  | done cancelled peer fresh running finished => cases cancelled <;> simp
  | _ => simp

/-- Only `Proceed(READ)` on a shard the node has gives a shard away, right after draining it. -/
theorem gives (transition : Transition shardAt quiescent call event next new) {shard : Nat}
    (given : .giveShard shard ∈ new) :
    call.status = .READ ∧ new = [.drain shard, .giveShard shard] := by
  cases transition with
  | drain ok message chunk handle status open_ found =>
    simp only [List.mem_cons, reduceCtorEq, Effect.giveShard.injEq, List.mem_singleton,
      List.not_mem_nil, or_false, false_or] at given
    subst given
    exact ⟨status, rfl⟩
  | done cancelled peer fresh running finished => cases cancelled <;> simp at given
  | _ => simp at given

/-- A call that reached `FINISH` stays there. -/
theorem finished (transition : Transition shardAt quiescent call event next new)
    (finishing : call.status = .FINISH) : next.status = .FINISH := by
  cases transition with
  | finish ok message chunk status => exact finishing
  | done cancelled peer fresh running finished => simp [finishing]
  | _ => simp_all

end Transition

end MigrateCall

/-- A donor holding shard 0, idle. -/
def holdsShardZero (shard : Nat) : Option Shard :=
  if shard = 0 then some {} else none

/-- Two streams whose reads fail. In the first the call is matched and its first read fails (the
peer half-closed at once): `request_` was never filled, and the donor drains shard 0 and gives it
away all the same. In the second the confirming read after the last chunk fails: the call
finishes, and `OnDone` removes the shard from the registry. -/
theorem migrate_failed_reads_proceed :
    (MigrateCall.run holdsShardZero [.tag true {} false, .tag false {} false]).map Prod.snd =
      some [.spawn, .drain 0, .giveShard 0] ∧
    (MigrateCall.run holdsShardZero [.tag true {} false, .tag true {} false, .resume,
      .tag true {} false, .tag false {} false, .tag true {} false, .done false 1]).map Prod.snd =
      some [.spawn, .drain 0, .giveShard 0, .dump 0, .remove 0, .leaveIfEmpty] := by
  decide

end Crocks.Server
