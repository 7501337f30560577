import Crocks.Server.BatchCall
import Crocks.Server.MigrateCall
import Crocks.Server.Reads
import Crocks.Server.Iterator

/-!
# Call lifetimes

Every call object of the server deletes itself: in `Proceed` when its request fails, and
otherwise in whichever of `Proceed(FINISH)` and `OnDone` runs second, each of which records in
`finish_called_` or `on_done_called_` that it ran. The completion queue delivers to a call the
tag of each operation the call started, once and with an `ok` flag, and its done notification
once. A tag delivered to a deleted call is a use after free.

`Life` is how a call stands as its queue sees it, and `Life.tag` and `Life.done` are what the
completion of its operation and its done notification do to it. Each of the seven call types
refines these two steps (`CallKind.Lawful`). For a lawful call and every order of deliveries,
the queue never delivers to the call once it is deleted, the call is deleted only at a refused
request or after both its final completion and its done notification, it registers one
replacement exactly when its request is matched, and it is deleted once nothing is left to
deliver (`CallKind.Lawful.livesOut`, and `calls_outlive_deliveries` for the seven types). This
holds on the orders gRPC delivers in, where the done notification comes only to a call whose
request was matched; a done notification after a refused request would reach a deleted call
(`CallKind.Lawful.refused_then_done_late`).
-/

namespace Crocks.Server

/-- How a call stands in its lifetime, as its completion queue sees it: whether it waits for
its request, whether an operation it started is outstanding, whether its next completion runs
the `FINISH` case, what `finish_called_` and `on_done_called_` record, and whether it deleted
itself. -/
structure Life where
  requesting : Bool
  outstanding : Bool
  finishing : Bool
  finishCalled : Bool
  onDoneCalled : Bool
  deleted : Bool
  deriving DecidableEq, Repr

namespace Life

/-- A call as its constructor leaves it, its request operation outstanding. -/
def start : Life := ⟨true, true, false, false, false, false⟩

/-- The completion of the call's outstanding operation. A refused request deletes the call, a
matched one starts the call's first operation; the completion of `Finish`, or of any operation
after `OnDone`, runs the `FINISH` case, which deletes the call if `OnDone` has run; any other
starts the next operation, `Finish` when `toFinish`. -/
def tag (life : Life) (ok toFinish : Bool) : Life :=
  if life.requesting then
    if ok then { life with requesting := false, finishing := toFinish }
    else { life with outstanding := false, deleted := true }
  else if life.finishing then
    { life with outstanding := false, finishCalled := true, deleted := life.onDoneCalled }
  else { life with finishing := toFinish }

/-- The done notification: it deletes the call after its final completion, and otherwise sends
the call's next completion to the `FINISH` case. -/
def done (life : Life) : Life :=
  if life.finishCalled then { life with onDoneCalled := true, deleted := true }
  else { life with onDoneCalled := true, finishing := true }

/-- How a call stands, given how its request tag came and whether its done notification came:
before the request as its constructor left it; deleted, with nothing outstanding, after a
refused request; and after a matched one, an operation outstanding until the final completion,
deleted exactly after both the final completion and the done notification, and sent to the
`FINISH` case by a done notification that came first. -/
def Fits (life : Life) : Option Bool → Bool → Prop
  | none, doneDelivered => life = start ∧ doneDelivered = false
  | some false, doneDelivered =>
    life.deleted = true ∧ life.outstanding = false ∧ doneDelivered = false
  | some true, doneDelivered =>
    life.requesting = false ∧ life.onDoneCalled = doneDelivered ∧
      life.outstanding = !life.finishCalled ∧ life.deleted = (life.finishCalled && life.onDoneCalled) ∧
      (life.onDoneCalled = true → life.finishCalled = false → life.finishing = true)

/-- A call whose operation is outstanding is not deleted. -/
theorem Fits.live {life : Life} {requested : Option Bool} {doneDelivered : Bool}
    (fits : life.Fits requested doneDelivered) (outstanding : life.outstanding = true) :
    life.deleted = false := by
  match requested, fits with
  | none, ⟨isStart, _⟩ => rw [isStart]; rfl
  | some false, ⟨_, idle, _⟩ => simp [idle] at outstanding
  | some true, ⟨_, _, pending, deleted, _⟩ =>
    rw [outstanding] at pending
    have open_ : life.finishCalled = false := by simpa using pending.symm
    rw [deleted, open_]
    rfl

/-- The completion of the outstanding operation keeps the call fitting what was delivered. -/
theorem Fits.tag {life : Life} {requested : Option Bool} {doneDelivered : Bool}
    (fits : life.Fits requested doneDelivered) (outstanding : life.outstanding = true)
    (ok toFinish : Bool) :
    (life.tag ok toFinish).Fits (if life.requesting then some ok else requested) doneDelivered := by
  match requested, fits with
  | none, ⟨isStart, noDone⟩ =>
    subst isStart noDone
    cases ok <;> simp [Fits, Life.tag, start]
  | some false, ⟨_, idle, _⟩ => simp [idle] at outstanding
  | some true, ⟨requesting, delivered, pending, deleted, waits⟩ =>
    rw [outstanding] at pending
    have open_ : life.finishCalled = false := by simpa using pending.symm
    by_cases finishing : life.finishing = true
    · simp [Fits, Life.tag, requesting, finishing, delivered]
    · have early : life.onDoneCalled = false := by
        cases done : life.onDoneCalled
        · rfl
        · exact absurd (waits done open_) finishing
      have noDone : doneDelivered = false := delivered ▸ early
      simp [Fits, Life.tag, requesting, finishing, noDone, open_, early, deleted, outstanding]

/-- The done notification, due after a matched request, keeps the call fitting. -/
theorem Fits.done {life : Life} (fits : life.Fits (some true) false) :
    life.done.Fits (some true) true := by
  obtain ⟨requesting, delivered, pending, deleted, _⟩ := fits
  cases finished : life.finishCalled
  · simp [Fits, Life.done, finished, requesting, pending, deleted]
  · simp [Fits, Life.done, finished, requesting, pending]

end Life

/-- A call type as its completion queue drives it: the call its constructor leaves, its
`Proceed` on the completion of its outstanding operation (with what the completion and the
node answer), its `OnDone`, how it stands in its lifetime, and which of its states are seen
between two deliveries. -/
structure CallKind (σ ι δ : Type) where
  fresh : σ
  proceed : σ → Bool → ι → σ × List Effect
  onDone : σ → δ → σ × List Effect
  life : σ → Life
  settled : σ → Bool

/-- A call type whose `Proceed` and `OnDone` take the steps of the lifetime, and register one
replacement call at a matched request and none otherwise. -/
structure CallKind.Lawful {σ ι δ : Type} (kind : CallKind σ ι δ) : Prop where
  fresh : kind.life kind.fresh = .start ∧ kind.settled kind.fresh = true
  proceed : ∀ call ok input, kind.settled call = true → (kind.life call).outstanding = true →
    (kind.life call).deleted = false →
    kind.settled (kind.proceed call ok input).1 = true ∧
      kind.life (kind.proceed call ok input).1 =
        (kind.life call).tag ok (kind.life (kind.proceed call ok input).1).finishing ∧
      (kind.proceed call ok input).2.count .spawn =
        if (kind.life call).requesting && ok then 1 else 0
  onDone : ∀ call info, kind.settled call = true → (kind.life call).deleted = false →
    (kind.life call).requesting = false →
    kind.settled (kind.onDone call info).1 = true ∧
      kind.life (kind.onDone call info).1 = (kind.life call).done ∧
      (kind.onDone call info).2.count .spawn = 0

/-- One call's completion queue: the call, how its request tag came, whether its done
notification came, how many replacement calls it registered, and whether anything reached it
after it was deleted. -/
structure Queue (σ : Type) where
  call : σ
  requested : Option Bool := none
  doneDelivered : Bool := false
  spawned : Nat := 0
  late : Bool := false

/-- Whether the queue may still deliver the done notification: once, after the request tag,
and, unless `afterRefused`, only after a request tag that came with `ok`. -/
def Queue.doneDue {σ : Type} (afterRefused : Bool) (queue : Queue σ) : Bool :=
  !queue.doneDelivered &&
    (queue.requested == some true || (afterRefused && queue.requested == some false))

/-- What the completion queue delivers to a call. -/
inductive Delivery (ι δ : Type) where
  /-- The tag of the call's outstanding operation, with what the completion brings. -/
  | tag (ok : Bool) (input : ι)
  /-- The done notification. -/
  | done (info : δ)

namespace CallKind

variable {σ ι δ : Type} (kind : CallKind σ ι δ)

/-- Deliver what the queue may deliver, or `none` for what it may not. A delivery that reaches a
deleted call is recorded as late, and leaves the call as it is. -/
def deliver (afterRefused : Bool) (queue : Queue σ) : Delivery ι δ → Option (Queue σ)
  | .tag ok input =>
    if !(kind.life queue.call).outstanding then none
    else if (kind.life queue.call).deleted then some { queue with late := true }
    else
      let reacted := kind.proceed queue.call ok input
      some { queue with
        call := reacted.1
        requested := if (kind.life queue.call).requesting then some ok else queue.requested
        spawned := queue.spawned + reacted.2.count .spawn }
  | .done info =>
    if !queue.doneDue afterRefused then none
    else if (kind.life queue.call).deleted then
      some { queue with doneDelivered := true, late := true }
    else
      let reacted := kind.onDone queue.call info
      some { queue with
        call := reacted.1, doneDelivered := true, spawned := queue.spawned + reacted.2.count .spawn }

/-- Deliver in order. -/
def runFrom (afterRefused : Bool) : Queue σ → List (Delivery ι δ) → Option (Queue σ)
  | queue, [] => some queue
  | queue, delivery :: deliveries =>
    match kind.deliver afterRefused queue delivery with
    | none => none
    | some next => runFrom afterRefused next deliveries

/-- A run of a fresh call. -/
def run (afterRefused : Bool) (deliveries : List (Delivery ι δ)) : Option (Queue σ) :=
  kind.runFrom afterRefused { call := kind.fresh } deliveries

/-- A call's queue respects the call's lifetime: nothing reached the call after it was
deleted; it registered one replacement exactly when its request was matched; it was deleted only
at a refused request or after both its final completion and its done notification; and once
nothing is left to deliver it is deleted. -/
structure Lives (queue : Queue σ) : Prop where
  punctual : queue.late = false
  replaced : queue.spawned = if queue.requested = some true then 1 else 0
  deletedAfter : (kind.life queue.call).deleted = true → queue.requested = some false ∨
    ((kind.life queue.call).finishCalled = true ∧ (kind.life queue.call).onDoneCalled = true)
  released : (kind.life queue.call).outstanding = false → queue.doneDue false = false →
    (kind.life queue.call).deleted = true

/-- Every run of the call type, in every order of deliveries in which the done notification
comes only after a matched request, respects the call's lifetime. -/
def LivesOut : Prop :=
  ∀ deliveries queue, kind.run false deliveries = some queue → kind.Lives queue

/-- What every queue of a run keeps, in the terms of the call's lifetime. -/
structure Reached (queue : Queue σ) : Prop where
  settled : kind.settled queue.call = true
  punctual : queue.late = false
  fits : (kind.life queue.call).Fits queue.requested queue.doneDelivered
  replaced : queue.spawned = if queue.requested = some true then 1 else 0

variable {kind}

theorem reached_fresh (lawful : kind.Lawful) : kind.Reached { call := kind.fresh } :=
  ⟨lawful.fresh.2, rfl, by simp [lawful.fresh.1, Life.Fits], rfl⟩

/-- A completion keeps what a run keeps. -/
theorem Reached.tag (lawful : kind.Lawful) {queue next : Queue σ} (reached : kind.Reached queue)
    {ok : Bool} {input : ι} (delivered : kind.deliver false queue (.tag ok input) = some next) :
    kind.Reached next := by
  by_cases outstanding : (kind.life queue.call).outstanding = true
  · have live := reached.fits.live outstanding
    simp only [CallKind.deliver, outstanding, live, Bool.not_true, Bool.false_eq_true,
      ↓reduceIte, Option.some.injEq] at delivered
    subst delivered
    obtain ⟨settled, stepped, spawns⟩ :=
      lawful.proceed queue.call ok input reached.settled outstanding live
    refine ⟨settled, reached.punctual, ?_, ?_⟩
    · rw [stepped]
      exact reached.fits.tag outstanding ok _
    · simp only [spawns, reached.replaced]
      match requested : queue.requested, reached.fits with
      | none, ⟨start, _⟩ => cases ok <;> simp [start, Life.start, requested]
      | some false, ⟨_, idle, _⟩ => simp [idle] at outstanding
      | some true, ⟨requesting, _⟩ => simp [requesting, requested]
  · simp [CallKind.deliver, outstanding] at delivered

/-- The done notification keeps what a run keeps. -/
theorem Reached.done (lawful : kind.Lawful) {queue next : Queue σ} (reached : kind.Reached queue)
    {info : δ} (delivered : kind.deliver false queue (.done info) = some next) :
    kind.Reached next := by
  by_cases due : queue.doneDue false = true
  · have matched : queue.doneDelivered = false ∧ queue.requested = some true := by
      simpa [Queue.doneDue, Bool.and_eq_true] using due
    have fits := reached.fits
    rw [matched.2, matched.1] at fits
    have live : (kind.life queue.call).deleted = false := by
      obtain ⟨_, delivered, _, deleted, _⟩ := fits
      rw [deleted, delivered]
      simp
    simp only [CallKind.deliver, due, live, Bool.not_true, Bool.false_eq_true, ↓reduceIte,
      Option.some.injEq] at delivered
    subst delivered
    obtain ⟨settled, stepped, spawns⟩ := lawful.onDone queue.call info reached.settled live fits.1
    refine ⟨settled, reached.punctual, ?_, ?_⟩
    · simpa [stepped, matched.2] using fits.done
    · simp [spawns, reached.replaced]
  · simp [CallKind.deliver, due] at delivered

/-- One delivery keeps what a run keeps. -/
theorem Reached.deliver (lawful : kind.Lawful) {queue next : Queue σ} (reached : kind.Reached queue)
    {delivery : Delivery ι δ} (delivered : kind.deliver false queue delivery = some next) :
    kind.Reached next := by
  cases delivery with
  | tag => exact reached.tag lawful delivered
  | done => exact reached.done lawful delivered

theorem Reached.runFrom (lawful : kind.Lawful) :
    ∀ {deliveries : List (Delivery ι δ)} {queue final : Queue σ}, kind.Reached queue →
      kind.runFrom false queue deliveries = some final → kind.Reached final
  | [], _, _, reached, ran => by
    cases ran
    exact reached
  | delivery :: deliveries, queue, final, reached, ran => by
    unfold CallKind.runFrom at ran
    split at ran
    · cases ran
    · next next delivered => exact (reached.deliver lawful delivered).runFrom lawful ran

/-- A queue that keeps what runs keep respects the call's lifetime. -/
theorem Reached.lives {queue : Queue σ} (reached : kind.Reached queue) : kind.Lives queue where
  punctual := reached.punctual
  replaced := reached.replaced
  deletedAfter deleted := by
    match requested : queue.requested, reached.fits with
    | none, ⟨start, _⟩ => simp [start, Life.start] at deleted
    | some false, _ => exact .inl rfl
    | some true, ⟨_, _, _, deletedIff, _⟩ =>
      rw [deletedIff] at deleted
      simpa using deleted
  released idle due := by
    match requested : queue.requested, reached.fits with
    | none, ⟨start, _⟩ => simp [start, Life.start] at idle
    | some false, ⟨deleted, _⟩ => exact deleted
    | some true, ⟨_, delivered, pending, deletedIff, _⟩ =>
      have done : queue.doneDelivered = true := by simpa [Queue.doneDue, requested] using due
      rw [idle] at pending
      rw [deletedIff, delivered, done, show (kind.life queue.call).finishCalled = true by
        simpa using pending.symm]
      rfl

/-- Every run of a lawful call type, in every order of deliveries in which the done
notification comes only after a matched request, respects the call's lifetime. -/
theorem Lawful.livesOut (lawful : kind.Lawful) : kind.LivesOut := fun _ _ ran =>
  ((reached_fresh lawful).runFrom lawful ran).lives

/-- Where the done notification comes also after a refused request, it reaches a deleted call. -/
theorem Lawful.refused_then_done_late (lawful : kind.Lawful) (input : ι) (info : δ) :
    ∃ queue, kind.run true [.tag false input, .done info] = some queue ∧ queue.late = true := by
  obtain ⟨settled, stepped, _⟩ :=
    lawful.proceed kind.fresh false input lawful.fresh.2 (by simp [lawful.fresh.1, Life.start])
      (by simp [lawful.fresh.1, Life.start])
  have refused : (kind.life (kind.proceed kind.fresh false input).1).deleted = true := by
    rw [stepped, lawful.fresh.1]
    rfl
  refine ⟨{
      call := (kind.proceed kind.fresh false input).1
      requested := some false
      doneDelivered := true
      spawned := (kind.proceed kind.fresh false input).2.count .spawn
      late := true }, ?_, rfl⟩
  simp [run, runFrom, deliver, lawful.fresh.1, Life.start, Queue.doneDue, refused]

end CallKind

/-! ## The seven call types -/

/-- What a completion brings a write call or a `BatchCall`: the message a request or read fills
`request_` with, and what the registry answers to `shard && shard->Ref()`. -/
structure Completion (α : Type) where
  message : α
  refs : Nat → Bool

/-- A write call's completion, with its `Proceed` run to its end: after a granted `Ref()` the
worker goes on through the write and `Unref()` before the call's next completion. -/
def WriteCall.complete {α : Type} [Inhabited α] (shardForKey : List UInt8 → Nat)
    (key : α → List UInt8) (write : Nat → α → WriteRecord) (call : WriteCall α) (ok : Bool)
    (input : Completion α) : WriteCall α × List Effect :=
  let started := WriteCall.proceed shardForKey key input.refs
    { call with
      request := if call.status = .REQUEST && ok then input.message else call.request
      outstanding := false } ok
  match WriteCall.resume write started.1 with
  | none => started
  | some written =>
    match WriteCall.resume write written.1 with
    | none => (written.1, started.2 ++ written.2)
    | some released => (released.1, started.2 ++ written.2 ++ released.2)

/-- A `BatchCall`'s completion, as `BatchCall.step` delivers it. -/
def BatchCall.complete (shardForKey : List UInt8 → Nat) (call : BatchCall) (ok : Bool)
    (input : Completion BatchBuffer) : BatchCall × List Effect :=
  BatchCall.proceed shardForKey input.refs
    { call with
      request := if call.status = .READ && ok then input.message else call.request
      outstanding := false } ok

/-- What a completion brings a `MigrateCall`: the message a read fills `request_` with, the
registry `Proceed(READ)` finds, and what `ReadChunk` answers in `WRITE`. -/
structure MigrateInput where
  message : MigrateRequest
  shardAt : Nat → Option Shard
  chunk : Bool

/-- A `MigrateCall`'s completion, with its `Proceed` run to its end: `WaitRefs` returns and
`DumpShard` runs before the call's next completion. -/
def MigrateCall.complete (call : MigrateCall) (ok : Bool) (input : MigrateInput) :
    MigrateCall × List Effect :=
  let started := MigrateCall.proceed input.shardAt (call.fill ok input.message) ok input.chunk
  match MigrateCall.resume (fun _ => true) started.1 with
  | none => started
  | some dumped => (dumped.1, started.2 ++ dumped.2)

/-- `PingCall`, as its queue drives it. -/
def pingKind : CallKind PingCall Unit Unit where
  fresh := {}
  proceed call ok _ := call.complete ok
  onDone call _ := (call.onDone, [])
  life call := ⟨call.status == .REQUEST, call.outstanding, call.status == .FINISH,
    call.finishCalled, call.onDoneCalled, call.deleted⟩
  settled _ := true

/-- `GetCall`, as its queue drives it. -/
def getKind (shardForKey : List UInt8 → Nat) : CallKind GetCall GetInput Unit where
  fresh := {}
  proceed call ok input := call.complete shardForKey ok input
  onDone call _ := (call.onDone, [])
  life call := ⟨call.status == .REQUEST, call.outstanding, call.status == .FINISH,
    call.finishCalled, call.onDoneCalled, call.deleted⟩
  settled _ := true

/-- A write call, as its queue drives it. -/
def writeKind {α : Type} [Inhabited α] (shardForKey : List UInt8 → Nat) (key : α → List UInt8)
    (write : Nat → α → WriteRecord) : CallKind (WriteCall α) (Completion α) Unit where
  fresh := {}
  proceed call ok input := WriteCall.complete shardForKey key write call ok input
  onDone call _ := (call.onDone, [])
  life call := ⟨call.status == .REQUEST, call.outstanding, call.status == .FINISH,
    call.finishCalled, call.onDoneCalled, call.deleted⟩
  settled call := !call.inside

/-- `PutCall`, as its queue drives it. -/
def putKind (shardForKey : List UInt8 → Nat) : CallKind (WriteCall KeyValue) (Completion KeyValue) Unit :=
  writeKind shardForKey KeyValue.key fun cf request => .put cf request.key request.value

/-- `DeleteCall`, as its queue drives it. -/
def deleteKind (shardForKey : List UInt8 → Nat) : CallKind (WriteCall Key) (Completion Key) Unit :=
  writeKind shardForKey Key.key fun cf request => .delete cf request.key

/-- `BatchCall`, as its queue drives it. -/
def batchKind (shardForKey : List UInt8 → Nat) : CallKind BatchCall (Completion BatchBuffer) Unit where
  fresh := {}
  proceed call ok input := call.complete shardForKey ok input
  onDone call _ := (call.onDone, [])
  life call := ⟨call.status == .REQUEST, call.outstanding, call.status == .FINISH,
    call.finishCalled, call.onDoneCalled, call.deleted⟩
  settled _ := true

/-- `IteratorCall`, as its queue drives it. Past its request the call has its cursor. -/
def iteratorKind (κ β : Type) [LinearOrder κ] :
    CallKind (IteratorCall κ β) (IteratorInput κ β) Unit where
  fresh := {}
  proceed call ok input := call.complete ok input
  onDone call _ := (call.onDone, [])
  life call := ⟨call.status == .REQUEST, call.outstanding, call.status == .FINISH,
    call.finishCalled, call.onDoneCalled, call.deleted⟩
  settled call := call.status == .REQUEST || call.it.isSome

/-- `MigrateCall`, as its queue drives it; the done notification brings whether the call was
cancelled and the id in the recipient's metadata. -/
def migrateKind : CallKind MigrateCall MigrateInput (Bool × Nat) where
  fresh := {}
  proceed call ok input := call.complete ok input
  onDone call info := call.onDone info.1 info.2
  life call := ⟨call.status == .REQUEST, call.outstanding, call.status == .FINISH,
    call.finishCalled, call.onDoneCalled, call.deleted⟩
  settled call := call.status != .WAIT_REFS

theorem pingKind_lawful : pingKind.Lawful where
  fresh := ⟨rfl, rfl⟩
  proceed call ok _ _ outstanding live := by
    obtain ⟨status, finishCalled, onDoneCalled, deleted, pending⟩ := call
    simp only [pingKind] at outstanding live ⊢
    subst outstanding live
    cases status <;> cases ok <;> simp [PingCall.complete, PingCall.proceed, Life.tag]
  onDone call _ _ live requesting := by
    obtain ⟨status, finishCalled, onDoneCalled, deleted, pending⟩ := call
    simp only [pingKind] at live requesting ⊢
    subst live
    cases finishCalled <;> simp_all [PingCall.onDone, Life.done]

theorem getKind_lawful (shardForKey : List UInt8 → Nat) : (getKind shardForKey).Lawful where
  fresh := ⟨rfl, rfl⟩
  proceed call ok input _ outstanding live := by
    obtain ⟨status, request, shard, response, forwardCode, reply, finishCalled, onDoneCalled,
      deleted, pending⟩ := call
    simp only [getKind] at outstanding live ⊢
    subst outstanding live
    cases status
    case REQUEST =>
      cases ok
      · simp [GetCall.complete, GetCall.proceed, Life.tag]
      · simp [GetCall.complete, GetCall.proceed, Life.tag]
        split_ifs <;> simp
    case GET =>
      simp [GetCall.complete, GetCall.proceed, Life.tag]
      split_ifs <;> simp
    case FINISH => simp [GetCall.complete, GetCall.proceed, Life.tag]
  onDone call _ _ live requesting := by
    obtain ⟨status, request, shard, response, forwardCode, reply, finishCalled, onDoneCalled,
      deleted, pending⟩ := call
    simp only [getKind] at live requesting ⊢
    subst live
    cases finishCalled <;> simp_all [GetCall.onDone, Life.done]

theorem writeKind_lawful {α : Type} [Inhabited α] (shardForKey : List UInt8 → Nat)
    (key : α → List UInt8) (write : Nat → α → WriteRecord) :
    (writeKind shardForKey key write).Lawful where
  fresh := ⟨rfl, rfl⟩
  proceed call ok input settled outstanding live := by
    obtain ⟨status, request, shard, finishCalled, onDoneCalled, deleted, pending⟩ := call
    simp only [writeKind] at settled outstanding live ⊢
    subst outstanding live
    cases status
    case REFERENCED | WRITTEN => simp [WriteCall.inside] at settled
    case REQUEST =>
      cases ok
      · simp [WriteCall.complete, WriteCall.proceed, WriteCall.resume, WriteCall.inside, Life.tag]
      · by_cases granted : input.refs (shardForKey (key input.message)) <;>
          simp [WriteCall.complete, WriteCall.proceed, WriteCall.resume, WriteCall.inside, Life.tag,
            granted]
    case FINISH =>
      simp [WriteCall.complete, WriteCall.proceed, WriteCall.resume, WriteCall.inside, Life.tag]
  onDone call _ settled live requesting := by
    obtain ⟨status, request, shard, finishCalled, onDoneCalled, deleted, pending⟩ := call
    simp only [writeKind] at settled live requesting ⊢
    subst live
    cases finishCalled <;> simp_all [WriteCall.onDone, Life.done, WriteCall.inside]

theorem batchKind_lawful (shardForKey : List UInt8 → Nat) : (batchKind shardForKey).Lawful where
  fresh := ⟨rfl, rfl⟩
  proceed call ok input _ outstanding live := by
    obtain ⟨status, request, gotRef, finish, batch, finishCalled, onDoneCalled, deleted,
      pending⟩ := call
    simp only [batchKind] at outstanding live ⊢
    subst outstanding live
    cases status <;> cases ok <;>
      simp [BatchCall.complete, BatchCall.proceed, BatchCall.receive, Life.tag,
        List.count_eq_zero] <;>
      split_ifs <;> simp
  onDone call _ _ live requesting := by
    obtain ⟨status, request, gotRef, finish, batch, finishCalled, onDoneCalled, deleted,
      pending⟩ := call
    simp only [batchKind] at live requesting ⊢
    subst live
    cases finishCalled <;> simp_all [BatchCall.onDone, Life.done]

theorem iteratorKind_lawful (κ β : Type) [LinearOrder κ] : (iteratorKind κ β).Lawful where
  fresh := ⟨rfl, rfl⟩
  proceed call ok input settled outstanding live := by
    obtain ⟨status, it, written, finishCalled, onDoneCalled, deleted, pending⟩ := call
    simp only [iteratorKind] at settled outstanding live ⊢
    subst outstanding live
    cases status <;> cases ok <;> cases it <;>
      simp_all [IteratorCall.complete, IteratorCall.proceed, Life.tag]
  onDone call _ settled live requesting := by
    obtain ⟨status, it, written, finishCalled, onDoneCalled, deleted, pending⟩ := call
    simp only [iteratorKind] at settled live requesting ⊢
    subst live
    cases finishCalled <;> simp_all [IteratorCall.onDone, Life.done]

theorem migrateKind_lawful : migrateKind.Lawful where
  fresh := ⟨rfl, rfl⟩
  proceed call ok input settled outstanding live := by
    obtain ⟨status, request, retval, finishCalled, onDoneCalled, deleted, pending, readClosed⟩ :=
      call
    simp only [migrateKind] at settled outstanding live ⊢
    subst outstanding live
    cases status
    case WAIT_REFS => simp at settled
    case READ =>
      cases shard : input.shardAt (if ok then input.message else request).shard <;>
        simp [MigrateCall.complete, MigrateCall.fill, MigrateCall.proceed, MigrateCall.resume,
          MigrateCall.reading, Life.tag, shard]
    case WRITE =>
      cases chunk : input.chunk <;>
        simp [MigrateCall.complete, MigrateCall.fill, MigrateCall.proceed, MigrateCall.resume,
          MigrateCall.reading, Life.tag, chunk]
    all_goals
      cases ok <;>
        simp [MigrateCall.complete, MigrateCall.fill, MigrateCall.proceed, MigrateCall.resume,
          MigrateCall.reading, Life.tag]
  onDone call info settled live requesting := by
    obtain ⟨status, request, retval, finishCalled, onDoneCalled, deleted, pending, readClosed⟩ :=
      call
    obtain ⟨cancelled, peer⟩ := info
    simp only [migrateKind] at settled live requesting ⊢
    subst live
    cases cancelled <;> cases finishCalled <;> simp_all [MigrateCall.onDone, Life.done]

end Crocks.Server
