import Crocks.Server.Call

/-!
# The single-key write calls

`PutCall` and `DeleteCall` differ only in their request message and in the write they make:
on the request they look up the shard of the key, take a reference with `Ref()`, write to the
shard's column family, release the reference and finish, all inside one `Proceed(REQUEST)`. A
refused `Ref()` finishes the call with `InvalidArgument`. The worker thread may be preempted
between the reference, the write and the release, so the model names the two points inside
`Proceed` (`REFERENCED`, `WRITTEN`) and lets other calls run there.
-/

namespace Crocks.Server

/-- `pb::KeyValue`. -/
structure KeyValue where
  key : List UInt8 := []
  value : List UInt8 := []
  deriving DecidableEq, Repr

/-- `pb::Key`. -/
structure Key where
  key : List UInt8 := []
  force : Bool := false
  deriving DecidableEq, Repr

/-- `PutCall::CallStatus` and `DeleteCall::CallStatus`, with the two points inside
`Proceed(REQUEST)` at which the worker can be preempted: holding the reference before the
write, and after the write before `Unref()`. -/
inductive WriteStatus where
  | REQUEST
  | REFERENCED
  | WRITTEN
  | FINISH
  deriving DecidableEq, Repr

/-- A `PutCall` or `DeleteCall`, over its request message. -/
structure WriteCall (α : Type) [Inhabited α] where
  status : WriteStatus := .REQUEST
  request : α := default
  /-- The shard of the request's key, once computed. -/
  shard : Nat := 0
  finishCalled : Bool := false
  onDoneCalled : Bool := false
  deleted : Bool := false
  outstanding : Bool := true
  deriving DecidableEq, Repr

instance : Inhabited KeyValue := ⟨{}⟩
instance : Inhabited Key := ⟨{}⟩

/-- A completion the queue delivers to a write call, or its worker carrying on inside
`Proceed`. -/
inductive WriteEvent (α : Type) where
  /-- The outstanding operation completes; the request operation fills `request_`. -/
  | tag (ok : Bool) (message : α)
  /-- The worker carries on from a point inside `Proceed(REQUEST)`. -/
  | resume
  /-- The done notification. -/
  | done (cancelled : Bool)

namespace WriteCall

variable {α : Type} [Inhabited α] (shardForKey : List UInt8 → Nat) (key : α → List UInt8)
  (write : Nat → α → WriteRecord)

/-- `Proceed(ok)` of a write call, up to its first preemption point. `refs` is what the
registry answers to `shard && shard->Ref()`. -/
def proceed (refs : Nat → Bool) (call : WriteCall α) (ok : Bool) : WriteCall α × List Effect :=
  match call.status with
  | .REQUEST =>
    if ok then
      if refs (shardForKey (key call.request)) then
        ({ call with status := .REFERENCED, shard := shardForKey (key call.request) },
          [.spawn, .ref (shardForKey (key call.request))])
      else
        ({ call with
            status := .FINISH, shard := shardForKey (key call.request), outstanding := true },
          [.spawn])
    else ({ call with deleted := true }, [])
  | .FINISH => ({ call with finishCalled := true, deleted := call.onDoneCalled }, [])
  | _ => (call, [])

/-- The rest of `Proceed(REQUEST)` after a successful `Ref()`: the write, then `Unref()` and
`Finish`. -/
def resume (call : WriteCall α) : Option (WriteCall α × List Effect) :=
  match call.status with
  | .REFERENCED => some ({ call with status := .WRITTEN }, [.commit [write call.shard call.request]])
  | .WRITTEN => some ({ call with status := .FINISH, outstanding := true }, [.unref call.shard])
  | _ => none

/-- `OnDone` of a write call. -/
def onDone (call : WriteCall α) : WriteCall α :=
  if call.finishCalled then { call with onDoneCalled := true, deleted := true }
  else { call with onDoneCalled := true, status := .FINISH }

/-- Whether the worker is inside `Proceed(REQUEST)`, between `Ref()` and `Unref()`. -/
def inside (call : WriteCall α) : Bool :=
  call.status = .REFERENCED || call.status = .WRITTEN

/-- One completion or continuation. The thread that runs a call's `Proceed` also runs its
`OnDone`, so neither an operation's outcome nor the done notification reaches a call whose
`Proceed` is under way. -/
def step (refs : Nat → Bool) (call : WriteCall α) : WriteEvent α → Option (WriteCall α × List Effect)
  | .tag ok message =>
    if call.deleted || !call.outstanding || call.inside then none
    else
      let request := if call.status = .REQUEST && ok then message else call.request
      some (proceed shardForKey key refs { call with request := request, outstanding := false } ok)
  | .resume => resume write call
  | .done _ =>
    if call.deleted || call.onDoneCalled || call.inside then none else some (onDone call, [])

/-- Whether the call holds a reference on the shard. -/
def holds (call : WriteCall α) (shard : Nat) : Bool :=
  call.inside && call.shard = shard

/-! ## The reference discipline of a write call -/

variable {shardForKey key write}

/-- What every reachable write call keeps: before its request it has done nothing, its trace
keeps the reference discipline, it holds a reference exactly while inside `Proceed`, on the
shard of its key, and it is not deleted there. -/
structure Inv (call : WriteCall α) (effects : List Effect) : Prop where
  fresh : call.status = .REQUEST → effects = []
  disciplined : Disciplined effects
  held : ∀ shard, holding effects shard ↔ call.holds shard = true
  gone : call.deleted = true → call.inside = false

theorem inv_init : Inv ({} : WriteCall α) [] :=
  ⟨fun _ => rfl, .nil, by simp [holding, holds, inside], by simp⟩

/-- A step that neither takes, releases nor writes, and leaves the call outside `Proceed`. -/
theorem Inv.outside {call next : WriteCall α} {effects : List Effect} (inv : Inv call effects)
    (before : call.inside = false) (after : next.inside = false)
    (fresh : next.status = .REQUEST → effects = []) : Inv next effects :=
  ⟨fresh, inv.disciplined, fun shard => by simp [inv.held, holds, before, after], fun _ => after⟩

section Filed

variable (filed : ∀ cf request, (write cf request).cf = cf)

include filed in
theorem Inv.resume {call next : WriteCall α} {effects new : List Effect} (inv : Inv call effects)
    (resumed : resume write call = some (next, new)) : Inv next (effects ++ new) := by
  unfold WriteCall.resume at resumed
  split at resumed
  · rename_i referenced
    obtain ⟨rfl, rfl⟩ := Prod.mk.inj (Option.some.inj resumed)
    have holds_ : call.holds call.shard = true := by simp [holds, inside, referenced]
    obtain ⟨disciplined, same⟩ := @Disciplined.commit effects [write call.shard call.request]
      inv.disciplined (by simpa [filed] using (inv.held _).mpr holds_)
    have alive : call.deleted = false := by
      cases deleted : call.deleted
      · rfl
      · simpa [inside, referenced] using inv.gone deleted
    refine ⟨by simp, disciplined, fun shard => ?_, by simp [alive]⟩
    rw [same, inv.held]
    simp [holds, inside, referenced]
  · rename_i written
    obtain ⟨rfl, rfl⟩ := Prod.mk.inj (Option.some.inj resumed)
    obtain ⟨disciplined, released⟩ :=
      inv.disciplined.unref ((inv.held call.shard).mpr (by simp [holds, inside, written]))
    refine ⟨by simp, disciplined, fun shard => ?_, by simp [inside]⟩
    rw [released, inv.held]
    simp only [holds, inside, written]
    simp [eq_comm]
  · cases resumed

/-- The invariant does not read `request_`, which the request operation fills. -/
theorem Inv.received {call : WriteCall α} {effects : List Effect} (inv : Inv call effects)
    (request : α) : Inv { call with request := request, outstanding := false } effects :=
  ⟨inv.fresh, inv.disciplined, inv.held, inv.gone⟩

theorem Inv.proceed {call : WriteCall α} {effects : List Effect} (inv : Inv call effects)
    (outside : call.inside = false) (alive : call.deleted = false) (refs : Nat → Bool)
    (ok : Bool) :
    Inv (proceed shardForKey key refs call ok).1
      (effects ++ (proceed shardForKey key refs call ok).2) := by
  cases status : call.status <;> simp only [WriteCall.proceed, status]
  case REQUEST =>
    rw [inv.fresh status]
    cases ok
    · exact ⟨fun _ => rfl, .nil, by simp [holding, holds, inside, status], by simp [inside, status]⟩
    · obtain ⟨spawned, quiet⟩ := @Disciplined.quiet [] .spawn .nil (by simp)
      simp only [if_true]
      split
      · obtain ⟨disciplined, taken⟩ := spawned.ref (by simp [quiet, holding])
        refine ⟨by simp, by simpa using disciplined, fun shard => ?_, by simp [alive]⟩
        simp [taken, quiet, holding, holds, inside, eq_comm]
      · exact ⟨by simp, by simpa using spawned, fun shard => by
          simp [quiet, holding, holds, inside], by simp [inside]⟩
  case FINISH =>
    rw [List.append_nil]
    exact inv.outside outside (by simp [inside]) (by simp)
  all_goals simp [inside, status] at outside

include filed in
theorem Inv.step {call next : WriteCall α} {effects new : List Effect} {refs : Nat → Bool}
    {event : WriteEvent α} (inv : Inv call effects)
    (stepped : step shardForKey key write refs call event = some (next, new)) :
    Inv next (effects ++ new) := by
  cases event with
  | tag ok message =>
    simp only [WriteCall.step] at stepped
    split at stepped
    · cases stepped
    · rename_i guard
      simp only [Bool.or_eq_true, not_or, Bool.not_eq_true] at guard
      obtain ⟨rfl, rfl⟩ := Prod.mk.inj (Option.some.inj stepped)
      exact (inv.received _).proceed guard.2 guard.1.1 refs ok
  | resume => exact inv.resume filed stepped
  | done cancelled =>
    simp only [WriteCall.step] at stepped
    split at stepped
    · cases stepped
    · rename_i guard
      simp only [Bool.or_eq_true, not_or, Bool.not_eq_true] at guard
      obtain ⟨rfl, rfl⟩ := Prod.mk.inj (Option.some.inj stepped)
      rw [List.append_nil]
      refine inv.outside guard.2 ?_ fun status => inv.fresh ?_
      · unfold WriteCall.onDone
        split <;> simp_all [inside]
      · unfold WriteCall.onDone at status
        split at status <;> simp_all

end Filed

theorem proceed_effects (refs : Nat → Bool) (call : WriteCall α) (ok : Bool) :
    ∀ effect ∈ (proceed shardForKey key refs call ok).2,
      effect.ofHandler ∧ ∀ shard, effect = .ref shard → refs shard = true := by
  unfold WriteCall.proceed
  split <;> (try split) <;> (try split) <;> simp_all [Effect.ofHandler]

/-- A write call's step has only a handler's effects, and takes a reference only where the
registry admits one. -/
theorem step_effects {call next : WriteCall α} {refs : Nat → Bool} {event : WriteEvent α}
    {new : List Effect} (stepped : step shardForKey key write refs call event = some (next, new)) :
    ∀ effect ∈ new, effect.ofHandler ∧ ∀ shard, effect = .ref shard → refs shard = true := by
  cases event with
  | tag ok message =>
    simp only [WriteCall.step] at stepped
    split at stepped
    · cases stepped
    · obtain ⟨rfl, rfl⟩ := Prod.mk.inj (Option.some.inj stepped)
      exact proceed_effects refs _ ok
  | resume =>
    simp only [WriteCall.step, WriteCall.resume] at stepped
    split at stepped <;> simp only [Option.some.injEq, Prod.mk.injEq, reduceCtorEq] at stepped
    all_goals
      obtain ⟨-, rfl⟩ := stepped
      simp [Effect.ofHandler]
  | done cancelled =>
    simp only [WriteCall.step] at stepped
    split at stepped
    · cases stepped
    · obtain ⟨-, rfl⟩ := Prod.mk.inj (Option.some.inj stepped)
      simp

end WriteCall

/-- `PutCall::Proceed`: the write is `Shard::Put(key, value)`. -/
def PutCall.step (shardForKey : List UInt8 → Nat) (refs : Nat → Bool) (call : WriteCall KeyValue) :
    WriteEvent KeyValue → Option (WriteCall KeyValue × List Effect) :=
  WriteCall.step shardForKey KeyValue.key (fun cf request => .put cf request.key request.value)
    refs call

/-- `DeleteCall::Proceed`: the write is `Shard::Delete(key)`. -/
def DeleteCall.step (shardForKey : List UInt8 → Nat) (refs : Nat → Bool) (call : WriteCall Key) :
    WriteEvent Key → Option (WriteCall Key × List Effect) :=
  WriteCall.step shardForKey Key.key (fun cf request => .delete cf request.key) refs call

end Crocks.Server
