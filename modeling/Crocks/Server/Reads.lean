import Crocks.Server.WriteCall

/-!
# The read calls

`PingCall` answers at once. `GetCall` reads the key from the shard of the key after checking
that the node masters the shard (`Info::WrongShard`), unless the request forces the read. A
shard still being imported may not hold the key yet: `Shard::Get` then says to ask the former
master, and the call forwards the request, forced, and answers what the former master answers,
or reads again locally when the former master has finished the handoff meanwhile. A former
master that is unreachable but still listed has crashed, and the call fails `UNAVAILABLE`.

Both calls are modelled, as the write calls are, by their `Proceed` on the completion of the
operation they started and by their `OnDone`. What the node answers them (`WrongShard`, the
registry, the shard's reads, the forwarded call) comes with each completion.
-/

namespace Crocks.Server

/-- `PingCall::CallStatus`. -/
inductive PingStatus where
  | REQUEST
  | FINISH
  deriving DecidableEq, Repr

/-- A `PingCall`'s members, with whether an operation it started is outstanding. -/
structure PingCall where
  status : PingStatus := .REQUEST
  finishCalled : Bool := false
  onDoneCalled : Bool := false
  deleted : Bool := false
  outstanding : Bool := true
  deriving DecidableEq, Repr

namespace PingCall

/-- `PingCall::Proceed(ok)`. -/
def proceed (call : PingCall) (ok : Bool) : PingCall × List Effect :=
  match call.status with
  | .REQUEST =>
    if ok then ({ call with status := .FINISH, outstanding := true }, [.spawn])
    else ({ call with deleted := true }, [])
  | .FINISH => ({ call with finishCalled := true, deleted := call.onDoneCalled }, [])

/-- `PingCall::OnDone`. -/
def onDone (call : PingCall) : PingCall :=
  if call.finishCalled then { call with onDoneCalled := true, deleted := true }
  else { call with onDoneCalled := true, status := .FINISH }

/-- The completion of the call's outstanding operation. -/
def complete (call : PingCall) (ok : Bool) : PingCall × List Effect :=
  proceed { call with outstanding := false } ok

end PingCall

/-- `GetCall::CallStatus`. -/
inductive GetStatus where
  | REQUEST
  | GET
  | FINISH
  deriving DecidableEq, Repr

/-- What `Shard::Get(key, &value, &ask)` answers: the RocksDB status code, the value read, and
whether the former master is to be asked. -/
structure ShardRead where
  code : Nat := 0
  value : List UInt8 := []
  ask : Bool := false
  deriving DecidableEq, Repr

/-- `pb::Response`: a RocksDB status code and a value. -/
structure Response where
  status : Nat := 0
  value : List UInt8 := []
  deriving DecidableEq, Repr

/-- `rocksdb::Status::Code::kInvalidArgument`. -/
def kInvalidArgument : Nat := 4

/-- How a call's responder is finished: `Finish(response_, Status::OK)`, `FinishWithError` with
`invalid_status` ("Not responsible for this shard"), or `FinishWithError` with `UNAVAILABLE`
("The former master has crashed"). -/
inductive Reply where
  | ok (response : Response)
  | notResponsible
  | formerMasterCrashed
  deriving DecidableEq, Repr

/-- The code of `force_get_status_`, as the `GET` case reads it. -/
inductive ForwardCode where
  | OK
  | UNAVAILABLE
  | other
  deriving DecidableEq, Repr

/-- What a completion brings a `GetCall`, and what the node answers the `Proceed` it runs. -/
structure GetInput where
  /-- The request the request operation fills `request_` with. -/
  message : Key := {}
  /-- `Info::WrongShard(shard_id)`. -/
  wrongShard : Nat → Bool := fun _ => false
  /-- Whether `Shards::at(shard_id)` is a handle. -/
  present : Nat → Bool := fun _ => true
  /-- What `shard_->Get` answers. -/
  read : ShardRead := {}
  /-- The code of the forwarded `Get`'s status, and the response it fills `response_` with. -/
  forwardCode : ForwardCode := .OK
  forwarded : Response := {}
  /-- Whether `Info::Addresses()` still lists the former master. -/
  listed : Bool := false

/-- A `GetCall`'s members, with how its responder was finished and whether an operation it
started is outstanding. -/
structure GetCall where
  status : GetStatus := .REQUEST
  request : Key := {}
  /-- `shard_id`, whose handle `shard_` keeps. -/
  shard : Nat := 0
  response : Response := {}
  forwardCode : ForwardCode := .OK
  reply : Option Reply := none
  finishCalled : Bool := false
  onDoneCalled : Bool := false
  deleted : Bool := false
  outstanding : Bool := true
  deriving DecidableEq, Repr

namespace GetCall

variable (shardForKey : List UInt8 → Nat)

/-- `GetCall::Proceed(ok)`. -/
def proceed (input : GetInput) (call : GetCall) (ok : Bool) : GetCall × List Effect :=
  match call.status with
  | .REQUEST =>
    if !ok then ({ call with deleted := true }, [])
    else
      let shard := shardForKey call.request.key
      if input.wrongShard shard && !call.request.force then
        ({ call with reply := some .notResponsible, status := .FINISH, outstanding := true },
          [.spawn])
      else if !input.present shard then
        ({ call with
            shard := shard, reply := some .notResponsible, status := .FINISH,
            outstanding := true },
          [.spawn])
      else if input.read.ask then
        ({ call with
            shard := shard, request := { call.request with force := true }, status := .GET,
            outstanding := true },
          [.spawn])
      else
        let response : Response := { status := input.read.code, value := input.read.value }
        ({ call with
            shard := shard, response := response, reply := some (.ok response),
            status := .FINISH, outstanding := true },
          [.spawn])
  | .GET =>
    if call.forwardCode = .UNAVAILABLE && input.listed then
      ({ call with reply := some .formerMasterCrashed, status := .FINISH, outstanding := true },
        [])
    else
      let response : Response :=
        if call.forwardCode ≠ .OK || call.response.status = kInvalidArgument then
          { status := input.read.code, value := input.read.value }
        else call.response
      ({ call with
          response := response, reply := some (.ok response), status := .FINISH,
          outstanding := true },
        [])
  | .FINISH => ({ call with finishCalled := true, deleted := call.onDoneCalled }, [])

/-- `GetCall::OnDone`. -/
def onDone (call : GetCall) : GetCall :=
  if call.finishCalled then { call with onDoneCalled := true, deleted := true }
  else { call with onDoneCalled := true, status := .FINISH }

/-- The completion of the call's outstanding operation: the request operation fills `request_`,
and the forwarded `Get` fills `response_` and `force_get_status_`; then `Proceed`. -/
def complete (call : GetCall) (ok : Bool) (input : GetInput) : GetCall × List Effect :=
  let filled : GetCall :=
    match call.status with
    | .REQUEST => if ok then { call with request := input.message } else call
    | .GET => { call with response := input.forwarded, forwardCode := input.forwardCode }
    | .FINISH => call
  proceed shardForKey input { filled with outstanding := false } ok

end GetCall

end Crocks.Server
