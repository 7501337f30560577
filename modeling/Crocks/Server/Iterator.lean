import Crocks.Server.Call

/-!
# Iterator batches

`IteratorCall` answers each `pb::IteratorRequest` of its stream with one
`pb::IteratorResponse`, built by `ApplyIteratorRequest` on the call's one `MultiIterator`: a
seek positions the cursor, and `MakeNextBatch` or `MakePrevBatch` then sends up to
`kIteratorBatchSize` pairs in the direction of the seek, with `done` set once the cursor is
no longer valid.

`MultiIterator` itself is not in the sources; it is modelled from the spec as a cursor over a
finite sequence of key-value pairs in strictly ascending key order, over any ordered key type.
The pairs still to be sent are then a list: those ahead of the cursor going forward, those
behind it going back. Each batch is a `take` of that list and leaves the cursor on the `drop`,
and a stream of requests is proved to carry the whole list in order, in bounded batches.
-/

namespace Crocks.Server

/-- Modelled from the spec: the node's `MultiIterator`, a cursor over the key-value pairs of
every shard's column family in ascending key order. `position` is `none` when the cursor is
not valid. -/
structure MultiIterator (κ β : Type) [LinearOrder κ] where
  entries : List (κ × β)
  sorted : entries.Sorted (fun a b => a.1 < b.1)
  position : Option (Fin entries.length)

namespace MultiIterator

variable {κ β : Type} [LinearOrder κ]

/-- `Valid()`. -/
def valid (it : MultiIterator κ β) : Bool :=
  it.position.isSome

/-- `key()` and `value()` of a valid cursor. -/
def current (it : MultiIterator κ β) : Option (κ × β) :=
  it.position.map it.entries.get

/-- `Next()`: one pair on, past the last pair the cursor is no longer valid. -/
def next (it : MultiIterator κ β) : MultiIterator κ β :=
  { it with
    position := it.position.bind fun i =>
      if h : i.val + 1 < it.entries.length then some ⟨i.val + 1, h⟩ else none }

/-- `Prev()`: one pair back, before the first pair the cursor is no longer valid. -/
def prev (it : MultiIterator κ β) : MultiIterator κ β :=
  { it with
    position := it.position.bind fun i =>
      if h : 0 < i.val then some ⟨i.val - 1, by omega⟩ else none }

/-- `SeekToFirst()`. -/
def seekToFirst (it : MultiIterator κ β) : MultiIterator κ β :=
  { it with position := if h : 0 < it.entries.length then some ⟨0, h⟩ else none }

/-- `SeekToLast()`. -/
def seekToLast (it : MultiIterator κ β) : MultiIterator κ β :=
  { it with
    position := if h : 0 < it.entries.length then some ⟨it.entries.length - 1, by omega⟩
      else none }

/-- `Seek(target)`: the first pair whose key is at least the target. -/
def seek (it : MultiIterator κ β) (target : κ) : MultiIterator κ β :=
  { it with
    position :=
      if h : it.entries.findIdx (fun kv => decide (target ≤ kv.1)) < it.entries.length then
        some ⟨_, h⟩
      else none }

/-- `SeekForPrev(target)`: the last pair whose key is at most the target. -/
def seekForPrev (it : MultiIterator κ β) (target : κ) : MultiIterator κ β :=
  { it with
    position :=
      if h : 0 < it.entries.findIdx (fun kv => decide (target < kv.1)) then
        some ⟨it.entries.findIdx (fun kv => decide (target < kv.1)) - 1, by
          have := @List.findIdx_le_length _ (fun kv => decide (target < kv.1)) it.entries
          omega⟩
      else none }

/-- The pairs from the cursor on, in ascending order: what `Next()` walks through. -/
def ahead (it : MultiIterator κ β) : List (κ × β) :=
  match it.position with
  | some i => it.entries.drop i
  | none => []

/-- The pairs up to the cursor, in descending order: what `Prev()` walks through. -/
def behind (it : MultiIterator κ β) : List (κ × β) :=
  match it.position with
  | some i => (it.entries.take (i + 1)).reverse
  | none => []

/-- `Valid()` is whether the cursor has a pair. -/
theorem valid_eq_current (it : MultiIterator κ β) : it.valid = it.current.isSome := by
  simp [valid, current]

theorem current_eq_ahead_head (it : MultiIterator κ β) : it.current = it.ahead.head? := by
  rcases it with ⟨entries, sorted, _ | i⟩
  · rfl
  · simp [current, ahead, List.head?_drop]

/-- The pairs up to a position, last first. -/
theorem reverse_take_succ {α : Type} {l : List α} {i : Nat} (h : i < l.length) :
    (l.take (i + 1)).reverse = l[i] :: (l.take i).reverse := by
  rw [List.take_succ, List.getElem?_eq_getElem h]
  simp

theorem current_eq_behind_head (it : MultiIterator κ β) : it.current = it.behind.head? := by
  rcases it with ⟨entries, sorted, _ | i⟩
  · rfl
  · simp [current, behind, reverse_take_succ i.isLt]

/-- `Next()` drops the pair at the cursor from those ahead of it. -/
theorem ahead_next (it : MultiIterator κ β) : it.next.ahead = it.ahead.tail := by
  rcases it with ⟨entries, sorted, _ | i⟩
  · rfl
  · by_cases more : i.val + 1 < entries.length
    · simp [next, ahead, more, List.tail_drop]
    · simp [next, ahead, more, List.tail_drop, List.drop_of_length_le (Nat.le_of_not_lt more)]

/-- `Prev()` drops the pair at the cursor from those behind it. -/
theorem behind_prev (it : MultiIterator κ β) : it.prev.behind = it.behind.tail := by
  rcases it with ⟨entries, sorted, _ | i⟩
  · rfl
  · by_cases more : 0 < i.val
    · simp [prev, behind, more, reverse_take_succ i.isLt, Nat.sub_add_cancel more]
    · simp [prev, behind, more, reverse_take_succ i.isLt]
      simp [show i.val = 0 by omega]

/-- In ascending entries, the pairs from the first key at least the target on are the pairs
whose key is at least the target. -/
theorem drop_findIdx_eq_filter {l : List (κ × β)} (sorted : l.Sorted (fun a b => a.1 < b.1))
    (target : κ) :
    l.drop (l.findIdx fun kv => decide (target ≤ kv.1)) = l.filter fun kv => decide (target ≤ kv.1) := by
  induction l with
  | nil => rfl
  | cons kv rest ih =>
    rw [List.sorted_cons] at sorted
    by_cases reached : target ≤ kv.1
    · have rest_kept : rest.filter (fun kv => decide (target ≤ kv.1)) = rest :=
        List.filter_eq_self.mpr fun e mem => decide_eq_true (reached.trans (sorted.1 e mem).le)
      simp [List.findIdx_cons, reached, rest_kept]
    · simp [List.findIdx_cons, reached, ih sorted.2]

/-- In ascending entries, the pairs before the first key past the target are the pairs whose key
is at most the target. -/
theorem take_findIdx_eq_filter {l : List (κ × β)} (sorted : l.Sorted (fun a b => a.1 < b.1))
    (target : κ) :
    l.take (l.findIdx fun kv => decide (target < kv.1)) = l.filter fun kv => decide (kv.1 ≤ target) := by
  induction l with
  | nil => rfl
  | cons kv rest ih =>
    rw [List.sorted_cons] at sorted
    by_cases passed : target < kv.1
    · have rest_dropped : rest.filter (fun kv => decide (kv.1 ≤ target)) = [] :=
        List.filter_eq_nil_iff.mpr fun e mem => by simpa using passed.trans (sorted.1 e mem)
      simp [List.findIdx_cons, passed, rest_dropped, not_le_of_lt passed]
    · simp [List.findIdx_cons, passed, ih sorted.2, le_of_not_lt passed]

theorem ahead_seekToFirst (it : MultiIterator κ β) : it.seekToFirst.ahead = it.entries := by
  rcases it with ⟨entries, sorted, position⟩
  by_cases empty : entries.length = 0
  · simp [seekToFirst, ahead, List.length_eq_zero.mp empty]
  · simp [seekToFirst, ahead, Nat.pos_of_ne_zero empty]

theorem ahead_seek (it : MultiIterator κ β) (target : κ) :
    (it.seek target).ahead = it.entries.filter fun kv => decide (target ≤ kv.1) := by
  rcases it with ⟨entries, sorted, position⟩
  rw [← drop_findIdx_eq_filter sorted]
  by_cases found : entries.findIdx (fun kv => decide (target ≤ kv.1)) < entries.length
  · simp [seek, ahead, found]
  · simp [seek, ahead, found, List.drop_of_length_le (Nat.le_of_not_lt found)]

theorem behind_seekToLast (it : MultiIterator κ β) : it.seekToLast.behind = it.entries.reverse := by
  rcases it with ⟨entries, sorted, position⟩
  by_cases empty : entries.length = 0
  · simp [seekToLast, behind, List.length_eq_zero.mp empty]
  · simp [seekToLast, behind, Nat.pos_of_ne_zero empty, Nat.sub_add_cancel (Nat.pos_of_ne_zero empty)]

theorem behind_seekForPrev (it : MultiIterator κ β) (target : κ) :
    (it.seekForPrev target).behind = (it.entries.filter fun kv => decide (kv.1 ≤ target)).reverse := by
  rcases it with ⟨entries, sorted, position⟩
  rw [← take_findIdx_eq_filter sorted]
  by_cases found : 0 < entries.findIdx (fun kv => decide (target < kv.1))
  · simp [seekForPrev, behind, found, Nat.sub_add_cancel found]
  · simp [seekForPrev, behind, found, Nat.eq_zero_of_not_pos found]

/-- The loop of `MakeNextBatch` and `MakePrevBatch`: while fuel is left and the cursor is
valid, send its pair and move the cursor. -/
def batch (move : MultiIterator κ β → MultiIterator κ β) :
    Nat → MultiIterator κ β → List (κ × β) × MultiIterator κ β
  | 0, it => ([], it)
  | fuel + 1, it =>
    match it.current with
    | none => ([], it)
    | some kv =>
      let sent := batch move fuel (move it)
      (kv :: sent.1, sent.2)

section Direction

variable {move : MultiIterator κ β → MultiIterator κ β} {pending : MultiIterator κ β → List (κ × β)}

/-- In a direction whose pending pairs start at the cursor and lose their head at each move, a
batch sends the first `fuel` of them and leaves the cursor on the rest. -/
theorem batch_take_drop (head : ∀ it, it.current = (pending it).head?)
    (tail : ∀ it, pending (move it) = (pending it).tail) :
    ∀ fuel it, (batch move fuel it).1 = (pending it).take fuel ∧
      pending (batch move fuel it).2 = (pending it).drop fuel
  | 0, _ => ⟨rfl, rfl⟩
  | fuel + 1, it => by
    have ih := batch_take_drop head tail fuel (move it)
    rw [tail] at ih
    cases listed : pending it with
    | nil => simp [batch, head, listed]
    | cons kv rest =>
      rw [listed] at ih
      simp [batch, head, listed, ih]

end Direction

end MultiIterator

/-- `kIteratorBatchSize`: the most pairs one response carries. -/
def kIteratorBatchSize : Nat := 10

/-- The fields of `pb::IteratorResponse` the batches fill. -/
structure IteratorResponse (κ β : Type) where
  kvs : List (κ × β) := []
  done : Bool := false
  deriving DecidableEq, Repr

variable {κ β : Type}

/-- What a stream of responses owes the pairs it is to carry, in order: batches of at most
`kIteratorBatchSize` pairs, each full unless it is done, whose concatenation runs along the
pairs and is all of them exactly on the responses that are done. -/
structure Batched (selected : List (κ × β)) (responses : List (IteratorResponse κ β)) : Prop where
  bounded : ∀ response ∈ responses, response.kvs.length ≤ kIteratorBatchSize
  full : ∀ response ∈ responses, response.done = false →
    response.kvs.length = kIteratorBatchSize
  ordered : ∀ count, (responses.take count).flatMap IteratorResponse.kvs <+: selected
  done : ∀ front response back, responses = front ++ response :: back →
    (response.done = true ↔ (front ++ [response]).flatMap IteratorResponse.kvs = selected)

theorem Batched.nil (selected : List (κ × β)) : Batched selected [] :=
  ⟨nofun, nofun, by simp, fun front _ _ split => by simp at split⟩

/-- A list is its first pairs followed by exactly the rest. -/
theorem take_append_eq_self {α : Type} {l rest : List α} {count : Nat} :
    l.take count ++ rest = l ↔ rest = l.drop count := by
  have split := List.take_append_drop count l
  exact ⟨fun joined => List.append_cancel_left (joined.trans split.symm), fun rest => rest ▸ split⟩

/-- One response that carries the first batch of the pairs, ahead of responses that carry the
rest. -/
theorem Batched.cons {selected : List (κ × β)} {response : IteratorResponse κ β} {rest}
    (kvs : response.kvs = selected.take kIteratorBatchSize)
    (done : response.done = decide (selected.length ≤ kIteratorBatchSize))
    (batched : Batched (selected.drop kIteratorBatchSize) rest) :
    Batched selected (response :: rest) where
  bounded := List.forall_mem_cons.mpr ⟨kvs ▸ List.length_take_le _ _, batched.bounded⟩
  full := List.forall_mem_cons.mpr ⟨fun undone => by simp [kvs, done] at undone ⊢; omega,
    batched.full⟩
  ordered
    | 0 => by simp
    | count + 1 => by
      have sent := (List.prefix_append_right_inj (selected.take kIteratorBatchSize)).mpr
        (batched.ordered count)
      rw [List.take_append_drop] at sent
      simpa [kvs] using sent
  done
    | [], _, _, split => by
      obtain ⟨rfl, rfl⟩ := List.cons_eq_cons.mp split
      simp [kvs, done, List.take_eq_self_iff]
    | _ :: front, found, back, split => by
      obtain ⟨rfl, rfl⟩ := List.cons_eq_cons.mp split
      simpa [kvs, take_append_eq_self] using batched.done front found back rfl

variable [LinearOrder κ]

/-- The body `MakeNextBatch` and `MakePrevBatch` share, moving the cursor by `move`: a batch of
up to `kIteratorBatchSize` pairs, `done` once the cursor is no longer valid. -/
def makeBatch (move : MultiIterator κ β → MultiIterator κ β) (it : MultiIterator κ β) :
    MultiIterator κ β × IteratorResponse κ β :=
  let sent := it.batch move kIteratorBatchSize
  (sent.2, { kvs := sent.1, done := !sent.2.valid })

/-- `MakeNextBatch`. -/
def makeNextBatch (it : MultiIterator κ β) : MultiIterator κ β × IteratorResponse κ β :=
  makeBatch MultiIterator.next it

/-- `MakePrevBatch`. -/
def makePrevBatch (it : MultiIterator κ β) : MultiIterator κ β × IteratorResponse κ β :=
  makeBatch MultiIterator.prev it

/-- What one batch does to the pending pairs of its direction: it sends the first
`kIteratorBatchSize` of them, is done exactly when they were all, and leaves the rest. -/
theorem makeBatch_spec {move : MultiIterator κ β → MultiIterator κ β}
    {pending : MultiIterator κ β → List (κ × β)} (head : ∀ it, it.current = (pending it).head?)
    (tail : ∀ it, pending (move it) = (pending it).tail) (it : MultiIterator κ β) :
    (makeBatch move it).2.kvs = (pending it).take kIteratorBatchSize ∧
      (makeBatch move it).2.done = decide ((pending it).length ≤ kIteratorBatchSize) ∧
      pending (makeBatch move it).1 = (pending it).drop kIteratorBatchSize := by
  obtain ⟨sent, rest⟩ := MultiIterator.batch_take_drop head tail kIteratorBatchSize it
  refine ⟨sent, ?_, rest⟩
  have after := head (it.batch move kIteratorBatchSize).2
  rw [rest] at after
  simp only [makeBatch, MultiIterator.valid_eq_current, after]
  cases more : (pending it).drop kIteratorBatchSize with
  | nil => simp [← List.drop_eq_nil_iff, more]
  | cons kv rest => simp [← List.drop_eq_nil_iff, more]

/-- `pb::IteratorRequest::Op`. -/
inductive IteratorOp where
  | SEEK_TO_FIRST
  | SEEK_TO_LAST
  | SEEK
  | SEEK_FOR_PREV
  | NEXT
  | PREV
  deriving DecidableEq, Repr

/-- `pb::IteratorRequest`. -/
structure IteratorRequest (κ : Type) where
  op : IteratorOp
  target : κ
  deriving DecidableEq, Repr

/-- `ApplyIteratorRequest`: position the cursor if the request seeks, then make a batch in the
direction the client is guessed to go. -/
def applyIteratorRequest (it : MultiIterator κ β) (request : IteratorRequest κ) :
    MultiIterator κ β × IteratorResponse κ β :=
  match request.op with
  | .SEEK_TO_FIRST => makeNextBatch it.seekToFirst
  | .SEEK_TO_LAST => makePrevBatch it.seekToLast
  | .SEEK => makeNextBatch (it.seek request.target)
  | .SEEK_FOR_PREV => makePrevBatch (it.seekForPrev request.target)
  | .NEXT => makeNextBatch it
  | .PREV => makePrevBatch it

/-- The responses `IteratorCall` writes to a stream of requests it reads with `ok`: each is built
afresh (`response_.Clear()`) by `ApplyIteratorRequest` on the call's one cursor. -/
def iteratorResponses : MultiIterator κ β → List (IteratorRequest κ) → List (IteratorResponse κ β)
  | _, [] => []
  | it, request :: requests =>
    let answered := applyIteratorRequest it request
    answered.2 :: iteratorResponses answered.1 requests

section Direction

variable {move : MultiIterator κ β → MultiIterator κ β} {pending : MultiIterator κ β → List (κ × β)}

/-- A request that makes a batch in a direction from a cursor, ahead of responses that carry
what that batch leaves, carries all that was pending there. -/
theorem batched_step (head : ∀ it, it.current = (pending it).head?)
    (tail : ∀ it, pending (move it) = (pending it).tail) {it start : MultiIterator κ β}
    {first : IteratorRequest κ} {requests : List (IteratorRequest κ)}
    (opens : applyIteratorRequest it first = makeBatch move start)
    (rest : Batched (pending (makeBatch move start).1)
      (iteratorResponses (makeBatch move start).1 requests)) :
    Batched (pending start) (iteratorResponses it (first :: requests)) := by
  obtain ⟨kvs, done, left⟩ := makeBatch_spec head tail start
  rw [iteratorResponses, opens]
  exact Batched.cons kvs done (left ▸ rest)

/-- Requests that each make one batch in a direction carry, from any cursor, all that is pending
in that direction. -/
theorem batched_run (head : ∀ it, it.current = (pending it).head?)
    (tail : ∀ it, pending (move it) = (pending it).tail) :
    ∀ requests : List (IteratorRequest κ),
      (∀ request ∈ requests, ∀ it, applyIteratorRequest it request = makeBatch move it) →
      ∀ it, Batched (pending it) (iteratorResponses it requests)
  | [], _, _ => Batched.nil _
  | request :: requests, batches, it =>
    batched_step head tail (batches request (.head _) it)
      (batched_run head tail requests (fun other mem => batches other (.tail _ mem)) _)

end Direction

/-- Twelve pairs, keys `0` to `11`, with the cursor not yet valid. -/
def twelvePairs : MultiIterator Nat Nat :=
  ⟨(List.range 12).map fun k => (k, k * k), by decide, none⟩

example : (iteratorResponses twelvePairs [⟨.SEEK, 1⟩, ⟨.SEEK, 2⟩, ⟨.NEXT, 0⟩]).map
    (fun response => (response.kvs.length, response.done)) = [(10, false), (10, true), (0, true)] := by
  decide

/-- `IteratorCall::CallStatus`. -/
inductive IteratorStatus where
  | REQUEST
  | READ
  | WRITE
  | FINISH
  deriving DecidableEq, Repr

/-- What a completion brings an `IteratorCall`: the request a read fills `request_` with, and
the node's pairs, which `new MultiIterator(db, ColumnFamilies())` iterates over. -/
structure IteratorInput (κ β : Type) [LinearOrder κ] where
  message : IteratorRequest κ
  snapshot : MultiIterator κ β

/-- An `IteratorCall`'s members, with the responses it wrote and whether an operation it started
is outstanding. `it` is `it_`, null until the request. -/
structure IteratorCall (κ β : Type) [LinearOrder κ] where
  status : IteratorStatus := .REQUEST
  it : Option (MultiIterator κ β) := none
  written : List (IteratorResponse κ β) := []
  finishCalled : Bool := false
  onDoneCalled : Bool := false
  deleted : Bool := false
  outstanding : Bool := true

namespace IteratorCall

/-- `IteratorCall::Proceed(ok)`. On a read with `ok`, `request_` holds the request the read
brought. -/
def proceed (input : IteratorInput κ β) (call : IteratorCall κ β) (ok : Bool) :
    IteratorCall κ β × List Effect :=
  match call.status with
  | .REQUEST =>
    if ok then
      ({ call with
          it := some { input.snapshot with position := none }, status := .READ,
          outstanding := true },
        [.spawn])
    else ({ call with deleted := true }, [])
  | .READ =>
    if ok then
      match call.it with
      | some it =>
        let answered := applyIteratorRequest it input.message
        ({ call with
            it := some answered.1, written := call.written ++ [answered.2], status := .WRITE,
            outstanding := true },
          [])
      | none => (call, [])
    else ({ call with status := .FINISH, outstanding := true }, [])
  | .WRITE =>
    if ok then ({ call with status := .READ, outstanding := true }, [])
    else ({ call with status := .FINISH, outstanding := true }, [])
  | .FINISH => ({ call with finishCalled := true, deleted := call.onDoneCalled }, [])

/-- `IteratorCall::OnDone`. -/
def onDone (call : IteratorCall κ β) : IteratorCall κ β :=
  if call.finishCalled then { call with onDoneCalled := true, deleted := true }
  else { call with onDoneCalled := true, status := .FINISH }

/-- The completion of the call's outstanding operation. -/
def complete (call : IteratorCall κ β) (ok : Bool) (input : IteratorInput κ β) :
    IteratorCall κ β × List Effect :=
  proceed input { call with outstanding := false } ok

/-- The call after a stream whose reads and writes all succeed: each read brings one request,
and the write of its response completes. -/
def serve (snapshot : MultiIterator κ β) :
    IteratorCall κ β → List (IteratorRequest κ) → IteratorCall κ β
  | call, [] => call
  | call, request :: requests =>
    let read := (call.complete true ⟨request, snapshot⟩).1
    serve snapshot (read.complete true ⟨request, snapshot⟩).1 requests

/-- Between the messages of a stream whose reads and writes succeed, the call reads with a cursor:
it writes, after what it had written, exactly the responses `ApplyIteratorRequest` makes from
that cursor, one per request. -/
theorem serve_written (snapshot : MultiIterator κ β) :
    ∀ (requests : List (IteratorRequest κ)) (call : IteratorCall κ β) (it : MultiIterator κ β),
      call.status = .READ → call.it = some it →
      (serve snapshot call requests).written = call.written ++ iteratorResponses it requests
  | [], call, it, _, _ => by simp [serve, iteratorResponses]
  | request :: requests, call, it, reading, cursor => by
    have ih := serve_written snapshot requests
      { call with
          status := .READ, it := some (applyIteratorRequest it request).1,
          written := call.written ++ [(applyIteratorRequest it request).2], outstanding := true }
      _ rfl rfl
    simp only [serve, complete, proceed, reading, cursor, ↓reduceIte]
    rw [ih]
    simp [iteratorResponses]

/-- A call matched to a stream whose reads and writes all succeed writes, for its requests, the
responses `ApplyIteratorRequest` makes from one cursor over the node's pairs, in order. -/
theorem iterator_call_writes_responses (snapshot : MultiIterator κ β) (matched : IteratorRequest κ)
    (requests : List (IteratorRequest κ)) :
    (serve snapshot (({} : IteratorCall κ β).complete true ⟨matched, snapshot⟩).1 requests).written =
      iteratorResponses { snapshot with position := none } requests := by
  rw [serve_written snapshot requests _ _ rfl rfl]
  rfl

end IteratorCall

end Crocks.Server
