import Mathlib.Data.Rat.Defs
import Mathlib.Algebra.Order.Ring.Rat
import TraceGuard.Traces

/-! The admission of requests. Coroutines share one count and one table of buckets; each runs without
interruption from one await to the next, and a step of the system is such a stretch of one coroutine. -/
namespace TraceGuard

namespace RequestLimits

/-- A principal: the subject and the key of its credential. -/
structure Key where
  subject : String
  serviceKeyId : Option String
  deriving DecidableEq

/-- What `self.identity` does with an authorization header. -/
inductive Identity where
  | actor (key : Key)
  /-- `AuthorizationError`. -/
  | refused
  /-- Any other exception. -/
  | raised

/-- What becomes of a body in `json.loads` and `validate_json`. -/
inductive Verdict where
  | admitted
  | refused
  /-- An exception that is not caught. -/
  | raised

abbrev Bytes := List UInt8

end RequestLimits

/-- `self.identity` is not here: what it answers may change with time, so each call brings the answers. -/
structure RequestLimits where
  verdict : RequestLimits.Bytes → RequestLimits.Verdict
  maxBody : Nat := 1048576
  maxInflight : Nat := 16
  requestsPerMinute : Nat := 120
  maxPrincipals : Nat := 1024

namespace RequestLimits

/-- `self.inflight` and `self.buckets`; the times of a bucket are in order of arrival. -/
structure Shared where
  inflight : Int := 0
  buckets : List (Key × List ℚ) := []

inductive Scope where
  | http (headers : List (Bytes × Bytes))
  | other

/-- Where a coroutine waits. -/
inductive Phase where
  /-- In the application, without admission: the scope is no request. -/
  | passing
  /-- In `reject`, before the request is admitted. -/
  | rejecting (status : Nat) (detail : String)
  | reading (payload : Bytes) (deadline : ℚ)
  /-- In `reject`, past admission. -/
  | refusing (status : Nat) (detail : String)
  | serving (payload : Bytes)
  deriving DecidableEq

/-- Past admission and not finished. -/
def Phase.admitted : Phase → Bool
  | .reading .. | .refusing .. | .serving _ => true
  | .passing | .rejecting .. => false

/-- What the awaited `receive` comes to. -/
inductive Received where
  | disconnect
  | message (body : Bytes) (moreBody : Bool)
  /-- `asyncio.wait_for` gives up. -/
  | timeout
  /-- An exception, or the cancellation of the coroutine. -/
  | raised

/-- `header.lower()` of ASCII bytes. -/
def lower (header : Bytes) : Bytes := header.map fun b => if 65≤b ∧ b≤90 then b+32 else b

/-- `{key.lower(): value}`, of equal keys the last value, and `.get(b"authorization", b"")`. -/
def authorization (headers : List (Bytes × Bytes)) : Bytes :=
  (headers.reverse.find? fun header => lower header.1="authorization".toUTF8.toList).elim [] Prod.snd

/-- `.decode("ascii")`; `none` is a `UnicodeDecodeError`. -/
def decodeAscii (bytes : Bytes) : Option String :=
  if bytes.all fun b => b < 128 then some (String.ofList (bytes.map fun b => Char.ofNat b.toNat)) else none

/-- Who sends a request, as far as the header says. -/
def sender (identity : String → Identity) (headers : List (Bytes × Bytes)) : Identity :=
  match decodeAscii (authorization headers) with
  | some text => identity text
  | none => .refused

/-! The bucket table. -/

/-- The buckets in which an arrival is less than a minute old. -/
def live (buckets : List (Key × List ℚ)) (now : ℚ) : List (Key × List ℚ) :=
  buckets.filter fun bucket => bucket.2.getLast?.any fun last => now-60 < last

def bucketOf (buckets : List (Key × List ℚ)) (key : Key) : List ℚ := (buckets.lookup key).getD []

/-- The table with the bucket of one key; a new key stands at the end. -/
def store (buckets : List (Key × List ℚ)) (key : Key) (times : List ℚ) : List (Key × List ℚ) :=
  if key∈buckets.map Prod.fst then
    buckets.map fun bucket => if bucket.1=key then (key, times) else bucket
  else buckets++[(key, times)]

/-- The arrivals of a bucket that still count. -/
def recent (times : List ℚ) (now : ℚ) : List ℚ := times.dropWhile fun time => time≤now-60

/-- What a request comes to before its first await. -/
inductive Admission where
  | rejected (detail : String)
  | raised
  | admitted

variable (self : RequestLimits)

/-- The admission of a request of a principal. -/
def admitRequest (shared : Shared) (key : Key) (now : ℚ) : Shared × Admission :=
  let buckets := live shared.buckets now
  if key∉buckets.map Prod.fst ∧ self.maxPrincipals≤buckets.length then
    ({ shared with buckets }, .rejected "credential admission budget exhausted")
  else
    let bucket := recent (bucketOf buckets key) now
    if self.requestsPerMinute≤bucket.length then
      ({ shared with buckets := store buckets key bucket }, .rejected "credential request budget exhausted")
    else
      ({ inflight := shared.inflight+1, buckets := store buckets key (bucket++[now]) }, .admitted)

/-- `__call__` up to the reading of the body. -/
def enter (shared : Shared) (identity : String → Identity) (headers : List (Bytes × Bytes)) (now : ℚ) :
    Shared × Admission :=
  if self.maxInflight ≤ shared.inflight then (shared, .rejected "concurrency budget exhausted")
  else match sender identity headers with
  | .raised => (shared, .raised)
  | .refused => ({ shared with inflight := shared.inflight+1 }, .admitted)
  | .actor key => self.admitRequest shared key now

/-- The next turn of the reading loop, at a reading of the clock. -/
def await (payload : Bytes) (deadline now : ℚ) : Phase :=
  if deadline-now≤0 then .refusing 408 "request body timeout" else .reading payload deadline

/-- What follows a completed body; `none` is an exception. -/
def dispatch (payload : Bytes) : Option Phase :=
  if payload=[] then some (.serving payload)
  else match self.verdict payload with
  | .admitted => some (.serving payload)
  | .refused => some (.refusing 400 "invalid or over-budget JSON")
  | .raised => none

/-- A turn of the reading loop from what was received; `none` ends the coroutine. -/
def receive (payload : Bytes) (deadline : ℚ) (received : Received) (now : ℚ) : Option Phase :=
  match received with
  | .raised | .disconnect => none
  | .timeout => some (.refusing 408 "request body timeout")
  | .message body moreBody =>
    if self.maxBody < (payload++body).length then some (.refusing 413 "request body exceeds budget")
    else if moreBody then some (await (payload++body) deadline now)
    else self.dispatch (payload++body)

/-! The system: the coroutines that are running, the clock, and the arrivals that were admitted for a
principal. -/

structure State where
  shared : Shared := {}
  running : List (Nat × Phase) := []
  clock : ℚ := 0
  arrivals : List (Key × ℚ) := []

inductive Event where
  /-- A call, with the readings of the clock until its first await. -/
  | call (id : Nat) (scope : Scope) (identity : String → Identity) (now base later : ℚ)
  | received (id : Nat) (received : Received) (now : ℚ)
  /-- An await of `reject` or of the application is over, and another one follows. -/
  | proceed (id : Nat)
  /-- `reject` or the application returns, raises or is cancelled. -/
  | leave (id : Nat)

def State.phase (s : State) (id : Nat) : Option Phase := s.running.lookup id

/-- The coroutine waits elsewhere. -/
def State.move (s : State) (id : Nat) (phase : Phase) : State :=
  { s with running := s.running.map fun r => if r.1=id then (id, phase) else r }

/-- The coroutine is over; past admission, `finally` counts it off. -/
def State.finish (s : State) (id : Nat) (phase : Phase) : State :=
  { s with
    running := s.running.filter fun r => r.1≠id
    shared := { s.shared with
      inflight := if phase.admitted then s.shared.inflight-1 else s.shared.inflight } }

/-- The arrival that an admission leaves. -/
def arrival (identity : String → Identity) (headers : List (Bytes × Bytes)) (now : ℚ) : List (Key × ℚ) :=
  match sender identity headers with
  | .actor key => [(key, now)]
  | .refused | .raised => []

/-- `__call__` from its start to its first await. -/
def begin (s : State) (id : Nat) (scope : Scope) (identity : String → Identity) (now base later : ℚ) :
    State :=
  match scope with
  | .other => { s with running := s.running++[(id, .passing)], clock := later }
  | .http headers =>
    match self.enter s.shared identity headers now with
    | (shared, .rejected detail) =>
      { s with shared, running := s.running++[(id, .rejecting 429 detail)], clock := later }
    | (shared, .raised) => { s with shared, clock := later }
    | (shared, .admitted) =>
      { shared
        running := s.running++[(id, await [] (base+5) later)]
        clock := later
        arrivals := s.arrivals++arrival identity headers now }

/-- A stretch of one coroutine between two awaits. -/
def step (s : State) : Event → Option State
  | .call id scope identity now base later =>
    if s.phase id=none ∧ s.clock≤now ∧ now≤base ∧ base≤later then
      some (self.begin s id scope identity now base later)
    else none
  | .received id received now =>
    match s.phase id with
    | some (.reading payload deadline) =>
      if s.clock≤now then
        match self.receive payload deadline received now with
        | some phase => some { s.move id phase with clock := now }
        | none => some { s.finish id (.reading payload deadline) with clock := now }
      else none
    | _ => none
  | .proceed id =>
    match s.phase id with
    | some (.reading ..) | none => none
    | some _ => some s
  | .leave id =>
    match s.phase id with
    | some (.reading ..) | none => none
    | some phase => some (s.finish id phase)

def Step (s : State) (e : Event) (t : State) : Prop := self.step s e = some t

end RequestLimits
end TraceGuard
