import BrandSniper.Listener.AlertRate
import BrandSniper.Listener.Executor
import BrandSniper.Listener.TaskSupervisor

/-!
# Alert dispatch

`AlertDispatcher` of `apps/listener/alerts.py`. A submitted alert is skipped as
a repeat, or offered to the lane of every channel: the channel's task pool with
one worker, and its rate limiter. The job of an alert is `_deliver`: attempts
that each wait for a slot of the limiter, post and read the reply, and then the
record of the outcome for the backend.

A step is what a lane's worker or `close` does between two awaits; steps of the
lanes and submissions come in any order. The clock is read where `RateLimiter`
reads it.
-/

namespace BrandSniper.Alerts

open Kit TaskSupervisor

variable {R : Type}

/-! ## Alerts and channels -/

inductive AlertOutcome where
  | sent
  | rateLimited
  | failed
  | dropped
  deriving DecidableEq

/-- `ALERTED_MEMORY_SIZE` -/
def alertedMemorySize : Nat := 10000

/-- `DEFAULT_RETRY_AFTER_SECONDS` -/
def defaultRetryAfterSeconds : ℚ := 5

/-- What an alert is told apart by. -/
structure TradeAlert where
  venue : String
  marketHashName : String
  priceCents : Int
  listingId : Option String
  deriving DecidableEq

def TradeAlert.buy (alert : TradeAlert) (today : Date) : Buy :=
  ⟨alert.venue, alert.marketHashName, alert.priceCents, alert.listingId, today⟩

/-- How a channel reads a reply, which is of type `R`. -/
structure AlertChannel (R : Type) where
  name : String
  accepted : Nat → R → Bool
  retryAfterSeconds : R → Option (WithTop ℚ)

/-- The channels are told apart by name, as the keys of `_pools` and `_limiters` are. -/
structure AlertSetting (R : Type) where
  channels : List (AlertChannel R)
  distinctNames : (channels.map AlertChannel.name).Nodup
  maxPerMinute : Nat
  maxPerMinute_pos : 1 ≤ maxPerMinute
  queueSize : Nat
  queueSize_pos : 1 ≤ queueSize
  maxWaitSeconds : WithTop ℚ
  maxAttempts : Nat

/-! ## A lane -/

/-- Where the job of the lane's worker is. -/
inductive Delivering where
  | idle
  /-- In `acquire`, with the attempts made before. -/
  | acquiring (job attempts : Nat)
  /-- Awaits the reply. -/
  | posting (job attempts : Nat)
  /-- `_send` has returned. -/
  | recording (job : Nat)
  deriving DecidableEq

/-- What a lane did. -/
inductive LaneMark where
  | dropped (alert : TradeAlert)
  | queued (alert : TradeAlert) (job : Nat)
  | posted (job : Nat) (time : ℚ)
  | ended (job : Nat) (outcome : AlertOutcome)
  deriving DecidableEq

/-- The marks, the latest first. -/
structure Lane where
  pool : BoundedTaskPool
  channel : Channel
  delivering : Delivering
  log : List LaneMark

inductive LaneEvent (R : Type) where
  | submit (alert : TradeAlert)
  | take
  | acquire (now : ℚ)
  | wake (now : ℚ)
  | post (now : ℚ)
  | reply (now : ℚ) (status : Nat) (reply : R)
  /-- `TimeoutError` or `ClientError` -/
  | disconnected
  /-- `_record` returns, whatever the backend answered. -/
  | recorded
  /-- Another exception. -/
  | raised
  /-- `close`, and what it awaits. -/
  | closing (e : BoundedTaskPool.Event)
  | cancelled

/-- `pool.try_submit` returns True. -/
def accepts (p : BoundedTaskPool) : Bool :=
  decide (p.state = .running) && decide (p.queue.items.length < p.queue.maxsize)

def isClosing : BoundedTaskPool.Event → Bool
  | .close | .joined | .timeout | .workersDone => true
  | _ => false

namespace Lane

def submit (lane : Lane) (alert : TradeAlert) : Lane :=
  { lane with
    pool := lane.pool.trySubmit
    log := (if accepts lane.pool then .queued alert lane.pool.nextJob else .dropped alert) :: lane.log }

/-- `_send` returns. -/
def ended (lane : Lane) (job : Nat) (outcome : AlertOutcome) : Lane :=
  { lane with delivering := .recording job, log := .ended job outcome :: lane.log }

variable (S : AlertSetting R)

/-- The next attempt of `for _attempt in range(self._max_attempts)`, if there is one. -/
def attempt (lane : Lane) (job attempts : Nat) : Lane :=
  if attempts < S.maxAttempts then { lane with delivering := .acquiring job attempts }
  else lane.ended job .rateLimited

/-- After a look at the limiter: a refused `acquire` ends the job. -/
def looked (lane : Lane) (job : Nat) (channel : Channel) : Lane :=
  match channel.worker with
  | .idle => { lane with channel }.ended job .rateLimited
  | _ => { lane with channel }

/-- The reply of a post. -/
def replied (lane : Lane) (channel : AlertChannel R) (job attempts : Nat) (now : ℚ) (status : Nat)
    (reply : R) : Option Lane :=
  if status = 429 then
    (lane.channel.step (.pause now
      ((channel.retryAfterSeconds reply).getD defaultRetryAfterSeconds))).map fun limiter =>
        { lane with channel := limiter }.attempt S job (attempts + 1)
  else some (lane.ended job (if channel.accepted status reply then .sent else .failed))

def step (channel : AlertChannel R) (lane : Lane) : LaneEvent R → Option Lane
  | .submit alert => some (lane.submit alert)
  | .take => (lane.pool.step (.take 0)).map fun pool =>
      match pool.activeJobs with
      | job :: _ => { lane with pool }.attempt S job 0
      | [] => { lane with pool }
  | .acquire now =>
      match lane.delivering with
      | .acquiring job _ =>
          (lane.channel.step (.acquire now S.maxWaitSeconds)).map (lane.looked job)
      | _ => none
  | .wake now =>
      match lane.delivering with
      | .acquiring job _ => (lane.channel.step (.wake now)).map (lane.looked job)
      | _ => none
  | .post now =>
      match lane.delivering with
      | .acquiring job attempts => (lane.channel.step (.take now)).map fun channel =>
          { lane with
            channel, delivering := .posting job attempts, log := .posted job now :: lane.log }
      | _ => none
  | .reply now status reply =>
      match lane.delivering with
      | .posting job attempts => lane.replied S channel job attempts now status reply
      | _ => none
  | .disconnected =>
      match lane.delivering with
      | .posting job _ => some (lane.ended job .failed)
      | _ => none
  | .recorded =>
      match lane.delivering with
      | .recording _ => (lane.pool.step (.finish 0 false)).map fun pool =>
          { lane with pool, delivering := .idle }
      | _ => none
  | .raised =>
      if lane.channel.worker = .idle then
        (lane.pool.step (.finish 0 true)).map fun pool => { lane with pool, delivering := .idle }
      else none
  | .closing e =>
      if isClosing e then (lane.pool.step e).map fun pool => { lane with pool } else none
  | .cancelled => (lane.pool.step (.cancelled 0)).map fun pool =>
      { lane with pool, channel := { lane.channel with worker := .idle }, delivering := .idle }

/-- The lane of a channel after `__aenter__`. -/
def fresh (now : ℚ) : Lane where
  pool := {
    workerCount := 1
    queue := .empty S.queueSize
    workers := [⟨.idle, false⟩]
    state := .running
    closing := .notCalled
    blocked := []
    nextJob := 0
    entered := []
    outcomes := [] }
  channel := .fresh S.maxPerMinute S.maxPerMinute_pos now
  delivering := .idle
  log := []

end Lane

/-! ## The dispatcher -/

/-- With the alerts that were no repeats, in order. -/
structure AlertDispatcher where
  alerted : OrderedDict String Unit
  lanes : List Lane
  submitted : List (TradeAlert × Date)

inductive AlertEvent (R : Type) where
  | submit (alert : TradeAlert) (today : Date)
  /-- A step of the lane with that index. -/
  | lane (index : Nat) (e : LaneEvent R)

namespace AlertDispatcher

def fresh (S : AlertSetting R) (now : ℚ) : AlertDispatcher :=
  ⟨.empty, S.channels.map fun _ => .fresh S now, []⟩

/-- `_remember` of the alert's keys -/
def remember (alerted : OrderedDict String Unit) (b : Buy) : OrderedDict String Unit :=
  rememberBuy alertedMemorySize alerted b

def submit (s : AlertDispatcher) (alert : TradeAlert) (today : Date) : AlertDispatcher :=
  if s.lanes.isEmpty then s
  else if s.alerted.contains (alert.buy today).keys.1 then s
  else
    { alerted := remember s.alerted (alert.buy today)
      lanes := s.lanes.map (·.submit alert)
      submitted := s.submitted ++ [(alert, today)] }

/-- `close` of the dispatcher closes one pool after the other. -/
def mayStep (s : AlertDispatcher) (index : Nat) : LaneEvent R → Bool
  | .submit _ => false
  | .closing .close => (s.lanes.take index).all fun lane => lane.pool.state = .closed
  | _ => true

def step (S : AlertSetting R) (s : AlertDispatcher) : AlertEvent R → Option AlertDispatcher
  | .submit alert today => some (s.submit alert today)
  | .lane index e =>
      match S.channels[index]?, s.lanes[index]? with
      | some channel, some lane =>
          if s.mayStep index e then
            (lane.step S channel e).map fun lane => { s with lanes := s.lanes.set index lane }
          else none
      | _, _ => none

end AlertDispatcher

/-! ## What is promised -/

namespace LaneMark

/-- The job that was posted or has ended. -/
def job? : LaneMark → Option Nat
  | posted job _ => some job
  | ended job _ => some job
  | _ => none

def postedAt : LaneMark → Option ℚ
  | posted _ time => some time
  | _ => none

def isPost (job : Nat) : LaneMark → Bool
  | posted other _ => other = job
  | _ => false

def offered : LaneMark → Option TradeAlert
  | dropped alert => some alert
  | queued alert _ => some alert
  | _ => none

def entered : LaneMark → Option Nat
  | queued _ job => some job
  | _ => none

end LaneMark

/-- Jobs are posted one after the other, in the order they came. -/
def InOrder (later earlier : LaneMark) : Prop :=
  ∀ job job', earlier.job? = some job → later.job? = some job' → job ≤ job'

/-- A job that has ended is neither posted nor ends once more. -/
def EndsLast (later earlier : LaneMark) : Prop :=
  ∀ job outcome, earlier = .ended job outcome → later.job? ≠ some job

/-- The keys an alert leaves alerted. -/
def alertedKeys (submitted : List (TradeAlert × Date)) : List String :=
  submitted.flatMap fun alert => (alert.1.buy alert.2).keyTexts

end BrandSniper.Alerts
