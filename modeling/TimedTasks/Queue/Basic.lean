import TimedTasks.Queue.Parking
import TimedTasks.Scheduler.Error
import TimedTasks.Time.Moment

/-!
# The queue of due tasks

A `Queue` keeps its entries in the order of their keys: the due time first, the
order of insertion second.  An index finds the key of a task, so that a cancelled
task can be pulled out.

Two kinds of callers may have to wait: those that take due entries (`takers`) and
those that bring new ones into a bounded queue that is full (`producers`).  Each
operation below is what happens while the queue is held by one caller, with the
waking of others that goes with it.

* A new entry wakes a taker only if it is the earliest of all.
* An entry that leaves through `take` or `remove` wakes one producer.
* `close` and `wake` wake all takers; `close` wakes all producers as well.

A queue accepts, then may drain, then is closed.  While it drains nobody new is let
in, but the producers that were waiting already are admitted as room appears, and
`take` goes on until nothing is left and no producer waits.
-/

namespace TimedTasks

/-- Tasks are numbered. -/
abbrev TaskId := Nat

/-- The place of an entry: by due time, then by the order of insertion. -/
structure Key where
  due : Moment
  seq : Nat
  deriving DecidableEq, Repr, Inhabited

/-- Keys are ordered by due time, then by the order of insertion. -/
instance : LT Key :=
  ⟨fun first second => first.due < second.due ∨ (first.due = second.due ∧ first.seq < second.seq)⟩
instance (first second : Key) : Decidable (first < second) :=
  inferInstanceAs (Decidable (_ ∨ _))

/-- A task that waits for its due time. -/
structure Entry where
  key : Key
  task : TaskId
  periodic : Bool
  deriving DecidableEq, Repr, Inhabited

/-- Whom a queue still lets in. -/
inductive Admission where
  | accepting
  /-- Nobody new; what is queued and due still leaves. -/
  | draining
  /-- Nobody at all, and nothing leaves any more. -/
  | closed
  deriving DecidableEq, Repr, Inhabited

def Admission.rank : Admission → Nat
  | accepting => 0
  | draining => 1
  | closed => 2

/-- A caller that waits for a due entry. -/
structure Taker where
  caller : Nat
  /-- The due time for which its timer is set, if it sleeps with a timer. -/
  timer? : Option Moment
  deriving DecidableEq, Repr, Inhabited

/-- A caller that waits for room. -/
structure Producer where
  caller : Nat
  task : TaskId
  periodic : Bool
  deriving DecidableEq, Repr, Inhabited

/-- Tasks in the order in which they come due. -/
structure Queue where
  /-- The most entries that `insert` and `tryInsert` may bring it to. -/
  capacity? : Option Nat
  /-- In the order of their keys. -/
  entries : List Entry := []
  index : List (TaskId × Key) := []
  /-- The place of the next entry in the order of insertion. -/
  nextSeq : Nat := 0
  admission : Admission := .accepting
  blockedProducers : Nat := 0
  takers : Parking Taker := {}
  producers : Parking Producer := {}
  deriving DecidableEq, Repr, Inhabited

/-! ### Entries and the index -/

/-- Put an entry in its place among entries in the order of their keys. -/
def insertEntry (entry : Entry) : List Entry → List Entry
  | [] => [entry]
  | first :: rest =>
    if entry.key < first.key then entry :: first :: rest
    else first :: insertEntry entry rest

/-- The index without a task. -/
def dropIndex (index : List (TaskId × Key)) (task : TaskId) : List (TaskId × Key) :=
  index.filter fun pair => pair.1 != task

/-- What became of a caller that brought an entry. -/
inductive Admitted where
  | accepted
  | refused (error : SchedulerError)
  /-- It fell asleep. -/
  | parked
  deriving DecidableEq, Repr

/-- What became of a caller that came for a due entry. -/
inductive Taken where
  | task (task : TaskId)
  /-- Nothing will ever come again. -/
  | finished
  /-- It fell asleep. -/
  | parked
  deriving DecidableEq, Repr

namespace Queue

/-- An empty queue; a capacity of zero stands for no bound. -/
def new (capacity : Nat) : Queue :=
  { capacity? := if capacity = 0 then none else some capacity }

def isFull (queue : Queue) : Bool :=
  match queue.capacity? with
  | none => false
  | some capacity => capacity ≤ queue.entries.length

/-- Whether a key comes before every key in the queue. -/
def isEarliest (queue : Queue) (key : Key) : Bool :=
  match queue.entries.head? with
  | none => true
  | some first => key < first.key

/-- Add an entry, and wake a taker if it is the earliest of all. -/
def push (queue : Queue) (task : TaskId) (periodic : Bool) (due : Moment) : Queue :=
  let key : Key := ⟨due, queue.nextSeq⟩
  { queue with
    entries := insertEntry ⟨key, task, periodic⟩ queue.entries
    index := (task, key) :: dropIndex queue.index task
    nextSeq := queue.nextSeq + 1
    takers := if queue.isEarliest key then queue.takers.wakeOne else queue.takers }

/-! ### Bringing entries -/

/-- A producer comes with a new entry.  It falls asleep if the queue is full. -/
def insert (queue : Queue) (producer : Producer) (due : Moment) : Queue × Admitted :=
  if queue.admission ≠ .accepting then (queue, .refused .closed)
  else if queue.isFull then
    ({ queue with
        blockedProducers := queue.blockedProducers + 1
        producers := queue.producers.park producer }, .parked)
  else (queue.push producer.task producer.periodic due, .accepted)

/-- A producer that was woken looks again.  It falls asleep once more if the queue is
still full, unless it was closed in the meantime; then a taker that waited for the
last producer has to learn that it has gone. -/
def resume (queue : Queue) (producer : Producer) (due : Moment) : Queue × Admitted :=
  let queue :=
    { queue with producers := queue.producers.rise fun other => other.caller == producer.caller }
  if queue.isFull ∧ queue.admission ≠ .closed then
    ({ queue with producers := queue.producers.park producer }, .parked)
  else
    let queue := { queue with blockedProducers := queue.blockedProducers - 1 }
    if queue.admission = .closed then
      ({ queue with takers := queue.takers.wakeOne }, .refused .closed)
    else (queue.push producer.task producer.periodic due, .accepted)

/-- Bring a new entry without waiting for room. -/
def tryInsert (queue : Queue) (task : TaskId) (periodic : Bool) (due : Moment) :
    Except SchedulerError Queue :=
  if queue.admission ≠ .accepting then .error .closed
  else
    match queue.capacity? with
    | some capacity =>
      if capacity ≤ queue.entries.length then .error (.rejected capacity)
      else .ok (queue.push task periodic due)
    | none => .ok (queue.push task periodic due)

/-- Bring a periodic task back for its next run, whether or not there is room.  This
is refused for a cancelled task, and by a queue that no longer accepts. -/
def requeue (queue : Queue) (task : TaskId) (periodic cancelled : Bool) (due : Moment) :
    Option Queue :=
  if queue.admission ≠ .accepting ∨ cancelled then none
  else some (queue.push task periodic due)

/-! ### Taking entries -/

/-- Whether a taker that looks has to know the time: the queue is not closed, and there is an
entry that might be due. -/
def asksTime (queue : Queue) : Bool := queue.admission != .closed && !queue.entries.isEmpty

/-- A taker looks for an entry that is due at `now`. -/
def take (queue : Queue) (caller : Nat) (now : Moment) : Queue × Taken :=
  let queue := { queue with takers := queue.takers.rise fun other => other.caller == caller }
  if queue.admission = .closed then (queue, .finished)
  else
    match queue.entries with
    | [] =>
      if queue.admission = .draining ∧ queue.blockedProducers = 0 then (queue, .finished)
      else ({ queue with takers := queue.takers.park ⟨caller, none⟩ }, .parked)
    | first :: rest =>
      if first.key.due ≤ now then
        ({ queue with
            entries := rest
            index := dropIndex queue.index first.task
            producers := queue.producers.wakeOne }, .task first.task)
      else ({ queue with takers := queue.takers.park ⟨caller, some first.key.due⟩ }, .parked)

/-- Pull a task out; `none` if it is not queued.  No taker is woken. -/
def remove (queue : Queue) (task : TaskId) : Option Queue :=
  match queue.index.lookup task with
  | none => none
  | some key =>
    some { queue with
      entries := queue.entries.filter fun entry => entry.key != key
      index := dropIndex queue.index task
      producers := queue.producers.wakeOne }

/-- Stop letting anyone in, and hand back the entries that will never leave through
`take`: the periodic ones of a queue that is to drain, all of them otherwise. -/
def close (queue : Queue) (drain : Bool) : Queue × List Entry :=
  let removed := if drain then queue.entries.filter (·.periodic) else queue.entries
  let queue :=
    { queue with
      entries := if drain then queue.entries.filter (fun entry => !entry.periodic) else []
      index := removed.foldl (fun index entry => dropIndex index entry.task) queue.index
      admission :=
        if queue.admission = .closed then .closed else if drain then .draining else .closed
      takers := queue.takers.wakeAll
      producers := queue.producers.wakeAll }
  (queue, removed)

/-- Have every taker look again. -/
def wake (queue : Queue) : Queue := { queue with takers := queue.takers.wakeAll }

/-- The time for which one sleeping taker has set its timer has come, as far as it can
tell: it looks again. -/
def expire (queue : Queue) (caller : Nat) : Queue :=
  let isTimed (taker : Taker) : Bool := taker.caller == caller && taker.timer?.isSome
  { queue with
    takers :=
      { asleep := queue.takers.asleep.filter fun taker => !isTimed taker
        woken := queue.takers.woken ++ queue.takers.asleep.filter isTimed } }

/-- Whether a taker sleeps. -/
def isAsleep (queue : Queue) (caller : Nat) : Bool :=
  queue.takers.asleep.any fun taker => taker.caller == caller

def size (queue : Queue) : Nat := queue.entries.length

end Queue

end TimedTasks
