import Rollout.Report.Basic

/-!
# The outbox

Reports wait in an `Outbox` until all consumers of their channel have accepted them.  The reports of
one channel are delivered in the order in which they were queued: `Outbox.publish` shows the oldest
one to the consumers in turn and stops at the first refusal, so that no report overtakes another.
A consumer may queue further reports while it is shown one.

Specification: B.7.
-/

namespace Rollout

/-- A consumer of the reports of a channel; `κ` identifies what it does. -/
structure Subscriber (κ : Type) where
  channel : Channel
  name : String
  consumer : κ
  deriving DecidableEq, Repr

structure Outbox (κ : Type) where
  /-- The reports of all channels, the oldest first. -/
  waiting : List Report
  /-- The consumers of all channels, in the order of their registration. -/
  subscribers : List (Subscriber κ)
  deriving DecidableEq, Repr

namespace Outbox

variable {κ : Type}

def empty : Outbox κ := ⟨[], []⟩

/-! ### Queues -/

def queue (channel : Channel) (outbox : Outbox κ) : List Report :=
  outbox.waiting.filter fun r => r.channel = channel

def enqueue (report : Report) (outbox : Outbox κ) : Outbox κ :=
  { outbox with waiting := outbox.waiting ++ [report] }

def enqueueAll (reports : List Report) (outbox : Outbox κ) : Outbox κ :=
  { outbox with waiting := outbox.waiting ++ reports }

def pop (channel : Channel) (outbox : Outbox κ) : Outbox κ :=
  { outbox with waiting := outbox.waiting.eraseP fun r => r.channel = channel }

def pending (outbox : Outbox κ) : Nat := outbox.waiting.length

/-! ### Consumers -/

/-- The consumers of a channel, in the order of their registration. -/
def consumers (channel : Channel) (outbox : Outbox κ) : List κ :=
  (outbox.subscribers.filter fun s => s.channel = channel).map Subscriber.consumer

def isTaken (channel : Channel) (name : String) (outbox : Outbox κ) : Bool :=
  outbox.subscribers.any fun s => s.channel = channel && s.name = name

/-- Registers a consumer unless its name is taken; says whether it did. -/
def register (channel : Channel) (name : String) (consumer : κ) (outbox : Outbox κ) :
    Bool × Outbox κ :=
  if outbox.isTaken channel name then (false, outbox)
  else (true, { outbox with subscribers := outbox.subscribers ++ [⟨channel, name, consumer⟩] })

/-! ### Delivery -/

variable {m : Type → Type} [Monad m]

/-- Shows a report to consumers one after another until one refuses it; says whether all of them
accepted.  What a consumer queues goes to the end. -/
def showTo (consume : κ → Report → m (Bool × List Report)) (report : Report) :
    List κ → Outbox κ → m (Bool × Outbox κ)
  | [], outbox => pure (true, outbox)
  | consumer :: rest, outbox => do
    let (accepted, added) ← consume consumer report
    if accepted then showTo consume report rest (outbox.enqueueAll added)
    else return (false, outbox.enqueueAll added)

/-- Delivers the reports of a channel to given consumers, at most a number of them; says how many
were delivered. -/
def deliver (consume : κ → Report → m (Bool × List Report)) (channel : Channel)
    (consumers : List κ) : Nat → Outbox κ → m (Nat × Outbox κ)
  | 0, outbox => pure (0, outbox)
  | limit + 1, outbox =>
    match (outbox.queue channel).head? with
    | none => pure (0, outbox)
    | some report => do
      let (accepted, outbox) ← showTo consume report consumers outbox
      if accepted then
        let (count, outbox) ← deliver consume channel consumers limit (outbox.pop channel)
        return (count + 1, outbox)
      else return (0, outbox)

/-- Delivers the reports of a channel to the consumers that it has now. -/
def publish (consume : κ → Report → m (Bool × List Report)) (limit : Nat) (channel : Channel)
    (outbox : Outbox κ) : m (Nat × Outbox κ) :=
  deliver consume channel (outbox.consumers channel) limit outbox

/-- Queues a report and delivers the reports of its channel. -/
def report (consume : κ → Report → m (Bool × List Report)) (limit : Nat) (report : Report)
    (outbox : Outbox κ) : m (Nat × Outbox κ) :=
  publish consume limit report.channel (outbox.enqueue report)

/-- Delivers the reports of several channels, one channel after another. -/
def publishAll (consume : κ → Report → m (Bool × List Report)) (limit : Nat) :
    List Channel → Outbox κ → m (Nat × Outbox κ)
  | [], outbox => pure (0, outbox)
  | channel :: rest, outbox => do
    let (first, outbox) ← publish consume limit channel outbox
    let (others, outbox) ← publishAll consume limit rest outbox
    return (first + others, outbox)

/-! ### Laws of the queues -/

@[simp] theorem queue_enqueue (report : Report) (channel : Channel) (outbox : Outbox κ) :
    (outbox.enqueue report).queue channel =
      outbox.queue channel ++ if report.channel = channel then [report] else [] := by
  simp [queue, enqueue, List.filter_append, List.filter_cons]

@[simp] theorem queue_enqueueAll (reports : List Report) (channel : Channel) (outbox : Outbox κ) :
    (outbox.enqueueAll reports).queue channel =
      outbox.queue channel ++ reports.filter fun r => r.channel = channel := by
  simp [queue, enqueueAll, List.filter_append]

@[simp] theorem queue_register (channel : Channel) (name : String) (consumer : κ) (other : Channel)
    (outbox : Outbox κ) :
    (outbox.register channel name consumer).2.queue other = outbox.queue other := by
  unfold register
  split <;> rfl

theorem filter_eraseP (test : Report → Bool) (reports : List Report) :
    (reports.eraseP test).filter test = (reports.filter test).tail := by
  induction reports with
  | nil => rfl
  | cons report rest ih =>
    cases h : test report
    · simp [h, ih]
    · simp [h]

@[simp] theorem queue_pop (channel : Channel) (outbox : Outbox κ) :
    (outbox.pop channel).queue channel = (outbox.queue channel).tail :=
  filter_eraseP _ _

theorem filter_eraseP_of_disjoint {test other : Report → Bool}
    (h : ∀ r, test r = true → other r = false) (reports : List Report) :
    (reports.eraseP test).filter other = reports.filter other := by
  induction reports with
  | nil => rfl
  | cons report rest ih =>
    cases htest : test report
    · simp [htest, List.filter_cons, ih]
    · simp [htest, h report htest]

theorem queue_pop_of_ne {channel other : Channel} (h : channel ≠ other) (outbox : Outbox κ) :
    (outbox.pop channel).queue other = outbox.queue other := by
  refine filter_eraseP_of_disjoint (fun r hr => ?_) outbox.waiting
  have hchannel : r.channel = channel := of_decide_eq_true hr
  rw [hchannel]
  exact decide_eq_false h

end Outbox
end Rollout
