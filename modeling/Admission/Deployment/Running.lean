import Admission.Deployment.Lifecycle

/-!
How a deployment goes on.

Work that is ready takes its turns until none is left: every round goes once through the agenda, in
order, and what it posts waits for the next round. Only then does the clock move, to the next timer
that falls due, which fires before anything else happens.
-/
namespace Admission.Deployment

variable {α : Type} [Scalar α] [Textual α]

def resume (s : Deployment α) (t : TaskId) : Deployment α :=
  match s.tasks[t]? with
  | some ⟨i, _, .leaving stage outcome⟩ =>
    match stage, s.stores[i]? with
    | .verdict, _ => s.post 0 (.conclude t (Fault.verdictOf outcome))
    | .link, some (.redis store) => s.bootLinked t store outcome
    | .ping, some (.redis store) => s.bootAnswered t store outcome
    | _, _ => s
  | _ => s

def run (s : Deployment α) : Job α → Deployment α
  | .evaluate t => s.evaluate t
  | .answer t outcome => s.answer t outcome
  | .resume t => s.resume t
  | .conclude t verdict => s.conclude t verdict
  | .linkSettled i outcome status => s.linkSettled i outcome status
  | .started t outcome => s.started t outcome
  | .closed t outcome => s.closed t outcome

/-- One entry of the agenda: work that still lets turns pass waits for the next round. -/
def turn (s : Deployment α) : Nat × Job α → Deployment α
  | (0, job) => s.run job
  | (turns + 1, job) => s.post turns job

def round (s : Deployment α) : Deployment α := s.agenda.foldl turn { s with agenda := [] }

/-- No chain of work that becomes ready without the clock moving takes more rounds than this. The
longest leads from a connection through a check: the connection settles, the script is sent, its
answer ends the wait, and the check concludes. -/
def longestChain : Nat := 16

def rounds : Nat → Deployment α → Deployment α
  | 0, s => s
  | n + 1, s => if s.agenda.isEmpty then s else rounds n s.round

def drain (s : Deployment α) : Deployment α := s.rounds longestChain

/-- A timer fires. A regular sweep sets its timer anew. -/
def fire (s : Deployment α) : Alarm α → Deployment α
  | .deadline t milliseconds => s.expire t milliseconds
  | .reply turns job => s.post turns job
  | .sweep l name period =>
    (s.sweep l (some (.number s.clock))).2.setTimer period (.sweep l name period)

/-- The timer that falls due first, of several the one created first, and the timers without it. -/
def earliest : List (Timer α) → Option (Timer α × List (Timer α))
  | [] => none
  | timer :: timers =>
    match earliest timers with
    | none => some (timer, timers)
    | some (best, rest) =>
      if best.due < timer.due then some (best, timer :: rest) else some (timer, timers)

def nextDue (s : Deployment α) (target : α) : Option (Timer α × List (Timer α)) :=
  (earliest s.timers).filter fun (timer, _) => decide (timer.due ≤ target)

/-- At least as many timers as can fire until `target`. A task that goes on sets two more at most,
or a regular sweep, and a regular sweep fires once in every period. -/
def firings (s : Deployment α) (target : α) : Nat :=
  let periods (limiter : Limiter α) : Nat :=
    let period := s.clockwork.delay limiter.config.sweepInterval
    Scalar.wholeSteps ((target - s.clock) / period) + 1
  let regular := s.limiters.foldl (fun n limiter => n + periods limiter) 0
  (s.timers.length + s.tasks.length) * (regular + 3)

def fireUntil (target : α) : Nat → Deployment α → Deployment α
  | 0, s => s
  | n + 1, s =>
    match s.nextDue target with
    | none => s
    | some (timer, timers) =>
      let clock := if s.clock < timer.due then timer.due else s.clock
      fireUntil target n ({ s with timers, clock }.fire timer.alarm).drain

def advance (s : Deployment α) (milliseconds : α) : Deployment α :=
  let target := s.clock + milliseconds
  { s.fireUntil target (s.firings target) with clock := target }

end Admission.Deployment
