import Admission.Deployment.Basic

/-!
Waiting under a deadline.

A task that waits has one timer, and one listener if it was handed a signal. The wait ends with the
first of its events: an answer, the deadline, or the signal. Timer and listener are released there,
and everything that comes later finds the task no longer waiting and changes nothing. An event that
cannot be put into words ends the wait too, but nobody hears of it. A deadline that cannot be read
ends the wait before it begins.
-/
namespace Admission

def Timer.isDeadlineOf {α : Type} (timer : Timer α) (t : TaskId) : Bool :=
  match timer.alarm with
  | .deadline owner _ => owner == t
  | _ => false

namespace Deployment

variable {α : Type}

def leaveWait (s : Deployment α) (t : TaskId) (stage : Stage) (outcome : Outcome α) :
    Deployment α :=
  (s.setProgress t (.leaving stage outcome)).post 0 (.resume t)

def startWait [Scalar α] [Textual α] (s : Deployment α) (t : TaskId) (stage : Stage)
    (milliseconds : Option (Value α)) (signal : Option SignalId) : Deployment α :=
  match textOrMissing? milliseconds with
  | none => s.leaveWait t stage (.error .wordless)
  | some text =>
    let s := (s.setProgress t (.waiting stage)).setTimer (numeral milliseconds) (.deadline t text)
    match signal with
    | none => s
    | some signal => { s with listeners := s.listeners ++ [(signal, t)] }

def release (s : Deployment α) (t : TaskId) : Deployment α :=
  { s with
    timers := s.timers.filter fun timer => !timer.isDeadlineOf t
    listeners := s.listeners.filter fun l => l.2 != t }

/-- Ends the wait of a task that is still waiting. Without an outcome the task never goes on. -/
def endWait (s : Deployment α) (t : TaskId) (outcome? : Option (Outcome α)) : Deployment α :=
  match s.tasks[t]?.map Task.progress, outcome? with
  | some (.waiting stage), some outcome => (s.leaveWait t stage outcome).release t
  | some (.waiting _), none => (s.setProgress t .lost).release t
  | _, _ => s

/-- An answer from outside. A failure that is no store fault means that nobody was reached. -/
def answer [Textual α] (s : Deployment α) (t : TaskId) : Outcome α → Deployment α
  | .ok answer => s.endWait t (some (.ok answer))
  | .error fault => s.endWait t (fault.asStoreFault?.map .error)

def expire (s : Deployment α) (t : TaskId) (milliseconds : String) : Deployment α :=
  s.endWait t (some (.error (.timedOut milliseconds)))

/-- Aborts a signal. It ends every wait that listens to it; a second time it does nothing. -/
def abort (s : Deployment α) (signal : SignalId) : Deployment α :=
  if s.abortedSignals.contains signal then s
  else
    let waiting := (s.listeners.filter fun l => l.1 == signal).map Prod.snd
    waiting.foldl (fun s t => s.endWait t (some (.error .aborted)))
      { s with abortedSignals := signal :: s.abortedSignals }

def detach (s : Deployment α) (t : TaskId) : Deployment α :=
  { s with attached := s.attached.filter (· != t) }

def hangUp (s : Deployment α) (t : TaskId) : Deployment α :=
  if s.attached.contains t then (s.detach t).abort (.request t) else s

end Deployment

end Admission
