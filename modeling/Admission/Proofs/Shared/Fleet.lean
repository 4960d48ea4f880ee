import Admission.Deployment.Checking
import Admission.Proofs.Number.Exact
import Admission.Proofs.Shared.Table

/-!
Many stores on one Redis.

Whichever store sends a run of the script, Redis runs one after the other, each at an instant of its
own clock. A run is therefore all that stores have to do with each other: stores that share their
buckets have the same limit, the same time to live and the same lead of the names of their keys, and
may differ in everything else. Where they write numbers exactly, a run is a call on the bucket that
the key holds at that instant.
-/
namespace Admission

section Texts

variable {α : Type} [Textual α]

@[simp] theorem textOrMissing?_some (v : Value α) : textOrMissing? (some v) = v.text? := rfl

@[simp] theorem Value.text?_text (s : String) : (text s : Value α).text? = some s := by
  rw [Value.text?]

@[simp] theorem Value.text?_number (x : α) : (number x).text? = some (Textual.text x) := by
  rw [Value.text?]

end Texts

/-- The reply of the script that says whether a call passes. -/
def Reply.verdict {α : Type} [Scalar α] (allowed : Bool) : Reply α :=
  .value (.number (if allowed then 1 else 0))

/-- The reply lets the call pass. -/
def Reply.admits {α : Type} [Scalar α] [Textual α] : Reply α → Bool
  | .settles _ outcome _ => (Fault.verdictOf outcome).toOption.getD false
  | _ => false

@[simp] theorem Reply.admits_verdict [Textual ℚ] (allowed : Bool) :
    (Reply.verdict allowed : Reply ℚ).admits = allowed := by
  cases allowed <;> rfl

namespace Shared

/-- One call on a store in Redis: the time that the store gives it, and what the clock of Redis
shows when the script runs. -/
structure Ask (α : Type) where
  store : RedisOptions α
  key : String
  now : α
  clock : α

namespace Ask

variable {α : Type}

/-- The check that the call makes. -/
def check (a : Ask α) : Check α :=
  ⟨.store, some (.text a.key), .text a.key, some (.number a.now), none⟩

end Ask

section Run

variable {α : Type} [Scalar α] [Textual α]

/-- The reply to a call, unless nothing can be sent, and the deployment afterwards. -/
def serve (s : Deployment α) (a : Ask α) : Option (Reply α) × Deployment α :=
  match a.store.evaluation? a.check with
  | none => (none, s)
  | some evaluation =>
    let (reply, s) := { s with clock := a.clock }.evalHere evaluation
    (some reply, s)

/-- The deployment after some calls. -/
def served (s : Deployment α) (asks : List (Ask α)) : Deployment α :=
  asks.foldl (fun s a => (serve s a).2) s

/-- The replies to calls, in the order in which the script runs. -/
def replies (s : Deployment α) : List (Ask α) → List (Option (Reply α))
  | [] => []
  | a :: asks => (serve s a).1 :: replies (serve s a).2 asks

/-- The Redis in this process answers every run at once, with a verdict or a failure. -/
theorem evalHere_settles (s : Deployment α) (evaluation : Evaluation α) :
    ∃ outcome s', s.evalHere evaluation = (.settles none outcome none, s') := by
  unfold Deployment.evalHere
  cases evaluation.command? with
  | none => exact ⟨_, _, rfl⟩
  | some c =>
    cases hrun : run .textual s.clock c s.keyspace with
    | mk answer keyspace =>
      cases answer with
      | error e => exact ⟨_, _, by simp only [hrun]; rfl⟩
      | ok allowed => exact ⟨_, _, by simp only [hrun]; rfl⟩

/-- A check whose store talks to the Redis in this process is served when it is its turn: the reply
is on its way, or the check has failed because nothing could be sent. -/
theorem evaluate_eq_serve (s : Deployment α) {t : TaskId} {i : StoreId} {c : Check α}
    {progress : Progress α} {store : RedisStore α} {status : LinkStatus} {a : Ask α}
    (htask : s.tasks[t]? = some ⟨i, .check c, progress⟩)
    (hstore : s.stores[i]? = some (.redis store))
    (hclient : s.clients[store.client]? = some ⟨.server, status⟩)
    (ha : a.store = store.options) (hclock : a.clock = s.clock) (hkey : c.key = some (.text a.key))
    (hnow : c.now = some (.number a.now)) :
    s.evaluate t =
      match serve s a with
      | (none, _) => s.post 0 (.answer t (.error .wordless))
      | (some reply, s') => s'.arrange reply 2 1 (.answer t) := by
  have hcheck : a.store.evaluation? a.check = store.options.evaluation? c := by
    simp only [RedisOptions.evaluation?, ha, hkey, hnow, Ask.check]
  have hsame : { s with clock := a.clock } = s := by rw [hclock]
  unfold Deployment.evaluate serve
  simp only [htask, hstore, hcheck, hsame]
  cases store.options.evaluation? c with
  | none => rfl
  | some evaluation =>
    obtain ⟨outcome, s', hsettles⟩ := evalHere_settles s evaluation
    simp only [Deployment.callClient, hclient, hsettles]

end Run

end Shared

/-- The store limits calls in this way, with buckets that live for so many seconds in keys whose
names begin with `lead`. -/
structure RedisOptions.Shares [Textual ℚ] (o : RedisOptions ℚ) (limit : Limit ℚ)
    (ttlSeconds : ℚ) (lead : String) : Prop where
  rate : o.rate = some (.number limit.rate)
  capacity : o.capacity = some (.number limit.capacity)
  ttlSeconds : o.ttlSeconds = some (.number ttlSeconds)
  lead : textOrMissing? o.keyLead = some lead

namespace Shared

variable [Textual ℚ]

theorem serve_of_unsent {s : Deployment ℚ} {a : Ask ℚ} (h : textOrMissing? a.store.keyLead = none) :
    serve s a = (none, s) := by
  simp [serve, RedisOptions.evaluation?, h]

/-- A call is answered as the bucket that its key holds, or as a full one, and leaves there what it
leaves, rounded as it is written, to live from that instant on. No other key changes. -/
theorem serve_spec_rounded (htext : ∀ x : ℚ, Textual.readStored (Textual.text x) = some x)
    {round : ℚ → ℚ} (hstored : ∀ x : ℚ, Textual.readStored (Textual.stored x) = some (round x))
    {limit : Limit ℚ} {ttlSeconds : ℚ} {lead : String} {a : Ask ℚ}
    (hstore : a.store.Shares limit ttlSeconds lead) (s : Deployment ℚ) :
    let found := bucketAt .textual s.keyspace a.clock (lead ++ a.key)
    let answer := Bucket.takeRounded limit round found a.now
    (serve s a).1 = some (.verdict answer.1) ∧
    Holds .textual (serve s a).2.keyspace (lead ++ a.key) answer.2
      (a.clock + ttlSeconds * 1000) ∧
    ∀ other, other ≠ a.key →
      (serve s a).2.keyspace.lookup (lead ++ other) = s.keyspace.lookup (lead ++ other) := by
  intro found answer
  let c : Command String := ⟨lead ++ a.key, Textual.text limit.rate, Textual.text limit.capacity,
    Textual.text a.now, Textual.text ttlSeconds⟩
  have hreads : c.Reads .textual limit a.now ttlSeconds :=
    ⟨htext _, htext _, htext _, htext _⟩
  have hevaluation : a.store.evaluation? a.check =
      some ⟨lead ++ a.key, a.store.rate, a.store.capacity, some (.number a.now),
        a.store.ttlSeconds⟩ := by
    simp [RedisOptions.evaluation?, hstore.lead, Ask.check]
  have hcommand : Evaluation.command? ⟨lead ++ a.key, a.store.rate, a.store.capacity,
      some (.number a.now), a.store.ttlSeconds⟩ = some c := by
    simp [Evaluation.command?, hstore.rate, hstore.capacity, hstore.ttlSeconds, c]
  obtain ⟨hanswer, hholds, hother⟩ :=
    run_spec .textual hstored hreads a.clock s.keyspace
  have hserve : serve s a = (some (.verdict answer.1),
      { s with clock := a.clock, keyspace := (run .textual a.clock c s.keyspace).2 }) := by
    simp only [serve, hevaluation, Deployment.evalHere, hcommand, hanswer]
    rfl
  rw [hserve]
  refine ⟨rfl, hholds, fun other hne => hother (lead ++ other) fun he => hne ?_⟩
  exact (String.append_right_inj lead).mp he

/-- Where writing changes no number, a call leaves there just what it leaves. -/
theorem serve_spec (hexact : Textual.IsExact ℚ) {limit : Limit ℚ} {ttlSeconds : ℚ} {lead : String}
    {a : Ask ℚ} (hstore : a.store.Shares limit ttlSeconds lead) (s : Deployment ℚ) :
    let b := (bucketAt .textual s.keyspace a.clock (lead ++ a.key)).getD (.full limit a.now)
    (serve s a).1 = some (.verdict (b.take limit a.now).1) ∧
    Holds .textual (serve s a).2.keyspace (lead ++ a.key) (b.take limit a.now).2
      (a.clock + ttlSeconds * 1000) ∧
    ∀ other, other ≠ a.key →
      (serve s a).2.keyspace.lookup (lead ++ other) = s.keyspace.lookup (lead ++ other) :=
  serve_spec_rounded hexact.readStored_text hexact.readStored_stored hstore s

end Shared

end Admission
