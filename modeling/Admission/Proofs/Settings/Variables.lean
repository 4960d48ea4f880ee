import Admission.Settings.Environment
import Admission.Proofs.Number.RoundTrip

/-!
Settings that travel through environment variables.

`Description` holds what an application can say about a limiter in variables, and `Describes` is how
it says so: numbers the way they are written, a flag in any mix of letter case, texts as they are,
and what is left out by no variable or an empty one. Whoever reads the variables gets the described
settings back, and nothing else is a description: rate and capacity must be there, and a key needs a
name that chooses a rule.
-/
namespace Admission

/-! Names of key rules -/

/-- A rule that a setting can choose. -/
inductive KeyName where
  | global
  | address
  | path
  | addressAndPath
  | client
  | clientAndPath
  | header (name : String) (given : name ≠ "")

namespace KeyName

variable {α : Type}

/-- The name by which a setting chooses the rule. -/
def text : KeyName → String
  | global => "global"
  | address => "ip"
  | path => "path"
  | addressAndPath => "ip-path"
  | client => "client-id"
  | clientAndPath => "client-id-path"
  | header name _ => "header:" ++ name

def rule : KeyName → KeyRule α
  | global => .global
  | address => .address
  | path => .path
  | addressAndPath => .addressAndPath
  | client => .client
  | clientAndPath => .clientAndPath
  | header name _ => .header name

theorem text_ne_empty (k : KeyName) : k.text ≠ "" := by
  cases k with
  | header name given => simp [text]
  | _ => decide +kernel

end KeyName

theorem afterStart_append (start rest : List Char) :
    afterStart start (start ++ rest) = some rest := by
  simp [afterStart]

theorem eq_append_of_afterStart {start cs rest : List Char} (h : afterStart start cs = some rest) :
    cs = start ++ rest := by
  unfold afterStart at h
  split at h
  · next hstart =>
    obtain ⟨rest', rfl⟩ := List.isPrefixOf_iff_prefix.mp hstart
    obtain rfl : rest' = rest := by simpa using h
    rfl
  · cases h

/-- A name chooses the rule that it stands for. -/
theorem KeyRule.named_text {α : Type} (k : KeyName) : named (α := α) k.text = .ok k.rule := by
  cases k with
  | header name given =>
    obtain ⟨c, cs, hname⟩ :=
      List.exists_cons_of_ne_nil fun h => given (String.toList_eq_nil_iff.mp h)
    have hafter : afterStart "header:".toList (KeyName.header name given).text.toList =
        some (c :: cs) := by
      rw [KeyName.text, String.toList_append, afterStart_append, hname]
    unfold named
    rw [hafter]
    dsimp only
    rw [← hname, String.ofList_toList]
    rfl
  | _ => rfl

/-- No other name chooses a rule. -/
theorem KeyRule.exists_text_of_named {α : Type} {name : String} {rule : KeyRule α}
    (h : named name = .ok rule) : ∃ k : KeyName, k.text = name := by
  unfold named at h
  split at h
  · cases h
  · next rest hrest hafter =>
    have hname := eq_append_of_afterStart hafter
    refine ⟨.header (String.ofList rest) fun hempty => hrest ?_, ?_⟩
    · rw [← String.toList_ofList (l := rest), hempty]
      rfl
    · rw [KeyName.text, ← String.toList_inj, String.toList_append, hname,
        String.toList_ofList (l := rest)]
  · split at h
    · exact ⟨.global, rfl⟩
    · exact ⟨.address, rfl⟩
    · exact ⟨.path, rfl⟩
    · exact ⟨.addressAndPath, rfl⟩
    · exact ⟨.client, rfl⟩
    · exact ⟨.clientAndPath, rfl⟩
    · cases h

/-! Flags -/

/-- A text spells a word, each letter large or small. -/
def Spells (text word : String) : Prop :=
  List.Forall₂ (fun c w => c = w ∨ c = w.toUpper) text.toList word.toList

/-- How a flag is written. -/
def IsFlagText (flag : Bool) (text : String) : Prop :=
  Spells text (if flag then "true" else "false") ∨ Spells text (if flag then "1" else "0")

/-- The characters that flags are written with. -/
def flagLetters : List Char := ['t', 'r', 'u', 'e', 'f', 'a', 'l', 's', '1', '0']

theorem lower_flagLetter {w c : Char} (hw : w ∈ flagLetters) (hc : c = w ∨ c = w.toUpper) :
    c ≠ 'Σ' ∧ c ≠ 'İ' ∧ CaseTable.lower c = w := by
  have hall : (flagLetters.all fun w => [w, w.toUpper].all fun c =>
      c ≠ 'Σ' ∧ c ≠ 'İ' ∧ CaseTable.lower c = w) = true := by
    decide +kernel
  have hcase := List.all_eq_true.mp (List.all_eq_true.mp hall w hw) c (by simpa using hc)
  exact of_decide_eq_true hcase

theorem characters_eq {cs ws : List Char}
    (h : List.Forall₂ (fun c w => c = w ∨ c = w.toUpper) cs ws) (hws : ws ⊆ flagLetters)
    (before : List Char) : Lowercase.characters before cs = ws := by
  induction h generalizing before with
  | nil => rfl
  | cons hc _ ih =>
    obtain ⟨hsigma, hdotted, hlower⟩ := lower_flagLetter (hws List.mem_cons_self) hc
    rw [Lowercase.characters, Lowercase.character, if_neg hsigma, if_neg hdotted, hlower,
      ih fun w hw => hws (List.mem_cons_of_mem _ hw)]
    rfl

theorem Spells.lowercase_eq {text word : String} (h : Spells text word)
    (hword : word.toList ⊆ flagLetters) : lowercase text = word := by
  rw [lowercase, characters_eq h hword, String.ofList_toList]

/-- A flag is read in any mix of letter case. -/
theorem flag?_eq {flag : Bool} {text : String} (h : IsFlagText flag text) :
    Environment.flag? text = some flag := by
  rw [Environment.flag?]
  cases flag <;> rcases h with h | h <;> rw [h.lowercase_eq (by decide +kernel)] <;> rfl

theorem IsFlagText.ne_empty {flag : Bool} {text : String} (h : IsFlagText flag text) :
    text ≠ "" := by
  rintro rfl
  cases flag <;> exact absurd (flag?_eq h) (by decide +kernel)

/-! What variables describe -/

/-- A number whose text is read as the number: any but the undefined one and the zero with a
sign. -/
structure Figure where
  value : Float
  defined : value.isNaN = false
  unsigned : value ≠ -0

namespace Figure

theorem read_text (x : Figure) : readSetting (plainText x.value) = some x.value := by
  rw [readSetting_plainText, x.defined, if_neg x.unsigned]
  rfl

theorem text_ne_empty (x : Figure) : plainText x.value ≠ "" := by
  intro hempty
  have hread : some x.value = readSetting "" := by rw [← hempty, x.read_text]
  have hzero : readSetting "" = some 0 := by decide +kernel
  have hvalue : x.value = 0 := Option.some.inj (hread.trans hzero)
  rw [hvalue] at hempty
  exact absurd hempty (by decide +kernel)

end Figure

/-- What variables say about a limiter. -/
structure Description where
  rate : Figure
  capacity : Figure
  key : Option KeyName := none
  redisUrl : Option {url : String // url ≠ ""} := none
  keyLead : Option {lead : String // lead ≠ ""} := none
  ttlSeconds : Option Figure := none
  timeout : Option Figure := none
  failOpen : Option Bool := none

/-- The settings that are described; whatever has no variable is left out. -/
def Description.settings (d : Description) : Settings Float where
  rate := some (.number d.rate.value)
  capacity := some (.number d.capacity.value)
  keyRule := d.key.map KeyName.rule
  redis := d.redisUrl.map fun url => .on { url := some (.text url.val) }
  keyLead := d.keyLead.map fun lead => .text lead.val
  ttlSeconds := d.ttlSeconds.map fun x => .number x.value
  timeout := d.timeout.map fun x => .number x.value
  failOpen := d.failOpen.map .bool

namespace Environment

variable {env : Environment Float} {name : String}

/-- A variable that is not there or empty. -/
def LeavesOut (env : Environment Float) (name : String) : Prop :=
  env name = none ∨ env name = some (.text "")

/-- A variable says what a setting is, in one of its forms, or leaves it out. -/
inductive Says {β : Type} (env : Environment Float) (name : String) (forms : β → String → Prop) :
    Option β → Prop
  | nothing (h : env.LeavesOut name) : Says env name forms none
  | something {b : β} {text : String} (h : env name = some (.text text)) (form : forms b text) :
      Says env name forms (some b)

/-- The variables describe a limiter. -/
structure Describes (env : Environment Float) (d : Description) : Prop where
  rate : env rateVariable = some (.text (plainText d.rate.value))
  capacity : env capacityVariable = some (.text (plainText d.capacity.value))
  key : env.Says keyVariable (fun k text => text = k.text) d.key
  redisUrl : env.Says redisVariable (fun url text => text = url.val) d.redisUrl
  keyLead : env.Says keyLeadVariable (fun lead text => text = lead.val) d.keyLead
  ttlSeconds : env.Says ttlVariable (fun x text => text = plainText x.value) d.ttlSeconds
  timeout : env.Says timeoutVariable (fun x text => text = plainText x.value) d.timeout
  failOpen : env.Says failOpenVariable IsFlagText d.failOpen

theorem given_of_leavesOut (h : env.LeavesOut name) : env.given name = none := by
  rcases h with h | h <;> simp [given, h]

theorem given_of_text {text : String} (h : env name = some (.text text)) (htext : text ≠ "") :
    env.given name = some (.text text) := by
  simp [given, h, htext]

theorem meaningful_of_leavesOut (h : env.LeavesOut name) : env.meaningful name = none := by
  rcases h with h | h <;> simp [meaningful, Value.isTruthy, h]

theorem meaningful_of_text {text : String} (h : env name = some (.text text)) (htext : text ≠ "") :
    env.meaningful name = some (.text text) := by
  simp [meaningful, Value.isTruthy, h, htext]

theorem readNumber_of_leavesOut (h : env.LeavesOut name) : env.readNumber name = .ok none := by
  rw [readNumber, given_of_leavesOut h]

theorem readNumber_of_text {x : Figure} (h : env name = some (.text (plainText x.value))) :
    env.readNumber name = .ok (some x.value) := by
  have hread : (Value.text (plainText x.value) : Value Float).asNumber? = some x.value :=
    x.read_text
  rw [readNumber, given_of_text h x.text_ne_empty]
  dsimp only
  rw [hread]

/-- A number is read back, and what is left out stays out. -/
theorem readNumber_eq {x : Option Figure}
    (h : env.Says name (fun x text => text = plainText x.value) x) :
    env.readNumber name = .ok (x.map (·.value)) := by
  cases h with
  | nothing h => exact readNumber_of_leavesOut h
  | something h form => exact readNumber_of_text (form ▸ h)

/-- A flag is read back, and what is left out stays out. -/
theorem readFlag_eq {flag : Option Bool} (h : env.Says name IsFlagText flag) :
    env.readFlag name = .ok flag := by
  cases h with
  | nothing h => rw [readFlag, given_of_leavesOut h]
  | something h form =>
    rw [readFlag, given_of_text h form.ne_empty]
    dsimp only
    rw [flag?_eq form]

/-- A key rule is chosen by its name, and none is where the name is left out. -/
theorem readKeyRule_eq {key : Option KeyName}
    (h : env.Says keyVariable (fun k text => text = k.text) key) :
    env.readKeyRule = .ok (key.map KeyName.rule) := by
  cases h with
  | nothing h => rw [readKeyRule, meaningful_of_leavesOut h]; rfl
  | @something k _ h form =>
    rw [readKeyRule, meaningful_of_text (form ▸ h) k.text_ne_empty]
    dsimp only
    rw [KeyRule.named_text]
    rfl

/-- A text is kept as it is, and what is left out stays out. -/
theorem meaningful_eq {text : Option {text : String // text ≠ ""}}
    (h : env.Says name (fun given text => text = given.val) text) :
    env.meaningful name = text.map fun text => .text text := by
  cases h with
  | nothing h => exact meaningful_of_leavesOut h
  | @something given _ h form => exact meaningful_of_text (form ▸ h) given.property

/-- Variables that describe a limiter are read as the settings they describe. -/
theorem Describes.settings_eq {d : Description} (h : env.Describes d) :
    env.settings = .ok d.settings := by
  unfold settings
  rw [readNumber_of_text h.rate, readNumber_of_text h.capacity]
  dsimp only [bind, Except.bind]
  rw [readKeyRule_eq h.key, readNumber_eq h.ttlSeconds, readNumber_eq h.timeout,
    readFlag_eq h.failOpen, meaningful_eq h.redisUrl, meaningful_eq h.keyLead]
  simp only [Description.settings, Option.map_map]
  rfl

/-- Without rate or capacity there are no settings. -/
theorem settings_of_leavesOut (h : env.LeavesOut rateVariable ∨ env.LeavesOut capacityVariable) :
    ∃ fault, env.settings = .error fault := by
  unfold settings
  rcases h with h | h
  · rw [readNumber_of_leavesOut h]
    cases env.readNumber capacityVariable with
    | error fault => exact ⟨fault, rfl⟩
    | ok capacity => exact ⟨.incomplete, rfl⟩
  · rw [readNumber_of_leavesOut h]
    cases env.readNumber rateVariable with
    | error fault => exact ⟨fault, rfl⟩
    | ok rate => cases rate <;> exact ⟨.incomplete, rfl⟩

/-- With a name that chooses no rule there are no settings, whatever else the variables hold. -/
theorem settings_of_unknown (hkey : env keyVariable = some (.text name)) (hname : name ≠ "")
    (hunknown : ∀ k : KeyName, k.text ≠ name) : ∃ fault, env.settings = .error fault := by
  have hrule : ∃ fault, env.readKeyRule = .error fault := by
    rw [readKeyRule, meaningful_of_text hkey hname]
    dsimp only
    cases hnamed : KeyRule.named (α := Float) name with
    | error fault => exact ⟨.key fault, rfl⟩
    | ok rule =>
      obtain ⟨k, hk⟩ := KeyRule.exists_text_of_named hnamed
      exact absurd hk (hunknown k)
  obtain ⟨fault, hrule⟩ := hrule
  unfold settings
  rw [hrule]
  cases env.readNumber rateVariable with
  | error fault => exact ⟨fault, rfl⟩
  | ok rate =>
    cases env.readNumber capacityVariable with
    | error fault => exact ⟨fault, rfl⟩
    | ok capacity =>
      match rate, capacity with
      | some _, some _ => exact ⟨fault, rfl⟩
      | none, _ | some _, none => exact ⟨.incomplete, rfl⟩

/-- Settings survive the way through environment variables. What is described arrives exactly so,
whatever is left out stays out, and variables that lack rate or capacity or that name a key without
a rule are refused. -/
theorem settings_round_trip (env : Environment Float) :
    (∀ d : Description, env.Describes d → env.settings = .ok d.settings) ∧
      (env.LeavesOut rateVariable ∨ env.LeavesOut capacityVariable →
        ∃ fault, env.settings = .error fault) ∧
      ∀ name, env keyVariable = some (.text name) → name ≠ "" →
        (∀ k : KeyName, k.text ≠ name) → ∃ fault, env.settings = .error fault :=
  ⟨fun _ h => h.settings_eq, settings_of_leavesOut, fun _ => settings_of_unknown⟩

/-- A limiter that is described in part: its Redis is left out by an empty variable, other settings
by none, its timeout is infinite and its flag is in mixed case. Without a rate it is refused, and so
it is with a name for its key that is not in lower case. -/
theorem settings_round_trip_mixed :
    let env : Environment Float := fun name =>
      [("RATE_LIMIT_RATE", Value.text "0.1"), ("RATE_LIMIT_CAPACITY", .text "1e+21"),
        ("RATE_LIMIT_KEY", .text "header:X-Api-Key"), ("RATE_LIMIT_REDIS_URL", .text ""),
        ("RATE_LIMIT_TIMEOUT_MS", .text "-Infinity"),
        ("RATE_LIMIT_FAIL_OPEN", .text "TrUe")].lookup name
    env.settings = .ok
        { rate := some (.number 0.1), capacity := some (.number 1e21)
          keyRule := some (.header "X-Api-Key"), timeout := some (.number (-1 / 0))
          failOpen := some (.bool true) } ∧
      (∃ fault, settings (fun name => if name = rateVariable then none else env name) =
        .error fault) ∧
      ∃ fault, settings (fun name => if name = keyVariable then some (.text "IP") else env name) =
        .error fault := by
  intro env
  let d : Description :=
    { rate := ⟨0.1, by decide +kernel, by decide +kernel⟩
      capacity := ⟨1e21, by decide +kernel, by decide +kernel⟩
      key := some (.header "X-Api-Key" (by decide))
      timeout := some ⟨-1 / 0, by decide +kernel, by decide +kernel⟩
      failOpen := some true }
  have hdescribes : env.Describes d :=
    { rate := congrArg (some ∘ Value.text) (by decide +kernel : "0.1" = plainText 0.1)
      capacity := congrArg (some ∘ Value.text) (by decide +kernel : "1e+21" = plainText 1e21)
      key := .something rfl rfl
      redisUrl := .nothing (.inr rfl)
      keyLead := .nothing (.inl rfl)
      ttlSeconds := .nothing (.inl rfl)
      timeout := .something rfl (by decide +kernel)
      failOpen := .something rfl (.inl (by unfold Spells; decide +kernel)) }
  refine ⟨(settings_round_trip env).1 d hdescribes,
    (settings_round_trip _).2.1 (.inl (.inl (if_pos rfl))),
    (settings_round_trip _).2.2 "IP" (if_pos rfl) (by decide) fun k hk => ?_⟩
  have hnamed := KeyRule.named_text (α := Float) k
  rw [hk] at hnamed
  cases hnamed

end Environment

end Admission
