import Admission.Key
import Mathlib.Data.List.Basic
import Mathlib.Data.List.Induction
import Mathlib.Data.List.TakeWhile

/-!
Keys made of two parts.

A rule that joins an identity and a path puts a colon between them, and both may hold colons of
their own. Paths begin with a slash, though, so the first colon with a slash behind it is the one in
between, unless the identity brings such a pair along. Where it does not, requests share a bucket
exactly if they agree in both parts.
-/
namespace Admission

/-- Two rows that are joined around a pair are told apart again, if the pair stands in neither of
the first ones. -/
theorem append_pair_inj {β : Type} {a b : β} (hne : a ≠ b) {lead₁ lead₂ rest₁ rest₂ : List β}
    (h₁ : ¬[a, b] <:+: lead₁) (h₂ : ¬[a, b] <:+: lead₂)
    (h : lead₁ ++ a :: b :: rest₁ = lead₂ ++ a :: b :: rest₂) : lead₁ = lead₂ ∧ rest₁ = rest₂ := by
  -- The longer lead goes on with what follows the shorter one, and that begins with the pair.
  have hrest : ∀ {lead between rest rest' : List β}, ¬[a, b] <:+: lead ++ between →
      a :: b :: rest = between ++ a :: b :: rest' → between = [] ∧ rest = rest' := by
    intro lead between rest rest' hfree heq
    match between with
    | [] => exact ⟨rfl, by simpa using heq⟩
    | [x] =>
      obtain ⟨-, hb, -⟩ : a = x ∧ b = a ∧ rest = b :: rest' := by simpa using heq
      exact absurd hb.symm hne
    | x :: y :: between =>
      obtain ⟨rfl, rfl, -⟩ : a = x ∧ b = y ∧ rest = between ++ a :: b :: rest' := by
        simpa using heq
      exact absurd ⟨lead, between, by simp⟩ hfree
  rcases List.append_eq_append_iff.mp h with ⟨between, rfl, heq⟩ | ⟨between, rfl, heq⟩
  · obtain ⟨rfl, hsame⟩ := hrest h₂ heq
    exact ⟨(List.append_nil lead₁).symm, hsame⟩
  · obtain ⟨rfl, hsame⟩ := hrest h₁ heq
    exact ⟨List.append_nil lead₂, hsame.symm⟩

variable {α : Type}

/-! What the parts of a request say -/

/-- A part that is a text where it is there at all. -/
inductive Reads : Option (Value α) → String → Prop
  | missing : Reads none ""
  | null : Reads (some .null) ""
  | text (s : String) : Reads (some (.text s)) s

/-- A header has one value at most, or several that are joined to one text. -/
inductive ReadsHeader : Option (Value α) → String → Prop
  | single {v : Option (Value α)} {s : String} (h : Reads v s) : ReadsHeader v s
  | several (texts : List String) :
      ReadsHeader (some (.list (texts.map .text))) (String.intercalate ", " texts)

/-- A path is what a URL holds before its first question mark. -/
def IsPathOf (path url : String) : Prop :=
  '?' ∉ path.toList ∧ (url = path ∨ ∃ query, url = path ++ "?" ++ query)

namespace Request

/-- A request comes from the address that was forwarded, or from the socket's if none was. -/
def ComesFrom (r : Request α) (address : String) : Prop :=
  ∃ headers forwarded remote, r.headers = some headers ∧
    ReadsHeader (headers.lookup "x-forwarded-for") forwarded ∧ Reads r.remoteAddress remote ∧
    address = if forwarded = "" then remote else forwarded

/-- A request asks for the path of the URL that it arrived with, or of the one that it has now if
it came without. -/
def AsksFor (r : Request α) (path : String) : Prop :=
  ∃ received url, Reads r.receivedUrl received ∧ Reads r.url url ∧
    IsPathOf path (if received = "" then url else received)

/-- These identities were recorded for a request, one after the other. -/
def Recorded (r : Request α) (ids : List String) : Prop :=
  ∃ bare : Request α, bare.clientId = none ∧
    r = ids.foldl (fun r id => r.identify (some (.text id))) bare

end Request

namespace KeyRule

/-- Who makes a request, as far as a rule of two parts is concerned: an address, or the client
identity that was recorded last, if any was. -/
inductive Identifies : KeyRule α → Request α → String → Prop
  | address {r : Request α} {address : String} (h : r.ComesFrom address) :
      Identifies .addressAndPath r address
  | client {r : Request α} {ids : List String} (h : r.Recorded ids) :
      Identifies .clientAndPath r (ids.getLast?.getD "")

end KeyRule

theorem Reads.orEmpty_eq {v : Option (Value α)} {s : String} (h : Reads v s) :
    Request.orEmpty v = .text s := by
  cases h <;> rfl

theorem IsPathOf.takeWhile_eq {path url : String} (h : IsPathOf path url) :
    String.ofList (url.toList.takeWhile (· != '?')) = path := by
  obtain ⟨hfree, hurl⟩ := h
  have hpath : ∀ c ∈ path.toList, (c != '?') = true := by
    intro c hc
    exact bne_iff_ne.mpr fun heq => hfree (heq ▸ hc)
  rcases hurl with rfl | ⟨query, rfl⟩
  · rw [List.takeWhile_eq_self_iff.mpr hpath, String.ofList_toList]
  · simp [String.toList_append, List.takeWhile_append_of_pos hpath]

section

variable [Textual α]

theorem itemTexts?_map_text (texts : List String) :
    Value.itemTexts? (texts.map (Value.text (α := α))) = some texts := by
  induction texts with
  | nil => simp [Value.itemTexts?]
  | cons text texts ih => simp [Value.itemTexts?, Value.text?, ih]

theorem Request.header?_eq {r : Request α} {headers : List (String × Value α)} {name s : String}
    (hheaders : r.headers = some headers) (h : ReadsHeader (headers.lookup name) s) :
    r.header? name = some (.text s) := by
  rw [header?, hheaders, Option.bind_some]
  generalize headers.lookup name = v at h
  cases h with
  | single h => rw [h.orEmpty_eq]
  | several texts => simp [orEmpty, itemTexts?_map_text]

theorem Request.ComesFrom.address?_eq {r : Request α} {address : String} (h : r.ComesFrom address) :
    r.address? = some (.text address) := by
  obtain ⟨headers, forwarded, remote, hheaders, hforwarded, hremote, rfl⟩ := h
  rw [address?, header?_eq hheaders hforwarded, Option.map_some]
  split
  · next hempty =>
    rw [Value.text.inj hempty, if_pos rfl, hremote.orEmpty_eq]
  · next hempty =>
    rw [if_neg fun heq => hempty (congrArg Value.text heq)]

omit [Textual α] in
theorem Request.Recorded.client_eq {r : Request α} {ids : List String} (h : r.Recorded ids) :
    r.client = .text (ids.getLast?.getD "") := by
  obtain ⟨bare, hbare, rfl⟩ := h
  induction ids using List.reverseRecOn with
  | nil => simp [client, hbare, orEmpty]
  | append_singleton ids id ih => simp [client, identify, orEmpty]

omit [Textual α] in
theorem Request.AsksFor.path?_eq [Scalar α] {r : Request α} {path : String} (h : r.AsksFor path) :
    r.path? = some (.text path) := by
  obtain ⟨received, url, hreceived, hurl, hpath⟩ := h
  have hgiven : ∀ {v : Option (Value α)} {s : String}, Reads v s →
      v.filter Value.isTruthy = if s = "" then none else some (.text s) := by
    intro v s h
    cases h with
    | missing => rfl
    | null => rfl
    | text s => by_cases hs : s = "" <;> simp [Option.filter, Value.isTruthy, hs]
  have htarget : r.target = .text (if received = "" then url else received) := by
    simp only [target, hgiven hreceived, hgiven hurl]
    by_cases hreceived : received = ""
    · by_cases hurl : url = "" <;> simp [hreceived, hurl]
    · simp [hreceived]
  rw [path?, htarget]
  simp only [hpath.takeWhile_eq]

/-- A rule of two parts joins the identity and the path of a request. -/
theorem KeyRule.Identifies.key_eq [Scalar α] {rule : KeyRule α} {r : Request α}
    {identity path : String} (hidentity : rule.Identifies r identity) (hpath : r.AsksFor path) :
    rule.key (some r) = .ok (some (.text (identity ++ ":" ++ path))) := by
  cases hidentity with
  | address h => simp [key, joined, h.address?_eq, hpath.path?_eq, Value.text?, part]
  | client h => simp [key, joined, h.client_eq, hpath.path?_eq, Value.text?, part]

/-- Two requests share a bucket exactly if they agree in identity and path, whatever colons their
identities hold. What follows the path in their URLs plays no part. -/
theorem KeyRule.same_bucket_iff [Scalar α] {rule : KeyRule α} {r₁ r₂ : Request α}
    {identity₁ identity₂ path₁ path₂ : String}
    (hidentity₁ : rule.Identifies r₁ identity₁) (hidentity₂ : rule.Identifies r₂ identity₂)
    (hpath₁ : r₁.AsksFor path₁) (hpath₂ : r₂.AsksFor path₂)
    (hfree₁ : ¬[':', '/'] <:+: identity₁.toList) (hfree₂ : ¬[':', '/'] <:+: identity₂.toList)
    (hslash₁ : path₁.toList.head? = some '/') (hslash₂ : path₂.toList.head? = some '/') :
    ∃ key₁ key₂, rule.key (some r₁) = .ok key₁ ∧ rule.key (some r₂) = .ok key₂ ∧
      ∀ call₁ call₂, Key.ofValue (rule.maker (some r₁) call₁) key₁ =
        Key.ofValue (rule.maker (some r₂) call₂) key₂ ↔
          identity₁ = identity₂ ∧ path₁ = path₂ := by
  refine ⟨_, _, hidentity₁.key_eq hpath₁, hidentity₂.key_eq hpath₂, fun call₁ call₂ => ?_⟩
  have hrest : ∀ {path : String}, path.toList.head? = some '/' →
      ∃ rest, path.toList = '/' :: rest := fun h => ⟨_, List.eq_cons_of_mem_head? h⟩
  obtain ⟨rest₁, hrest₁⟩ := hrest hslash₁
  obtain ⟨rest₂, hrest₂⟩ := hrest hslash₂
  constructor
  · intro hkey
    have htext := congrArg String.toList (Key.text.inj hkey)
    have hjoined : identity₁.toList ++ ':' :: '/' :: rest₁ =
        identity₂.toList ++ ':' :: '/' :: rest₂ := by
      simpa [String.toList_append, hrest₁, hrest₂] using htext
    obtain ⟨hlead, hsame⟩ := append_pair_inj (by decide) hfree₁ hfree₂ hjoined
    refine ⟨String.toList_inj.mp hlead, String.toList_inj.mp ?_⟩
    rw [hrest₁, hrest₂, hsame]
  · rintro ⟨rfl, rfl⟩
    rfl

/-- Two requests of one address, forwarded or not, share a bucket, whatever they ask of the path. An
address that is longer by a colon has a bucket of its own. -/
theorem KeyRule.same_bucket_iff_colons :
    let forwarded : Request Float :=
      { headers := some [("x-forwarded-for", .list [.text "::1", .text "fe80::7"])]
        receivedUrl := some (.text "/v:1/?page=2") }
    let direct : Request Float :=
      { remoteAddress := some (.text "::1, fe80::7")
        receivedUrl := some (.text "")
        url := some (.text "/v:1/") }
    let longer : Request Float := { direct with remoteAddress := some (.text "::1, fe80::7:") }
    ∃ key₁ key₂ key₃, addressAndPath.key (some forwarded) = .ok key₁ ∧
      addressAndPath.key (some direct) = .ok key₂ ∧ addressAndPath.key (some longer) = .ok key₃ ∧
      Key.ofValue (addressAndPath.maker (some forwarded) 0) key₁ =
        Key.ofValue (addressAndPath.maker (some direct) 1) key₂ ∧
      Key.ofValue (addressAndPath.maker (some direct) 1) key₂ ≠
        Key.ofValue (addressAndPath.maker (some longer) 2) key₃ := by
  intro forwarded direct longer
  have hfrom₁ : forwarded.ComesFrom "::1, fe80::7" :=
    ⟨_, _, "", rfl, .several ["::1", "fe80::7"], .missing, by decide +kernel⟩
  have hfrom₂ : direct.ComesFrom "::1, fe80::7" := ⟨_, "", _, rfl, .single .missing, .text _, rfl⟩
  have hfrom₃ : longer.ComesFrom "::1, fe80::7:" := ⟨_, "", _, rfl, .single .missing, .text _, rfl⟩
  have hasks₁ : forwarded.AsksFor "/v:1/" :=
    ⟨_, "", .text _, .missing, by decide +kernel, .inr ⟨"page=2", by decide +kernel⟩⟩
  have hasks₂ : direct.AsksFor "/v:1/" := ⟨"", _, .text _, .text _, by decide +kernel, .inl rfl⟩
  have hasks₃ : longer.AsksFor "/v:1/" := ⟨"", _, .text _, .text _, by decide +kernel, .inl rfl⟩
  have hfree : ¬[':', '/'] <:+: "::1, fe80::7".toList := by decide +kernel
  have hfree₃ : ¬[':', '/'] <:+: "::1, fe80::7:".toList := by decide +kernel
  have hslash : "/v:1/".toList.head? = some '/' := by decide +kernel
  obtain ⟨key₁, key₂, hkey₁, hkey₂, hsame⟩ := same_bucket_iff (.address hfrom₁) (.address hfrom₂)
    hasks₁ hasks₂ hfree hfree hslash hslash
  obtain ⟨key, key₃, hkey, hkey₃, hother⟩ := same_bucket_iff (.address hfrom₂) (.address hfrom₃)
    hasks₂ hasks₃ hfree hfree₃ hslash hslash
  obtain rfl : key₂ = key := Except.ok.inj (hkey₂.symm.trans hkey)
  refine ⟨key₁, key₂, key₃, hkey₁, hkey₂, hkey₃, (hsame 0 1).mpr ⟨rfl, rfl⟩, fun heq => ?_⟩
  exact absurd ((hother 1 2).mp heq).1 (by decide +kernel)

end

end Admission
