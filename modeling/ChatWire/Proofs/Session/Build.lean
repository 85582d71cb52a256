import ChatWire.Proofs.Outcome
import ChatWire.Session.Basic
import Mathlib.Data.List.Basic
import Mathlib.Tactic.SplitIfs

/-! Drafts of sessions. A draft is looked through requirement by requirement, and the first one that it does not meet is
reported. -/

namespace ChatWire

namespace SessionDraft

/-- Whether a text is there and not empty. -/
def IsGiven (value : Option String) : Prop := value.getD "" ≠ ""

instance (value : Option String) : Decidable (IsGiven value) := inferInstanceAs (Decidable (_ ≠ _))

/-- Whether nothing is wanting in a draft. -/
structure IsComplete (d : SessionDraft) : Prop where
  uid : IsGiven d.uid
  imei : IsGiven d.imei
  secretKey : IsGiven d.secretKey
  userAgent : IsGiven d.userAgent
  apiType : d.apiType ≠ 0
  apiVersion : d.apiVersion ≠ 0
  hasEndpoint : d.endpoints ≠ []
  endpoints : ∀ text ∈ d.endpoints, ∃ u, Url.parse text = .ok u
  cookies : ∀ c ∈ d.cookies, ∃ u, Url.parse c.2 = .ok u

/-- what is reported where a requirement is not met -/
def demand (p : Prop) [Decidable p] (e : SessionError) : List SessionError := if p then [] else [e]

/-- what is reported of a text that is to be a URL -/
def urlFaults (text : String) : List SessionError :=
  match Url.parse text with
  | .ok _ => []
  | .error e => [.invalidUrl text e]

/-- all that is wanting in a draft, in the order of the requirements -/
def faults (d : SessionDraft) : List SessionError :=
  [demand (IsGiven d.uid) (.missing .uid), demand (IsGiven d.imei) (.missing .imei),
    demand (IsGiven d.secretKey) (.missing .secretKey), demand (IsGiven d.userAgent) (.missing .userAgent),
    demand (d.apiType ≠ 0) (.missing .apiType), demand (d.apiVersion ≠ 0) (.missing .apiVersion),
    demand (d.endpoints ≠ []) .noEndpoints, d.endpoints.flatMap urlFaults,
    d.cookies.flatMap fun c => urlFaults c.2].flatten

theorem demand_eq_nil {p : Prop} [Decidable p] {e : SessionError} : demand p e = [] ↔ p := by
  unfold demand
  split_ifs with h <;> simp [h]

theorem urlFaults_eq_nil {text : String} : urlFaults text = [] ↔ ∃ u, Url.parse text = .ok u := by
  unfold urlFaults
  cases Url.parse text <;> simp

theorem faults_eq_nil {d : SessionDraft} : d.faults = [] ↔ d.IsComplete := by
  simp only [faults, List.flatten_cons, List.flatten_nil, List.append_eq_nil_iff, List.flatMap_eq_nil_iff,
    demand_eq_nil, urlFaults_eq_nil]
  exact ⟨fun ⟨h₁, h₂, h₃, h₄, h₅, h₆, h₇, h₈, h₉, _⟩ => ⟨h₁, h₂, h₃, h₄, h₅, h₆, h₇, h₈, h₉⟩,
    fun ⟨h₁, h₂, h₃, h₄, h₅, h₆, h₇, h₈, h₉⟩ => ⟨h₁, h₂, h₃, h₄, h₅, h₆, h₇, h₈, h₉, trivial⟩⟩

end SessionDraft

namespace Session

open SessionDraft (IsGiven demand urlFaults)

/-! The steps. -/

/-- the report of a requirement, unless it is met -/
def require (met : Bool) (e : SessionError) : Except SessionError Unit := if met then .ok () else .error e

theorem stopsAtFirst_require (p : Prop) [Decidable p] (e : SessionError) :
    StopsAtFirst (require (decide p) e) (demand p e) := by
  by_cases h : p
  · rw [demand, if_pos h, require, decide_eq_true h]
    exact .ok ()
  · rw [demand, if_neg h, require, decide_eq_false h]
    exact .error e

theorem stopsAtFirst_present (value : Option String) (what : Credential) :
    StopsAtFirst (present value what) (demand (IsGiven value) (.missing what)) := by
  cases value with
  | none => exact .error _
  | some v =>
    by_cases h : v = ""
    · subst h
      exact .error _
    · have hgiven : IsGiven (some v) := h
      rw [demand, if_pos hgiven, present, if_neg (by simpa using h)]
      exact .ok v

theorem stopsAtFirst_parseUrl (text : String) : StopsAtFirst (parseUrl text) (urlFaults text) := by
  rw [parseUrl, urlFaults]
  cases Url.parse text with
  | ok u => exact .ok u
  | error e => exact .error _

/-- The steps in a row. -/
theorem build_eq (now : Int) (d : SessionDraft) : build now d = (do
    let uid ← present d.uid .uid
    let imei ← present d.imei .imei
    let secretKey ← present d.secretKey .secretKey
    let userAgent ← present d.userAgent .userAgent
    require (d.apiType ≠ 0) (.missing .apiType)
    require (d.apiVersion ≠ 0) (.missing .apiVersion)
    require (d.endpoints ≠ []) .noEndpoints
    d.endpoints.forM fun e => do let _ ← parseUrl e
    let jar ← d.cookies.foldlM (addCookie now) .empty
    pure
      { uid, imei, secretKey, userAgent, jar
        language := d.language.getD defaultLanguage
        apiType := d.apiType
        apiVersion := d.apiVersion
        settings := d.settings
        endpoints := d.endpoints
        selfListen := d.selfListen }) := by
  simp only [build, require, decide_eq_true_eq, ne_eq, ite_not, List.isEmpty_iff]
  split_ifs <;> rfl

/-- What is reported is the first thing that is wanting. -/
theorem build_stopsAtFirst (now : Int) (d : SessionDraft) : StopsAtFirst (build now d) d.faults := by
  have hurl (text : String) : StopsAtFirst (do let _ ← parseUrl text) (urlFaults text) :=
    (stopsAtFirst_parseUrl text).map fun _ => ()
  have hcookie (jar : Jar) (c : String × String) : StopsAtFirst (addCookie now jar c) (urlFaults c.2) :=
    (stopsAtFirst_parseUrl c.2).map fun u => jar.set now u c.1
  rw [build_eq, SessionDraft.faults]
  refine StopsAtFirst.bind (stopsAtFirst_present d.uid .uid) fun uid => ?_
  refine StopsAtFirst.bind (stopsAtFirst_present d.imei .imei) fun imei => ?_
  refine StopsAtFirst.bind (stopsAtFirst_present d.secretKey .secretKey) fun secretKey => ?_
  refine StopsAtFirst.bind (stopsAtFirst_present d.userAgent .userAgent) fun userAgent => ?_
  refine StopsAtFirst.bind (stopsAtFirst_require (d.apiType ≠ 0) (.missing .apiType)) fun _ => ?_
  refine StopsAtFirst.bind (stopsAtFirst_require (d.apiVersion ≠ 0) (.missing .apiVersion)) fun _ => ?_
  refine StopsAtFirst.bind (stopsAtFirst_require (d.endpoints ≠ []) .noEndpoints) fun _ => ?_
  refine StopsAtFirst.bind (StopsAtFirst.forM hurl d.endpoints) fun _ => ?_
  exact StopsAtFirst.bind (StopsAtFirst.foldlM hcookie d.cookies .empty) fun _ => .ok _

theorem exists_build_iff (now : Int) (d : SessionDraft) : (∃ s, build now d = .ok s) ↔ d.IsComplete :=
  (build_stopsAtFirst now d).exists_ok_iff.trans SessionDraft.faults_eq_nil

theorem isComplete_of_build {now : Int} {d : SessionDraft} {s : Session} (h : build now d = .ok s) : d.IsComplete :=
  (exists_build_iff now d).1 ⟨s, h⟩

/-- What comes of a draft keeps its endpoints. -/
theorem endpoints_of_build {now : Int} {d : SessionDraft} {s : Session} (h : build now d = .ok s) :
    s.endpoints = d.endpoints := by
  rw [build_eq] at h
  simp only [bind_eq_ok_iff] at h
  obtain ⟨uid, -, imei, -, secretKey, -, userAgent, -, -, -, -, -, -, -, -, -, jar, -, hs⟩ := h
  cases hs
  rfl

end Session

end ChatWire
