import ChatWire.Proofs.Listener.Keeping
import ChatWire.Proofs.Retry.Policy

/-! Where a chain stands, from the call that starts it to its end, and the turns that it can take. Whatever a chain
does is one of these; what it does, and what it decides, is noted as it goes. -/

namespace ChatWire

/-- Whether an event tells how the listener fares. -/
def Event.isLifecycle : Event → Bool
  | .connected _ | .disconnected _ | .closed _ => true
  | _ => false

/-- Whether a connection could not be opened, or not be written to. -/
def ListenerError.isTransport : ListenerError → Bool
  | .transport _ _ => true
  | _ => false

namespace Listener

/-! Notes. -/

/-- What a chain does: it dials, publishes, and enters the closed phase; it finds that a redial has failed; it decides
whether a closing may be retried; it handles the notice that another connection has taken over, and then reports the
closing itself, unless an earlier cause has been reported. -/
inductive Deed
  | shut
  | dialed (d : Dial)
  | published (e : Event)
  | failed (e : ListenerError)
  | met (info : CloseInfo) (granted : Bool)
  | noticed (link : Nat)
  | cut (link : Nat) (earlier : Option CloseInfo)

/-- whether a closing will be retried -/
def grants (parent : Token) (info : CloseInfo) (l : Listener) : Bool :=
  l.retryOnClose && !l.isCancelled parent && (l.retry.retry info.code).1.isSome

/-- what a chain is about to do that no field of the listener tells -/
def Chain.deeds (parent : Token) (l : Listener) : Chain → List Deed
  | .handling link b =>
    match Reaction.ofBytes b with
    | .leave => [.noticed link]
    | _ => []
  | .yielding link .report => [.cut link (l.closure? link)]
  | .deciding info => [.met info (l.grants parent info)]
  | .dialing _ (.finished (.error e)) => [.failed e]
  | _ => []

def Work.deeds (l : Listener) : Work → List Deed
  | .chain parent stage => stage.deeds parent l
  | _ => []

/-- whether the closed phase has been entered from `l` to `k` -/
def shutting (l k : Listener) : List Deed := if l.phase ≠ .closed ∧ k.phase = .closed then [.shut] else []

/-- what has been entered, dialed and published from `l` to `k` -/
def changes (l k : Listener) : List Deed :=
  shutting l k ++ (k.dials.drop l.dials.length).map .dialed ++ (k.history.drop l.history.length).map .published

variable {l k : Listener}

theorem shutting_same (h : k.phase = l.phase) : shutting l k = [] := if_neg fun hc => hc.1 (h ▸ hc.2)

theorem shutting_isOpen (h : k.phase.isOpen) : shutting l k = [] := by
  apply if_neg
  rintro ⟨-, hclosed⟩
  rw [hclosed] at h
  cases h

theorem changes_publish (e : Event) (l : Listener) : changes l (l.publish e) = [.published e] := by
  have hshutting : shutting l (l.publish e) = [] := shutting_same rfl
  rw [changes, hshutting, publish, List.drop_left, List.drop_length]
  rfl

theorem changes_dial (d : Dial) (l : Listener) : changes l { l with dials := l.dials ++ [d] } = [.dialed d] := by
  have hshutting : shutting l { l with dials := l.dials ++ [d] } = [] := shutting_same rfl
  rw [changes, hshutting, List.drop_left, List.drop_length]
  rfl

/-- Where only the phase can have changed. -/
theorem changes_same (hdials : k.dials = l.dials) (hhistory : k.history = l.history) :
    changes l k = shutting l k := by
  rw [changes, hdials, hhistory, List.drop_length, List.drop_length, List.map_nil, List.map_nil, List.append_nil,
    List.append_nil]

theorem changes_isOpen (hphase : k.phase.isOpen) (hdials : k.dials = l.dials) (hhistory : k.history = l.history) :
    changes l k = [] := (changes_same hdials hhistory).trans (shutting_isOpen hphase)

theorem changes_shut (h : l.phase.isOpen) : changes l { l with phase := .closed } = [.shut] := by
  refine Eq.trans (changes_same rfl rfl) (if_pos ⟨?_, rfl⟩)
  intro hphase
  rw [hphase] at h
  cases h

namespace Rests

theorem changes (h : Rests l k) : Listener.changes l k = [] :=
  (changes_same h.dials h.history).trans (shutting_same h.phase)

theorem rekey (key : CipherKey) (c : Connection) (l : Listener) : Rests l (l.rekey key c).2 := by
  unfold Listener.rekey
  cases c.keepalive <;> by_cases hp : l.session.settings.pingInterval = 0 <;> simp only [Listener.cancel, hp] <;>
    exact ⟨⟨rfl, rfl, rfl⟩, rfl, rfl, rfl⟩

theorem handle (link : Nat) (b : Bytes) (l : Listener) : Rests l (l.handle link b).2 := by
  unfold Listener.handle
  cases Reaction.ofBytes b with
  | rekey key =>
    cases l.connection with
    | none => exact refl l
    | some c => exact rekey key c l
  | _ => exact refl l

end Rests

/-! What a chain owes while it is connected tells of what has come in. -/

/-- Nothing that is owed tells how the listener fares. -/
def Chain.IsSober (c : Chain) : Prop := ∀ e ∈ c.owed, e.isLifecycle = false

def Work.IsSober (w : Work) : Prop := ∀ e ∈ w.owed, e.isLifecycle = false

theorem isLifecycle_of_mem_batchEvents {op : Operation} {events : Batch → List Event} {e : Envelope}
    {key : Option CipherKey} (h : ∀ b, ∀ x ∈ events b, Event.isLifecycle x = false) {x : Event}
    (hx : x ∈ batchEvents op events e key) : x.isLifecycle = false := by
  unfold batchEvents at hx
  split at hx
  · exact h _ x hx
  · rw [List.mem_singleton.1 hx]
    rfl

theorem isLifecycle_of_mem_liveEvents {uid : String} {selfListen : Bool} {t : Thread} {b : Batch} {x : Event}
    (h : x ∈ Batch.liveEvents uid selfListen t b) : x.isLifecycle = false := by
  rcases List.mem_append.1 h with h | h
  · obtain ⟨f, -, rfl⟩ := List.mem_map.1 h
    rfl
  · obtain ⟨i, -, rfl⟩ := List.mem_map.1 h
    cases i <;> rfl

theorem isLifecycle_of_mem_backfillEvents {uid : String} {t : Thread} {b : Batch} {x : Event}
    (h : x ∈ Batch.backfillEvents uid t b) : x.isLifecycle = false := by
  rcases List.mem_append.1 h with h | h
  · obtain ⟨f, -, rfl⟩ := List.mem_map.1 h
    rfl
  · rw [List.mem_singleton.1 h]
    rfl

theorem handle_isSober (link : Nat) (b : Bytes) (l : Listener) : (l.handle link b).1.IsSober := by
  unfold handle
  cases Reaction.ofBytes b with
  | ignore | leave => exact fun _ h => absurd h List.not_mem_nil
  | report e =>
    intro x hx
    rw [List.mem_singleton.1 hx]
    rfl
  | live t e => exact fun _ => isLifecycle_of_mem_batchEvents fun _ _ => isLifecycle_of_mem_liveEvents
  | backfill t e => exact fun _ => isLifecycle_of_mem_batchEvents fun _ _ => isLifecycle_of_mem_backfillEvents
  | rekey key =>
    cases l.connection with
    | none => exact fun _ h => absurd h List.not_mem_nil
    | some c =>
      intro x hx
      rw [List.mem_singleton.1 hx]
      rfl

theorem WorkStep.isSober {world : Surroundings} {w w' : Work} (h : WorkStep world l w w' k) (hw : w.IsSober) :
    w'.IsSober := by
  cases h with
  | start | stop | keepalive => exact fun _ h => absurd h List.not_mem_nil
  | chain hs =>
    cases hs with
    | takeError =>
      intro x hx
      rw [List.mem_singleton.1 hx]
      rfl
    | @handle link b _ _ hhandle =>
      have hsober := handle_isSober link b l
      rwa [hhandle] at hsober
    | publish => exact fun x hx => hw x (List.mem_cons_of_mem _ hx)
    | _ => exact fun _ h => absurd h List.not_mem_nil

/-! Stations. -/

/-- Where a chain stands. Before its call has claimed the listener it is outside. Then it is ready to dial, calling,
or about to report that the dial has failed, for the first time or later; connected, or closing a connection that
another one has taken over; about to say that it was disconnected, or to decide what to do; about to report that no
endpoint is left, or that a redial has failed. In the end it enters the closed phase, says so, and is done. -/
inductive Station
  | outside
  | ready (first : Bool)
  | calling (first : Bool) (endpoint : String)
  | failing (first : Bool) (e : ListenerError)
  | refused (r : Except ListenerError Unit)
  | up (link : Nat)
  | leaving (link : Nat)
  | down (info : CloseInfo)
  | deciding (info : CloseInfo)
  | exhausted (info : CloseInfo) (e : RotationError)
  | complaining (e : ListenerError)
  | ending (info : CloseInfo)
  | gone (info : CloseInfo)
  | closed
  | done

/-- Whether no other chain can be under way. -/
def Station.isActive : Station → Bool
  | .outside | .refused _ | .gone _ | .closed | .done => false
  | _ => true

def Dialing.station (first : Bool) : Dialing → Station
  | .select => .ready first
  | .waiting _ endpoint _ | .opened _ endpoint | .installed _ endpoint | .announcing _ endpoint => .calling first endpoint
  | .abandoning _ _ => .failing first .cancelled
  | .finished (.error e) => .failing first e
  | .finished (.ok link) => .up link

def Chain.station : Chain → Station
  | .receiving link _ | .handling link _ | .publishing link _ _ | .stopping link _ | .confirming link _ => .up link
  | .yielding link stage => if stage.hasReported then .up link else .leaving link
  | .dropping info | .announcing info => .down info
  | .deciding info => .deciding info
  | .exhausted info e => .exhausted info e
  | .sleeping _ _ => .ready false
  | .dialing _ d => d.station false
  | .complaining e => .complaining e
  | .finishing info .enter => .ending info
  | .finishing info .announce => .gone info
  | .finishing _ _ => .closed
  | .done => .done

def Starting.station : Starting → Station
  | .check | .claim => .outside
  | .reopenTracker | .reopenStreams => .ready true
  | .dialing d => d.station true
  | .failing e => .failing true e
  | .spawning link => .up link
  | .finished r => .refused r

def Work.station : Work → Station
  | .start _ _ stage => stage.station
  | .chain _ stage => stage.station
  | _ => .outside

theorem Dialing.isActive_station (first : Bool) (d : Dialing) : (d.station first).isActive := by
  cases d with
  | finished r => cases r <;> rfl
  | _ => rfl

theorem Work.isActive_station (w : Work) : w.station.isActive = w.isActive := by
  cases w with
  | start token retryOnClose stage =>
    cases stage with
    | dialing d => exact d.isActive_station true
    | _ => rfl
  | chain parent stage =>
    cases stage with
    | yielding link stage => cases stage <;> rfl
    | dialing info d => exact d.isActive_station false
    | finishing info stage => cases stage <;> rfl
    | _ => rfl
  | stop | keepalive => rfl

/-! Turns. -/

/-- A retry is granted for a closing. -/
structure Grants (info : CloseInfo) (l k : Listener) : Prop where
  allowed : l.retryOnClose
  retryOnClose : k.retryOnClose = l.retryOnClose
  retry : ∃ delay, l.retry.retry info.code = (some delay, k.retry)

/-- The ways in which a chain with a token of its own goes from one station to another, with nothing decided on dials
that are to come: where it stands before, what it does, where it stands after. -/
inductive Pass (token : Token) (l k : Listener) : Station → List Deed → Station → Prop
  | rest {s : Station} : Pass token l k s [] s
  | late {e : ListenerError} : e.isTransport = false → Pass token l k .outside [] (.refused (.error e))
  | noDial {first : Bool} {e : ListenerError} : e.isTransport = false →
      Pass token l k (.ready first) [] (.failing first e)
  | fault {first : Bool} {endpoint : String} {e : ListenerError} :
      Pass token l k (.calling first endpoint) [] (.failing first e)
  | connect {first : Bool} {endpoint : String} {link : Nat} :
      Pass token l k (.calling first endpoint) [.published (.connected endpoint)] (.up link)
  | refuse {e : ListenerError} : Pass token l k (.failing true e) [.shut] (.refused (.error e))
  | publish {link : Nat} {e : Event} : e.isLifecycle = false → Pass token l k (.up link) [.published e] (.up link)
  | notice {link : Nat} : Pass token l k (.up link) [.noticed link] (.leaving link)
  | cut {link : Nat} : k.closure? link = some ((l.closure? link).getD duplicateClose) →
      Pass token l k (.leaving link) [.cut link (l.closure? link)] (.up link)
  | found {link : Nat} {info : CloseInfo} : l.closure? link = some info →
      Pass token l k (.up link) [] (.down info)
  | unfound {link : Nat} : l.closure? link = none → Pass token l k (.up link) [] (.down manualClose)
  | disconnect {info : CloseInfo} :
      Pass token l k (.down info) [.published (.disconnected info)] (.deciding info)
  | deny {info : CloseInfo} : Pass token l k (.deciding info) [.met info false] (.ending info)
  | report {info : CloseInfo} {e : RotationError} :
      Pass token l k (.exhausted info e) [.published (.error (.retry e))] (.ending info)
  | giveUp {info : CloseInfo} : Pass token l k (.ready false) [] (.ending info)
  | abandon {info : CloseInfo} {e : ListenerError} : Pass token l k (.failing false e) [.failed e] (.ending info)
  | fail {e : ListenerError} : Pass token l k (.failing false e) [.failed e] (.complaining e)
  | complain {e : ListenerError} :
      Pass token l k (.complaining e) [.published (.error e)] (.deciding redialFailed)
  | enter {info : CloseInfo} : Pass token l k (.ending info) [.shut] (.gone info)
  | farewell {info : CloseInfo} : Pass token l k (.gone info) [.published (.closed info)] .closed
  | finish : k.isCancelled token → Pass token l k .closed [] .done

/-- The turns of a chain: it goes on to another station, claims the listener, dials, or grants a retry. -/
inductive Turn (token : Token) (retryOnClose : Bool) (l k : Listener) : Station → List Deed → Station → Prop
  | pass {i j : Station} {ds : List Deed} : Spares l k → Pass token l k i ds j → Turn token retryOnClose l k i ds j
  | claim : k.retryOnClose = retryOnClose → k.retry = l.retry.reset → k.rotation = l.rotation.reset →
      Turn token retryOnClose l k .outside [] (.ready true)
  | dial {first : Bool} {d : Dial} : Spares l k → l.rotation.current? = some d.endpoint →
      Turn token retryOnClose l k (.ready first) [.dialed d] (.calling first d.endpoint)
  | stay {info : CloseInfo} : Grants info l k → l.rotation.rotatesOn info.code = false → k.rotation = l.rotation →
      Turn token retryOnClose l k (.deciding info) [.met info true] (.ready false)
  | rotate {info : CloseInfo} : Grants info l k → l.rotation.rotatesOn info.code → l.rotation.rotate = .ok k.rotation →
      Turn token retryOnClose l k (.deciding info) [.met info true] (.ready false)
  | exhaust {info : CloseInfo} {e : RotationError} : Grants info l k → l.rotation.rotatesOn info.code →
      l.rotation.rotate = .error e → k.rotation = l.rotation →
        Turn token retryOnClose l k (.deciding info) [.met info true] (.exhausted info e)

def Deed.isDial : Deed → Bool
  | .dialed _ => true
  | _ => false

/-- Whether nothing has been done yet. -/
def Station.isFresh : Station → Bool
  | .outside | .ready true => true
  | _ => false

/-- Whether a chain has dialed. A call that fails has, if what has failed is the transport. -/
def Station.hasDialed : Station → Bool
  | .outside | .ready true | .refused (.ok _) => false
  | .failing true e | .refused (.error e) => e.isTransport
  | _ => true

namespace Pass

variable {token : Token} {i j : Station} {ds : List Deed}

theorem isActive (h : Pass token l k i ds j) (hj : j.isActive) : i.isActive := by
  cases h <;> first | rfl | exact hj

theorem hasDialed (h : Pass token l k i ds j) (hj : j.hasDialed) : i.hasDialed := by
  cases h with
  | late he =>
    rw [Station.hasDialed, he] at hj
    cases hj
  | @noDial first e he =>
    cases first with
    | false => rfl
    | true =>
      rw [Station.hasDialed, he] at hj
      cases hj
  | _ => first | rfl | exact hj

theorem eq_of_isFresh (h : Pass token l k i ds j) (hj : j.isFresh) : i.isFresh ∧ ds = [] := by
  cases h with
  | rest => exact ⟨hj, rfl⟩
  | _ => cases hj

/-- Nothing is dialed, and no retry granted. -/
theorem plain (h : Pass token l k i ds j) {x : Deed} (hx : x ∈ ds) : x.isDial = false ∧ ∀ info, x ≠ .met info true := by
  cases h with
  | rest | late | noDial | fault | found | unfound | giveUp | finish => cases hx
  | _ =>
    rw [List.mem_singleton.1 hx]
    exact ⟨rfl, nofun⟩

/-- Only dials and retries may count. -/
theorem countP_eq (h : Pass token l k i ds j) {p : Deed → Bool} {s : List Deed}
    (hp : ∀ x : Deed, x.isDial = false → (∀ info, x ≠ .met info true) → p x = false) :
    (s ++ ds).countP p = s.countP p := by
  rw [List.countP_append, Nat.add_eq_left, List.countP_eq_zero]
  intro x hx
  obtain ⟨hdial, hmet⟩ := h.plain hx
  rw [hp x hdial hmet]
  exact Bool.false_ne_true

end Pass

section

variable {world : Surroundings} {token : Token} {retryOnClose : Bool}

theorem closure?_setLink {link : Nat} {t : Transport} (h : link < l.links.length) :
    (l.setLink link t).closure? link = t.closure := by
  simp only [closure?, setLink, List.getElem?_set_self h, Option.bind_some]

/-- Closing a connection reports it closed, for its own cause unless there was an earlier one. -/
theorem closure?_report {link : Nat} {info : CloseInfo} {stage : Transport.Closing}
    (h : l.stepClosing link info .report = some (stage, k)) :
    k.closure? link = some ((l.closure? link).getD info) := by
  simp only [Listener.stepClosing, Option.bind_eq_bind, Option.bind_eq_some_iff, Option.some.injEq] at h
  obtain ⟨t, ht, ⟨s, t'⟩, hstep, heq⟩ := h
  obtain ⟨-, hclosure⟩ := Transport.closure_report hstep
  cases heq
  rw [closure?_setLink (List.getElem?_eq_some_iff.1 ht).1, hclosure, closure?, ht, Option.bind_some]

theorem hasReported_stepClosing {link : Nat} {info : CloseInfo} {stage stage' : Transport.Closing}
    (h : l.stepClosing link info stage = some (stage', k)) : stage'.hasReported = (stage != .request) := by
  simp only [Listener.stepClosing, Option.bind_eq_bind, Option.bind_eq_some_iff, Option.some.injEq] at h
  obtain ⟨t, -, ⟨s, t'⟩, hstep, heq⟩ := h
  cases heq
  exact Transport.hasReported_stepClosing hstep

theorem Turn.of_changes {s s' : Station} {ds cs : List Deed} (hchanges : changes l k = cs)
    (h : Turn token retryOnClose l k s (ds ++ cs) s') : Turn token retryOnClose l k s (ds ++ changes l k) s' := by
  rwa [hchanges]

/-- Where nothing changes there is nothing to note but what the stage itself tells. -/
theorem Turn.of_rests {s s' : Station} {ds : List Deed} (hrests : Rests l k)
    (h : Turn token retryOnClose l k s ds s') : Turn token retryOnClose l k s (ds ++ changes l k) s' :=
  .of_changes hrests.changes (by rwa [List.append_nil])

theorem DialingStep.turn {first : Bool} {d d' : Dialing} (h : DialingStep world token l d d' k) :
    Turn token retryOnClose l k (d.station first) (changes l k) (d'.station first) := by
  rw [← List.nil_append (changes l k)]
  cases h with
  | nowhere | noUrl => exact .of_rests (.refl l) (.pass (.refl l) (.noDial rfl))
  | @dial endpoint url d hcurrent _ hd =>
    subst hd
    exact .of_changes (changes_dial ..) (.dial ⟨rfl, rfl, rfl⟩ hcurrent)
  | refused | abandon => exact .of_rests (.refl l) (.pass (.refl l) .fault)
  | opened | abandoned => exact .of_rests ⟨⟨rfl, rfl, rfl⟩, rfl, rfl, rfl⟩ (.pass ⟨rfl, rfl, rfl⟩ .rest)
  | @install link endpoint =>
    unfold Listener.install
    split
    · exact .of_rests (.refl l) (.pass (.refl l) .rest)
    · exact .of_changes (changes_isOpen rfl rfl rfl) (.pass ⟨rfl, rfl, rfl⟩ .rest)
  | keep => exact .of_rests (.refl l) (.pass (.refl l) .rest)
  | announce => exact .of_changes (changes_publish ..) (.pass ⟨rfl, rfl, rfl⟩ .connect)
  | close hclosing =>
    have hrests := Rests.stepClosing hclosing
    exact .of_rests hrests (.pass hrests.toSpares .rest)

/-- A payload is handled without a word, or is the notice that another connection has taken over. -/
theorem handle_turn {link : Nat} {b : Bytes} {chain : Chain} (h : l.handle link b = (chain, k)) :
    Turn token retryOnClose l k (.up link) ((Chain.handling link b).deeds token l) chain.station := by
  have hrests := Rests.handle link b l
  rw [h] at hrests
  unfold handle at h
  simp only [Chain.deeds]
  cases hr : Reaction.ofBytes b with
  | leave =>
    rw [hr] at h
    cases h
    exact .pass hrests.toSpares .notice
  | rekey key =>
    rw [hr] at h
    cases hc : l.connection with
    | none =>
      rw [hc] at h
      cases h
      exact .pass hrests.toSpares .rest
    | some c =>
      rw [hc] at h
      cases h
      exact .pass hrests.toSpares .rest
  | _ =>
    rw [hr] at h
    cases h
    exact .pass hrests.toSpares .rest

theorem grants_eq_false_of_leave {parent : Token} {info : CloseInfo} (h : !l.retryOnClose || l.isCancelled parent) :
    l.grants parent info = false := by
  unfold grants
  cases hr : l.retryOnClose with
  | false => rfl
  | true =>
    rw [hr] at h
    rw [show l.isCancelled parent = true from h]
    rfl

theorem grants_eq {parent : Token} {info : CloseInfo} (h : (!l.retryOnClose || l.isCancelled parent) = false) :
    l.grants parent info = (l.retry.retry info.code).1.isSome := by
  rw [Bool.or_eq_false_iff, Bool.not_eq_false'] at h
  rw [grants, h.1, h.2]
  rfl

theorem Grants.of_retry {parent : Token} {info : CloseInfo} {retry : RetryPolicy} {delay : Nat}
    (h : (!l.retryOnClose || l.isCancelled parent) = false) (hretry : l.retry.retry info.code = (some delay, retry))
    (hk : k.retryOnClose = l.retryOnClose) (hkr : k.retry = retry) : Grants info l k where
  allowed := by
    rw [Bool.or_eq_false_iff, Bool.not_eq_false'] at h
    exact h.1
  retryOnClose := hk
  retry := ⟨delay, hkr ▸ hretry⟩

/-- What a chain does is one of its turns. -/
theorem ChainStep.turn {stage stage' : Chain} (h : ChainStep world token l stage stage' k)
    (hopen : stage.isActive → l.phase.isOpen) (hsober : stage.IsSober) :
    Turn token retryOnClose l k stage.station (stage.deeds token l ++ changes l k) stage'.station := by
  cases h with
  | heed | look | noMessages | noErrors | notClosed | wake | published | yielded | stopped | redial | dialed =>
    exact .of_rests (.refl l) (.pass (.refl l) .rest)
  | take | takeError => exact .of_rests ⟨⟨rfl, rfl, rfl⟩, rfl, rfl, rfl⟩ (.pass ⟨rfl, rfl, rfl⟩ .rest)
  | @closed link t info ht hclosure =>
    refine .of_rests ⟨⟨rfl, rfl, rfl⟩, rfl, rfl, rfl⟩ (.pass ⟨rfl, rfl, rfl⟩ (.found ?_))
    rw [closure?, ht, Option.bind_some, hclosure]
  | @confirmed link deadline t info ht hclosure =>
    refine .of_rests ⟨⟨rfl, rfl, rfl⟩, rfl, rfl, rfl⟩ (.pass ⟨rfl, rfl, rfl⟩ (.found ?_))
    rw [closure?, ht, Option.bind_some, hclosure]
  | @unconfirmed link deadline t ht hclosure =>
    refine .of_rests ⟨⟨rfl, rfl, rfl⟩, rfl, rfl, rfl⟩ (.pass ⟨rfl, rfl, rfl⟩ (.unfound ?_))
    rw [closure?, ht, Option.bind_some, hclosure]
  | @handle link b _ _ hhandle =>
    have hrests := Rests.handle link b l
    rw [hhandle] at hrests
    exact .of_rests hrests (handle_turn hhandle)
  | @publish link e r ping =>
    exact .of_changes (changes_publish ..) (.pass ⟨rfl, rfl, rfl⟩ (.publish (hsober e (List.mem_cons_self ..))))
  | beginPing => exact .of_rests ⟨⟨rfl, rfl, rfl⟩, rfl, rfl, rfl⟩ (.pass ⟨rfl, rfl, rfl⟩ .rest)
  | @yield link stage stage' _ hclosing =>
    have hrests := Rests.stepClosing hclosing
    refine .of_rests hrests ?_
    have hreported := hasReported_stepClosing hclosing
    cases stage with
    | request =>
      simp only [Chain.station, hreported]
      exact .pass hrests.toSpares .rest
    | report =>
      simp only [Chain.station, hreported]
      exact .pass hrests.toSpares (.cut (closure?_report hclosing))
    | _ =>
      simp only [Chain.station, hreported]
      exact .pass hrests.toSpares .rest
  | stop hclosing =>
    have hrests := Rests.stepClosing hclosing
    exact .of_rests hrests (.pass hrests.toSpares .rest)
  | drop =>
    unfold Listener.drop
    cases l.connection <;> exact .of_changes (changes_isOpen rfl rfl rfl) (.pass ⟨rfl, rfl, rfl⟩ .rest)
  | announce => exact .of_changes (changes_publish ..) (.pass ⟨rfl, rfl, rfl⟩ .disconnect)
  | leave hleave =>
    simp only [Chain.deeds, grants_eq_false_of_leave hleave]
    exact .of_rests (.refl l) (.pass (.refl l) .deny)
  | spent hstay hretry =>
    obtain rfl := RetryPolicy.eq_of_retry_none hretry
    simp only [Chain.deeds, grants_eq hstay, hretry]
    exact .of_rests ⟨⟨rfl, rfl, rfl⟩, rfl, rfl, rfl⟩ (.pass ⟨rfl, rfl, rfl⟩ .deny)
  | stay hstay hretry hrotates =>
    simp only [Chain.deeds, grants_eq hstay, hretry]
    exact .of_changes (changes_isOpen rfl rfl rfl) (.stay (.of_retry hstay hretry rfl rfl) hrotates rfl)
  | rotate hstay hretry hrotates hrotate =>
    simp only [Chain.deeds, grants_eq hstay, hretry]
    exact .of_changes (changes_isOpen rfl rfl rfl) (.rotate (.of_retry hstay hretry rfl rfl) hrotates hrotate)
  | exhaust hstay hretry hrotates hrotate =>
    simp only [Chain.deeds, grants_eq hstay, hretry]
    exact .of_changes (Eq.trans (changes_same rfl rfl) (shutting_same rfl))
      (.exhaust (.of_retry hstay hretry rfl rfl) hrotates hrotate rfl)
  | exhausted => exact .of_changes (changes_publish ..) (.pass ⟨rfl, rfl, rfl⟩ .report)
  | giveUp => exact .of_rests (.refl l) (.pass (.refl l) .giveUp)
  | @dial info d d' _ hd =>
    cases d with
    | finished r => cases hd
    | _ => exact hd.turn
  | dialCancelled => exact .of_rests (.refl l) (.pass (.refl l) .abandon)
  | dialFailed => exact .of_rests (.refl l) (.pass (.refl l) .fail)
  | complain => exact .of_changes (changes_publish ..) (.pass ⟨rfl, rfl, rfl⟩ .complain)
  | enter =>
    exact .of_changes (changes_shut (hopen rfl)) (.pass ⟨rfl, rfl, rfl⟩ .enter)
  | farewell => exact .of_changes (changes_publish ..) (.pass ⟨rfl, rfl, rfl⟩ .farewell)
  | closeStreams => exact .of_rests ⟨⟨rfl, rfl, rfl⟩, rfl, rfl, rfl⟩ (.pass ⟨rfl, rfl, rfl⟩ .rest)
  | finish =>
    refine .of_rests ⟨⟨rfl, rfl, rfl⟩, rfl, rfl, rfl⟩ (.pass ⟨rfl, rfl, rfl⟩ (.finish ?_))
    simp [isCancelled, Listener.cancel, Cancellation.isCancelled_cancel]

theorem StartStep.turn {stage stage' : Starting} (h : StartStep world token retryOnClose l stage stage' k)
    (hopen : stage.isActive → l.phase.isOpen) (hspawn : (Work.start token retryOnClose stage).isSpawning = false) :
    Turn token retryOnClose l k stage.station (changes l k) stage'.station := by
  rw [← List.nil_append (changes l k)]
  cases h with
  | late | refuse => exact .of_rests (.refl l) (.pass (.refl l) (.late rfl))
  | check => exact .of_rests (.refl l) (.pass (.refl l) .rest)
  | claim => exact .of_changes (changes_isOpen rfl rfl rfl) (.claim rfl rfl rfl)
  | reopenTracker | reopenStreams => exact .of_rests ⟨⟨rfl, rfl, rfl⟩, rfl, rfl, rfl⟩ (.pass ⟨rfl, rfl, rfl⟩ .rest)
  | dialed | dialFailed => exact .of_rests (.refl l) (.pass (.refl l) .rest)
  | dial hd => exact hd.turn
  | fail => exact .of_changes (changes_shut (hopen rfl)) (.pass ⟨rfl, rfl, rfl⟩ .refuse)
  | spawn => cases hspawn

/-- Whether a task is part of a chain with that token. -/
def Work.IsOf (token : Token) (retryOnClose : Bool) : Work → Prop
  | .start t b _ => t = token ∧ b = retryOnClose
  | .chain t _ => t = token
  | _ => True

/-- Whatever a task does is a turn of a chain, unless it hands the chain over. -/
theorem WorkStep.turn {w w' : Work} (h : WorkStep world l w w' k) (hof : w.IsOf token retryOnClose)
    (hopen : w.isActive → l.phase.isOpen) (hsober : w.IsSober) (hspawn : w.isSpawning = false) :
    Turn token retryOnClose l k w.station (w.deeds l ++ changes l k) w'.station := by
  cases h with
  | start hs =>
    obtain ⟨rfl, rfl⟩ := hof
    exact hs.turn hopen hspawn
  | stop hs => exact .of_rests hs.rests (.pass hs.rests.toSpares .rest)
  | chain hs =>
    obtain rfl := hof
    exact hs.turn hopen hsober
  | keepalive hs => exact .of_rests hs.rests (.pass hs.rests.toSpares .rest)

end

end Listener

end ChatWire
