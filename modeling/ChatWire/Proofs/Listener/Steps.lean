import ChatWire.Listener.Step
import Mathlib.Tactic

/-! What one step of a task can be. Each relation lists all the ways in which a kind of task goes on, with what
each of them asks of the listener and makes of it. -/

namespace ChatWire.Listener

variable (world : Surroundings) (parent : Token)

inductive DialingStep (l : Listener) : Dialing → Dialing → Listener → Prop
  | nowhere : l.rotation.current? = none →
      DialingStep l .select (.finished (.error (.session .selectEndpoint .noEndpoints))) l
  | noUrl {endpoint : String} {e : SessionError} : l.rotation.current? = some endpoint →
      l.session.handshakeUrl endpoint (world.wallClock l.now) = .error e →
        DialingStep l .select (.finished (.error (.session .handshakeUrl e))) l
  | dial {endpoint url : String} {d : Dial} : l.rotation.current? = some endpoint →
      l.session.handshakeUrl endpoint (world.wallClock l.now) = .ok url →
        d = ⟨endpoint, url, l.session.handshakeHeaders (world.wallClock l.now / second)⟩ →
          DialingStep l .select
            (.waiting (world.dial l.dials.length d) endpoint (l.now + (world.dial l.dials.length d).delay))
            { l with dials := l.dials ++ [d] }
  | refused {plan : DialPlan} {endpoint : String} {due : Nat} {e : TransportError} : due ≤ l.now →
      plan.refusal = some e →
        DialingStep l (.waiting plan endpoint due) (.finished (.error (.transport .dial e))) l
  | opened {plan : DialPlan} {endpoint : String} {due : Nat} : due ≤ l.now → plan.refusal = none →
      DialingStep l (.waiting plan endpoint due) (.opened l.links.length endpoint)
        { l with links := l.links ++ [.opened l.fault] }
  | install {link : Nat} {endpoint : String} :
      DialingStep l (.opened link endpoint) (.installed link endpoint) (l.install parent link)
  | abandon {link : Nat} {endpoint : String} : l.isCancelled parent →
      DialingStep l (.installed link endpoint) (.abandoning link .request) l
  | keep {link : Nat} {endpoint : String} : l.isCancelled parent = false →
      DialingStep l (.installed link endpoint) (.announcing link endpoint) l
  | announce {link : Nat} {endpoint : String} :
      DialingStep l (.announcing link endpoint) (.finished (.ok link)) (l.publish (.connected endpoint))
  | abandoned {link : Nat} :
      DialingStep l (.abandoning link .done) (.finished (.error .cancelled)) (l.stopListening link)
  | close {link : Nat} {stage stage' : Transport.Closing} {k : Listener} :
      l.stepClosing link ⟨CloseCode.manual, "cancelled during dial"⟩ stage = some (stage', k) →
        DialingStep l (.abandoning link stage) (.abandoning link stage') k

inductive ChainStep (l : Listener) : Chain → Chain → Listener → Prop
  | heed {link : Nat} : l.isCancelled parent → ChainStep l (.receiving link .cancelled) (.stopping link .request) l
  | look {link : Nat} : l.isCancelled parent = false →
      ChainStep l (.receiving link .cancelled) (.receiving link .messages) l
  | take {link : Nat} {t : Transport} {b : Bytes} {rest : List Bytes} : l.links[link]? = some t →
      t.inbound = b :: rest →
        ChainStep l (.receiving link .messages) (.handling link b) (l.setLink link { t with inbound := rest })
  | noMessages {link : Nat} {t : Transport} : l.links[link]? = some t → t.inbound = [] →
      ChainStep l (.receiving link .messages) (.receiving link .errors) l
  | takeError {link : Nat} {t : Transport} {e : TransportError} {rest : List TransportError} :
      l.links[link]? = some t → t.errors = e :: rest →
        ChainStep l (.receiving link .errors) (.publishing link [.error (.transport .write e)] none)
          (l.setLink link { t with errors := rest })
  | noErrors {link : Nat} {t : Transport} : l.links[link]? = some t → t.errors = [] →
      ChainStep l (.receiving link .errors) (.receiving link .closure) l
  | closed {link : Nat} {t : Transport} {info : CloseInfo} : l.links[link]? = some t → t.closure = some info →
      ChainStep l (.receiving link .closure) (.dropping info) (l.stopListening link)
  | notClosed {link : Nat} {t : Transport} : l.links[link]? = some t → t.closure = none →
      ChainStep l (.receiving link .closure) (.receiving link .waiting) l
  | wake {link : Nat} {t : Transport} : l.links[link]? = some t →
      (l.isCancelled parent || !t.inbound.isEmpty || !t.errors.isEmpty || t.closure.isSome) →
        ChainStep l (.receiving link .waiting) (.receiving link .cancelled) l
  | handle {link : Nat} {b : Bytes} {chain : Chain} {k : Listener} : l.handle link b = (chain, k) →
      ChainStep l (.handling link b) chain k
  | publish {link : Nat} {e : Event} {r : List Event} {ping : Option (Nat × Token)} :
      ChainStep l (.publishing link (e :: r) ping) (.publishing link r ping) (l.publish e)
  | beginPing {link on : Nat} {token : Token} :
      ChainStep l (.publishing link [] (some (on, token))) (.receiving link .cancelled)
        (l.spawn (.keepalive on token .starting))
  | published {link : Nat} : ChainStep l (.publishing link [] none) (.receiving link .cancelled) l
  | yielded {link : Nat} : ChainStep l (.yielding link .done) (.receiving link .cancelled) l
  | yield {link : Nat} {stage stage' : Transport.Closing} {k : Listener} :
      l.stepClosing link duplicateClose stage = some (stage', k) →
        ChainStep l (.yielding link stage) (.yielding link stage') k
  | stopped {link : Nat} : ChainStep l (.stopping link .done) (.confirming link (l.now + confirmTimeout)) l
  | stop {link : Nat} {stage stage' : Transport.Closing} {k : Listener} :
      l.stepClosing link manualClose stage = some (stage', k) →
        ChainStep l (.stopping link stage) (.stopping link stage') k
  | confirmed {link deadline : Nat} {t : Transport} {info : CloseInfo} : l.links[link]? = some t →
      t.closure = some info → ChainStep l (.confirming link deadline) (.dropping info) (l.stopListening link)
  | unconfirmed {link deadline : Nat} {t : Transport} : l.links[link]? = some t → t.closure = none →
      deadline ≤ l.now → ChainStep l (.confirming link deadline) (.dropping manualClose) (l.stopListening link)
  | drop {info : CloseInfo} : ChainStep l (.dropping info) (.announcing info) l.drop
  | announce {info : CloseInfo} :
      ChainStep l (.announcing info) (.deciding info) (l.publish (.disconnected info))
  | leave {info : CloseInfo} : (!l.retryOnClose || l.isCancelled parent) →
      ChainStep l (.deciding info) (.finishing info .enter) l
  | spent {info : CloseInfo} {retry : RetryPolicy} : (!l.retryOnClose || l.isCancelled parent) = false →
      l.retry.retry info.code = (none, retry) →
        ChainStep l (.deciding info) (.finishing info .enter) { l with retry }
  | stay {info : CloseInfo} {retry : RetryPolicy} {delay : Nat} :
      (!l.retryOnClose || l.isCancelled parent) = false → l.retry.retry info.code = (some delay, retry) →
        l.rotation.rotatesOn info.code = false →
          ChainStep l (.deciding info) (.sleeping info (l.now + delay)) { l with retry, phase := .reconnecting }
  | rotate {info : CloseInfo} {retry : RetryPolicy} {delay : Nat} {rotation : Rotation} :
      (!l.retryOnClose || l.isCancelled parent) = false → l.retry.retry info.code = (some delay, retry) →
        l.rotation.rotatesOn info.code → l.rotation.rotate = .ok rotation →
          ChainStep l (.deciding info) (.sleeping info (l.now + delay))
            { l with retry, rotation, phase := .reconnecting }
  | exhaust {info : CloseInfo} {retry : RetryPolicy} {delay : Nat} {e : RotationError} :
      (!l.retryOnClose || l.isCancelled parent) = false → l.retry.retry info.code = (some delay, retry) →
        l.rotation.rotatesOn info.code → l.rotation.rotate = .error e →
          ChainStep l (.deciding info) (.exhausted info e) { l with retry }
  | exhausted {info : CloseInfo} {e : RotationError} :
      ChainStep l (.exhausted info e) (.finishing info .enter) (l.publish (.error (.retry e)))
  | giveUp {info : CloseInfo} {due : Nat} : l.isCancelled parent →
      ChainStep l (.sleeping info due) (.finishing info .enter) l
  | redial {info : CloseInfo} {due : Nat} : due ≤ l.now →
      ChainStep l (.sleeping info due) (.dialing info .select) l
  | dial {info : CloseInfo} {d d' : Dialing} {k : Listener} : DialingStep world parent l d d' k →
      ChainStep l (.dialing info d) (.dialing info d') k
  | dialed {info : CloseInfo} {link : Nat} :
      ChainStep l (.dialing info (.finished (.ok link))) (.receiving link .cancelled) l
  | dialCancelled {info : CloseInfo} {e : ListenerError} : l.isCancelled parent →
      ChainStep l (.dialing info (.finished (.error e))) (.finishing info .enter) l
  | dialFailed {info : CloseInfo} {e : ListenerError} : l.isCancelled parent = false →
      ChainStep l (.dialing info (.finished (.error e))) (.complaining e) l
  | complain {e : ListenerError} :
      ChainStep l (.complaining e) (.deciding redialFailed) (l.publish (.error e))
  | enter {info : CloseInfo} :
      ChainStep l (.finishing info .enter) (.finishing info .announce) { l with phase := .closed }
  | farewell {info : CloseInfo} :
      ChainStep l (.finishing info .announce) (.finishing info .closeStreams) (l.publish (.closed info))
  | closeStreams {info : CloseInfo} :
      ChainStep l (.finishing info .closeStreams) (.finishing info .cancel) { l with events := l.events.close }
  | finish {info : CloseInfo} :
      ChainStep l (.finishing info .cancel) .done { l.cancel parent with tracker := l.tracker.exit }

inductive StartStep (retryOnClose : Bool) (l : Listener) : Starting → Starting → Listener → Prop
  | late : l.isCancelled parent → StartStep retryOnClose l .check (.finished (.error .cancelled)) l
  | check : l.isCancelled parent = false → StartStep retryOnClose l .check .claim l
  | claim : l.phase = .idle ∨ l.phase = .closed → StartStep retryOnClose l .claim .reopenTracker
      { l with
        parent := some parent, retryOnClose, retry := l.retry.reset, rotation := l.rotation.reset
        phase := .connecting }
  | refuse : ¬ (l.phase = .idle ∨ l.phase = .closed) →
      StartStep retryOnClose l .claim (.finished (.error .alreadyConnected)) l
  | reopenTracker : StartStep retryOnClose l .reopenTracker .reopenStreams { l with tracker := l.tracker.reopen }
  | reopenStreams : StartStep retryOnClose l .reopenStreams (.dialing .select) { l with events := l.events.reopen }
  | dial {d d' : Dialing} {k : Listener} : DialingStep world parent l d d' k →
      StartStep retryOnClose l (.dialing d) (.dialing d') k
  | dialed {link : Nat} : StartStep retryOnClose l (.dialing (.finished (.ok link))) (.spawning link) l
  | dialFailed {e : ListenerError} : StartStep retryOnClose l (.dialing (.finished (.error e))) (.failing e) l
  | fail {e : ListenerError} : StartStep retryOnClose l (.failing e) (.finished (.error e)) { l with phase := .closed }
  | spawn {link : Nat} : StartStep retryOnClose l (.spawning link) (.finished (.ok ()))
      (l.spawn (.chain parent (.receiving link .cancelled)))

inductive StopStep (l : Listener) : Stopping → Stopping → Listener → Prop
  | look : StopStep l .look (.cancel l.parent (l.connection.map Connection.link)) l
  | cancel {token : Token} {link : Option Nat} : StopStep l (.cancel (some token) link)
      (match link with
        | some n => .closing n .request
        | none => .seal) (l.cancel token)
  | skip {link : Option Nat} : StopStep l (.cancel none link)
      (match link with
        | some n => .closing n .request
        | none => .seal) l
  | close {link : Nat} {stage stage' : Transport.Closing} {k : Listener} :
      l.stepClosing link manualClose stage = some (stage', k) →
        StopStep l (.closing link stage) (.closing link stage') k
  | closed {link : Nat} : StopStep l (.closing link .done) .seal l
  | shut : StopStep l .seal .join { l with tracker := l.tracker.close }
  | join : StopStep l .join (.waiting l.tracker.emptied) l
  | finish {since : Nat} : l.tracker.isReleased since → StopStep l (.waiting since) .finished l

inductive PingStep (link : Nat) (token : Token) (l : Listener) : Pinging → Pinging → Listener → Prop
  | begin : PingStep link token l .starting (.waiting l.now) l
  | leave {due : Nat} : l.isCancelled token →
      PingStep link token l (.waiting due) .done { l with tracker := l.tracker.exit }
  | broken {due : Nat} {t t' : Transport} : due ≤ l.now → l.links[link]? = some t →
      t.write .binary (pingFrame (world.wallClock l.now)).encode = (.error .closed, t') →
        PingStep link token l (.waiting due) .done { l with tracker := l.tracker.exit }
  | ping {due : Nat} {t t' : Transport} {r : Except TransportError Unit} : due ≤ l.now → l.links[link]? = some t →
      t.write .binary (pingFrame (world.wallClock l.now)).encode = (r, t') → r ≠ .error .closed →
        PingStep link token l (.waiting due) (.waiting (nextPing l.now due l.session.settings.pingInterval))
          (l.setLink link t')

inductive WorkStep (l : Listener) : Work → Work → Listener → Prop
  | start {token : Token} {retryOnClose : Bool} {stage stage' : Starting} {k : Listener} :
      StartStep world token retryOnClose l stage stage' k →
        WorkStep l (.start token retryOnClose stage) (.start token retryOnClose stage') k
  | stop {stage stage' : Stopping} {k : Listener} : StopStep l stage stage' k →
      WorkStep l (.stop stage) (.stop stage') k
  | chain {parent : Token} {stage stage' : Chain} {k : Listener} : ChainStep world parent l stage stage' k →
      WorkStep l (.chain parent stage) (.chain parent stage') k
  | keepalive {link : Nat} {token : Token} {stage stage' : Pinging} {k : Listener} :
      PingStep world link token l stage stage' k →
        WorkStep l (.keepalive link token stage) (.keepalive link token stage') k

variable {world parent} {l k : Listener}

theorem stepDialing_cases {d d' : Dialing} (h : l.stepDialing world parent d = some (d', k)) :
    DialingStep world parent l d d' k := by
  cases d with
  | select =>
    have hbegin : l.beginDial world = (d', k) := Option.some.inj h
    unfold beginDial at hbegin
    split at hbegin
    · next hnone =>
      cases hbegin
      exact .nowhere hnone
    · next endpoint hsome =>
      dsimp only at hbegin
      split at hbegin
      · next e herror =>
        cases hbegin
        exact .noUrl hsome herror
      · next url hurl =>
        cases hbegin
        exact .dial hsome hurl rfl
  | waiting plan endpoint due =>
    simp only [stepDialing, Option.ite_none_left_eq_some, Nat.not_lt, Option.some.injEq] at h
    obtain ⟨hdue, hanswer⟩ := h
    unfold answerDial at hanswer
    split at hanswer
    · next e herror =>
      cases hanswer
      exact .refused hdue herror
    · next hnone =>
      cases hanswer
      exact .opened hdue hnone
  | opened link endpoint =>
    cases Option.some.inj h
    exact .install
  | installed link endpoint =>
    cases Option.some.inj h
    split
    · next hc => exact .abandon hc
    · next hc => exact .keep (by simpa using hc)
  | announcing link endpoint =>
    cases Option.some.inj h
    exact .announce
  | abandoning link stage =>
    cases stage with
    | done =>
      cases Option.some.inj h
      exact .abandoned
    | _ =>
      simp only [stepDialing, Option.bind_eq_bind, Option.bind_eq_some_iff] at h
      obtain ⟨⟨s, m⟩, hs, heq⟩ := h
      cases heq
      exact .close hs
  | finished r => cases h

theorem receive_cases {link : Nat} {poll : Poll} {chain : Chain}
    (h : l.receive parent link poll = some (chain, k)) : ChainStep world parent l (.receiving link poll) chain k := by
  simp only [receive, Option.bind_eq_bind, Option.bind_eq_some_iff] at h
  obtain ⟨t, ht, h⟩ := h
  cases poll with
  | cancelled =>
    cases h
    split
    · next hc => exact .heed hc
    · next hc => exact .look (by simpa using hc)
  | messages =>
    dsimp only at h
    split at h
    · next b rest hinbound =>
      cases h
      exact .take ht hinbound
    · next hnil =>
      cases h
      exact .noMessages ht hnil
  | errors =>
    dsimp only at h
    split at h
    · next e rest herrors =>
      cases h
      exact .takeError ht herrors
    · next hnil =>
      cases h
      exact .noErrors ht hnil
  | closure =>
    dsimp only at h
    split at h
    · next info hclosure =>
      cases h
      exact .closed ht hclosure
    · next hnone =>
      cases h
      exact .notClosed ht hnone
  | waiting =>
    dsimp only at h
    split at h
    · next hsome =>
      cases h
      exact .wake ht hsome
    · cases h

theorem decide_cases {info : CloseInfo} {chain : Chain} (h : l.decide parent info = (chain, k)) :
    ChainStep world parent l (.deciding info) chain k := by
  unfold Listener.decide at h
  split at h
  · next hleave =>
    cases h
    exact .leave hleave
  · next hstay =>
    rw [Bool.not_eq_true] at hstay
    split at h
    · next retry hretry =>
      cases h
      exact .spent hstay hretry
    · next delay retry hretry =>
      dsimp only at h
      split at h
      · next hrotates =>
        split at h
        · next rotation hrotate =>
          cases h
          exact .rotate hstay hretry hrotates hrotate
        · next e hrotate =>
          cases h
          exact .exhaust hstay hretry hrotates hrotate
      · next hrotates =>
        cases h
        exact .stay hstay hretry (by simpa using hrotates)

theorem stepChain_cases {c : Choice} {chain chain' : Chain}
    (h : l.stepChain world parent c chain = some (chain', k)) : ChainStep world parent l chain chain' k := by
  match chain, c, h with
  | .receiving link poll, .proceed, h => exact receive_cases h
  | .handling link b, .proceed, h => exact .handle (Option.some.inj h)
  | .publishing link (e :: r) ping, .proceed, rfl => exact .publish
  | .publishing link [] (some (on, token)), .proceed, rfl => exact .beginPing
  | .publishing link [] none, .proceed, rfl => exact .published
  | .yielding link .done, .proceed, rfl => exact .yielded
  | .stopping link .done, .proceed, rfl => exact .stopped
  | .yielding link .request, .proceed, h | .yielding link .report, .proceed, h
  | .yielding link .join, .proceed, h | .yielding link (.waiting _), .proceed, h
  | .yielding link .cancel, .proceed, h =>
    simp only [stepChain, Option.bind_eq_bind, Option.bind_eq_some_iff] at h
    obtain ⟨⟨s, m⟩, hs, heq⟩ := h
    cases heq
    exact .yield hs
  | .stopping link .request, .proceed, h | .stopping link .report, .proceed, h
  | .stopping link .join, .proceed, h | .stopping link (.waiting _), .proceed, h
  | .stopping link .cancel, .proceed, h =>
    simp only [stepChain, Option.bind_eq_bind, Option.bind_eq_some_iff] at h
    obtain ⟨⟨s, m⟩, hs, heq⟩ := h
    cases heq
    exact .stop hs
  | .confirming link deadline, .proceed, h =>
    simp only [stepChain, Option.bind_eq_bind, Option.bind_eq_some_iff] at h
    obtain ⟨t, ht, h⟩ := h
    split at h
    · next info hclosure =>
      cases h
      exact .confirmed ht hclosure
    · next hnone =>
      split at h
      · next hdeadline =>
        cases h
        exact .unconfirmed ht hnone hdeadline
      · cases h
  | .dropping info, .proceed, rfl => exact .drop
  | .announcing info, .proceed, rfl => exact .announce
  | .deciding info, .proceed, h => exact decide_cases (Option.some.inj h)
  | .exhausted info e, .proceed, rfl => exact .exhausted
  | .sleeping info due, .heed, h =>
    simp only [stepChain, Option.ite_none_right_eq_some] at h
    cases h.2
    exact .giveUp h.1
  | .sleeping info due, .proceed, h =>
    simp only [stepChain, Option.ite_none_left_eq_some, Nat.not_lt] at h
    cases h.2
    exact .redial h.1
  | .dialing info (.finished (.ok link)), .proceed, rfl => exact .dialed
  | .dialing info (.finished (.error e)), .proceed, h =>
    cases Option.some.inj h
    split
    · next hc => exact .dialCancelled hc
    · next hc => exact .dialFailed (by simpa using hc)
  | .dialing info .select, .proceed, h | .dialing info (.waiting _ _ _), .proceed, h
  | .dialing info (.opened _ _), .proceed, h | .dialing info (.installed _ _), .proceed, h
  | .dialing info (.announcing _ _), .proceed, h | .dialing info (.abandoning _ _), .proceed, h =>
    simp only [stepChain, Option.bind_eq_bind, Option.bind_eq_some_iff] at h
    obtain ⟨⟨d, m⟩, hd, heq⟩ := h
    cases heq
    exact .dial (stepDialing_cases hd)
  | .complaining e, .proceed, rfl => exact .complain
  | .finishing info .enter, .proceed, rfl => exact .enter
  | .finishing info .announce, .proceed, rfl => exact .farewell
  | .finishing info .closeStreams, .proceed, rfl => exact .closeStreams
  | .finishing info .cancel, .proceed, rfl => exact .finish

theorem stepStart_cases {token : Token} {retryOnClose : Bool} {stage stage' : Starting}
    (h : l.stepStart world token retryOnClose stage = some (stage', k)) :
    StartStep world token retryOnClose l stage stage' k := by
  cases stage with
  | check =>
    cases Option.some.inj h
    split
    · next hc => exact .late hc
    · next hc => exact .check (by simpa using hc)
  | claim =>
    have hclaim : l.claim token retryOnClose = (stage', k) := Option.some.inj h
    unfold Listener.claim at hclaim
    split at hclaim
    · next hphase =>
      cases hclaim
      exact .claim hphase
    · next hphase =>
      cases hclaim
      exact .refuse hphase
  | reopenTracker =>
    cases Option.some.inj h
    exact .reopenTracker
  | reopenStreams =>
    cases Option.some.inj h
    exact .reopenStreams
  | dialing d =>
    cases d with
    | finished result =>
      cases result with
      | ok link =>
        cases Option.some.inj h
        exact .dialed
      | error e =>
        cases Option.some.inj h
        exact .dialFailed
    | _ =>
      simp only [stepStart, Option.bind_eq_bind, Option.bind_eq_some_iff] at h
      obtain ⟨⟨d, m⟩, hd, heq⟩ := h
      cases heq
      exact .dial (stepDialing_cases hd)
  | failing e =>
    cases Option.some.inj h
    exact .fail
  | spawning link =>
    cases Option.some.inj h
    exact .spawn
  | finished => cases h

theorem stepStop_cases {stage stage' : Stopping} (h : l.stepStop stage = some (stage', k)) :
    StopStep l stage stage' k := by
  match stage, h with
  | .look, rfl => exact .look
  | .cancel (some _) _, rfl => exact .cancel
  | .cancel none _, rfl => exact .skip
  | .closing _ .done, rfl => exact .closed
  | .closing link .request, h | .closing link .report, h | .closing link .join, h
  | .closing link (.waiting _), h | .closing link .cancel, h =>
    simp only [stepStop, Option.bind_eq_bind, Option.bind_eq_some_iff] at h
    obtain ⟨⟨s, m⟩, hs, heq⟩ := h
    cases heq
    exact .close hs
  | .seal, rfl => exact .shut
  | .join, rfl => exact .join
  | .waiting since, h =>
    simp only [stepStop, Option.ite_none_right_eq_some] at h
    cases h.2
    exact .finish h.1

theorem stepPing_cases {link : Nat} {token : Token} {c : Choice} {stage stage' : Pinging}
    (h : l.stepPing world link token c stage = some (stage', k)) : PingStep world link token l stage stage' k := by
  match stage, c, h with
  | .starting, .proceed, rfl => exact .begin
  | .waiting next, .heed, h =>
    simp only [stepPing, Option.ite_none_right_eq_some] at h
    cases h.2
    exact .leave h.1
  | .waiting due, .proceed, h =>
    simp only [stepPing, Option.ite_none_left_eq_some, Nat.not_lt, Option.bind_eq_bind,
      Option.bind_eq_some_iff] at h
    obtain ⟨hdue, t, ht, h⟩ := h
    cases hw : t.write .binary (pingFrame (world.wallClock l.now)).encode with
    | mk r t' =>
      rw [hw] at h
      split at h
      · next hr =>
        cases h
        exact .broken hdue ht (by rw [hw]; exact congrArg (·, t') hr)
      · next hr =>
        cases h
        exact .ping hdue ht hw hr

/-- A task goes on as tasks of its kind do. -/
theorem stepWork_cases {c : Choice} {w w' : Work} (h : l.stepWork world c w = some (w', k)) :
    WorkStep world l w w' k := by
  match w, c, h with
  | .start token retryOnClose stage, .proceed, h =>
    simp only [stepWork, Option.map_eq_some_iff] at h
    obtain ⟨⟨s, m⟩, hs, heq⟩ := h
    cases heq
    exact .start (stepStart_cases hs)
  | .stop stage, .proceed, h =>
    simp only [stepWork, Option.map_eq_some_iff] at h
    obtain ⟨⟨s, m⟩, hs, heq⟩ := h
    cases heq
    exact .stop (stepStop_cases hs)
  | .chain parent stage, c, h =>
    simp only [stepWork, Option.map_eq_some_iff] at h
    obtain ⟨⟨s, m⟩, hs, heq⟩ := h
    cases heq
    exact .chain (stepChain_cases hs)
  | .keepalive link token stage, c, h =>
    simp only [stepWork, Option.map_eq_some_iff] at h
    obtain ⟨⟨s, m⟩, hs, heq⟩ := h
    cases heq
    exact .keepalive (stepPing_cases hs)

end ChatWire.Listener
