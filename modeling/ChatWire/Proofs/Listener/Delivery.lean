import ChatWire.Proofs.Listener.Possession
import ChatWire.Proofs.Listener.Queues

/-! What becomes of the payloads of a connection. They are handled in the order in which they were read, and a chain that
leaves a connection because it has closed has handled all that was there when it last looked for payloads. What the
reading task puts there after that look is lost, even if the closing is reported only later. -/

namespace ChatWire.Listener

/-- The reading task of a connection takes a payload from the socket and puts it into the queue; a chain takes it from
there to be handled. A connection is reported closed. A chain looks for payloads in vain, and it leaves a connection that
has been reported closed. -/
inductive Mail
  | taken (link : Nat) (b : Bytes)
  | queued (link : Nat) (b : Bytes)
  | handled (link : Nat) (b : Bytes)
  | reported (link : Nat)
  | looked (task link : Nat)
  | left (task link : Nat)
  deriving DecidableEq, Repr

def Mail.taken? (link : Nat) : Mail → Option Bytes
  | .taken on b => if on = link then some b else none
  | _ => none

def Mail.queued? (link : Nat) : Mail → Option Bytes
  | .queued on b => if on = link then some b else none
  | _ => none

def Mail.handled? (link : Nat) : Mail → Option Bytes
  | .handled on b => if on = link then some b else none
  | _ => none

/-- the payloads that the reading task took from the socket -/
def taken (link : Nat) (log : List Mail) : List Bytes := log.filterMap (Mail.taken? link)

/-- the payloads that were put into the queue -/
def queued (link : Nat) (log : List Mail) : List Bytes := log.filterMap (Mail.queued? link)

/-- the payloads that were handled, or are about to be -/
def handled (link : Nat) (log : List Mail) : List Bytes := log.filterMap (Mail.handled? link)

def reading (link : Nat) : Reader → Reader → List Mail
  | .reading, .delivering b => [.taken link b]
  | .delivering b, .reading => [.queued link b]
  | _, _ => []

def receiving (task : Nat) : Work → Work → List Mail
  | .chain _ (.receiving link .messages), .chain _ (.handling _ b) => [.handled link b]
  | .chain _ (.receiving link .messages), .chain _ (.receiving _ .errors) => [.looked task link]
  | .chain _ (.receiving link .closure), .chain _ (.dropping _) => [.left task link]
  | _, _ => []

/-- what the tasks of the connections and the chains do with payloads -/
def passages (m : Move) (l k : Listener) : List Mail :=
  match m with
  | .reader link _ => reading link (l.linkAt link).reader (k.linkAt link).reader
  | .work n _ =>
    match l.work[n]?, k.work[n]? with
    | some w, some w' => receiving n w w'
    | _, _ => []
  | _ => []

/-- the connections that have just been reported closed -/
def closings (l k : Listener) : List Mail :=
  ((List.range k.links.length).filter fun link => (l.closure? link).isNone && (k.closure? link).isSome).map .reported

def mail (m : Move) (l k : Listener) : List Mail := passages m l k ++ closings l k

section

variable {world : Surroundings} {session : Session} {K : Nat → Option CipherKey} {log xs : List Mail} {l k : Listener}

theorem taken_append (link : Nat) (log xs : List Mail) : taken link (log ++ xs) = taken link log ++ taken link xs :=
  List.filterMap_append

theorem queued_append (link : Nat) (log xs : List Mail) : queued link (log ++ xs) = queued link log ++ queued link xs :=
  List.filterMap_append

theorem handled_append (link : Nat) (log xs : List Mail) :
    handled link (log ++ xs) = handled link log ++ handled link xs := List.filterMap_append

/-- Nothing of this is about the payloads of a connection. -/
def Mute (link : Nat) (xs : List Mail) : Prop := taken link xs = [] ∧ queued link xs = [] ∧ handled link xs = []

theorem mute_nil {link : Nat} : Mute link [] := ⟨rfl, rfl, rfl⟩

theorem mute_closings (link : Nat) (l k : Listener) : Mute link (closings l k) := by
  simp [Mute, taken, queued, handled, closings, Mail.taken?, Mail.queued?, Mail.handled?]

theorem mute_reading {link on : Nat} (h : on ≠ link) (r r' : Reader) : Mute link (reading on r r') := by
  unfold reading
  split <;> simp [Mute, taken, queued, handled, Mail.taken?, Mail.queued?, Mail.handled?, h]

theorem mute_handled {link on : Nat} (h : on ≠ link) (b : Bytes) : Mute link [.handled on b] := by
  simp [Mute, taken, queued, handled, Mail.taken?, Mail.queued?, Mail.handled?, h]

theorem mute_receiving {w w' : Work} (h : w.disturbs w' = false) (n link : Nat) : Mute link (receiving n w w') := by
  unfold receiving
  split
  · cases h
  · exact ⟨rfl, rfl, rfl⟩
  · exact ⟨rfl, rfl, rfl⟩
  · exact ⟨rfl, rfl, rfl⟩

/-! The queues. -/

/-- What the reading task of a connection has in hand, if it has not given up. -/
def InHand (taken queued : List Bytes) : Reader → Prop
  | .delivering b => taken = queued ++ [b]
  | .done => queued <+: taken
  | _ => taken = queued

/-- What was put into the queue has been handled or is there still. -/
structure Queued (link : Nat) (log : List Mail) (t : Transport) : Prop where
  kept : queued link log = handled link log ++ t.inbound
  inHand : InHand (taken link log) (queued link log) t.reader

theorem InHand.initial {taken queued : List Bytes} {r : Reader} (h : InHand taken queued r) : queued <+: taken := by
  cases r with
  | delivering b => exact ⟨[b], h.symm⟩
  | done => exact h
  | _ => exact h ▸ List.prefix_rfl

theorem Queued.initial {link : Nat} {t : Transport} (h : Queued link log t) : handled link log <+: taken link log :=
  (h.kept ▸ List.prefix_append ..).trans h.inHand.initial

theorem Queued.mute {link : Nat} {t t' : Transport} (h : Queued link log t) (hxs : Mute link xs)
    (hsame : Transport.SameInbound t t') : Queued link (log ++ xs) t' := by
  obtain ⟨htaken, hqueued, hhandled⟩ := hxs
  refine ⟨?_, ?_⟩
  · rw [queued_append, handled_append, hqueued, hhandled, List.append_nil, List.append_nil, hsame.inbound]
    exact h.kept
  · rw [taken_append, queued_append, htaken, hqueued, List.append_nil, List.append_nil, hsame.reader]
    exact h.inHand

theorem Queued.take {link : Nat} {b : Bytes} {rest : List Bytes} {t : Transport} (h : Queued link log t)
    (hinbound : t.inbound = b :: rest) : Queued link (log ++ [.handled link b]) { t with inbound := rest } := by
  have hnone : taken link [.handled link b] = [] ∧ queued link [.handled link b] = [] := ⟨rfl, rfl⟩
  have hone : handled link [.handled link b] = [b] := by simp [handled, Mail.handled?]
  refine ⟨?_, ?_⟩
  · rw [queued_append, handled_append, hnone.2, hone, List.append_nil, h.kept, hinbound, List.append_assoc]
    rfl
  · rw [taken_append, queued_append, hnone.1, hnone.2, List.append_nil, List.append_nil]
    exact h.inHand

/-- The reading task goes on without taking a payload or handing one on. -/
theorem Queued.idle {link : Nat} {t t' : Transport} (h : Queued link log t) (hinbound : t'.inbound = t.inbound)
    (hhand : InHand (taken link log) (queued link log) t'.reader) : Queued link (log ++ []) t' := by
  rw [List.append_nil]
  exact ⟨hinbound ▸ h.kept, hhand⟩

theorem Queued.receive {link : Nat} {b : Bytes} {t t' : Transport} (h : Queued link log t)
    (hhand : taken link log = queued link log) (hinbound : t'.inbound = t.inbound) (hreader : t'.reader = .delivering b) :
    Queued link (log ++ [.taken link b]) t' := by
  have hone : taken link [.taken link b] = [b] := by simp [taken, Mail.taken?]
  have hnone : queued link [.taken link b] = [] ∧ handled link [.taken link b] = [] := ⟨rfl, rfl⟩
  refine ⟨?_, ?_⟩
  · rw [queued_append, handled_append, hnone.1, hnone.2, List.append_nil, List.append_nil, hinbound]
    exact h.kept
  · rw [hreader, taken_append, queued_append, hone, hnone.1, List.append_nil, hhand]
    rfl

theorem Queued.deliver {link : Nat} {b : Bytes} {t t' : Transport} (h : Queued link log t)
    (hhand : taken link log = queued link log ++ [b]) (hinbound : t'.inbound = t.inbound ++ [b])
    (hreader : t'.reader = .reading) : Queued link (log ++ [.queued link b]) t' := by
  have hone : queued link [.queued link b] = [b] := by simp [queued, Mail.queued?]
  have hnone : taken link [.queued link b] = [] ∧ handled link [.queued link b] = [] := ⟨rfl, rfl⟩
  refine ⟨?_, ?_⟩
  · rw [queued_append, handled_append, hone, hnone.2, List.append_nil, hinbound, h.kept, List.append_assoc]
  · rw [hreader, taken_append, queued_append, hone, hnone.1, List.append_nil]
    exact hhand

theorem Queued.reader {link : Nat} {c : Choice} {t t' : Transport} (h : Queued link log t)
    (hstep : Transport.ReaderStep t c t') : Queued link (log ++ reading link t.reader t'.reader) t' := by
  have hhand := h.inHand
  cases hstep with
  | leave hreader =>
    rw [hreader] at hhand ⊢
    exact h.idle rfl (hhand ▸ List.prefix_rfl)
  | giveUp hreader | forsaken hreader =>
    rw [hreader] at hhand ⊢
    exact h.idle rfl ⟨_, hhand.symm⟩
  | answer hreader =>
    rw [hreader] at hhand ⊢
    exact h.idle rfl hhand
  | @read f socket hreader =>
    rw [hreader] at hhand ⊢
    cases f with
    | text | binary => exact h.receive hhand rfl rfl
    | ping | pong | close => exact h.idle rfl hhand
  | broken hreader | ended hreader =>
    rw [hreader] at hhand ⊢
    exact h.idle rfl hhand
  | finish hreader =>
    rw [hreader] at hhand ⊢
    exact h.idle rfl (hhand ▸ List.prefix_rfl)
  | deliver hreader =>
    rw [hreader] at hhand ⊢
    exact h.deliver hhand rfl rfl
  | report hreader =>
    rw [hreader] at hhand ⊢
    exact h.idle (Transport.SameQueues.fire _ t).inbound hhand

/-- Every move keeps it so, on every connection. -/
theorem Queued.step {m : Move} (h : ∀ link, Queued link log (l.linkAt link)) (hstep : l.step world m = some k)
    (link : Nat) : Queued link (log ++ mail m l k) (k.linkAt link) := by
  rw [mail, ← List.append_assoc]
  refine Queued.mute ?_ (mute_closings link l k) (.refl _)
  cases step_concerns hstep with
  | @reader n c t t' ht hreader =>
    by_cases hn : n = link
    · subst hn
      have hlink := h n
      rw [passages, linkAt_setLink_self ht]
      rw [linkAt_eq ht] at hlink ⊢
      exact hlink.reader hreader
    · rw [linkAt_setLink_ne (Ne.symm hn)]
      exact (h link).mute (mute_reading hn _ _) (.refl _)
  | writer ht hwriter => exact (h link).mute mute_nil (linkAt_setLink .refl ht hwriter.sameInbound link)
  | @work n c w w' k hn hwork =>
    rw [passages, hn, getElem?_setTask_self w' (hwork.lt_length hn)]
    cases hwork.disturbs with
    | nothing hidle hsame => exact (h link).mute (mute_receiving hidle n link) (hsame link).toSameInbound
    | @take parent on t b rest ht hinbound =>
      by_cases hon : on = link
      · subst hon
        have hlink := h on
        rw [linkAt_eq ht] at hlink
        have hself : ((l.setLink on { t with inbound := rest }).setTask n (.chain parent (.handling on b))).linkAt on =
            { t with inbound := rest } := linkAt_setLink_self ht
        rw [hself]
        exact hlink.take hinbound
      · refine (h link).mute (mute_handled hon b) ?_
        have hother : ((l.setLink on { t with inbound := rest }).setTask n (.chain parent (.handling on b))).linkAt link =
            l.linkAt link := linkAt_setLink_ne (Ne.symm hon)
        rw [hother]
        exact .refl _
    | ping ht hwrite => exact (h link).mute mute_nil (linkAt_setLink .refl ht (.write hwrite) link)
  | send => exact (h link).mute mute_nil (send_sameInbound ..)
  | aside haside hsame =>
    have hpassages : passages m l k = [] := by
      cases m with
      | reader | writer | work | send => cases haside
      | _ => rfl
    rw [hpassages]
    exact (h link).mute mute_nil (hsame link).toSameInbound

/-! What a chain has seen of its connection. -/

/-- A chain has looked for payloads on a connection when all that had been queued was handled, and nothing was handled
since. -/
def LookedOn (n link : Nat) (log : List Mail) : Prop :=
  ∃ a b, log = a ++ .looked n link :: b ∧ handled link log = queued link a

/-- After such a look a chain has left a connection, reported closed because of `info`, and none since. -/
def LeftFor (n : Nat) (info : CloseInfo) (log : List Mail) (l : Listener) : Prop :=
  ∃ (link : Nat) (a b c : List Mail), log = a ++ .looked n link :: (b ++ .left n link :: c) ∧
    handled link log = queued link a ∧ l.closure? link = some info ∧ ∀ on, .left n on ∉ c

/-- What the place of a task says of that. -/
def Work.Seen (n : Nat) (log : List Mail) (l : Listener) : Work → Prop
  | .chain _ (.receiving link .errors) | .chain _ (.receiving link .closure) => LookedOn n link log
  | .chain parent (.stopping ..) | .chain parent (.confirming ..) => l.isCancelled parent
  | .chain parent (.dropping info) | .chain parent (.announcing info) => l.isCancelled parent ∨ LeftFor n info log l
  | _ => True

/-- A task neither handles a payload nor leaves a connection. -/
def Passes (n : Nat) (xs : List Mail) : Prop := (∀ link, handled link xs = []) ∧ ∀ link, .left n link ∉ xs

theorem passes_nil {n : Nat} : Passes n [] := ⟨fun _ => rfl, fun _ => List.not_mem_nil⟩

theorem passes_closings (n : Nat) (l k : Listener) : Passes n (closings l k) := by
  refine ⟨fun link => (mute_closings link l k).2.2, fun link => ?_⟩
  simp [closings]

theorem LookedOn.pass {n link : Nat} (h : LookedOn n link log) (hxs : Passes n xs) : LookedOn n link (log ++ xs) := by
  obtain ⟨a, b, heq, hhandled⟩ := h
  refine ⟨a, b ++ xs, by rw [heq, List.append_assoc, List.cons_append], ?_⟩
  rw [handled_append, hxs.1, List.append_nil, hhandled]

theorem LeftFor.pass {n : Nat} {info : CloseInfo} (h : LeftFor n info log l) (hxs : Passes n xs) (hkeeps : Keeps l k) :
    LeftFor n info (log ++ xs) k := by
  obtain ⟨link, a, b, c, heq, hhandled, hclosure, hlast⟩ := h
  refine ⟨link, a, b, c ++ xs, by simp [heq], ?_, hkeeps.closure hclosure, fun on hmem => ?_⟩
  · rw [handled_append, hxs.1, List.append_nil, hhandled]
  · cases List.mem_append.1 hmem with
    | inl hmem => exact hlast on hmem
    | inr hmem => exact hxs.2 on hmem

/-- What goes on apart from a task changes nothing of what it has seen. -/
theorem Work.Seen.pass {n : Nat} {w : Work} (h : w.Seen n log l) (hxs : Passes n xs) (hkeeps : Keeps l k) :
    w.Seen n (log ++ xs) k := by
  cases w with
  | chain parent stage =>
    cases stage with
    | receiving link poll =>
      cases poll with
      | errors | closure => exact LookedOn.pass h hxs
      | _ => trivial
    | stopping | confirming => exact hkeeps.cancelled parent h
    | dropping | announcing => exact h.imp (hkeeps.cancelled parent) fun hleft => hleft.pass hxs hkeeps
    | _ => trivial
  | _ => trivial

/-- A chain goes on. -/
theorem ChainStep.seen {n : Nat} {parent : Token} {chain chain' : Chain}
    (h : ChainStep world parent l chain chain' k) (hqueued : ∀ link, Queued link log (l.linkAt link))
    (hseen : (Work.chain parent chain).Seen n log l) :
    (Work.chain parent chain').Seen n (log ++ receiving n (.chain parent chain) (.chain parent chain')) k := by
  cases h with
  | heed hc => exact hc
  | @noMessages link t ht hnil =>
    have hkept := (hqueued link).kept
    rw [linkAt_eq ht, hnil, List.append_nil] at hkept
    refine ⟨log, [], rfl, ?_⟩
    rw [handled_append, hkept]
    exact List.append_nil _
  | noErrors => exact LookedOn.pass hseen passes_nil
  | @closed link t info ht hinfo =>
    obtain ⟨a, b, heq, hhandled⟩ := hseen
    refine .inr ⟨link, a, b, [], ?_, ?_, ?_, fun _ => List.not_mem_nil⟩
    · rw [heq, List.append_assoc, List.cons_append]
      rfl
    · rw [handled_append, hhandled]
      exact List.append_nil _
    · exact (Keeps.stopListening link l).closure (Option.bind_eq_some_iff.2 ⟨t, ht, hinfo⟩)
  | stopped => exact hseen
  | stop hclosing => exact (Keeps.stepClosing hclosing).cancelled parent hseen
  | confirmed | unconfirmed => exact .inl hseen
  | drop => exact Work.Seen.pass hseen passes_nil (.drop l)
  | handle hhandle => rcases handle_stage hhandle with rfl | rfl | ⟨es, ping, rfl⟩ <;> trivial
  | _ => trivial

theorem WorkStep.seen {n : Nat} {w w' : Work} (h : WorkStep world l w w' k)
    (hqueued : ∀ link, Queued link log (l.linkAt link)) (hseen : w.Seen n log l) :
    w'.Seen n (log ++ receiving n w w') k := by
  cases h with
  | chain hs => exact hs.seen hqueued hseen
  | start | stop | keepalive => trivial

theorem Work.seen_of_idle {n : Nat} {w : Work} (h : w.isActive = false) : w.Seen n log l := by
  cases w with
  | chain parent stage =>
    cases stage with
    | finishing | done => trivial
    | _ => cases h
  | _ => trivial

theorem receiving_of_idle {n : Nat} {w w' : Work} (h : w.isActive = false) : receiving n w w' = [] := by
  unfold receiving
  split
  · cases h
  · cases h
  · cases h
  · rfl

theorem passes_reading (n link : Nat) (r r' : Reader) : Passes n (reading link r r') := by
  unfold reading
  split <;> simp [Passes, handled, Mail.handled?]

theorem mem_closings {link : Nat} {info : CloseInfo} (hl : l.closure? link = none) (hk : k.closure? link = some info) :
    .reported link ∈ closings l k := by
  refine List.mem_map.2 ⟨link, List.mem_filter.2 ⟨List.mem_range.2 ?_, by simp [hl, hk]⟩, rfl⟩
  obtain ⟨t, ht, -⟩ := Option.bind_eq_some_iff.1 hk
  exact (List.getElem?_eq_some_iff.1 ht).1

/-- What holds on every run. -/
structure Delivered (log : List Mail) (l : Listener) : Prop where
  queued : ∀ link, Queued link log (l.linkAt link)
  reported : ∀ {link : Nat} {info : CloseInfo}, l.closure? link = some info → .reported link ∈ log
  seen : ∀ {n : Nat} {w : Work}, l.work[n]? = some w → w.Seen n log l

theorem Delivered.create (session : Session) : Delivered [] (create session) where
  queued _ := ⟨rfl, rfl⟩
  reported h := by cases h
  seen h := by cases h

theorem Delivered.seen_work {n i : Nat} {w w' v : Work} (h : Delivered log l) (hled : Led K l)
    (hn : l.work[n]? = some w) (hstep : WorkStep world l w w' k) (hi : (k.setTask n w').work[i]? = some v) :
    v.Seen i (log ++ receiving n w w') (k.setTask n w') := by
  obtain ⟨vs, hvs, hspawned⟩ : ∃ vs, k.work = l.work ++ vs ∧ ∀ v ∈ vs, ∀ i log l, v.Seen i log l :=
    hstep.exists_spawned_of (fun _ _ _ _ _ => trivial) fun _ _ _ _ _ _ _ => trivial
  rcases getElem?_setTask hvs hi with ⟨rfl, rfl⟩ | ⟨hne, hold⟩ | ⟨-, hnew⟩
  · have hown := hstep.seen h.queued (h.seen hn)
    have hset : v.Seen i (_ ++ []) (k.setTask i v) := hown.pass passes_nil (.setTask i v k)
    rwa [List.append_nil] at hset
  · cases hv : v.isActive with
    | false => exact Work.seen_of_idle hv
    | true =>
      rw [receiving_of_idle (hled.idle_of_ne hold hv (Ne.symm hne) hn)]
      exact (h.seen hold).pass passes_nil (hstep.keeps.trans (.setTask ..))
  · exact hspawned v (List.mem_of_getElem? hnew) _ _ _

theorem Delivered.step {m : Move} (h : Delivered log l) (hled : Led K l) (hstep : l.step world m = some k) :
    Delivered (log ++ mail m l k) k where
  queued := Queued.step h.queued hstep
  reported {link info} hk := by
    rw [mail, List.mem_append, List.mem_append]
    cases hl : l.closure? link with
    | some own => exact .inl (h.reported hl)
    | none => exact .inr (.inr (mem_closings hl hk))
  seen {i v} hi := by
    rw [mail, ← List.append_assoc]
    refine Work.Seen.pass ?_ (passes_closings i l k) (.refl k)
    rcases exists_work_or m with ⟨n, c, rfl⟩ | hm
    · obtain ⟨w, w', k', hn, hwork, rfl⟩ := step_work hstep
      rw [passages, hn, getElem?_setTask_self w' (hwork.lt_length hn)]
      exact h.seen_work hled hn hwork hi
    · obtain ⟨hkeeps, -, vs, hvs, hfresh⟩ := step_outside hstep hm
      have hpasses : Passes i (passages m l k) := by
        cases m with
        | work n c => exact absurd rfl (hm n c)
        | reader => exact passes_reading ..
        | _ => exact passes_nil
      rw [hvs, List.getElem?_append] at hi
      split_ifs at hi
      · exact (h.seen hi).pass hpasses hkeeps
      · obtain ⟨token, retryOnClose, rfl⟩ | rfl := Work.eq_of_isFresh (hfresh v (List.mem_of_getElem? hi)) <;> trivial

theorem delivered_of_recorded (h : Schedule.Recorded (step world) mail (create session) log l) : Delivered log l := by
  induction h with
  | start => exact .create session
  | step hbefore hstep ih =>
    obtain ⟨notes, hnoted⟩ := noted_of_recorded hbefore
    obtain ⟨K, hled⟩ := hnoted.based.led
    exact ih.step hled hstep

/-! Who announces the loss of a connection. -/

theorem Turn.of_disconnected {token : Token} {retryOnClose : Bool} {info : CloseInfo} {i j : Station} {ds : List Deed}
    (h : Turn token retryOnClose l k i ds j) (hmem : .published (.disconnected info) ∈ ds) : i = .down info := by
  cases h with
  | pass _ hpass =>
    cases hpass with
    | disconnect =>
      cases List.mem_singleton.1 hmem
      rfl
    | publish hsober =>
      cases List.mem_singleton.1 hmem
      cases hsober
    | rest | late | noDial | fault | found | unfound | giveUp | finish => cases hmem
    | _ => cases List.mem_singleton.1 hmem
  | claim => cases hmem
  | _ => cases List.mem_singleton.1 hmem

theorem Dialing.station_ne_down (first : Bool) (d : Dialing) (info : CloseInfo) : d.station first ≠ .down info := by
  cases d with
  | finished r => cases r <;> nofun
  | _ => nofun

theorem Work.of_station_down {w : Work} {info : CloseInfo} (h : w.station = .down info) :
    ∃ parent, w = .chain parent (.dropping info) ∨ w = .chain parent (.announcing info) := by
  cases w with
  | start token retryOnClose stage =>
    cases stage with
    | dialing d => exact absurd h (d.station_ne_down true info)
    | _ => cases h
  | chain parent stage =>
    cases stage with
    | dropping | announcing =>
      cases h
      exact ⟨parent, by simp⟩
    | dialing _ d => exact absurd h (d.station_ne_down false info)
    | yielding link stage => cases stage <;> cases h
    | finishing _ stage => cases stage <;> cases h
    | _ => cases h
  | stop | keepalive => cases h

theorem WorkStep.announces {w w' : Work} {info : CloseInfo} (h : WorkStep world l w w' k)
    (hopen : w.isActive → l.phase.isOpen) (hsober : w.IsSober)
    (hpublished : k.history = l.history ++ [.disconnected info]) : ∃ parent, w = .chain parent (.announcing info) := by
  have hne : k.history ≠ l.history := by simp [hpublished]
  rcases h.work_cases with ⟨hspawn, -⟩ | ⟨token, retryOnClose, link, -, -, rfl⟩
  · obtain ⟨token, retryOnClose, hof⟩ := w.exists_isOf
    have hmem : .published (.disconnected info) ∈ w.deeds l ++ changes l k := by simp [changes, hpublished]
    obtain ⟨parent, rfl | rfl⟩ := Work.of_station_down ((h.turn hof hopen hsober hspawn).of_disconnected hmem)
    · cases h with
      | chain hs => cases hs with | drop => exact absurd ((drop_emits l).history.trans (List.append_nil _)) hne
    · exact ⟨parent, rfl⟩
  · exact absurd rfl hne

theorem step_announces {notes : List Note} {m : Move} {info : CloseInfo} (hbased : Based session notes l)
    (hstep : l.step world m = some k) (hpublished : k.history = l.history ++ [.disconnected info]) :
    ∃ n c parent, m = .work n c ∧ l.work[n]? = some (.chain parent (.announcing info)) := by
  rcases step_cases hstep with ⟨n, c, w, w', k', rfl, hn, hwork, rfl⟩ | ⟨-, hquiet | ⟨v, -, -, -, rfl⟩⟩
  · obtain ⟨K, hled⟩ := hbased.led
    obtain ⟨parent, rfl⟩ := hwork.announces (fun hw => (hled.place hn hw).1)
      (hbased.sober w (List.mem_of_getElem? hn)) hpublished
    exact ⟨n, c, parent, rfl, hn⟩
  · simpa using hquiet.history.symm.trans hpublished
  · simp at hpublished

/-- On every run, whoever steps when: what has been handled of a connection is the first part of what its reading task
took from the socket. The loss of a connection is announced by a chain that, unless it is cancelled, has seen the
connection reported closed; it has handled all that was queued when it last looked for payloads, hence all that was
queued before the closing was reported, unless that was after the look. -/
theorem payloads_are_handled_in_order (h : Schedule.Recorded (step world) mail (create session) log l) :
    (∀ link, handled link log <+: taken link log) ∧
    ∀ (m : Move) (k : Listener) (info : CloseInfo), l.step world m = some k →
      k.history = l.history ++ [.disconnected info] → ∃ (n : Nat) (choice : Choice) (parent : Token),
        m = .work n choice ∧ l.work[n]? = some (.chain parent (.announcing info)) ∧
        (l.isCancelled parent = false → ∃ (link : Nat) (a b c : List Mail),
          log = a ++ .looked n link :: (b ++ .left n link :: c) ∧ (∀ on, .left n on ∉ c) ∧
          l.closure? link = some info ∧ .reported link ∈ log ∧ handled link log = queued link a ∧
          ∀ d e : List Mail, log = d ++ .reported link :: e →
            queued link d <+: handled link log ∨ ∃ f, d = a ++ .looked n link :: f) := by
  have hdelivered := delivered_of_recorded h
  obtain ⟨notes, hnoted⟩ := noted_of_recorded h
  refine ⟨fun link => (hdelivered.queued link).initial, fun m k info hstep hpublished => ?_⟩
  obtain ⟨n, choice, parent, rfl, hn⟩ := step_announces hnoted.based hstep hpublished
  refine ⟨n, choice, parent, rfl, hn, fun hlive => ?_⟩
  obtain hcancelled | ⟨link, a, b, c, heq, hhandled, hclosure, hlast⟩ := hdelivered.seen hn
  · cases hlive.symm.trans hcancelled
  · refine ⟨link, a, b, c, heq, hlast, hclosure, hdelivered.reported hclosure, hhandled, fun d e hreported => ?_⟩
    rw [hhandled]
    rcases split_append (hreported.symm.trans heq) with ⟨b', hd, -⟩ | ⟨a', rfl, -⟩
    · exact .inr ⟨b', hd⟩
    · left
      rw [queued_append]
      exact List.prefix_append ..

theorem step_announcing {n : Nat} {parent : Token} {info : CloseInfo}
    (h : l.work[n]? = some (.chain parent (.announcing info))) : l.step world (.work n .proceed) =
      some ((l.publish (.disconnected info)).setTask n (.chain parent (.deciding info))) := by
  simp only [step, h, Option.bind_eq_bind, Option.bind_some, stepWork, stepChain, Option.map_some]
  rfl

/-- The peer sends a payload and closes, and the reading task takes note of both. -/
def closingMoves : List Move :=
  .peerSend 0 (.binary [1]) :: .peerSend 0 (.close (some ⟨1001, "away"⟩)) :: List.replicate 4 (.reader 0 .proceed)

/-- Whether a chain that is not cancelled is about to announce the loss of its connection. -/
def isAnnouncing (l : Listener) : Bool :=
  match l.work[1]? with
  | some (Work.chain parent (.announcing info)) => !l.isCancelled parent && info == ⟨1001, "away"⟩
  | _ => false

theorem of_isAnnouncing (h : isAnnouncing l) :
    ∃ parent, l.work[1]? = some (.chain parent (.announcing ⟨1001, "away"⟩)) ∧ l.isCancelled parent = false := by
  unfold isAnnouncing at h
  split at h
  · next parent info htask =>
    rw [Bool.and_eq_true, Bool.not_eq_true', beq_iff_eq] at h
    obtain ⟨hlive, rfl⟩ := h
    exact ⟨parent, htask, hlive⟩
  · cases h

/-- The closing is reported before the chain looks: the payload is handled first. -/
theorem payloads_are_handled_in_order_drained :
    ∃ log l k, Schedule.Recorded (step openWorld) mail (create scantSession) log l ∧
      l.step openWorld (.work 1 .proceed) = some k ∧ k.history = l.history ++ [.disconnected ⟨1001, "away"⟩] ∧
      handled 0 log = [[1]] ∧ ∃ (n link : Nat) (a b c : List Mail),
        log = a ++ .looked n link :: (b ++ .left n link :: c) ∧ handled link log = queued link a := by
  have hran : (Schedule.record (step openWorld) mail (dialedMoves (closingMoves ++ List.replicate 10 (.work 1 .proceed)))
      ([], create scantSession)).any (fun r => isAnnouncing r.2 && handled 0 r.1 == [[1]]) = true := by decide +kernel
  obtain ⟨log, l, hrecorded, hend⟩ := Schedule.exists_recorded hran
  rw [Bool.and_eq_true, beq_iff_eq] at hend
  obtain ⟨parent, hchain, hlive⟩ := of_isAnnouncing hend.1
  have hstep : l.step openWorld (.work 1 .proceed) = some _ := step_announcing hchain
  obtain ⟨n, choice, parent', heq, hchain', hleft⟩ := (payloads_are_handled_in_order hrecorded).2 _ _ _ hstep rfl
  cases heq
  cases hchain.symm.trans hchain'
  obtain ⟨link, a, b, c, heq, -, -, -, hhandled, -⟩ := hleft hlive
  exact ⟨log, l, _, hrecorded, hstep, rfl, hend.2, 1, link, a, b, c, heq, hhandled⟩

/-- The payload comes, and then the closing is reported, after the chain has looked for payloads and before it looks
whether the connection has closed: the payload is not handled before the loss of the connection is announced. -/
theorem payloads_are_handled_in_order_late :
    ∃ (log d e : List Mail) (l k : Listener) (parent : Token) (info : CloseInfo),
      Schedule.Recorded (step openWorld) mail (create scantSession) log l ∧
      l.step openWorld (.work 1 .proceed) = some k ∧ k.history = l.history ++ [.disconnected info] ∧
      l.work[1]? = some (.chain parent (.announcing info)) ∧ l.isCancelled parent = false ∧
        log = d ++ .reported 0 :: e ∧ queued 0 d = [[1]] ∧ handled 0 log = [] := by
  have hran : (Schedule.record (step openWorld) mail
      (dialedMoves (List.replicate 2 (.work 1 .proceed) ++ closingMoves ++ List.replicate 3 (.work 1 .proceed)))
      ([], create scantSession)).any (fun r => isAnnouncing r.2 &&
        r.1 == [.looked 1 0, .taken 0 [1], .queued 0 [1], .reported 0, .left 1 0]) = true := by decide +kernel
  obtain ⟨log, l, hrecorded, hend⟩ := Schedule.exists_recorded hran
  rw [Bool.and_eq_true, beq_iff_eq] at hend
  obtain ⟨parent, hchain, hlive⟩ := of_isAnnouncing hend.1
  have hlog : log = _ := hend.2
  subst hlog
  exact ⟨_, [.looked 1 0, .taken 0 [1], .queued 0 [1]], [.left 1 0], l, _, parent, _, hrecorded,
    step_announcing hchain, rfl, hchain, hlive, rfl, rfl, rfl⟩

end

end ChatWire.Listener
