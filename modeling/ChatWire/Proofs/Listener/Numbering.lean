import ChatWire.Proofs.Listener.Queues
import ChatWire.Proofs.Listener.Possession
import ChatWire.Proofs.Text.Decimal
import Mathlib.Data.String.Basic

/-! How requests are numbered. The numbers belong to the connection that is held and begin anew with each one; a stamped
request takes the next number whether or not it can be written, and nothing else takes one. -/

namespace ChatWire

namespace Fields

variable {name : String} {value : Json} {fields : Fields}

theorem get?_insert_self (name : String) (value : Json) (fields : Fields) :
    (fields.insert name value).get? name = some value := by
  unfold get?
  induction fields with
  | nil => simp [insert]
  | cons f r ih =>
    rw [insert]
    split_ifs with hlt heq
    · simp
    · simp
    · rw [List.lookup_cons, beq_false_of_ne heq, ih]

/-- All other fields stay as they are. -/
theorem erase_insert (name : String) (value : Json) (fields : Fields) :
    (fields.insert name value).erase name = fields.erase name := by
  unfold erase
  induction fields with
  | nil => simp [insert]
  | cons f r ih =>
    rw [insert]
    split_ifs with hlt heq
    · simp
    · simp [heq]
    · simp only [List.filter_cons, ih]

theorem lt_of_mem_insert {low : String} {f : String × Json} (hlow : low < name) (h : ∀ g ∈ fields, low < g.1)
    (hf : f ∈ fields.insert name value) : low < f.1 := by
  induction fields with
  | nil =>
    cases List.mem_singleton.1 hf
    exact hlow
  | cons g r ih =>
    rw [insert] at hf
    have hr : ∀ g ∈ r, low < g.1 := fun g hg => h g (List.mem_cons_of_mem _ hg)
    split_ifs at hf
    · cases List.mem_cons.1 hf with
      | inl heq => exact heq ▸ hlow
      | inr hmem => exact h f hmem
    · cases List.mem_cons.1 hf with
      | inl heq => exact heq ▸ hlow
      | inr hmem => exact hr f hmem
    · cases List.mem_cons.1 hf with
      | inl heq => exact heq ▸ h g List.mem_cons_self
      | inr hmem => exact ih hr hmem

/-- Names that are in order, each once, stay so. -/
theorem pairwise_insert (name : String) (value : Json) (h : fields.Pairwise fun f g => f.1 < g.1) :
    (fields.insert name value).Pairwise fun f g => f.1 < g.1 := by
  induction fields with
  | nil => exact List.pairwise_singleton ..
  | cons f r ih =>
    obtain ⟨hf, hr⟩ := List.pairwise_cons.1 h
    rw [insert]
    split_ifs with hlt heq
    · refine List.pairwise_cons.2 ⟨fun g hg => ?_, h⟩
      cases List.mem_cons.1 hg with
      | inl heq => exact heq ▸ hlt
      | inr hmem => exact hlt.trans (hf g hmem)
    · exact List.pairwise_cons.2 ⟨heq ▸ hf, hr⟩
    · refine List.pairwise_cons.2 ⟨fun g hg => lt_of_mem_insert ?_ hf hg, ih hr⟩
      exact (lt_trichotomy name f.1).resolve_left hlt |>.resolve_left heq

end Fields

namespace Listener

theorem requestId_injective : Function.Injective requestId := by
  intro m n h
  have htext : toString m = toString n := (String.append_right_inj "req_").1 (Json.str.inj h)
  exact Decimal.toString_injective htext

/-! What is sent, and where it goes. -/

/-- A caller's request, which is to be stamped or not, or a ping. -/
inductive Origin
  | request (h : Header) (data : Fields) (stamp : Bool)
  | ping (time : Int)
  deriving Repr

def Origin.isStamped : Origin → Bool
  | .request _ _ stamp => stamp
  | .ping _ => false

/-- Something reaches the connection `link`, and what is put into its queue if anything is. -/
structure Letter where
  link : Nat
  origin : Origin
  queued : Option WireFrame
  deriving Repr

/-- the frame by which a queue has become longer -/
def gained (t t' : Transport) : Option WireFrame :=
  if t.outbound.length < t'.outbound.length then t'.outbound.getLast? else none

/-- A task that goes on to wait for its next ping has pinged. -/
def pings (world : Surroundings) (l k : Listener) : Work → Work → List Letter
  | .keepalive i _ (.waiting _), .keepalive _ _ (.waiting _) =>
    [⟨i, .ping (world.wallClock l.now), gained (l.linkAt i) (k.linkAt i)⟩]
  | _, _ => []

/-- A request reaches the connection that is held, unless the last chain is cancelled; a ping reaches the one that its
task pings on. -/
def letters (world : Surroundings) (m : Move) (l k : Listener) : List Letter :=
  match m with
  | .send h data stamp =>
    if l.parent.all l.isCancelled then []
    else l.heldLink?.toList.map fun i => ⟨i, .request h data stamp, gained (l.linkAt i) (k.linkAt i)⟩
  | .work n _ =>
    match l.work[n]?, k.work[n]? with
    | some w, some w' => pings world l k w w'
    | _, _ => []
  | _ => []

/-- how many requests that were to be stamped have reached a connection -/
def count (link : Nat) (log : List Letter) : Nat := log.countP fun x => x.link == link && x.origin.isStamped

/-- what has been put into the queue of a connection -/
def queuedOn (link : Nat) (x : Letter) : Option WireFrame := if x.link = link then x.queued else none

/-- The body of a request that is stamped with `n` if it is to be stamped. -/
def stampedBody (n : Nat) (data : Fields) (stamp : Bool) : Fields :=
  if stamp then Fields.insert requestField (requestId n) data else data

/-- What is written for a letter that comes after `n` that were stamped. -/
def Origin.wire (n : Nat) : Origin → WireFrame
  | .request h data stamp => .binary (frame h (stampedBody n data stamp)).encode
  | .ping time => .binary (pingFrame time).encode

section

variable {world : Surroundings} {session : Session} {K : Nat → Option CipherKey} {log : List Letter}
  {l k : Listener}

theorem gained_same {t t' : Transport} (h : t'.outbound = t.outbound) : gained t t' = none := by
  rw [gained, h, if_neg (Nat.lt_irrefl _)]

theorem gained_append {t t' : Transport} {f : WireFrame} (h : t'.outbound = t.outbound ++ [f]) :
    gained t t' = some f := by
  rw [gained, h, List.length_append, List.length_singleton, if_pos (Nat.lt_add_one _), List.getLast?_concat]

theorem gained_write {b : Bytes} {t t' : Transport} {r : Except TransportError Unit}
    (h : t.write .binary b = (r, t')) :
    gained t t' = none ∧ t'.outbound = t.outbound ∨
      gained t t' = some (.binary b) ∧ t'.outbound = t.outbound ++ [.binary b] := by
  rcases t.write_binary_cases b with ⟨e, he⟩ | hok
  · cases h.symm.trans he
    exact .inl ⟨gained_same rfl, rfl⟩
  · cases h.symm.trans hok
    exact .inr ⟨gained_append rfl, rfl⟩

theorem send_of_unreached (h : Header) (data : Fields) (stamp : Bool)
    (hunreached : l.parent.all l.isCancelled ∨ l.connection = none) : (l.send h data stamp).2 = l := by
  unfold send
  split
  · rfl
  · next hlive => simp only [hunreached.resolve_left hlive]

/-- What comes of a request that reaches a connection. -/
theorem send_of_reached (h : Header) (data : Fields) (stamp : Bool) {c : Connection} {t : Transport}
    (hlive : l.parent.all l.isCancelled = false) (hc : l.connection = some c) (ht : l.links[c.link]? = some t) :
    let written := t.write .binary (frame h (stampedBody c.requests data stamp)).encode
    l.send h data stamp = (written.1.mapError (.transport .send),
      { l.setLink c.link written.2 with connection := some { c with requests := c.requests + stamp.toNat } }) := by
  intro written
  unfold send
  rw [hlive]
  simp only [hc]
  cases stamp with
  | false =>
    have hwritten : t.write .binary (frame h data).encode = written := rfl
    simp only [Bool.false_eq_true, if_false, ht, hwritten]
    obtain ⟨_ | _, t'⟩ := written <;> rfl
  | true =>
    have hwritten :
      t.write .binary (frame h (Fields.insert requestField (requestId c.requests) data)).encode = written := rfl
    simp only [Bool.false_eq_true, if_true, if_false, ht, hwritten]
    obtain ⟨_ | _, t'⟩ := written <;> rfl

/-! The connection that is held, with its count. -/

/-- the link of the connection that is held, and how many requests on it were stamped -/
def tally (l : Listener) : Option (Nat × Nat) := l.connection.map fun c => (c.link, c.requests)

theorem tally_of_connection_eq (h : k.connection = l.connection) : k.tally = l.tally := by rw [tally, h, tally]

theorem rekey_tally {key : CipherKey} {c : Connection} (h : l.connection = some c) :
    (l.rekey key c).2.tally = l.tally := by
  unfold rekey tally
  cases c.keepalive <;> by_cases hp : l.session.settings.pingInterval = 0 <;> simp [cancel, hp, h]

theorem handle_tally (link : Nat) (b : Bytes) (l : Listener) : (l.handle link b).2.tally = l.tally := by
  unfold handle
  cases Reaction.ofBytes b with
  | rekey key =>
    cases hc : l.connection with
    | none => rfl
    | some c => exact rekey_tally hc
  | _ => rfl

theorem stepClosing_connection {link : Nat} {info : CloseInfo} {stage stage' : Transport.Closing}
    (h : l.stepClosing link info stage = some (stage', k)) :
    k.connection = l.connection ∧ k.links.length = l.links.length := by
  simp only [stepClosing, Option.bind_eq_bind, Option.bind_eq_some_iff, Option.some.injEq] at h
  obtain ⟨t, -, ⟨s, t'⟩, -, heq⟩ := h
  cases heq
  exact ⟨rfl, List.length_set⟩

theorem drop_connection (l : Listener) : l.drop.connection = none := by
  unfold drop
  cases l.connection <;> rfl

/-- The link of a connection that is about to be held. -/
def Dialing.fresh? : Dialing → Option Nat
  | .opened link _ => some link
  | _ => none

def Work.fresh? : Work → Option Nat
  | .start _ _ (.dialing d) => d.fresh?
  | .chain _ (.dialing _ d) => d.fresh?
  | _ => none

/-- What a step of a task, from `fresh?` to `fresh'?`, does to the connection that is held: nothing, while one may be
made; or a new one is held from then on, with no requests; or none. -/
inductive Rehold (l : Listener) : Option Nat → Option Nat → Listener → Prop
  | same {fresh? : Option Nat} {k : Listener} : k.tally = l.tally → k.links.length = l.links.length →
      Rehold l fresh? none k
  | made {k : Listener} : k.tally = l.tally → k.links.length = l.links.length + 1 →
      Rehold l none (some l.links.length) k
  | hold {link : Nat} {k : Listener} : k.tally = some (link, 0) → k.links.length = l.links.length →
      Rehold l (some link) none k
  | drop {k : Listener} : k.tally = none → k.links.length = l.links.length → Rehold l none none k

theorem install_rehold (parent : Token) (link : Nat) (l : Listener) :
    Rehold l (some link) none (l.install parent link) := by
  unfold install
  split
  · exact .same rfl rfl
  · exact .hold rfl rfl

theorem DialingStep.rehold {parent : Token} {d d' : Dialing} (h : DialingStep world parent l d d' k) :
    Rehold l d.fresh? d'.fresh? k := by
  cases h with
  | opened => exact .made rfl List.length_append
  | install => exact install_rehold ..
  | abandoned => exact .same rfl (List.length_modify ..)
  | close hclosing =>
    obtain ⟨hconnection, hlinks⟩ := stepClosing_connection hclosing
    exact .same (tally_of_connection_eq hconnection) hlinks
  | nowhere | noUrl | dial | refused | abandon | keep | announce => exact .same rfl rfl

theorem ChainStep.rehold {parent : Token} {chain chain' : Chain} (h : ChainStep world parent l chain chain' k) :
    Rehold l (Work.chain parent chain).fresh? (Work.chain parent chain').fresh? k := by
  cases h with
  | take | takeError => exact .same rfl List.length_set
  | closed | confirmed | unconfirmed => exact .same rfl (List.length_modify ..)
  | @handle link b _ _ hhandle =>
    have htally := handle_tally link b l
    have hlinks := congrArg List.length (handle_links link b l)
    rw [hhandle] at htally hlinks
    rcases handle_stage hhandle with rfl | rfl | ⟨es, ping, rfl⟩ <;> exact .same htally hlinks
  | yield hclosing | stop hclosing =>
    obtain ⟨hconnection, hlinks⟩ := stepClosing_connection hclosing
    exact .same (tally_of_connection_eq hconnection) hlinks
  | drop => exact .drop (by rw [tally, drop_connection]; rfl) (congrArg List.length (drop_links l))
  | dial hd => exact hd.rehold
  | _ => exact .same rfl rfl

theorem WorkStep.rehold {w w' : Work} (h : WorkStep world l w w' k) : Rehold l w.fresh? w'.fresh? k := by
  cases h with
  | start hs =>
    cases hs with
    | dial hd => exact hd.rehold
    | _ => exact .same rfl rfl
  | stop hs =>
    cases hs with
    | close hclosing =>
      obtain ⟨hconnection, hlinks⟩ := stepClosing_connection hclosing
      exact .same (tally_of_connection_eq hconnection) hlinks
    | _ => exact .same rfl rfl
  | chain hs => exact hs.rehold
  | keepalive hs =>
    cases hs with
    | ping => exact .same rfl List.length_set
    | _ => exact .same rfl rfl

theorem Work.isActive_of_fresh? {w : Work} {link : Nat} (h : w.fresh? = some link) : w.isActive := by
  cases w with
  | start token retryOnClose stage =>
    cases stage with
    | dialing => rfl
    | _ => cases h
  | chain parent stage =>
    cases stage with
    | dialing => rfl
    | _ => cases h
  | stop | keepalive => cases h

theorem heldLink?_eq_tally (l : Listener) : l.heldLink? = l.tally.map Prod.fst := by
  rw [heldLink?, tally, Option.map_map]
  rfl

/-- The connection that is held counts its stamped requests, and one that is about to be held has none. -/
structure Tallied (log : List Letter) (l : Listener) : Prop where
  held : ∀ {i n}, l.tally = some (i, n) → i < l.links.length ∧ n = count i log
  fresh : ∀ {w i}, w ∈ l.work → w.fresh? = some i → i < l.links.length ∧ count i log = 0 ∧ l.heldLink? ≠ some i
  unmade : ∀ {i}, l.links.length ≤ i → count i log = 0

namespace Tallied

theorem create (session : Session) : Tallied [] (create session) where
  held h := by cases h
  fresh h := absurd h List.not_mem_nil
  unmade _ := rfl

theorem recount {log' : List Letter} (h : Tallied log l) (hcount : ∀ i, count i log' = count i log) :
    Tallied log' l where
  held htally := by
    rw [hcount]
    exact h.held htally
  fresh hw hfresh := by
    rw [hcount]
    exact h.fresh hw hfresh
  unmade hle := (hcount _).trans (h.unmade hle)

/-- Where no task begins to hold a connection. -/
theorem keep (h : Tallied log l) (htally : k.tally = l.tally) (hlinks : l.links.length = k.links.length)
    (hfresh : ∀ {w i}, w ∈ k.work → w.fresh? = some i → w ∈ l.work) : Tallied log k where
  held hk := hlinks ▸ h.held (htally ▸ hk)
  fresh hw hi := by
    rw [heldLink?_eq_tally, htally, ← heldLink?_eq_tally, ← hlinks]
    exact h.fresh (hfresh hw hi) hi
  unmade hle := h.unmade (hlinks.trans_le hle)

theorem work {n : Nat} {w w' : Work} (h : Tallied log l) (hled : Led K l) (hn : l.work[n]? = some w)
    (hstep : WorkStep world l w w' k) : Tallied log (k.setTask n w') := by
  obtain ⟨vs, hvs, hspawned⟩ : ∃ vs, k.work = l.work ++ vs ∧ ∀ v ∈ vs, v.fresh? = none :=
    hstep.exists_spawned_of (fun _ _ => rfl) fun _ _ _ _ => rfl
  -- A task that is about to hold a connection is the one that went on, or it was there before.
  have hbefore {v : Work} {i : Nat} (hv : v ∈ (k.setTask n w').work) (hi : v.fresh? = some i) :
      w'.fresh? = some i ∨ ∃ j, j ≠ n ∧ l.work[j]? = some v := by
    obtain ⟨j, hj⟩ := List.getElem?_of_mem hv
    rcases getElem?_setTask hvs hj with ⟨-, rfl⟩ | ⟨hne, hj⟩ | ⟨-, hj⟩
    · exact .inl hi
    · exact .inr ⟨j, hne, hj⟩
    · cases (hspawned v (List.mem_of_getElem? hj)).symm.trans hi
  have hrehold := hstep.rehold
  generalize hfrom : w.fresh? = before? at hrehold
  generalize hto : w'.fresh? = after? at hrehold hbefore
  cases hrehold with
  | same htally hlinks =>
    refine h.keep htally hlinks.symm fun hv hi => ?_
    obtain hi | ⟨j, -, hj⟩ := hbefore hv hi
    · cases hi
    · exact List.mem_of_getElem? hj
  | made htally hlinks =>
    have hlt {i : Nat} (hi : i < l.links.length) : i < (k.setTask n w').links.length :=
      (Nat.lt_succ_of_lt hi).trans_eq hlinks.symm
    have hheld : (k.setTask n w').heldLink? = l.heldLink? := by
      rw [heldLink?_eq_tally, heldLink?_eq_tally, ← htally]
      rfl
    refine ⟨fun hk => ?_, fun {v i} hv hi => ?_, fun hle => h.unmade ((Nat.le_succ _).trans (hlinks.symm.trans_le hle))⟩
    · obtain ⟨hi, hm⟩ := h.held (htally.symm.trans hk)
      exact ⟨hlt hi, hm⟩
    · rw [hheld]
      obtain hi | ⟨j, -, hj⟩ := hbefore hv hi
      · cases hi
        refine ⟨(Nat.lt_succ_self _).trans_eq hlinks.symm, h.unmade le_rfl, fun heq => ?_⟩
        rw [heldLink?_eq_tally, Option.map_eq_some_iff] at heq
        obtain ⟨⟨i, m⟩, htally, rfl⟩ := heq
        exact Nat.lt_irrefl _ (h.held htally).1
      · obtain ⟨hi, hcount⟩ := h.fresh (List.mem_of_getElem? hj) hi
        exact ⟨hlt hi, hcount⟩
  | hold htally hlinks =>
    obtain ⟨hlink, hcount, -⟩ := h.fresh (List.mem_of_getElem? hn) hfrom
    refine ⟨fun hk => ?_, fun {v i} hv hi => ?_, fun hle => h.unmade (hlinks.symm.trans_le hle)⟩
    · cases htally.symm.trans hk
      exact ⟨hlink.trans_eq hlinks.symm, hcount.symm⟩
    · obtain hi' | ⟨j, hne, hj⟩ := hbefore hv hi
      · cases hi'
      · have hidle := hled.idle_of_ne hn (Work.isActive_of_fresh? hfrom) hne hj
        cases hidle.symm.trans (Work.isActive_of_fresh? hi)
  | drop htally hlinks =>
    refine ⟨fun hk => ?_, fun {v i} hv hi => ?_, fun hle => h.unmade (hlinks.symm.trans_le hle)⟩
    · cases htally.symm.trans hk
    · obtain hi' | ⟨j, -, hj⟩ := hbefore hv hi
      · cases hi'
      · obtain ⟨hlt, hcount, -⟩ := h.fresh (List.mem_of_getElem? hj) hi
        refine ⟨hlt.trans_eq hlinks.symm, hcount, ?_⟩
        have hnone : (k.setTask n w').tally = none := htally
        rw [heldLink?_eq_tally, hnone]
        exact nofun

end Tallied

theorem count_append (i : Nat) (log log' : List Letter) : count i (log ++ log') = count i log + count i log' :=
  List.countP_append

/-- What holds on every run: what was put into the queues and not taken is there still, and it is worded as is due. -/
structure Numbered (log : List Letter) (l : Listener) : Prop where
  tallied : Tallied log l
  queue : ∀ i, (l.linkAt i).outbound <:+ log.filterMap (queuedOn i)
  wording : ∀ {a x b f}, log = a ++ x :: b → x.queued = some f → f = x.origin.wire (count x.link a)

namespace Numbered

theorem create (session : Session) : Numbered [] (create session) where
  tallied := .create session
  queue _ := List.nil_suffix
  wording h := by simp at h

/-- Some letters more, worded as is due. -/
theorem extend {xs : List Letter} (h : Numbered log l) (htallied : Tallied (log ++ xs) k)
    (hqueue : ∀ i, (k.linkAt i).outbound <:+ (l.linkAt i).outbound ++ xs.filterMap (queuedOn i))
    (hwording : ∀ {a x b f}, xs = a ++ x :: b → x.queued = some f → f = x.origin.wire (count x.link (log ++ a))) :
    Numbered (log ++ xs) k where
  tallied := htallied
  queue i := by
    obtain ⟨gone, hgone⟩ := h.queue i
    rw [List.filterMap_append, ← hgone, List.append_assoc]
    exact (hqueue i).trans (List.suffix_append ..)
  wording heq hf := by
    rcases split_append heq with ⟨b', hold, -⟩ | ⟨a', rfl, hnew⟩
    · exact h.wording hold hf
    · exact hwording hnew hf

theorem outbound_setLink {n : Nat} {t t' : Transport} (ht : l.links[n]? = some t) (hout : t'.outbound <:+ t.outbound)
    (i : Nat) : ((l.setLink n t').linkAt i).outbound <:+ (l.linkAt i).outbound :=
  linkAt_setLink (P := fun t t' => t'.outbound <:+ t.outbound) (fun _ => List.suffix_rfl) ht hout i

theorem silent (h : Numbered log l) (htallied : Tallied log k)
    (hqueue : ∀ i, (k.linkAt i).outbound <:+ (l.linkAt i).outbound) : Numbered (log ++ []) k := by
  refine h.extend (by rwa [List.append_nil]) (fun i => ?_) (by simp)
  rw [List.filterMap_nil, List.append_nil]
  exact hqueue i

/-- A letter reaches `link`. -/
theorem letter {x : Letter} (h : Numbered log l) (htallied : Tallied (log ++ [x]) k)
    (hself : (k.linkAt x.link).outbound = (l.linkAt x.link).outbound ++ x.queued.toList)
    (hother : ∀ i, i ≠ x.link → (k.linkAt i).outbound = (l.linkAt i).outbound)
    (hwording : ∀ {f}, x.queued = some f → f = x.origin.wire (count x.link log)) : Numbered (log ++ [x]) k := by
  refine h.extend htallied (fun i => ?_) fun {a y b f} heq hf => ?_
  · by_cases hi : i = x.link
    · subst hi
      rw [hself]
      have hqueued : [x].filterMap (queuedOn x.link) = x.queued.toList := by
        cases hx : x.queued <;> simp [queuedOn, hx]
      rw [hqueued]
    · have hnone : [x].filterMap (queuedOn i) = [] := by simp [queuedOn, Ne.symm hi]
      rw [hother i hi, hnone, List.append_nil]
  · cases a with
    | nil =>
      cases heq
      rw [List.append_nil]
      exact hwording hf
    | cons y a => simp at heq

theorem count_ping (i link : Nat) (time : Int) (queued : Option WireFrame) (log : List Letter) :
    count i (log ++ [⟨link, .ping time, queued⟩]) = count i log := by
  rw [count_append]
  simp [count, Origin.isStamped]

/-- A write to `link` is a letter, whether or not it is taken. -/
theorem write {link : Nat} {b : Bytes} {t t' : Transport} {r : Except TransportError Unit} {origin : Origin}
    (h : Numbered log l) (ht : l.links[link]? = some t) (hwrite : t.write .binary b = (r, t'))
    (hlinks : k.links = (l.setLink link t').links) (hb : .binary b = origin.wire (count link log))
    (htallied : Tallied (log ++ [⟨link, origin, gained (l.linkAt link) (k.linkAt link)⟩]) k) :
    Numbered (log ++ [⟨link, origin, gained (l.linkAt link) (k.linkAt link)⟩]) k := by
  have hl : l.linkAt link = t := linkAt_eq ht
  have hk : k.linkAt link = t' := (linkAt_of_links_eq hlinks link).trans (linkAt_setLink_self ht)
  refine h.letter htallied ?_ (fun i hi => ?_) fun hf => ?_
  · dsimp only
    rw [hl, hk]
    rcases gained_write hwrite with ⟨hgained, hout⟩ | ⟨hgained, hout⟩
    · rw [hgained, hout]
      exact (List.append_nil _).symm
    · rw [hgained, hout]
      rfl
  · rw [linkAt_of_links_eq hlinks, linkAt_setLink_ne hi]
  · dsimp only at hf ⊢
    rw [hl, hk] at hf
    rcases gained_write hwrite with ⟨hgained, -⟩ | ⟨hgained, -⟩
    · cases hgained.symm.trans hf
    · cases hgained.symm.trans hf
      exact hb

theorem pings_of_idle {w w' : Work} (h : w.disturbs w' = false) : pings world l k w w' = [] := by
  unfold pings
  split
  · cases h
  · rfl

theorem work {n : Nat} {w w' : Work} (h : Numbered log l) (hled : Led K l) (hn : l.work[n]? = some w)
    (hstep : WorkStep world l w w' k) :
    Numbered (log ++ pings world l (k.setTask n w') w w') (k.setTask n w') := by
  have htallied := h.tallied.work hled hn hstep
  cases hstep.disturbs with
  | nothing hidle hsame =>
    rw [pings_of_idle hidle]
    exact h.silent htallied fun i => (hsame i).outbound ▸ List.suffix_rfl
  | @take parent link t b rest ht hinbound =>
    exact h.silent htallied (outbound_setLink ht List.suffix_rfl)
  | ping ht hwrite => exact h.write ht hwrite rfl rfl (htallied.recount fun _ => count_ping ..)

theorem count_request {link i : Nat} {h : Header} {data : Fields} {stamp : Bool} {queued : Option WireFrame}
    {log : List Letter} :
    count i (log ++ [⟨link, .request h data stamp, queued⟩]) = count i log + if link = i then stamp.toNat else 0 := by
  rw [count_append]
  by_cases hi : link = i <;> cases stamp <;> simp [count, Origin.isStamped, hi]

theorem send {header : Header} {data : Fields} {stamp : Bool} {c : Connection} (h : Numbered log l)
    (hc : l.connection = some c) (hk : k.connection = some { c with requests := c.requests + stamp.toNat })
    (hwork : k.work = l.work) {t t' : Transport} {r : Except TransportError Unit} (ht : l.links[c.link]? = some t)
    (hwrite : t.write .binary (frame header (stampedBody c.requests data stamp)).encode = (r, t'))
    (hlinks : k.links = (l.setLink c.link t').links) :
    Numbered (log ++ [⟨c.link, .request header data stamp, gained (l.linkAt c.link) (k.linkAt c.link)⟩]) k := by
  have hlength : k.links.length = l.links.length := (congrArg List.length hlinks).trans List.length_set
  have hheld : l.heldLink? = some c.link := by
    rw [heldLink?, hc]
    rfl
  obtain ⟨hlt, hcount⟩ := h.tallied.held (i := c.link) (n := c.requests) (by rw [tally, hc]; rfl)
  refine h.write ht hwrite hlinks (by rw [Origin.wire, ← hcount])
    ⟨fun {i n} hi => ?_, fun {w i} hw hi => ?_, fun {i} hi => ?_⟩
  · rw [tally, hk] at hi
    cases hi
    refine ⟨hlt.trans_eq hlength.symm, ?_⟩
    rw [count_request, if_pos rfl, hcount]
  · obtain ⟨hlti, hcounti, hne⟩ := h.tallied.fresh (hwork ▸ hw) hi
    have hlink : c.link ≠ i := fun heq => hne (heq ▸ hheld)
    refine ⟨hlti.trans_eq hlength.symm, ?_, ?_⟩
    · rw [count_request, if_neg hlink, hcounti]
    · rw [heldLink?, hk]
      exact fun heq => hlink (Option.some.inj heq)
  · rw [count_request, if_neg (hlt.trans_le (hlength.symm.trans_le hi)).ne, h.tallied.unmade (hlength.symm.trans_le hi)]

theorem step {m : Move} (h : Numbered log l) (hled : Led K l) (hstep : l.step world m = some k) :
    Numbered (log ++ letters world m l k) k := by
  cases step_concerns hstep with
  | reader ht hreader =>
    refine h.silent (h.tallied.keep rfl List.length_set.symm fun hw _ => hw) (outbound_setLink ht ?_)
    rw [hreader.outbound]
  | writer ht hwriter =>
    exact h.silent (h.tallied.keep rfl List.length_set.symm fun hw _ => hw) (outbound_setLink ht hwriter.outbound)
  | @work n c w w' k hn hwork =>
    rw [letters, hn, getElem?_setTask_self w' (hwork.lt_length hn)]
    exact h.work hled hn hwork
  | @send header data stamp =>
    cases hlive : l.parent.all l.isCancelled with
    | true =>
      rw [send_of_unreached header data stamp (.inl hlive), letters, if_pos hlive]
      exact h.silent h.tallied fun _ => List.suffix_rfl
    | false =>
      cases hc : l.connection with
      | none =>
        have hnone : l.heldLink? = none := by rw [heldLink?, hc]; rfl
        rw [send_of_unreached header data stamp (.inr hc), letters, hlive, hnone]
        exact h.silent h.tallied fun _ => List.suffix_rfl
      | some c =>
        have hsome : l.heldLink? = some c.link := by rw [heldLink?, hc]; rfl
        obtain ⟨hlt, -⟩ := h.tallied.held (i := c.link) (n := c.requests) (by rw [tally, hc]; rfl)
        have ht := List.getElem?_eq_getElem hlt
        have hsend := send_of_reached header data stamp hlive hc ht
        rw [letters, hlive, hsome]
        refine h.send hc ?_ ?_ ht rfl ?_
        · rw [hsend]
        · rw [hsend]
          rfl
        · rw [hsend]
          rfl
  | aside haside hsame hlength hconnection hwork hfresh =>
    have hletters : letters world m l k = [] := by
      cases m with
      | reader | writer | work | send => cases haside
      | _ => rfl
    rw [hletters]
    refine h.silent (h.tallied.keep (tally_of_connection_eq hconnection) hlength.symm fun {w i} hw hi => ?_)
      fun i => (hsame i).outbound ▸ List.suffix_rfl
    rw [hwork] at hw
    cases List.mem_append.1 hw with
    | inl hold => exact hold
    | inr hnew =>
      obtain ⟨token, retryOnClose, rfl⟩ | rfl := Work.eq_of_isFresh (hfresh w hnew) <;> cases hi

end Numbered

theorem numbered_of_recorded (h : Schedule.Recorded (step world) (letters world) (create session) log l) :
    Numbered log l := by
  induction h with
  | start => exact .create session
  | step hbefore hstep ih =>
    obtain ⟨notes, hnoted⟩ := noted_of_recorded hbefore
    obtain ⟨K, hled⟩ := hnoted.based.led
    exact ih.step hled hstep

/-- A connection that has just come to be held has no requests. -/
theorem Tallied.begins {m : Move} {c : Connection} (h : Tallied log l) (hstep : l.step world m = some k)
    (hc : k.connection = some c) (hne : l.heldLink? ≠ some c.link) : c.requests = 0 ∧ count c.link log = 0 := by
  have htally : k.tally = some (c.link, c.requests) := by
    rw [tally, hc]
    rfl
  have hheld : k.heldLink? ≠ l.heldLink? := by
    rw [heldLink?_eq_tally k, htally]
    exact hne.symm
  cases step_concerns hstep with
  | reader | writer => exact absurd rfl hheld
  | send => exact absurd (heldLink?_of_held (Quiet.send ..).held) hheld
  | aside _ _ _ hconnection =>
    rw [heldLink?, hconnection] at hheld
    exact absurd rfl hheld
  | @work n _ w w' k hn hwork =>
    have hheld : k.heldLink? ≠ l.heldLink? := hheld
    have htally : k.tally = some (c.link, c.requests) := htally
    have hrehold := hwork.rehold
    generalize hfrom : w.fresh? = before? at hrehold
    generalize w'.fresh? = after? at hrehold
    rw [heldLink?_eq_tally, heldLink?_eq_tally] at hheld
    cases hrehold with
    | same hsame | made hsame => exact absurd (congrArg _ hsame) hheld
    | hold hhold =>
      obtain ⟨hlink, hrequests⟩ := Prod.mk.inj (Option.some.inj (htally.symm.trans hhold))
      exact ⟨hrequests, hlink ▸ (h.fresh (List.mem_of_getElem? hn) hfrom).2.1⟩
    | drop hdrop => cases htally.symm.trans hdrop

/-- What the queue has got for a letter that comes after `n` that were stamped: the caller's header, and his fields as
they are, but for the number that a stamped request bears. -/
def Carries (n : Nat) (f : WireFrame) : Origin → Prop
  | .request h data stamp => ∃ bytes fields, f = .binary bytes ∧
      Frame.decode? bytes = some ⟨h, Text.toBytes (Json.obj fields).render⟩ ∧
      if stamp then
        Fields.get? requestField fields = some (requestId n) ∧
          Fields.erase requestField fields = Fields.erase requestField data ∧
          ((data.Pairwise fun f g => f.1 < g.1) → fields.Pairwise fun f g => f.1 < g.1)
      else fields = data
  | .ping time => f = .binary (pingFrame time).encode

theorem Origin.carries_wire (n : Nat) (x : Origin) : Carries n (x.wire n) x := by
  cases x with
  | ping time => rfl
  | request h data stamp =>
    refine ⟨_, stampedBody n data stamp, rfl, Frame.decode?_encode _, ?_⟩
    cases stamp with
    | false => rfl
    | true => exact ⟨Fields.get?_insert_self .., Fields.erase_insert .., Fields.pairwise_insert _ _⟩

theorem Numbered.carries {a b : List Letter} {x : Letter} {f : WireFrame} (h : Numbered log l)
    (heq : log = a ++ x :: b) (hf : x.queued = some f) : Carries (count x.link a) f x.origin := by
  rw [h.wording heq hf]
  exact x.origin.carries_wire _

/-- A stamped request leaves a higher number to those after it. -/
theorem count_lt {a b : List Letter} {x : Letter} (hx : x.origin.isStamped) :
    count x.link a < count x.link (a ++ x :: b) := by
  have hone : 0 < count x.link (x :: b) := List.countP_pos_iff.2 ⟨x, List.mem_cons_self, by simp [hx]⟩
  rw [count_append]
  omega

/-- On every run, with requests from wherever they come: one that reaches no connection changes nothing; one that
reaches a connection is written with the next number of that connection if it is to be stamped, and the number is taken
whether the write succeeds or fails. A connection that has just come to be held has no requests. What the queues have
got is what the callers sent, and the numbers on one connection go up in the order of its queue. -/
theorem requests_are_numbered (h : Schedule.Recorded (step world) (letters world) (create session) log l) :
    (∀ (header : Header) (data : Fields) (stamp : Bool), (l.parent.all l.isCancelled ∨ l.connection = none) →
      (l.send header data stamp).2 = l) ∧
    (∀ (header : Header) (data : Fields) (stamp : Bool) (c : Connection), l.parent.all l.isCancelled = false →
      l.connection = some c → ∃ t, l.links[c.link]? = some t ∧
        let written := t.write .binary (frame header (stampedBody (count c.link log) data stamp)).encode
        l.send header data stamp = (written.1.mapError (.transport .send),
          { l.setLink c.link written.2 with
            connection := some { c with requests := count c.link log + stamp.toNat } })) ∧
    (∀ (m : Move) (k : Listener) (c : Connection), l.step world m = some k → k.connection = some c →
      l.heldLink? ≠ some c.link → c.requests = 0 ∧ count c.link log = 0) ∧
    (∀ (a b : List Letter) (x : Letter) (f : WireFrame), log = a ++ x :: b → x.queued = some f →
      Carries (count x.link a) f x.origin) ∧
    (∀ (a b c : List Letter) (x y : Letter) (f g : WireFrame), log = a ++ x :: (b ++ y :: c) → x.link = y.link →
      x.origin.isStamped → y.origin.isStamped → x.queued = some f → y.queued = some g →
        ∃ m n : Nat, m < n ∧ requestId m ≠ requestId n ∧ Carries m f x.origin ∧ Carries n g y.origin) ∧
    ∀ i : Nat, ∃ gone, log.filterMap (queuedOn i) = gone ++ (l.linkAt i).outbound := by
  have hnumbered := numbered_of_recorded h
  refine ⟨send_of_unreached, fun header data stamp c hlive hc => ?_, fun m k c hstep hc hne => ?_,
    fun a b x f heq hf => hnumbered.carries heq hf, fun a b c x y f g heq hlink hx hy hf hg => ?_, fun i => ?_⟩
  · obtain ⟨hlt, hcount⟩ := hnumbered.tallied.held (i := c.link) (n := c.requests) (by rw [tally, hc]; rfl)
    have ht := List.getElem?_eq_getElem hlt
    refine ⟨_, ht, ?_⟩
    rw [← hcount]
    exact send_of_reached header data stamp hlive hc ht
  · exact hnumbered.tallied.begins hstep hc hne
  · have hlt : count x.link a < count y.link (a ++ x :: b) := hlink ▸ count_lt hx
    have heq' : log = (a ++ x :: b) ++ y :: c := by rw [heq, List.append_assoc, List.cons_append]
    exact ⟨_, _, hlt, fun hid => hlt.ne (requestId_injective hid), hnumbered.carries heq hf, hnumbered.carries heq' hg⟩
  · obtain ⟨gone, hgone⟩ := hnumbered.queue i
    exact ⟨gone, hgone.symm⟩

/-- Three requests, of which the second one is not stamped. The first one brings a number of its own. -/
def requestMoves : List Move :=
  [.send (.oldMessages .user) [("a", .null), ("req_id", .str "req_7")] true, .send .ping [("b", .null)] false,
    .send (.oldReactions .group) (backfillBody none) true]

/-- Whether three requests, of which the second one was not stamped, are in the queue. -/
def hasRequests (r : List Letter × Listener) : Bool :=
  match r.1 with
  | [⟨0, .request _ _ true, some _⟩, ⟨0, .request _ _ false, some _⟩, ⟨0, .request _ _ true, some _⟩] => true
  | _ => false

/-- The second one takes no number. -/
theorem requests_are_numbered_thrice : ∃ log l x u y f g,
    Schedule.Recorded (step openWorld) (letters openWorld) (create scantSession) log l ∧ log = [x, u, y] ∧
      x.queued = some f ∧ y.queued = some g ∧ x.origin.isStamped ∧ y.origin.isStamped ∧
        Carries 0 f x.origin ∧ Carries 1 g y.origin := by
  have hran : (Schedule.record (step openWorld) (letters openWorld) (dialedMoves requestMoves)
      ([], create scantSession)).any hasRequests = true := by decide +kernel
  obtain ⟨log, l, hrecorded, hhas⟩ := Schedule.exists_recorded hran
  obtain ⟨-, -, -, hcarries, -⟩ := requests_are_numbered hrecorded
  unfold hasRequests at hhas
  split at hhas
  · next h data f h' data' v h'' data'' g hlog =>
    have hlog : log = _ := hlog
    refine ⟨log, l, _, _, _, f, g, hrecorded, hlog, rfl, rfl, rfl, rfl, ?_, ?_⟩
    · exact hcarries [] _ _ f hlog rfl
    · exact hcarries [_, _] [] _ g hlog rfl
  · cases hhas

end

end Listener

end ChatWire
