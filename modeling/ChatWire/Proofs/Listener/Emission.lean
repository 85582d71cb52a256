import ChatWire.Proofs.Listener.Handling
import ChatWire.Proofs.Listener.Holding

/-! What the steps of the tasks publish. The events of a batch are owed by the chain that has handled it until
they are published, and nothing else publishes any. -/

namespace ChatWire

/-- Whether an event tells of a batch: an item of it, all of them, or what was wrong with it. -/
def Event.isBatch : Event → Bool
  | .message _ | .undo _ | .oldMessages _ => true
  | .error (.decode op _) => op == .messageBatch || op == .oldMessages
  | _ => false

namespace Listener

def Work.owed : Work → List Event
  | .chain _ stage => stage.owed
  | _ => []

def Dialing.failure? : Dialing → Option ListenerError
  | .finished (.error e) => some e
  | _ => none

/-- the error that a task is going to report -/
def Chain.complaint? : Chain → Option ListenerError
  | .complaining e => some e
  | .dialing _ d => d.failure?
  | _ => none

def Work.complaint? : Work → Option ListenerError
  | .chain _ stage => stage.complaint?
  | _ => none

/-- What is reported of a dial does not tell of a batch. -/
def Work.IsSound (w : Work) : Prop := ∀ e, w.complaint? = some e → (Event.error e).isBatch = false

def Work.isHandling : Work → Bool
  | .chain _ (.handling ..) => true
  | _ => false

def Work.isSpawning : Work → Bool
  | .start _ _ (.spawning _) => true
  | _ => false

/-- `es` are published and `spawned` are started. -/
structure Emits (es : List Event) (spawned : List Work) (l k : Listener) : Prop extends Publishes es l k where
  session : k.session = l.session
  work : k.work = l.work ++ spawned

/-- No event of a batch is lost by a step, and none comes up that was not owed. What is started owes nothing;
only a call that starts a listener starts a chain. -/
def Conserves (w w' : Work) (l k : Listener) : Prop :=
  ∃ es spawned, Emits es spawned l k ∧ (∀ v ∈ spawned, v.owed = [] ∧ v.IsSound ∧ (v.isActive → w.isSpawning)) ∧
    w'.IsSound ∧ (w.isHandling = false → w.owed.filter Event.isBatch = (es ++ w'.owed).filter Event.isBatch)

variable {world : Surroundings} {parent : Token} {l k : Listener}

theorem Quiet.emits {es : List Event} (h : Quiet es l k) : Emits es [] l k :=
  ⟨h.toPublishes, h.session, h.work.trans (List.append_nil _).symm⟩

/-- A step that changes neither what was published nor the tasks. -/
theorem Emits.none (hsession : k.session = l.session) (hpublishes : Publishes [] l k) (hwork : k.work = l.work) :
    Emits [] [] l k := ⟨hpublishes, hsession, hwork.trans (List.append_nil _).symm⟩

theorem isSound_of_complaint?_eq_none {w : Work} (h : w.complaint? = none) : w.IsSound := by
  intro e he
  rw [h] at he
  cases he

/-- A step of a task that owes nothing of a batch, before or after, and complains of nothing. -/
theorem Emits.conserves {es : List Event} {w w' : Work} (h : Emits es [] l k) (hes : es.filter Event.isBatch = [])
    (hfree : w'.complaint? = .none) (howed : w.owed.filter Event.isBatch = [])
    (howed' : w'.owed.filter Event.isBatch = []) : Conserves w w' l k := by
  refine ⟨es, [], h, by simp, isSound_of_complaint?_eq_none hfree, ?_⟩
  intro _
  rw [howed, List.filter_append, hes, howed', List.append_nil]

theorem rekey_emits (key : CipherKey) (c : Connection) (l : Listener) : Emits [] [] l (l.rekey key c).2 := by
  unfold rekey
  cases c.keepalive <;> by_cases hp : l.session.settings.pingInterval = 0 <;>
    exact .none (by simp [cancel, hp]) (.same (by simp [cancel, hp]) (by simp [cancel, hp])) (by simp [cancel, hp])

theorem handle_emits (link : Nat) (b : Bytes) (l : Listener) : Emits [] [] l (l.handle link b).2 := by
  unfold handle
  cases Reaction.ofBytes b with
  | rekey key =>
    cases hc : l.connection with
    | none => exact .none rfl (.same rfl rfl) rfl
    | some c => exact rekey_emits key c l
  | _ => exact .none rfl (.same rfl rfl) rfl

theorem handle_isSound (parent : Token) (link : Nat) (b : Bytes) (l : Listener) :
    (Work.chain parent (l.handle link b).1).IsSound := by
  intro e he
  rcases handle_cases b l with ⟨-, h⟩ | ⟨k, h⟩ | ⟨es, ping, k, h⟩ <;> rw [h] at he <;> cases he

theorem install_emits (parent : Token) (link : Nat) (l : Listener) : Emits [] [] l (l.install parent link) := by
  unfold install
  split
  · exact .none rfl (.same rfl rfl) rfl
  · exact .none rfl (.same rfl rfl) rfl

theorem drop_emits (l : Listener) : Emits [] [] l l.drop := by
  unfold drop
  cases l.connection <;> exact .none rfl (.same rfl rfl) rfl

/-- A dial publishes nothing of a batch, and fails with nothing that tells of one. -/
theorem DialingStep.emits {d d' : Dialing} (h : DialingStep world parent l d d' k) :
    ∃ es, Emits es [] l k ∧ es.filter Event.isBatch = [] ∧
      ∀ e, d'.failure? = some e → (Event.error e).isBatch = false := by
  cases h with
  | nowhere | noUrl | refused | abandoned =>
    refine ⟨[], .none rfl (.same rfl rfl) rfl, rfl, ?_⟩
    rintro e ⟨⟩
    rfl
  | dial | opened | abandon | keep =>
    refine ⟨[], .none rfl (.same rfl rfl) rfl, rfl, ?_⟩
    rintro e ⟨⟩
  | install =>
    refine ⟨[], install_emits .., rfl, ?_⟩
    rintro e ⟨⟩
  | announce =>
    refine ⟨_, (Quiet.publish _ l).emits, rfl, ?_⟩
    rintro e ⟨⟩
  | close hclosing =>
    refine ⟨[], (Quiet.stepClosing hclosing).emits, rfl, ?_⟩
    rintro e ⟨⟩

theorem ChainStep.conserves {chain chain' : Chain} (h : ChainStep world parent l chain chain' k)
    (hsound : (Work.chain parent chain).IsSound) :
    Conserves (.chain parent chain) (.chain parent chain') l k := by
  cases h with
  | heed | look | take | noMessages | takeError | noErrors | closed | notClosed | wake | published | yielded | stopped
  | confirmed | unconfirmed | leave | spent | stay | rotate | exhaust | giveUp | redial | dialed | dialCancelled
  | enter | finish =>
    exact Emits.conserves (.none rfl (.same rfl rfl) rfl) rfl rfl rfl rfl
  | closeStreams => exact Emits.conserves (.none rfl (.closeStreams l) rfl) rfl rfl rfl rfl
  | announce | exhausted | farewell => exact (Quiet.publish _ l).emits.conserves rfl rfl rfl rfl
  | yield hclosing | stop hclosing => exact (Quiet.stepClosing hclosing).emits.conserves rfl rfl rfl rfl
  | drop => exact (drop_emits l).conserves rfl rfl rfl rfl
  | @handle link b _ _ hhandle =>
    have hemits := handle_emits link b l
    have hfree := handle_isSound parent link b l
    rw [hhandle] at hemits hfree
    exact ⟨[], [], hemits, by simp, hfree, fun h => by cases h⟩
  | @publish link e r ping =>
    refine ⟨[e], [], (Quiet.publish e l).emits, by simp, isSound_of_complaint?_eq_none rfl, ?_⟩
    intro _
    rfl
  | @beginPing link on token =>
    refine ⟨[], [.keepalive on token .starting], ⟨.same rfl rfl, rfl, rfl⟩, ?_,
      isSound_of_complaint?_eq_none rfl, fun _ => rfl⟩
    intro v hv
    rw [List.mem_singleton.1 hv]
    exact ⟨rfl, isSound_of_complaint?_eq_none rfl, Bool.noConfusion⟩
  | dialFailed => exact ⟨[], [], .none rfl (.same rfl rfl) rfl, by simp, hsound, fun _ => rfl⟩
  | dial hd =>
    obtain ⟨es, hemits, hes, herror⟩ := hd.emits
    refine ⟨es, [], hemits, by simp, herror, ?_⟩
    intro _
    rw [List.filter_append, hes]
    rfl
  | @complain e =>
    have he : (Event.error e).isBatch = false := hsound e rfl
    exact (Quiet.publish _ l).emits.conserves (by simp [he]) rfl rfl rfl

theorem StartStep.conserves {token : Token} {retryOnClose : Bool} {stage stage' : Starting}
    (h : StartStep world token retryOnClose l stage stage' k) :
    Conserves (.start token retryOnClose stage) (.start token retryOnClose stage') l k := by
  cases h with
  | late | check | claim | refuse | reopenTracker | dialed | dialFailed | fail =>
    exact Emits.conserves (.none rfl (.same rfl rfl) rfl) rfl rfl rfl rfl
  | reopenStreams => exact Emits.conserves (.none rfl (.reopenStreams l) rfl) rfl rfl rfl rfl
  | dial hd =>
    obtain ⟨es, hemits, hes, -⟩ := hd.emits
    exact hemits.conserves hes rfl rfl rfl
  | @spawn link =>
    refine ⟨[], [.chain token (.receiving link .cancelled)], ⟨.same rfl rfl, rfl, rfl⟩, ?_,
      isSound_of_complaint?_eq_none rfl, fun _ => rfl⟩
    intro v hv
    rw [List.mem_singleton.1 hv]
    exact ⟨rfl, isSound_of_complaint?_eq_none rfl, fun _ => rfl⟩

theorem WorkStep.conserves {w w' : Work} (h : WorkStep world l w w' k) (hsound : w.IsSound) :
    Conserves w w' l k := by
  cases h with
  | start hs => exact hs.conserves
  | stop hs => exact hs.quiet.emits.conserves rfl rfl rfl rfl
  | chain hs => exact hs.conserves hsound
  | keepalive hs => exact hs.quiet.emits.conserves rfl rfl rfl rfl

end Listener

end ChatWire
