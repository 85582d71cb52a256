import ChatWire.Proofs.Listener.Quiet
import ChatWire.Proofs.Listener.Reaction

/-! Who may touch the connection. At most one task at a time leads a chain, from its claim to its closing, and
where it stands says which connection is held and with which key. -/

namespace ChatWire

/-- Whether a phase belongs to a chain that has not finished. -/
def Phase.isOpen : Phase → Bool
  | .idle | .closed => false
  | _ => true

theorem Phase.isOpen_eq_false_iff {p : Phase} : p.isOpen = false ↔ p = .idle ∨ p = .closed := by
  cases p <;> simp [isOpen]

theorem Phase.isOpen_iff {p : Phase} : p.isOpen ↔ ¬ (p = .idle ∨ p = .closed) := by
  rw [← isOpen_eq_false_iff, Bool.not_eq_false]

namespace Listener

/-! Where a task stands. -/

/-- What the place of a task says of the connection: nothing, that a link is new, that it has been offered
to be held, or that it is held. -/
inductive Spot
  | away
  | fresh (link : Nat)
  | offered (link : Nat) (parent : Token)
  | on (link : Nat)

def Dialing.spot (parent : Token) : Dialing → Spot
  | .opened link _ => .fresh link
  | .installed link _ => .offered link parent
  | .announcing link _ | .finished (.ok link) => .on link
  | _ => .away

def Chain.spot (parent : Token) : Chain → Spot
  | .receiving link _ | .handling link _ | .publishing link _ _ | .yielding link _ | .stopping link _
  | .confirming link _ => .on link
  | .dialing _ d => d.spot parent
  | _ => .away

def Starting.spot (token : Token) : Starting → Spot
  | .dialing d => d.spot token
  | .spawning link => .on link
  | _ => .away

def Work.spot : Work → Spot
  | .start token _ stage => stage.spot token
  | .chain parent stage => stage.spot parent
  | _ => .away

/-! Whether a task leads a chain. -/

def Starting.isActive : Starting → Bool
  | .check | .claim | .finished _ => false
  | _ => true

def Chain.isActive : Chain → Bool
  | .finishing _ stage => stage == .enter
  | .done => false
  | _ => true

def Work.isActive : Work → Bool
  | .start _ _ stage => stage.isActive
  | .chain _ stage => stage.isActive
  | _ => false

/-- Whether the state is as the place says. `K` are the keys that the links have been given. -/
def Spot.Holds (K : Nat → Option CipherKey) (l : Listener) : Spot → Prop
  | away => True
  | fresh link => link < l.links.length ∧ K link = none
  | offered link parent =>
    link < l.links.length ∧ K link = none ∧ (l.isCancelled parent ∨ l.held = some (link, none))
  | on link => link < l.links.length ∧ l.held = some (link, K link)

theorem Spot.Holds.quiet {K : Nat → Option CipherKey} {s : Spot} {es : List Event} {l k : Listener}
    (h : s.Holds K l) (hq : Quiet es l k) : s.Holds K k := by
  cases s with
  | away => trivial
  | fresh link => exact ⟨hq.links ▸ h.1, h.2⟩
  | offered link parent => exact ⟨hq.links ▸ h.1, h.2.1, h.2.2.imp (hq.cancelled parent) fun hh => hq.held.trans hh⟩
  | on link => exact ⟨hq.links ▸ h.1, hq.held.trans h.2⟩

/-- The keys that the links have been given, once the payload of one of them has been handled. -/
def giveKey (link : Nat) (b : Bytes) (K : Nat → Option CipherKey) : Nat → Option CipherKey :=
  match Reaction.keyOf? b with
  | some key => Function.update K link (some key)
  | none => K

/-- How things are for a task that leads a chain. -/
structure Standing (K : Nat → Option CipherKey) (s : Spot) (l : Listener) : Prop where
  isOpen : l.phase.isOpen
  place : s.Holds K l
  unused : ∀ link, l.links.length ≤ link → K link = none

namespace Standing

variable {K : Nat → Option CipherKey} {s : Spot} {l k : Listener}

theorem quiet {es : List Event} (h : Standing K s l) (hq : Quiet es l k) : Standing K s k :=
  ⟨hq.phase ▸ h.isOpen, h.place.quiet hq, hq.links ▸ h.unused⟩

theorem away (h : Standing K s l) : Standing K .away l := ⟨h.isOpen, trivial, h.unused⟩

end Standing

section

variable {world : Surroundings} {parent : Token} {K : Nat → Option CipherKey} {l k : Listener}

theorem rekey_spec (key : CipherKey) (c : Connection) (l : Listener) :
    (l.rekey key c).2.session = l.session ∧ (l.rekey key c).2.phase = l.phase ∧
      (l.rekey key c).2.links = l.links ∧ (l.rekey key c).2.work = l.work ∧
        (l.rekey key c).2.held = some (c.link, some key) := by
  unfold rekey
  cases c.keepalive <;> by_cases hp : l.session.settings.pingInterval = 0 <;>
    simp [cancel, hp, held]

theorem install_standing {link : Nat} (h : Standing K (.fresh link) l) :
    Standing K (.offered link parent) (l.install parent link) := by
  obtain ⟨hlt, hnone⟩ := h.place
  unfold install
  split
  · next hc => exact ⟨h.isOpen, ⟨hlt, hnone, .inl hc⟩, h.unused⟩
  · exact ⟨rfl, ⟨hlt, hnone, .inr rfl⟩, h.unused⟩

theorem DialingStep.standing {d d' : Dialing} (hd : DialingStep world parent l d d' k)
    (h : Standing K (d.spot parent) l) : Standing K (d'.spot parent) k := by
  cases hd with
  | nowhere | noUrl | refused => exact h
  | dial => exact ⟨h.isOpen, trivial, h.unused⟩
  | opened =>
    have hlen : (l.links ++ [Transport.opened l.fault]).length = l.links.length + 1 := List.length_append
    refine ⟨h.isOpen, ⟨hlen ▸ Nat.lt_succ_self _, h.unused _ le_rfl⟩, ?_⟩
    intro link hlink
    rw [hlen] at hlink
    exact h.unused link ((Nat.le_succ _).trans hlink)
  | install => exact install_standing h
  | abandon => exact h.away
  | keep hc =>
    refine ⟨h.isOpen, ⟨h.place.1, ?_⟩, h.unused⟩
    rw [h.place.2.1]
    exact h.place.2.2.resolve_left (by simp [hc])
  | announce => exact h.quiet (.publish ..)
  | abandoned => exact h.quiet (.stopListening ..)
  | close hclosing => exact h.quiet (.stepClosing hclosing)

/-- What a step of a task that leads a chain comes to. -/
structure Leads (K : Nat → Option CipherKey) (active : Bool) (s : Spot) (k : Listener) : Prop where
  isOpen : active → k.phase.isOpen
  place : active → s.Holds K k
  unused : ∀ link, k.links.length ≤ link → K link = none

theorem Standing.leads {s : Spot} (h : Standing K s k) (active : Bool) : Leads K active s k :=
  ⟨fun _ => h.isOpen, fun _ => h.place, h.unused⟩

theorem rekey_standing {link : Nat} {b : Bytes} {key : CipherKey} {c : Connection} (h : Standing K (.on link) l)
    (hc : l.connection = some c) (hkey : Reaction.keyOf? b = some key) :
    Standing (giveKey link b K) (.on link) (l.rekey key c).2 := by
  obtain ⟨hlt, hheld⟩ := h.place
  obtain ⟨-, hphase, hlinks, -, hrekeyed⟩ := rekey_spec key c l
  have hlink : c.link = link := by
    simp only [held, hc, Option.map_some, Option.some.injEq, Prod.mk.injEq] at hheld
    exact hheld.1
  have hgive : giveKey link b K = Function.update K link (some key) := by simp only [giveKey, hkey]
  rw [hgive]
  refine ⟨hphase ▸ h.isOpen, ⟨hlinks ▸ hlt, ?_⟩, ?_⟩
  · rw [hrekeyed, hlink, Function.update_self]
  · intro n hn
    rw [hlinks] at hn
    rw [Function.update_of_ne (by omega), h.unused n hn]

/-- A payload gives its key to the link that it comes from. -/
theorem handle_standing (parent : Token) {link : Nat} (b : Bytes) (h : Standing K (.on link) l) :
    Standing (giveKey link b K) ((l.handle link b).1.spot parent) (l.handle link b).2 := by
  have hsame (hne : ∀ key, Reaction.ofBytes b ≠ .rekey key) : giveKey link b K = K := by
    cases hkey : Reaction.keyOf? b with
    | none => simp only [giveKey, hkey]
    | some key => exact absurd (Reaction.ofBytes_eq_rekey_iff.2 hkey) (hne key)
  unfold handle
  cases hr : Reaction.ofBytes b with
  | rekey key =>
    obtain ⟨c, hc, -⟩ := Option.map_eq_some_iff.1 h.place.2
    simp only [hc]
    exact rekey_standing h hc (Reaction.ofBytes_eq_rekey_iff.1 hr)
  | _ =>
    rw [hsame (by simp [hr])]
    exact h

theorem drop_standing (h : Standing K .away l) : Standing K .away l.drop := by
  unfold drop
  cases l.connection with
  | none => exact ⟨rfl, trivial, h.unused⟩
  | some c => exact ⟨rfl, trivial, h.unused⟩

/-- The keys after a step of a task: only handling a payload gives one. -/
def Work.gives (K : Nat → Option CipherKey) : Work → Nat → Option CipherKey
  | .chain _ (.handling link b) => giveKey link b K
  | _ => K

theorem ChainStep.leads {chain chain' : Chain} (hc : ChainStep world parent l chain chain' k)
    (hactive : chain.isActive) (h : Standing K (chain.spot parent) l) :
    Leads ((Work.chain parent chain).gives K) chain'.isActive (chain'.spot parent) k := by
  cases hc with
  | heed | look | noMessages | noErrors | notClosed | wake | published | yielded | stopped | leave | giveUp | redial
  | dialed | dialCancelled | dialFailed => exact h.leads _
  | take | takeError => exact (h.quiet (.setLink ..)).leads _
  | closed | confirmed | unconfirmed => exact (h.away.quiet (.stopListening ..)).leads _
  | @handle link b _ _ hhandle =>
    have hstand := handle_standing parent b h
    rw [hhandle] at hstand
    exact hstand.leads _
  | publish | announce | exhausted | complain => exact (h.quiet (.publish ..)).leads _
  | beginPing | spent | exhaust => exact ⟨fun _ => h.isOpen, fun _ => h.place, h.unused⟩
  | yield hclosing | stop hclosing => exact (h.quiet (.stepClosing hclosing)).leads _
  | drop => exact (drop_standing h).leads _
  | stay | rotate => exact ⟨fun _ => rfl, fun _ => trivial, h.unused⟩
  | dial hd => exact (hd.standing h).leads _
  | enter => exact ⟨Bool.noConfusion, Bool.noConfusion, h.unused⟩
  | farewell | closeStreams | finish => cases hactive

theorem StartStep.leads {token : Token} {retryOnClose : Bool} {stage stage' : Starting}
    (hs : StartStep world token retryOnClose l stage stage' k) (hactive : stage.isActive)
    (h : Standing K (stage.spot token) l) : Leads K stage'.isActive (stage'.spot token) k := by
  cases hs with
  | late | check | claim | refuse => cases hactive
  | reopenTracker | reopenStreams => exact ⟨fun _ => h.isOpen, fun _ => trivial, h.unused⟩
  | dial hd => exact (hd.standing h).leads _
  | dialed | dialFailed => exact h.leads _
  | fail | spawn => exact ⟨Bool.noConfusion, Bool.noConfusion, h.unused⟩

end

end Listener

end ChatWire
