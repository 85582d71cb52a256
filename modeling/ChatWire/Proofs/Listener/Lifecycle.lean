import ChatWire.Proofs.Listener.Story

/-! What a chain tells of its connections. Each that it makes it announces, and each that it has announced it later
says is lost, before it makes another one; what it says last of all is that it is closed. -/

namespace ChatWire.Listener

/-- what a deed tells of how the listener fares -/
def Deed.told? : Deed → Option Event
  | .published e => if e.isLifecycle then some e else none
  | _ => none

/-- Whether it tells of a connection: it was dialed, announced or lost, or dialing has failed. -/
def Deed.isMilestone : Deed → Bool
  | .dialed _ | .failed _ => true
  | .published e => e.isLifecycle
  | _ => false

/-- what a chain has told -/
def told (s : List Deed) : List Event := s.filterMap Deed.told?

/-- connections made and lost, one after the other -/
def alternation (held : List (String × CloseInfo)) : List Event :=
  held.flatMap fun (endpoint, info) => [.connected endpoint, .disconnected info]

/-- The rounds of a chain. In each it has dialed, announced the connection and lost it again, or it has failed to get
one, with or without dialing. The first dial of a chain has not failed. -/
inductive Rounds : List Deed → Prop
  | nil : Rounds []
  | held {s : List Deed} (d : Dial) (info : CloseInfo) : Rounds s →
      Rounds (s ++ [.dialed d, .published (.connected d.endpoint), .published (.disconnected info)])
  | failed {s : List Deed} (d : Option Dial) (e : ListenerError) : Rounds s → s ≠ [] →
      Rounds (s ++ ((d.map Deed.dialed).toList ++ [.failed e]))

/-- What has been done since the last round: `u` is as far as a chain that stands there has come. -/
def Station.Amid : Station → List Deed → Prop
  | .refused _, _ => True
  | .calling _ endpoint, u => ∃ d, d.endpoint = endpoint ∧ u = [.dialed d]
  | .failing _ _, u => ∃ d : Option Dial, u = (d.map Deed.dialed).toList
  | .up _, u | .leaving _, u | .down _, u => ∃ d, u = [.dialed d, .published (.connected d.endpoint)]
  | .closed, u | .done, u => ∃ info, u = [.published (.closed info)]
  | _, u => u = []

/-- Whether there has been a round, in any case. -/
def Station.isLater : Station → Bool
  | .ready false | .calling false _ | .failing false _ | .deciding _ | .exhausted _ _ | .complaining _ | .ending _
  | .gone _ | .closed | .done => true
  | _ => false

variable {token : Token} {retryOnClose : Bool} {l k : Listener} {i j : Station} {s ds a u : List Deed}

theorem told_append (s ds : List Deed) : told (s ++ ds) = told s ++ told ds := List.filterMap_append

theorem told_milestones (s : List Deed) : told (s.filter Deed.isMilestone) = told s := by
  rw [told, List.filterMap_filter]
  apply List.filterMap_congr
  intro x _
  cases x with
  | published e => cases e <;> rfl
  | _ => rfl

/-- In rounds, connections are made and lost one after the other. -/
theorem Rounds.told (h : Rounds s) : ∃ held, Listener.told s = alternation held ∧ (s ≠ [] → held ≠ []) := by
  induction h with
  | nil => exact ⟨[], rfl, fun hs => absurd rfl hs⟩
  | @held s d info _ ih =>
    obtain ⟨held, hheld, -⟩ := ih
    refine ⟨held ++ [(d.endpoint, info)], ?_, fun _ => by simp⟩
    rw [told_append, hheld, alternation, alternation, List.flatMap_append]
    rfl
  | @failed s d e _ hs ih =>
    obtain ⟨held, hheld, hne⟩ := ih
    refine ⟨held, ?_, fun _ => hne hs⟩
    have hnothing : Listener.told ((d.map Deed.dialed).toList ++ [.failed e]) = [] := by cases d <;> rfl
    rw [told_append, hnothing, List.append_nil, hheld]

/-- How a chain fares: the rounds `a` are over, and `u` has been done since. -/
structure Fares (a u : List Deed) (i : Station) : Prop where
  rounds : Rounds a
  amid : i.Amid u
  later : i.isLater → a ≠ []

namespace Fares

/-- Where a chain goes on without a milestone. -/
theorem same (h : Fares a u i) (hds : ds.filter Deed.isMilestone = []) (hamid : j.Amid u)
    (hlater : j.isLater → i.isLater) : ∃ a' u', a ++ u ++ ds.filter Deed.isMilestone = a' ++ u' ∧ Fares a' u' j := by
  refine ⟨a, u, ?_, h.rounds, hamid, fun hj => h.later (hlater hj)⟩
  rw [hds, List.append_nil]

/-- Where it comes to the next milestone. -/
theorem next (h : Fares a u i) {x : Deed} (hx : x.isMilestone) (hamid : j.Amid (u ++ [x]))
    (hlater : j.isLater → i.isLater) : ∃ a' u', a ++ u ++ [x].filter Deed.isMilestone = a' ++ u' ∧ Fares a' u' j := by
  refine ⟨a, u ++ [x], ?_, h.rounds, hamid, fun hj => h.later (hlater hj)⟩
  rw [List.filter_cons_of_pos hx, List.filter_nil, List.append_assoc]

/-- Where a round is over. -/
theorem round {x : Deed} (hx : x.isMilestone) (hround : Rounds (a ++ (u ++ [x]))) (hamid : j.Amid []) :
    ∃ a' u', a ++ u ++ [x].filter Deed.isMilestone = a' ++ u' ∧ Fares a' u' j := by
  refine ⟨a ++ (u ++ [x]), [], ?_, hround, hamid, fun _ => by simp⟩
  rw [List.filter_cons_of_pos hx, List.filter_nil, List.append_nil, List.append_assoc]

theorem pass (h : Fares a u i) (hp : Pass token l k i ds j) :
    ∃ a' u', a ++ u ++ ds.filter Deed.isMilestone = a' ++ u' ∧ Fares a' u' j := by
  cases hp with
  | rest => exact h.same rfl h.amid fun hj => hj
  | late | refuse => exact h.same rfl trivial Bool.noConfusion
  | @noDial first =>
    obtain rfl : u = [] := h.amid
    refine h.same rfl ⟨none, rfl⟩ ?_
    cases first <;> exact fun hj => hj
  | @fault first =>
    obtain ⟨d, -, rfl⟩ := h.amid
    refine h.same rfl ⟨some d, rfl⟩ ?_
    cases first <;> exact fun hj => hj
  | connect =>
    obtain ⟨d, rfl, rfl⟩ := h.amid
    exact h.next rfl ⟨d, rfl⟩ Bool.noConfusion
  | @publish link e he =>
    have hnone : [Deed.published e].filter Deed.isMilestone = [] := by
      rw [List.filter_cons_of_neg (by rw [Deed.isMilestone, he]; exact Bool.false_ne_true), List.filter_nil]
    exact h.same hnone h.amid Bool.noConfusion
  | notice | cut | found | unfound => exact h.same rfl h.amid Bool.noConfusion
  | disconnect =>
    obtain ⟨d, rfl⟩ := h.amid
    exact round rfl (.held d _ h.rounds) rfl
  | deny | report | giveUp | complain | enter => exact h.same rfl h.amid fun _ => rfl
  | abandon | fail =>
    -- Only a redial fails in this way, so there has been a round.
    obtain ⟨d, rfl⟩ := h.amid
    exact round rfl (.failed d _ h.rounds (h.later rfl)) rfl
  | farewell =>
    obtain rfl : u = [] := h.amid
    exact h.next rfl ⟨_, rfl⟩ fun _ => rfl
  | finish => exact h.same rfl h.amid fun _ => rfl

theorem turn (h : Fares a u i) (ht : Turn token retryOnClose l k i ds j) :
    ∃ a' u', a ++ u ++ ds.filter Deed.isMilestone = a' ++ u' ∧ Fares a' u' j := by
  cases ht with
  | pass _ hp => exact h.pass hp
  | claim => exact h.same rfl h.amid Bool.noConfusion
  | @dial first d =>
    obtain rfl : u = [] := h.amid
    refine h.next rfl ⟨d, rfl, rfl⟩ ?_
    cases first <;> exact fun hj => hj
  | stay | rotate | exhaust => exact h.same rfl h.amid fun _ => rfl

theorem invariant (session : Session) (token : Token) (retryOnClose : Bool) :
    Invariant session token retryOnClose fun s i _ => ∃ a u, s.filter Deed.isMilestone = a ++ u ∧ Fares a u i where
  begins _ := ⟨[], [], rfl, .nil, rfl, Bool.noConfusion⟩
  apart _ _ h := h
  turn := by
    rintro s ds i j l k - - ht ⟨a, u, hs, h⟩
    obtain ⟨a', u', heq, h'⟩ := h.turn ht
    exact ⟨a', u', by rw [List.filter_append, hs, heq], h'⟩

end Fares

/-! The end. -/

def Station.isFinishing : Station → Bool
  | .ending _ | .gone _ | .closed | .done => true
  | _ => false

/-- A chain that has come to its end finishes, and then the token that it was called with is cancelled. -/
structure Ends (token : Token) (s : List Deed) (i : Station) (l : Listener) : Prop where
  finishes : i.isFinishing → ∃ info a b, s = a ++ b ∧ Finishes info i b
  cancelled : i = .done → l.isCancelled token

/-- A chain that is to finish does so from the beginning. -/
theorem Turn.eq_ending (h : Turn token retryOnClose l k i ds j) (hi : i.isFinishing = false) (hj : j.isFinishing) :
    ∃ info, j = .ending info := by
  cases h with
  | pass _ hp =>
    cases hp with
    | rest =>
      rw [hi] at hj
      cases hj
    | deny | report | giveUp | abandon => exact ⟨_, rfl⟩
    | enter | farewell | finish => cases hi
    | _ => cases hj
  | _ => cases hj

namespace Ends

theorem turn (h : Ends token s i l) (hk : Keeps l k) (ht : Turn token retryOnClose l k i ds j) :
    Ends token (s ++ ds) j k where
  finishes hj := by
    cases hi : i.isFinishing with
    | true =>
      obtain ⟨info, a, b, rfl, hb⟩ := h.finishes hi
      exact ⟨info, a, b ++ ds, List.append_assoc .., hb.turn ht⟩
    | false =>
      obtain ⟨info, rfl⟩ := ht.eq_ending hi hj
      exact ⟨info, s ++ ds, [], (List.append_nil _).symm, .ending⟩
  cancelled hj := by
    subst hj
    cases ht with
    | pass _ hp =>
      cases hp with
      | rest => exact hk.cancelled token (h.cancelled rfl)
      | finish hcancelled => exact hcancelled

theorem invariant (session : Session) (token : Token) (retryOnClose : Bool) :
    Invariant session token retryOnClose (Ends token) where
  begins _ := ⟨Bool.noConfusion, nofun⟩
  apart hkeeps _ h := ⟨h.finishes, fun hi => hkeeps.cancelled token (h.cancelled hi)⟩
  turn _ hkeeps ht h := h.turn hkeeps ht

end Ends

/-- What a chain says last. -/
inductive Silent : Station → List Deed → Prop
  | closed : Silent .closed []
  | done : Silent .done []

theorem Silent.invariant (session : Session) (token : Token) (retryOnClose : Bool) :
    Invariant session token retryOnClose fun s i _ =>
      ∀ a x b, s = a ++ x :: b → ∀ info, x = .published (.closed info) → Silent i b := by
  refine .of_after (Q := fun x i b _ => ∀ info, x = .published (.closed info) → Silent i b) (fun _ h => h) ?_ ?_
  · rintro x i j l k ht info rfl
    cases ht with
    | pass _ hp =>
      cases hp with
      | publish he => cases he
      | farewell => exact .closed
  · intro x i j b ds l k _ ht h info hx
    cases h info hx with
    | closed =>
      cases ht with
      | pass _ hp =>
        cases hp with
        | rest => exact .closed
        | finish => exact .done
    | done =>
      cases ht with
      | pass _ hp =>
        cases hp with
        | rest => exact .done

/-- What a chain has told since its last round is that it has made a connection, or that it is closed. -/
theorem Station.Amid.told (h : i.Amid u) (hi : ∀ r, i ≠ .refused r) : Listener.told u = [] ∨
    (∃ endpoint, Listener.told u = [.connected endpoint]) ∨ ∃ info, Listener.told u = [.closed info] := by
  cases i with
  | refused r => exact absurd rfl (hi r)
  | calling first endpoint =>
    obtain ⟨d, -, rfl⟩ := h
    exact .inl rfl
  | failing first e =>
    obtain ⟨d, rfl⟩ := h
    cases d <;> exact .inl rfl
  | up | leaving | down =>
    obtain ⟨d, rfl⟩ := h
    exact .inr (.inl ⟨d.endpoint, rfl⟩)
  | closed | done =>
    obtain ⟨info, rfl⟩ := h
    exact .inr (.inr ⟨info, rfl⟩)
  | _ =>
    obtain rfl : u = [] := h
    exact .inl rfl

theorem Fares.told (h : Fares a u i) (hs : s.filter Deed.isMilestone = a ++ u) :
    ∃ held, Listener.told s = alternation held ++ Listener.told u ∧ (i.isLater → held ≠ []) := by
  obtain ⟨held, hheld, hne⟩ := h.rounds.told
  refine ⟨held, ?_, fun hi => hne (h.later hi)⟩
  rw [← told_milestones, hs, told_append, hheld]

/-- A chain that says that it is closed has lost as many connections as it has made, and says nothing more. -/
theorem Fares.of_silent {b : List Deed} {info : CloseInfo} (h : Fares a u i)
    (hs : (s ++ .published (.closed info) :: b).filter Deed.isMilestone = a ++ u) (hsilent : Silent i b) :
    b = [] ∧ ∃ held, held ≠ [] ∧ Listener.told s = alternation held := by
  obtain ⟨rfl, hlater, info', rfl⟩ : b = [] ∧ i.isLater ∧ ∃ info', u = [.published (.closed info')] := by
    cases hsilent with
    | closed | done => exact ⟨rfl, rfl, h.amid⟩
  obtain ⟨held, htold, hheld⟩ := h.told hs
  rw [told_append] at htold
  exact ⟨rfl, held, hheld hlater, (List.append_inj' htold rfl).1⟩

theorem Chain.station_ne_refused (stage : Chain) (r : Except ListenerError Unit) : stage.station ≠ .refused r := by
  cases stage with
  | yielding link stage => cases stage <;> exact nofun
  | dialing info d =>
    cases d with
    | finished r => cases r <;> exact nofun
    | _ => exact nofun
  | finishing info stage => cases stage <;> exact nofun
  | _ => exact nofun

variable {world : Surroundings} {session : Session} {log : List Note} {n : Nat}

/-- A chain that a call has started announces each connection that it makes, and says that it is lost before it makes
another; of a redial that has failed it says neither. It is closed after that: it says so when as many connections are
lost as were made, and nothing more. When it is done, it has entered the closed phase and said that it is closed, and
the token that it was called with is cancelled. All that it publishes is in the streams: each holds the newest events of
its kind. -/
theorem lifecycle_alternates (h : Noted world session log l)
    (hn : l.work[n]? = some (.start token retryOnClose (.finished (.ok ())))) :
    ∃ stage, l.work[leader n log]? = some (.chain token stage) ∧
      (∃ a u, (story n log).filter Deed.isMilestone = a ++ u ∧ Rounds a ∧ stage.station.Amid u) ∧
      (∃ held rest, told (story n log) = alternation held ++ rest ∧
        (rest = [] ∨ (∃ endpoint, rest = [.connected endpoint]) ∨ ∃ info, rest = [.closed info])) ∧
      (∀ a info b, story n log = a ++ .published (.closed info) :: b →
        b = [] ∧ ∃ held, held ≠ [] ∧ told a = alternation held) ∧
      (stage = .done → (∃ a info, story n log = a ++ farewell info) ∧ l.isCancelled token) ∧
      (story n log).Sublist (deeds log) ∧ l.events.Holds Events.defaultCapacity ((deeds log).filterMap Deed.event?) := by
  have hinvariant := (Fares.invariant session token retryOnClose).and
    ((Ends.invariant session token retryOnClose).and (Silent.invariant session token retryOnClose))
  obtain ⟨w, hw, hhead, ⟨a, u, hs, hfares⟩, hends, hsilent⟩ := hinvariant.stands h hn
  obtain ⟨stage, rfl⟩ := hhead.exists_chain hw hn
  obtain ⟨held, htold, hheld⟩ := hfares.told hs
  refine ⟨stage, hw, ⟨a, u, hs, hfares.rounds, hfares.amid⟩, ?_, ?_, ?_, story_sublist n log, h.holds⟩
  · exact ⟨held, told u, htold, hfares.amid.told stage.station_ne_refused⟩
  · intro c info b heq
    rw [heq] at hs
    exact hfares.of_silent hs (hsilent c _ b heq info rfl)
  · rintro rfl
    obtain ⟨info, c, b, heq, hb⟩ := hends.finishes rfl
    exact ⟨⟨c, info, heq.trans (congrArg _ (hb.initial.2 rfl))⟩, hends.cancelled rfl⟩

/-- The second dial is refused, and no other. -/
def hiccupWorld : Surroundings := ⟨fun n _ => ⟨0, if n = 1 then some .closed else none⟩, fun _ => 0⟩

/-- a dial, the connection lost, two redials, and their connection lost too -/
def hiccupMoves : List Move :=
  .start ⟨[0]⟩ true :: (List.replicate 11 (Move.work 0 .proceed) ++
    .peerVanish 0 :: List.replicate 2 (Move.reader 0 .proceed) ++ List.replicate 21 (Move.work 1 .proceed) ++
    .peerVanish 1 :: List.replicate 2 (Move.reader 1 .proceed) ++ List.replicate 10 (Move.work 1 .proceed))

/-- A chain with a redial that fails between two connections. -/
theorem lifecycle_alternates_hiccup :
    ∃ log l held info, Noted hiccupWorld scantSession log l ∧ l.work[leader 0 log]? = some (.chain ⟨[0]⟩ .done) ∧
      (∃ e, Deed.failed e ∈ story 0 log) ∧ (told (story 0 log)).length = 5 ∧
      told (story 0 log) = alternation held ++ [.closed info] ∧ l.isCancelled ⟨[0]⟩ ∧
      l.events.Holds Events.defaultCapacity ((deeds log).filterMap Deed.event?) := by
  have hran : (play hiccupWorld hiccupMoves ([], create scantSession)).any (fun s => isOver s &&
      (story 0 s.1).any Deed.isFailed && (told (story 0 s.1)).length == 5) = true := by decide +kernel
  obtain ⟨⟨log, l⟩, hplay, hend⟩ := (Option.any_eq_true _ _).1 hran
  simp only [Bool.and_eq_true, beq_iff_eq] at hend
  obtain ⟨⟨hover, hfailed⟩, hlength⟩ := hend
  obtain ⟨hcall, hdone⟩ := of_isOver hover
  have hnoted := noted_play .start hplay
  obtain ⟨stage, hstage, -, -, hclosed, hend, -, hholds⟩ := lifecycle_alternates hnoted hcall
  obtain rfl : stage = .done := by
    have hsame := Option.some.inj (hstage.symm.trans hdone)
    injection hsame
  obtain ⟨⟨a, info, hstory⟩, hcancelled⟩ := hend rfl
  obtain ⟨-, held, -, hheld⟩ := hclosed (a ++ [.shut]) info [] (by rw [hstory, List.append_assoc]; rfl)
  refine ⟨log, l, held, info, hnoted, hdone, exists_failed hfailed, hlength, ?_, hcancelled, hholds⟩
  rw [hstory, ← hheld, told_append, told_append, List.append_assoc]
  rfl

end ChatWire.Listener
