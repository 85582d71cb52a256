import ChatWire.Proofs.Listener.Story

/-! What becomes of a chain that is told that another connection has taken over. It reports its connection closed for
that, and a closing of that kind is not retried. But a connection is reported closed once: where it has been reported
closed before, for another cause, that cause decides, and the chain may dial again. -/

namespace ChatWire.Listener

/-- Whether a deed leaves a connection up: it publishes what has come in, or has to do with a notice. -/
def Deed.isCalm : Deed → Bool
  | .published e => !e.isLifecycle
  | .noticed _ | .cut _ _ => true
  | _ => false

/-- What a chain does once its connection has been reported closed: `c` has been done so far. It goes on with what has
come in, says that it was disconnected for the cause that was reported, and decides about that cause. -/
inductive AfterCut (link : Nat) (info : CloseInfo) : Station → List Deed → Listener → Prop
  | up {c : List Deed} {l : Listener} : (∀ x ∈ c, x.isCalm) → l.closure? link = some info →
      AfterCut link info (.up link) c l
  | leaving {c : List Deed} {l : Listener} : (∀ x ∈ c, x.isCalm) → l.closure? link = some info →
      AfterCut link info (.leaving link) c l
  | down {c : List Deed} {l : Listener} : (∀ x ∈ c, x.isCalm) → AfterCut link info (.down info) c l
  | deciding {c : List Deed} {l : Listener} : (∀ x ∈ c, x.isCalm) →
      AfterCut link info (.deciding info) (c ++ [.published (.disconnected info)]) l
  | denied {c d : List Deed} {i : Station} {l : Listener} : (∀ x ∈ c, x.isCalm) → Finishes info i d →
      AfterCut link info i (c ++ .published (.disconnected info) :: .met info false :: d) l
  | granted {c d : List Deed} {i : Station} {l : Listener} : (∀ x ∈ c, x.isCalm) → info.code ∉ CloseCode.final →
      AfterCut link info i (c ++ .published (.disconnected info) :: .met info true :: d) l

/-- What a chain does once it has been told that another connection has taken over: it reports the closing, and whether
there has been another cause. -/
inductive AfterNotice (link : Nat) : Station → List Deed → Listener → Prop
  | leaving {l : Listener} : AfterNotice link (.leaving link) [] l
  | cut {i : Station} {c : List Deed} {l : Listener} (earlier : Option CloseInfo) :
      AfterCut link (earlier.getD duplicateClose) i c l → AfterNotice link i (.cut link earlier :: c) l

variable {session : Session} {token : Token} {retryOnClose : Bool} {l k : Listener} {i j : Station} {a b c ds : List Deed}
  {link : Nat} {info : CloseInfo}

theorem isCalm_concat {x : Deed} (hc : ∀ y ∈ c, y.isCalm) (hx : x.isCalm) : ∀ y ∈ c ++ [x], y.isCalm := by
  intro y hy
  rcases List.mem_append.1 hy with hy | hy
  · exact hc y hy
  · rw [List.mem_singleton.1 hy]
    exact hx

theorem isDial_of_isCalm {x : Deed} (h : x.isCalm) : x.isDial = false := by
  cases x with
  | dialed => cases h
  | _ => rfl

/-- A chain that finishes does not dial. -/
theorem Finishes.isDial {x : Deed} (h : Finishes info i b) (hx : x ∈ b) : x.isDial = false := by
  have hmem : x ∈ farewell info := h.initial.1.subset hx
  rcases List.mem_pair.1 hmem with rfl | rfl <;> rfl

namespace AfterCut

theorem keeps (h : AfterCut link info i c l) (hk : Keeps l k) : AfterCut link info i c k := by
  cases h with
  | up hc hclosure => exact .up hc (hk.closure hclosure)
  | leaving hc hclosure => exact .leaving hc (hk.closure hclosure)
  | down hc => exact .down hc
  | deciding hc => exact .deciding hc
  | denied hc hd => exact .denied hc hd
  | granted hc hfinal => exact .granted hc hfinal

/-- A retry that is granted is none of a code after which nobody tries again. -/
theorem grant (hc : ∀ x ∈ c, x.isCalm) (hg : Grants info l k) :
    AfterCut link info j (c ++ [.published (.disconnected info)] ++ [.met info true]) k := by
  obtain ⟨delay, hretry⟩ := hg.retry
  obtain ⟨hfinal, -, -⟩ := RetryPolicy.of_retry_some hretry
  rw [List.append_assoc]
  exact .granted hc hfinal

/-- Whatever comes in, the connection stays reported closed for the cause that was reported first. -/
theorem turn (h : AfterCut link info i c l) (hk : Keeps l k) (ht : Turn token retryOnClose l k i ds j) :
    AfterCut link info j (c ++ ds) k := by
  cases h with
  | up hc hclosure =>
    have hkept := hk.closure hclosure
    cases ht with
    | pass _ hp =>
      cases hp with
      | rest => exact .up (by rwa [List.append_nil]) hkept
      | publish he => exact .up (isCalm_concat hc (by rw [Deed.isCalm, he]; rfl)) hkept
      | notice => exact .leaving (isCalm_concat hc rfl) hkept
      | found hfound =>
        -- What is found is what was reported first.
        obtain rfl := Option.some.inj (hclosure.symm.trans hfound)
        exact .down (by rwa [List.append_nil])
      | unfound hnone => cases hclosure.symm.trans hnone
  | leaving hc hclosure =>
    have hkept := hk.closure hclosure
    cases ht with
    | pass _ hp =>
      cases hp with
      | rest => exact .leaving (by rwa [List.append_nil]) hkept
      | cut => exact .up (isCalm_concat hc rfl) hkept
  | down hc =>
    cases ht with
    | pass _ hp =>
      cases hp with
      | rest => exact .down (by rwa [List.append_nil])
      | disconnect => exact .deciding hc
  | deciding hc =>
    cases ht with
    | pass _ hp =>
      cases hp with
      | rest =>
        rw [List.append_nil]
        exact .deciding hc
      | deny =>
        rw [List.append_assoc]
        exact .denied hc .ending
    | stay hg | rotate hg | exhaust hg => exact grant hc hg
  | denied hc hd =>
    rw [List.append_assoc]
    exact .denied hc (hd.turn ht)
  | granted hc hfinal =>
    rw [List.append_assoc]
    exact .granted hc hfinal

/-- The connection is given up for good, unless a retry is granted for the cause. -/
theorem cases_deeds (h : AfterCut link info i c l) :
    ((∀ x ∈ c, x.isDial = false) ∧ (i = .done → ∃ c', (∀ x ∈ c', x.isCalm) ∧
      c = c' ++ .published (.disconnected info) :: .met info false :: farewell info)) ∨
    (info.code ∉ CloseCode.final ∧ ∃ c' d, (∀ x ∈ c', x.isCalm) ∧
      c = c' ++ .published (.disconnected info) :: .met info true :: d) := by
  cases h with
  | up hc | leaving hc | down hc => exact .inl ⟨fun x hx => isDial_of_isCalm (hc x hx), nofun⟩
  | deciding hc =>
    refine .inl ⟨?_, nofun⟩
    intro x hx
    rcases List.mem_append.1 hx with hx | hx
    · exact isDial_of_isCalm (hc x hx)
    · rw [List.mem_singleton.1 hx]
      rfl
  | @denied c' d _ _ hc hd =>
    refine .inl ⟨?_, fun hi => ⟨c', hc, by rw [hd.initial.2 hi]⟩⟩
    intro x hx
    simp only [List.mem_append, List.mem_cons] at hx
    rcases hx with hx | rfl | rfl | hx
    · exact isDial_of_isCalm (hc x hx)
    · rfl
    · rfl
    · exact hd.isDial hx
  | granted hc hfinal => exact .inr ⟨hfinal, _, _, hc, rfl⟩

end AfterCut

namespace AfterNotice

theorem turn (h : AfterNotice link i b l) (hk : Keeps l k) (ht : Turn token retryOnClose l k i ds j) :
    AfterNotice link j (b ++ ds) k := by
  cases h with
  | leaving =>
    cases ht with
    | pass _ hp =>
      cases hp with
      | rest => exact .leaving
      | cut hclosure => exact .cut _ (.up (by simp) hclosure)
  | cut earlier h => exact .cut earlier (h.turn hk ht)

theorem invariant (session : Session) (token : Token) (retryOnClose : Bool) :
    Invariant session token retryOnClose fun s i l =>
      ∀ a x b, s = a ++ x :: b → ∀ link, x = .noticed link → AfterNotice link i b l := by
  refine .of_after (Q := fun x i b l => ∀ link, x = .noticed link → AfterNotice link i b l) ?_ ?_ ?_
  · intro x i b l k hk h link hx
    cases h link hx with
    | leaving => exact .leaving
    | cut earlier h => exact .cut earlier (h.keeps hk)
  · rintro x i j l k ht link rfl
    cases ht with
    | pass _ hp =>
      cases hp with
      | notice => exact .leaving
  · intro x i j b ds l k hk ht h link hx
    exact (h link hx).turn hk ht

end AfterNotice

variable {world : Surroundings} {log : List Note} {n : Nat} {stage : Starting}

/-- A chain that is told that another connection has taken over does not dial after that, and when it is done it has said
that it was disconnected, and closed. It goes on only where its connection was reported closed before that, for another
cause: if a retry is granted for that cause. What it says is in the streams: each holds the newest events of its kind. -/
theorem notices_end_chains (h : Noted world session log l)
    (hn : l.work[n]? = some (.start token retryOnClose stage)) (heq : story n log = a ++ .noticed link :: b) :
    (((∀ x ∈ b, x.isDial = false) ∧
        (l.work[leader n log]? = some (.chain token .done) → ∃ earlier info c, info = earlier.getD duplicateClose ∧
          (∀ x ∈ c, x.isCalm) ∧
            b = .cut link earlier :: (c ++ .published (.disconnected info) :: .met info false :: farewell info))) ∨
      ∃ info c d, (∀ x ∈ c, x.isCalm) ∧ info.code ∉ CloseCode.final ∧
        b = .cut link (some info) :: (c ++ .published (.disconnected info) :: .met info true :: d)) ∧
    (story n log).Sublist (deeds log) ∧ l.events.Holds Events.defaultCapacity ((deeds log).filterMap Deed.event?) := by
  refine ⟨?_, story_sublist n log, h.holds⟩
  obtain ⟨w, hw, -, hafter⟩ := (AfterNotice.invariant session token retryOnClose).stands h hn
  have hdone (hchain : l.work[leader n log]? = some (.chain token .done)) : w.station = .done := by
    obtain rfl := Option.some.inj (hw.symm.trans hchain)
    rfl
  have hnotice := hafter a _ b heq link rfl
  generalize w.station = i at hnotice hdone
  cases hnotice with
  | leaving => exact .inl ⟨by simp, fun hchain => nomatch hdone hchain⟩
  | cut earlier hcut =>
    rcases hcut.cases_deeds with ⟨hdial, hend⟩ | ⟨hfinal, c, d, hc, rfl⟩
    · refine .inl ⟨?_, ?_⟩
      · intro x hx
        rcases List.mem_cons.1 hx with rfl | hx
        · rfl
        · exact hdial x hx
      · intro hchain
        obtain ⟨c, hc, rfl⟩ := hend (hdone hchain)
        exact ⟨earlier, _, c, rfl, hc, rfl⟩
    · cases earlier with
      | none => exact absurd (List.mem_cons_self ..) hfinal
      | some info => exact .inr ⟨info, c, d, hc, hfinal, rfl⟩

/-- retries for an abnormal closing, and even for another connection that has taken over -/
def eagerSession : Session :=
  { plainSession "7" false with
    endpoints := ["ws://a/"], settings := ⟨0, [(1006, ⟨3, [0]⟩), (3000, ⟨5, [0]⟩)], [], []⟩ }

def noticeFrame : WireFrame := .binary (Frame.encode ⟨.duplicateConnection, []⟩)

/-- a dial, a notice, what happens before it is looked at, and what is done about it -/
def noticeMoves (meanwhile : List Move) (steps : Nat) : List Move :=
  .start ⟨[0]⟩ true :: (List.replicate 11 (Move.work 0 .proceed) ++
    .peerSend 0 noticeFrame :: List.replicate 2 (Move.reader 0 .proceed) ++ meanwhile ++
    List.replicate 6 (Move.work 1 .proceed) ++ List.replicate 3 (Move.writer 0 .proceed) ++
    List.replicate steps (.work 1 .proceed))

/-- Whether the deed after `before` others is a notice, and what follows it is as `p` says. -/
def hasNotice (before : Nat) (p : List Deed → Bool) (s : List Deed) : Bool :=
  match s.drop before with
  | .noticed 0 :: b => p b
  | _ => false

theorem of_hasNotice {before : Nat} {p : List Deed → Bool} {s : List Deed} (h : hasNotice before p s) :
    ∃ a b, s = a ++ .noticed 0 :: b ∧ p b := by
  unfold hasNotice at h
  split at h
  · next b hdrop => exact ⟨s.take before, b, by rw [← hdrop, List.take_append_drop], h⟩
  · cases h

/-- Whether there was no other cause when a closing was reported. -/
def isFirstCause : List Deed → Bool
  | .cut 0 none :: _ => true
  | _ => false

/-- A notice that is acted on before anything else happens: the rule for its code is of no use. -/
theorem notices_end_chains_heeded :
    ∃ log l a c, Noted openWorld eagerSession log l ∧ l.work[leader 0 log]? = some (.chain ⟨[0]⟩ .done) ∧
      story 0 log = a ++ .noticed 0 :: .cut 0 none ::
        (c ++ .published (.disconnected duplicateClose) :: .met duplicateClose false :: farewell duplicateClose) := by
  have hran : (play openWorld (noticeMoves [] 14) ([], create eagerSession)).any
      (fun s => isOver s && hasNotice 2 isFirstCause (story 0 s.1)) = true := by decide +kernel
  obtain ⟨⟨log, l⟩, hplay, hend⟩ := (Option.any_eq_true _ _).1 hran
  obtain ⟨hover, hnotice⟩ := Bool.and_eq_true_iff.1 hend
  obtain ⟨hcall, hdone⟩ := of_isOver hover
  obtain ⟨a, b, hstory, hfirst⟩ := of_hasNotice hnotice
  have hnoted := noted_play .start hplay
  obtain ⟨hends, -, -⟩ := notices_end_chains hnoted hcall hstory
  rcases hends with ⟨-, hend⟩ | ⟨info, c, d, -, -, rfl⟩
  · obtain ⟨earlier, info, c, rfl, -, rfl⟩ := hend hdone
    cases earlier with
    | none => exact ⟨log, l, a, c, hnoted, hdone, hstory⟩
    | some info => cases hfirst
  · cases hfirst

/-- A notice after which the peer drops the connection at once. That is reported before the notice is looked at, and
the chain dials again. -/
theorem notices_end_chains_overtaken :
    ∃ log l a b d, Noted openWorld eagerSession log l ∧
      l.work[0]? = some (.start ⟨[0]⟩ true (.finished (.ok ()))) ∧
      story 0 log = a ++ .noticed 0 :: b ∧ Deed.dialed d ∈ b := by
  have hran : (play openWorld
      (noticeMoves (.peerVanish 0 :: List.replicate 3 (Move.reader 0 .proceed)) 21) ([], create eagerSession)).any
      (fun s => hasSucceeded s.2 && hasNotice 2 (List.any · Deed.isDial) (story 0 s.1)) = true := by decide +kernel
  obtain ⟨⟨log, l⟩, hplay, hend⟩ := (Option.any_eq_true _ _).1 hran
  obtain ⟨hcall, hnotice⟩ := Bool.and_eq_true_iff.1 hend
  obtain ⟨a, b, hstory, hdial⟩ := of_hasNotice hnotice
  obtain ⟨x, hx, hdial⟩ := List.any_eq_true.1 hdial
  cases x with
  | dialed d => exact ⟨log, l, a, b, d, noted_play .start hplay, of_hasSucceeded hcall, hstory, hx⟩
  | _ => cases hdial

end ChatWire.Listener
