import ChatWire.Proofs.Listener.Story

/-! The endpoints that a chain dials. It begins at the first one, and goes on to the next whenever a closing is granted
a retry and has a code that calls for it; a chain that is to go on past the last endpoint reports that, and closes. -/

namespace ChatWire.Listener

/-- Whether a closing is granted a retry and calls for the next endpoint. -/
def Deed.rotates (codes : List Nat) : Deed → Bool
  | .met info granted => granted && codes.contains info.code
  | _ => false

/-- how often the next endpoint has been called for -/
def rotations (codes : List Nat) (s : List Deed) : Nat := s.countP (Deed.rotates codes)

/-- Whether a chain may dial again. -/
def Station.goesOn : Station → Bool
  | .refused _ | .exhausted _ _ | .ending _ | .gone _ | .closed | .done => false
  | _ => true

/-- How far a chain has come once no endpoint is left, when `b` has been done: it reports that, and finishes. -/
inductive Leaves (info : CloseInfo) (e : RotationError) : Station → List Deed → Prop
  | exhausted : Leaves info e (.exhausted info e) []
  | finishing {i : Station} {b : List Deed} : Finishes info i b → Leaves info e i (.published (.error (.retry e)) :: b)

variable {session : Session} {token : Token} {retryOnClose : Bool} {l k : Listener} {i j : Station} {s ds : List Deed}

/-- A retry counts if its code calls for the next endpoint. -/
theorem rotations_granted (codes : List Nat) (s : List Deed) (info : CloseInfo) :
    rotations codes (s ++ [.met info true]) = rotations codes s + if codes.contains info.code then 1 else 0 :=
  countP_concat

namespace Pass

theorem goesOn (h : Pass token l k i ds j) (hj : j.goesOn) : i.goesOn := by
  cases h <;> first | rfl | exact hj

theorem rotations_eq (h : Pass token l k i ds j) (codes : List Nat) (s : List Deed) :
    rotations codes (s ++ ds) = rotations codes s := by
  apply h.countP_eq
  intro x _ hmet
  cases x with
  | met info granted =>
    cases granted with
    | false => rfl
    | true => exact absurd rfl (hmet info)
  | _ => rfl

end Pass

namespace Leaves

variable {info : CloseInfo} {e : RotationError} {b : List Deed}

/-- Such a chain does not dial again. -/
theorem not_goesOn (h : Leaves info e i b) : ¬i.goesOn := by
  cases h with
  | exhausted => exact Bool.false_ne_true
  | finishing h => cases h <;> exact Bool.false_ne_true

theorem turn (h : Leaves info e i b) (ht : Turn token retryOnClose l k i ds j) : Leaves info e j (b ++ ds) := by
  cases h with
  | finishing h => exact .finishing (h.turn ht)
  | exhausted =>
    cases ht with
    | pass _ hp =>
      cases hp with
      | rest => exact .exhausted
      | report => exact .finishing .ending

theorem initial (h : Leaves info e i b) : b <+: .published (.error (.retry e)) :: farewell info ∧
    (i = .done → b = .published (.error (.retry e)) :: farewell info) := by
  cases h with
  | exhausted => exact ⟨⟨_, rfl⟩, nofun⟩
  | finishing h =>
    obtain ⟨⟨c, hc⟩, hdone⟩ := h.initial
    exact ⟨⟨c, congrArg _ hc⟩, fun hi => congrArg _ (hdone hi)⟩

end Leaves

/-- A dial goes to the endpoint that has been called for; at first that is the first one. -/
def AtEndpoint (session : Session) (a : List Deed) : Deed → Prop
  | .dialed d =>
    session.endpoints[rotations session.settings.rotateCodes a]? = some d.endpoint ∧
      ((∀ x ∈ a, x.isDial = false) → rotations session.settings.rotateCodes a = 0)
  | _ => True

/-- How a chain walks. -/
structure Walked (session : Session) (s : List Deed) (i : Station) (l : Listener) : Prop where
  index : i.isActive →
    l.rotation.index = min (rotations session.settings.rotateCodes s) (session.endpoints.length - 1)
  within : i.goesOn → rotations session.settings.rotateCodes s ≤ session.endpoints.length - 1
  dials : Each (AtEndpoint session) s
  out : ∀ {a info b}, s = a ++ .met info true :: b → session.settings.rotateCodes.contains info.code →
    rotations session.settings.rotateCodes a + 1 = session.endpoints.length →
      Leaves info ⟨rotations session.settings.rotateCodes a, session.endpoints.length⟩ i b

namespace Walked

theorem exact_index (h : Walked session s i l) (hactive : i.isActive) (hgoes : i.goesOn) :
    l.rotation.index = rotations session.settings.rotateCodes s := by
  rw [h.index hactive, Nat.min_eq_left (h.within hgoes)]

theorem pass (h : Walked session s i l) (hs : Spares l k) (hp : Pass token l k i ds j) :
    Walked session (s ++ ds) j k where
  index hj := by
    rw [hs.rotation, hp.rotations_eq]
    exact h.index (hp.isActive hj)
  within hj := by
    rw [hp.rotations_eq]
    exact h.within (hp.goesOn hj)
  dials a x b heq := by
    rcases split_append heq with ⟨b', hb', -⟩ | ⟨a', -, hds⟩
    · exact h.dials a x b' hb'
    · have hplain := (hp.plain (hds ▸ List.mem_append_right _ (List.mem_cons_self ..))).1
      cases x with
      | dialed => cases hplain
      | _ => trivial
  out {a info b} heq hcode hlast := by
    rcases split_append heq with ⟨b', hb', rfl⟩ | ⟨a', -, hds⟩
    · exact (h.out hb' hcode hlast).turn (.pass hs hp : Turn token false l k i ds j)
    · exact absurd rfl ((hp.plain (hds ▸ List.mem_append_right _ (List.mem_cons_self ..))).2 info)

theorem claim (hrotation : k.rotation = l.rotation.reset) : Walked session [] (.ready true) k := by
  refine ⟨?_, ?_, .nil, by simp⟩
  · intro _
    rw [hrotation]
    exact (Nat.zero_min _).symm
  · exact fun _ => Nat.zero_le _

/-- A dial, at the endpoint that the listener is at. -/
theorem dial {first : Bool} {d : Dial} (h : Walked session s (.ready first) l) (hbegun : Begun s (.ready first))
    (hroot : Rooted session l) (hs : Spares l k) (hcurrent : l.rotation.current? = some d.endpoint) :
    Walked session (s ++ [.dialed d]) (.calling first d.endpoint) k := by
  have hsame : rotations session.settings.rotateCodes (s ++ [.dialed d]) = rotations session.settings.rotateCodes s :=
    countP_concat
  refine ⟨?_, ?_, ?_, ?_⟩
  · intro _
    rw [hsame, hs.rotation]
    exact h.index rfl
  · intro _
    rw [hsame]
    exact h.within rfl
  · refine h.dials.concat ⟨?_, ?_⟩
    · rw [← h.exact_index rfl rfl, ← hroot.endpoints]
      exact hcurrent
    · intro hnone
      cases first with
      | true =>
        rw [hbegun.fresh rfl]
        rfl
      | false =>
        obtain ⟨x, hx, hdial⟩ := hbegun.dialed rfl
        rw [hnone x hx] at hdial
        cases hdial
  · intro a info b heq hcode hlast
    rcases split_concat heq with ⟨b', hb', -⟩ | ⟨-, hx, -⟩
    · exact absurd rfl (h.out hb' hcode hlast).not_goesOn
    · cases hx

/-- A retry, with or without going on to the next endpoint. -/
theorem grant {info : CloseInfo} (h : Walked session s (.deciding info) l)
    (hindex : k.rotation.index = rotations session.settings.rotateCodes (s ++ [.met info true]))
    (hwithin : rotations session.settings.rotateCodes (s ++ [.met info true]) ≤ session.endpoints.length - 1)
    (hcode : session.settings.rotateCodes.contains info.code →
      rotations session.settings.rotateCodes s + 1 ≠ session.endpoints.length) :
    Walked session (s ++ [.met info true]) (.ready false) k := by
  refine ⟨?_, fun _ => hwithin, h.dials.concat trivial, ?_⟩
  · intro _
    rw [hindex, Nat.min_eq_left hwithin]
  · intro a info' b heq hcode' hlast
    rcases split_concat heq with ⟨b', hb', -⟩ | ⟨rfl, hx, -⟩
    · exact absurd rfl (h.out hb' hcode' hlast).not_goesOn
    · cases hx
      exact absurd hlast (hcode hcode')

/-- A retry that is granted where there is no next endpoint. -/
theorem exhaust {info : CloseInfo} (h : Walked session s (.deciding info) l) (hrotation : k.rotation = l.rotation)
    (hcode : session.settings.rotateCodes.contains info.code)
    (hlast : session.endpoints.length ≤ rotations session.settings.rotateCodes s + 1) :
    Walked session (s ++ [.met info true])
      (.exhausted info ⟨rotations session.settings.rotateCodes s, session.endpoints.length⟩) k := by
  have hwithin := h.within rfl
  refine ⟨?_, Bool.noConfusion, h.dials.concat trivial, ?_⟩
  · intro _
    rw [hrotation, h.index rfl, rotations_granted, if_pos hcode]
    omega
  · intro a info' b heq hcode' hlast'
    rcases split_concat heq with ⟨b', hb', -⟩ | ⟨rfl, hx, rfl⟩
    · exact absurd rfl (h.out hb' hcode' hlast').not_goesOn
    · cases hx
      exact .exhausted

theorem turn (h : Walked session s i l) (hbegun : Begun s i) (hroot : Rooted session l)
    (ht : Turn token retryOnClose l k i ds j) :
    Walked session (s ++ ds) j k := by
  have hrotates (info : CloseInfo) : l.rotation.rotatesOn info.code =
      session.settings.rotateCodes.contains info.code := by rw [Rotation.rotatesOn, hroot.codes]
  cases ht with
  | pass hs hp => exact h.pass hs hp
  | claim _ _ hrotation =>
    rw [hbegun.fresh rfl]
    exact claim hrotation
  | dial hs hcurrent => exact h.dial hbegun hroot hs hcurrent
  | @stay info _ hstay hrotation =>
    rw [hrotates] at hstay
    have hsame : rotations session.settings.rotateCodes (s ++ [.met info true]) =
        rotations session.settings.rotateCodes s := by
      rw [rotations_granted, hstay]
      rfl
    apply h.grant
    · rw [hrotation, h.exact_index rfl rfl, hsame]
    · rw [hsame]
      exact h.within rfl
    · intro hcode
      rw [hstay] at hcode
      cases hcode
  | @rotate info _ hgo hrotate =>
    rw [hrotates] at hgo
    obtain ⟨hlt, hrotation⟩ := Rotation.rotate_ok hrotate
    rw [h.exact_index rfl rfl, hroot.endpoints] at hlt
    have hnext : rotations session.settings.rotateCodes (s ++ [.met info true]) =
        rotations session.settings.rotateCodes s + 1 := by rw [rotations_granted, if_pos hgo]
    apply h.grant
    · rw [hrotation, hnext, ← h.exact_index rfl rfl]
    · omega
    · exact fun _ => hlt.ne
  | @exhaust info e _ hgo herror hrotation =>
    rw [hrotates] at hgo
    obtain ⟨hle, he⟩ := Rotation.rotate_error herror
    rw [h.exact_index rfl rfl, hroot.endpoints] at hle he
    rw [he]
    exact h.exhaust hrotation hgo hle

theorem invariant (session : Session) (token : Token) (retryOnClose : Bool) :
    Invariant session token retryOnClose fun s i l => Begun s i ∧ Walked session s i l :=
  .of_begun (fun _ => ⟨Bool.noConfusion, fun _ => Nat.zero_le _, .nil, by simp⟩)
    (fun _ hspares h => ⟨fun hactive => (hspares hactive).rotation ▸ h.index hactive, h.within, h.dials, h.out⟩)
    (fun hbegun hroot ht h => h.turn hbegun hroot ht)

end Walked

variable {world : Surroundings} {log : List Note} {n : Nat} {stage : Starting}

/-- A chain dials the first endpoint first, and then always the one that has been called for so far: as many endpoints on
as it has met closings that were granted a retry and whose code calls for the next one. As long as it is under way, the
listener stands at that endpoint, or at the last one. Past the last one it does not dial: all it does when it is to go
there is to report that, and to close. What it reports is in the streams: each holds the newest events of its kind. -/
theorem endpoints_are_walked (h : Noted world session log l)
    (hn : l.work[n]? = some (.start token retryOnClose stage)) :
    (∀ a d b, story n log = a ++ .dialed d :: b →
      session.endpoints[rotations session.settings.rotateCodes a]? = some d.endpoint ∧
        ((∀ x ∈ a, x.isDial = false) → rotations session.settings.rotateCodes a = 0)) ∧
    (∀ w, l.work[leader n log]? = some w → w.isActive →
      l.rotation = ⟨session.endpoints,
        min (rotations session.settings.rotateCodes (story n log)) (session.endpoints.length - 1),
        session.settings.rotateCodes⟩) ∧
    (∀ a info b, story n log = a ++ .met info true :: b → session.settings.rotateCodes.contains info.code →
      rotations session.settings.rotateCodes a + 1 = session.endpoints.length →
        b <+: .published (.error (.retry ⟨rotations session.settings.rotateCodes a, session.endpoints.length⟩)) ::
            farewell info ∧
          (l.work[leader n log]? = some (.chain token .done) →
            b = .published (.error (.retry ⟨rotations session.settings.rotateCodes a, session.endpoints.length⟩)) ::
              farewell info)) ∧
    (story n log).Sublist (deeds log) ∧ l.events.Holds Events.defaultCapacity ((deeds log).filterMap Deed.event?) := by
  obtain ⟨w, hw, -, -, hwalked⟩ := (Walked.invariant session token retryOnClose).stands h hn
  refine ⟨fun a d b heq => hwalked.dials a _ b heq, ?_, ?_, story_sublist n log, h.holds⟩
  · intro w' hw' hactive
    obtain rfl := Option.some.inj (hw.symm.trans hw')
    have hroot := h.based.rooted
    rw [← hwalked.index (by rwa [Work.isActive_station]), ← hroot.endpoints, ← hroot.codes]
  · intro a info b heq hcode hlast
    obtain ⟨hinitial, hdone⟩ := (hwalked.out heq hcode hlast).initial
    refine ⟨hinitial, ?_⟩
    intro hw'
    obtain rfl := Option.some.inj (hw.symm.trans hw')
    exact hdone rfl

/-- two endpoints, each of which gives way to the next when the socket closes without a close frame -/
def pairSession : Session :=
  { plainSession "7" false with endpoints := ["ws://a/", "ws://b/"], settings := ⟨0, [(1006, ⟨3, [0]⟩)], [1006], []⟩ }

/-- a dial, and both connections lost one after the other -/
def lossMoves : List Move :=
  .start ⟨[0]⟩ true :: (List.replicate 11 (Move.work 0 .proceed) ++
    .peerVanish 0 :: List.replicate 2 (Move.reader 0 .proceed) ++ List.replicate 15 (Move.work 1 .proceed) ++
    .peerVanish 1 :: List.replicate 2 (Move.reader 1 .proceed) ++ List.replicate 11 (Move.work 1 .proceed))

/-- Whether a retry was granted after `before` deeds, and `turns` rotations. -/
def hasGranted (before turns : Nat) (s : List Deed) : Bool :=
  match s.drop before with
  | .met info true :: _ => [1006].contains info.code && rotations [1006] (s.take before) == turns
  | _ => false

theorem of_hasGranted {before turns : Nat} (h : hasGranted before turns s) :
    ∃ a info b, s = a ++ .met info true :: b ∧ [1006].contains info.code ∧ rotations [1006] a = turns := by
  unfold hasGranted at h
  split at h
  · next info b hdrop =>
    obtain ⟨hcode, hturns⟩ := Bool.and_eq_true_iff.1 h
    exact ⟨s.take before, info, b, by rw [← hdrop, List.take_append_drop], hcode, beq_iff_eq.1 hturns⟩
  · cases h

/-- A chain that loses its last endpoint. -/
theorem endpoints_are_walked_exhausted :
    ∃ log l a info, Noted openWorld pairSession log l ∧ rotations [1006] a = 1 ∧
      story 0 log = a ++ .met info true :: .published (.error (.retry ⟨1, 2⟩)) :: farewell info ∧
      l.events.Holds Events.defaultCapacity ((deeds log).filterMap Deed.event?) := by
  have hran : (play openWorld lossMoves ([], create pairSession)).any
      (fun s => isOver s && hasGranted 7 1 (story 0 s.1)) = true := by decide +kernel
  obtain ⟨⟨log, l⟩, hplay, hlost⟩ := (Option.any_eq_true _ _).1 hran
  obtain ⟨hover, hgranted⟩ := Bool.and_eq_true_iff.1 hlost
  obtain ⟨hcall, hdone⟩ := of_isOver hover
  obtain ⟨a, info, b, hstory, hcode, hturns⟩ := of_hasGranted hgranted
  have hnoted := noted_play .start hplay
  obtain ⟨-, -, hlast, -, hholds⟩ := endpoints_are_walked hnoted hcall
  have hb := (hlast a info b hstory hcode (congrArg (· + 1) hturns)).2 hdone
  refine ⟨log, l, a, info, hnoted, hturns, ?_, hholds⟩
  rw [hstory, hb]
  exact congrArg (fun n => a ++ .met info true :: .published (.error (.retry ⟨n, 2⟩)) :: farewell info) hturns

end ChatWire.Listener
