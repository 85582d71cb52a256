import ChatWire.Proofs.Listener.Possession
import ChatWire.Proofs.Session.Build
import ChatWire.Proofs.Session.Handshake
import ChatWire.Proofs.Url.Special

/-! Sessions that have been built can be dialed. Their endpoints have been read, a listener is always at one of them, and
the URL of a handshake is the endpoint with more pairs; so that no dial fails before it is begun. -/

namespace ChatWire

namespace Rotation

/-- The rotations that come about from the first endpoint on, as the next one is called for and the first one again. -/
inductive Reachable (endpoints : List String) (codes : List Nat) : Rotation → Prop
  | start : Reachable endpoints codes (.start endpoints codes)
  | rotate {r r' : Rotation} : Reachable endpoints codes r → r.rotate = .ok r' → Reachable endpoints codes r'
  | reset {r : Rotation} : Reachable endpoints codes r → Reachable endpoints codes r.reset

variable {endpoints : List String} {codes : List Nat} {r : Rotation}

/-- Rotations do not run out of their endpoints. -/
theorem Reachable.within (h : Reachable endpoints codes r) (hne : endpoints ≠ []) :
    r.endpoints = endpoints ∧ r.index < endpoints.length := by
  induction h with
  | start => exact ⟨rfl, List.length_pos_iff.2 hne⟩
  | rotate _ hrotate ih =>
    obtain ⟨hlt, rfl⟩ := rotate_ok hrotate
    exact ⟨ih.1, ih.1 ▸ hlt⟩
  | reset _ ih => exact ⟨ih.1, List.length_pos_iff.2 hne⟩

theorem Reachable.exists_current (h : Reachable endpoints codes r) (hne : endpoints ≠ []) :
    ∃ e ∈ endpoints, r.current? = some e := by
  obtain ⟨hsame, hlt⟩ := h.within hne
  refine ⟨_, List.getElem_mem hlt, ?_⟩
  rw [current?, hsame, List.getElem?_eq_getElem hlt]

end Rotation

/-- The URL of a handshake is formed wherever the endpoint is read, and read again with the stamps. -/
theorem Session.exists_handshakeUrl (s : Session) {endpoint : String} {u : Url} (hu : Url.parse endpoint = .ok u)
    (hagain : u.Rereads) (nowMs : Int) : ∃ url, s.handshakeUrl endpoint nowMs = .ok url := by
  obtain ⟨v, hv⟩ := hagain (s.stamps u nowMs)
  exact ⟨_, (s.handshakeUrl_eq_ok_iff ..).2 ⟨u, v, hu, hv, rfl⟩⟩

namespace Listener

variable {world : Surroundings} {session : Session} {log : List Note} {l k : Listener}

/-! The rotation of a listener. -/

theorem Turn.reachable {token : Token} {retryOnClose : Bool} {i j : Station} {ds : List Deed}
    {endpoints : List String} {codes : List Nat} (ht : Turn token retryOnClose l k i ds j)
    (h : Rotation.Reachable endpoints codes l.rotation) : Rotation.Reachable endpoints codes k.rotation := by
  cases ht with
  | pass hs | dial hs => exact hs.rotation ▸ h
  | claim _ _ hrotation => exact hrotation ▸ h.reset
  | stay _ _ hrotation => exact hrotation ▸ h
  | rotate _ _ hrotate => exact h.rotate hrotate
  | exhaust _ _ _ hrotation => exact hrotation ▸ h

theorem Noted.reachable_rotation (h : Noted world session log l) :
    Rotation.Reachable session.endpoints session.settings.rotateCodes l.rotation := by
  induction h with
  | start => exact .start
  | @step log l k m hprev hstep ih =>
    rcases exists_work_or m with ⟨n, c, rfl⟩ | hm
    · obtain ⟨w, w', k', hn, hwork, rfl⟩ := step_work hstep
      rcases hwork.work_cases with ⟨hspawn, -⟩ | ⟨token, retryOnClose, link, -, -, rfl⟩
      · obtain ⟨K, hled⟩ := hprev.based.led
        obtain ⟨token, retryOnClose, hof⟩ := w.exists_isOf
        exact (hwork.turn hof (fun hw => (hled.place hn hw).1) (hprev.based.sober w (List.mem_of_getElem? hn))
          hspawn).reachable ih
      · exact ih
    · obtain ⟨-, hspares, -⟩ := step_outside hstep hm
      exact hspares.rotation ▸ ih

/-! Dials. -/

/-- Whether a listener is at an endpoint for which the URL of a handshake can be formed, at any time. -/
def IsReady (l : Listener) : Prop :=
  ∃ e, l.rotation.current? = some e ∧ ∀ nowMs, ∃ url, l.session.handshakeUrl e nowMs = .ok url

/-- Whether a task has not failed to begin a dial. -/
def Work.Dials (w : Work) : Prop := ∀ op e, w.dialError? ≠ some (.session op e)

theorem DialingStep.dials {token : Token} {d d' : Dialing} (h : DialingStep world token l d d' k) (hready : l.IsReady)
    (op : Operation) (e : SessionError) : d'.failure? ≠ some (.session op e) := by
  obtain ⟨endpoint, hcurrent, hform⟩ := hready
  cases h with
  | nowhere hnone =>
    rw [hcurrent] at hnone
    cases hnone
  | noUrl hsome herror =>
    cases hcurrent.symm.trans hsome
    obtain ⟨url, hurl⟩ := hform (world.wallClock l.now)
    cases hurl.symm.trans herror
  | _ => exact nofun

theorem WorkStep.dials {w w' : Work} (h : WorkStep world l w w' k) (hw : w.Dials) (hready : l.IsReady) : w'.Dials := by
  cases h with
  | start hs =>
    cases hs with
    | dial hd => exact hd.dials hready
    | dialFailed => exact hw
    | _ => exact fun _ _ => nofun
  | chain hs =>
    cases hs with
    | dial hd => exact hd.dials hready
    | dialFailed => exact hw
    | handle hhandle =>
      rcases handle_stage hhandle with rfl | rfl | ⟨es, ping, rfl⟩ <;> exact fun _ _ => nofun
    | _ => exact fun _ _ => nofun
  | stop | keepalive => exact fun _ _ => nofun

/-- No task fails to begin a dial, if the URL of a handshake can be formed wherever the listener may be. -/
theorem Noted.dials (h : Noted world session log l)
    (hform : ∀ r, Rotation.Reachable session.endpoints session.settings.rotateCodes r →
      ∃ e, r.current? = some e ∧ ∀ nowMs, ∃ url, session.handshakeUrl e nowMs = .ok url) :
    ∀ w ∈ l.work, w.Dials := by
  induction h with
  | start => exact fun _ hw => nomatch hw
  | @step log l k m hprev hstep ih =>
    rcases exists_work_or m with ⟨n, c, rfl⟩ | hm
    · obtain ⟨w, w', k', hn, hwork, rfl⟩ := step_work hstep
      have hready : l.IsReady := by
        rw [IsReady, hprev.based.rooted.same]
        exact hform _ hprev.reachable_rotation
      obtain ⟨vs, hvs, hspawned⟩ : ∃ vs, k'.work = l.work ++ vs ∧ ∀ v ∈ vs, v.Dials :=
        hwork.exists_spawned_of (fun _ _ _ _ => nofun) fun _ _ _ _ _ _ => nofun
      exact forall_mem_setTask (forall_mem_append hvs ih hspawned) (hwork.dials (ih w (List.mem_of_getElem? hn)) hready)
    · obtain ⟨-, -, vs, hvs, hfresh⟩ := step_outside hstep hm
      refine forall_mem_append hvs ih fun v hv => ?_
      rcases Work.eq_of_isFresh (hfresh v hv) with ⟨token, retryOnClose, rfl⟩ | rfl <;> exact fun _ _ => nofun

end Listener

namespace Session

open Listener (Noted)

/-- A draft makes a session if nothing is wanting, and otherwise the first thing that is wanting is reported. A listener
on a session that has been made is always at one of its endpoints, the URL of a handshake can be formed there at any
time, and so no dial fails before it is begun; as long as the endpoints are read again with more pairs. -/
theorem built_sessions_are_dialed (now : Int) (d : SessionDraft) :
    ((∃ s, build now d = .ok s) ↔ d.IsComplete) ∧
    (∀ e, build now d = .error e ↔ d.faults.head? = some e) ∧
    ∀ s, build now d = .ok s → (∀ e ∈ d.endpoints, ∀ u, Url.parse e = .ok u → u.Rereads) →
      (∀ r, Rotation.Reachable s.endpoints s.settings.rotateCodes r →
        ∃ e ∈ s.endpoints, r.current? = some e ∧ ∀ nowMs, ∃ url, s.handshakeUrl e nowMs = .ok url) ∧
      ∀ world log l, Noted world s log l →
        Rotation.Reachable s.endpoints s.settings.rotateCodes l.rotation ∧
        ∀ w ∈ l.work, ∀ op e, w.dialError? ≠ some (.session op e) := by
  refine ⟨exists_build_iff now d, build_stopsAtFirst now d, fun s hs hagain => ?_⟩
  have hcomplete := isComplete_of_build hs
  have hform : ∀ r, Rotation.Reachable s.endpoints s.settings.rotateCodes r →
      ∃ e ∈ s.endpoints, r.current? = some e ∧ ∀ nowMs, ∃ url, s.handshakeUrl e nowMs = .ok url := by
    intro r hr
    rw [endpoints_of_build hs] at hr ⊢
    obtain ⟨e, he, hcurrent⟩ := hr.exists_current hcomplete.hasEndpoint
    obtain ⟨u, hu⟩ := hcomplete.endpoints e he
    exact ⟨e, he, hcurrent, s.exists_handshakeUrl hu (hagain e he u hu)⟩
  refine ⟨hform, fun world log l hl => ⟨hl.reachable_rotation, hl.dials fun r hr => ?_⟩⟩
  obtain ⟨e, -, he⟩ := hform r hr
  exact ⟨e, he⟩

theorem built_sessions_are_dialed_rotated :
    let d : SessionDraft := ⟨some "777", some "imei", some "secret", some "agent", none, 30, 665, [],
      ⟨0, [], [], []⟩, ["wss://a.example.test/ws", "https://b.example.test:8443/ws?t=1#f"], false⟩
    ∃ s, build 0 d = .ok s ∧
      ∀ nowMs, ∃ url, s.handshakeUrl "https://b.example.test:8443/ws?t=1#f" nowMs = .ok url := by
  intro d
  let a : Url := ⟨"wss", some ⟨"", "", .domain "a.example.test", none⟩, .segments ["ws"], none, none⟩
  let b : Url := ⟨"https", some ⟨"", "", .domain "b.example.test", some 8443⟩, .segments ["ws"], some "t=1", some "f"⟩
  have ha : Url.parse "wss://a.example.test/ws" = .ok a := by decide +kernel
  have hb : Url.parse "https://b.example.test:8443/ws?t=1#f" = .ok b := by decide +kernel
  obtain ⟨hbuild, -, hdial⟩ := built_sessions_are_dialed 0 d
  obtain ⟨s, hs⟩ := hbuild.2 (SessionDraft.faults_eq_nil.1 (by decide +kernel))
  have hagain : ∀ e ∈ d.endpoints, ∀ u, Url.parse e = .ok u → u.Rereads := by
    intro e he u hu
    simp only [d, List.mem_cons, List.not_mem_nil, or_false] at he
    rcases he with rfl | rfl
    · cases ha.symm.trans hu
      exact Url.rereads_of_site "a.example.test" rfl (by decide) rfl rfl rfl (by decide)
        (by decide +kernel)
    · cases hb.symm.trans hu
      exact Url.rereads_of_site "b.example.test:8443" rfl (by decide) rfl rfl rfl (by decide)
        (by decide +kernel)
  refine ⟨s, hs, ?_⟩
  have hsame := endpoints_of_build hs
  have hrotated : Rotation.Reachable s.endpoints s.settings.rotateCodes ⟨s.endpoints, 1, s.settings.rotateCodes⟩ := by
    refine .rotate .start ?_
    rw [hsame]
    rfl
  obtain ⟨e, -, hcurrent, hform⟩ := (hdial s hs hagain).1 _ hrotated
  rw [Rotation.current?, hsame] at hcurrent
  cases hcurrent
  exact hform

end Session

end ChatWire
