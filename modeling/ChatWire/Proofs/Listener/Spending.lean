import ChatWire.Proofs.Listener.Story

/-! What a chain spends. All its dials but the first are paid for with retries, each from the budget of the code of the
closing that it is granted for. The budgets are full when the chain begins, and nothing fills them while it lasts. -/

namespace ChatWire.Listener

/-! Counting. -/

def Deed.isGranted : Deed → Bool
  | .met _ granted => granted
  | _ => false

def Deed.isGrantedFor (code : Nat) : Deed → Bool
  | .met info granted => granted && info.code == code
  | _ => false

def dialCount (s : List Deed) : Nat := s.countP Deed.isDial

/-- how many retries have been granted -/
def grantCount (s : List Deed) : Nat := s.countP Deed.isGranted

/-- how many of them from the budget of a code -/
def spentOn (code : Nat) (s : List Deed) : Nat := s.countP (Deed.isGrantedFor code)

theorem dialCount_dialed (s : List Deed) (d : Dial) : dialCount (s ++ [.dialed d]) = dialCount s + 1 :=
  countP_concat

theorem grantCount_dialed (s : List Deed) (d : Dial) : grantCount (s ++ [.dialed d]) = grantCount s :=
  countP_concat

theorem spentOn_dialed (code : Nat) (s : List Deed) (d : Dial) : spentOn code (s ++ [.dialed d]) = spentOn code s :=
  countP_concat

theorem dialCount_granted (s : List Deed) (info : CloseInfo) : dialCount (s ++ [.met info true]) = dialCount s :=
  countP_concat

theorem grantCount_granted (s : List Deed) (info : CloseInfo) :
    grantCount (s ++ [.met info true]) = grantCount s + 1 := countP_concat

theorem spentOn_granted (code : Nat) (s : List Deed) (info : CloseInfo) :
    spentOn code (s ++ [.met info true]) = spentOn code s + if info.code = code then 1 else 0 := by
  rw [spentOn, spentOn, countP_concat]
  simp [Deed.isGrantedFor]

variable {session : Session} {token : Token} {retryOnClose : Bool} {l k : Listener} {i j : Station} {s ds : List Deed}

namespace Pass

theorem dialCount_eq (h : Pass token l k i ds j) : dialCount (s ++ ds) = dialCount s :=
  h.countP_eq fun _ hdial _ => hdial

theorem isGrantedFor_eq_false {x : Deed} (hmet : ∀ info, x ≠ .met info true) (code : Nat) :
    x.isGranted = false ∧ x.isGrantedFor code = false := by
  cases x with
  | met info granted =>
    cases granted with
    | false => exact ⟨rfl, rfl⟩
    | true => exact absurd rfl (hmet info)
  | _ => exact ⟨rfl, rfl⟩

theorem grantCount_eq (h : Pass token l k i ds j) : grantCount (s ++ ds) = grantCount s :=
  h.countP_eq fun _ _ hmet => (isGrantedFor_eq_false hmet 0).1

theorem spentOn_eq (h : Pass token l k i ds j) (code : Nat) : spentOn code (s ++ ds) = spentOn code s :=
  h.countP_eq fun _ _ hmet => (isGrantedFor_eq_false hmet code).2

end Pass

/-! Spending. -/

def Station.isReady : Station → Bool
  | .ready _ => true
  | _ => false

theorem Pass.isReady (h : Pass token l k i ds j) (hj : j.isReady) : i.isReady := by
  cases h <;> first | exact hj | cases hj

/-- How a chain spends its budgets. -/
structure Spent (session : Session) (retryOnClose : Bool) (s : List Deed) (i : Station) (l : Listener) : Prop where
  allowed : i.isActive → l.retryOnClose = retryOnClose
  budgets : i.isActive → ∀ code,
    l.retry.budget? code = (session.settings.rule? code).map fun rule => ⟨rule, 1 + spentOn code s⟩
  within : ∀ code, spentOn code s ≤ session.settings.retriesOf code
  total : grantCount s = ∑ code ∈ session.settings.retryable, spentOn code s
  paid : dialCount s ≤ 1 + grantCount s
  due : i.isReady → dialCount s ≤ grantCount s
  denied : retryOnClose = false → grantCount s = 0

namespace Spent

theorem pass (h : Spent session retryOnClose s i l) (hs : Spares l k) (hp : Pass token l k i ds j) :
    Spent session retryOnClose (s ++ ds) j k where
  allowed hj := hs.retryOnClose.trans (h.allowed (hp.isActive hj))
  budgets hj code := by
    rw [hs.retry, hp.spentOn_eq]
    exact h.budgets (hp.isActive hj) code
  within code := by
    rw [hp.spentOn_eq]
    exact h.within code
  total := by
    rw [hp.grantCount_eq, h.total]
    exact Finset.sum_congr rfl fun code _ => (hp.spentOn_eq code).symm
  paid := by
    rw [hp.dialCount_eq, hp.grantCount_eq]
    exact h.paid
  due hj := by
    rw [hp.dialCount_eq, hp.grantCount_eq]
    exact h.due (hp.isReady hj)
  denied hno := by
    rw [hp.grantCount_eq]
    exact h.denied hno

/-- The claim fills all budgets. -/
theorem claim (hroot : Rooted session l) (hallow : k.retryOnClose = retryOnClose) (hretry : k.retry = l.retry.reset) :
    Spent session retryOnClose [] (.ready true) k where
  allowed _ := hallow
  budgets _ code := by
    rw [hretry, RetryPolicy.budget?_reset, ← hroot.rules code, Option.map_map]
    rfl
  within _ := Nat.zero_le _
  total := (Finset.sum_const_zero).symm
  paid := Nat.zero_le _
  due _ := le_rfl
  denied _ := rfl

theorem dial {first : Bool} {d : Dial} (h : Spent session retryOnClose s (.ready first) l) (hs : Spares l k) :
    Spent session retryOnClose (s ++ [.dialed d]) (.calling first d.endpoint) k where
  allowed _ := hs.retryOnClose.trans (h.allowed rfl)
  budgets _ code := by
    rw [hs.retry, spentOn_dialed]
    exact h.budgets rfl code
  within code := by
    rw [spentOn_dialed]
    exact h.within code
  total := by
    rw [grantCount_dialed, h.total]
    exact Finset.sum_congr rfl fun code _ => (spentOn_dialed code s d).symm
  paid := by
    rw [dialCount_dialed, grantCount_dialed, Nat.add_comm]
    exact Nat.add_le_add_left (h.due rfl) 1
  due := Bool.noConfusion
  denied hno := by
    rw [grantCount_dialed]
    exact h.denied hno

/-- The budget that a retry is granted from had something left, and is one shorter after that. -/
theorem grant {info : CloseInfo} (h : Spent session retryOnClose s (.deciding info) l) (hg : Grants info l k) :
    Spent session retryOnClose (s ++ [.met info true]) j k := by
  obtain ⟨delay, hretry⟩ := hg.retry
  obtain ⟨hfinal, hspent, b, hb, hleft⟩ := RetryPolicy.of_retry_some hretry
  rw [h.budgets rfl info.code, Option.map_eq_some_iff] at hb
  obtain ⟨rule, hrule, rfl⟩ := hb
  have hmem := Settings.mem_retryable hrule hfinal
  have hretries : session.settings.retriesOf info.code = rule.max - 1 := by
    rw [Settings.retriesOf, hrule]
    rfl
  simp only [Budget.exhausted, decide_eq_false_iff_not, Nat.not_le] at hleft
  refine ⟨fun _ => hg.retryOnClose.trans (h.allowed rfl), ?_, ?_, ?_, ?_, ?_, ?_⟩
  · intro _ code
    rw [hspent, RetryPolicy.budget?_update, h.budgets rfl code, Option.map_map, spentOn_granted]
    congr 1
    funext rule
    by_cases hc : code = info.code
    · simp [hc, Budget.spend, Nat.add_assoc]
    · simp [hc, Ne.symm hc]
  · intro code
    rw [spentOn_granted]
    split_ifs with hc
    · rw [← hc, hretries]
      omega
    · exact h.within code
  · rw [grantCount_granted, h.total]
    simp only [spentOn_granted, Finset.sum_add_distrib, Finset.sum_ite_eq, hmem, if_true]
  · rw [dialCount_granted, grantCount_granted]
    exact h.paid.trans (by omega)
  · intro _
    rw [dialCount_granted, grantCount_granted, Nat.add_comm]
    exact h.paid
  · intro hno
    have hallowed := hg.allowed
    rw [h.allowed rfl, hno] at hallowed
    cases hallowed

theorem turn (h : Spent session retryOnClose s i l) (hbegun : Begun s i) (hroot : Rooted session l)
    (ht : Turn token retryOnClose l k i ds j) : Spent session retryOnClose (s ++ ds) j k := by
  cases ht with
  | pass hs hp => exact h.pass hs hp
  | claim hallow hretry =>
    rw [hbegun.fresh rfl]
    exact claim hroot hallow hretry
  | dial hs => exact h.dial hs
  | stay hg | rotate hg | exhaust hg => exact h.grant hg

theorem invariant (session : Session) (token : Token) (retryOnClose : Bool) :
    Invariant session token retryOnClose fun s i l => Begun s i ∧ Spent session retryOnClose s i l :=
  .of_begun
    (fun _ => ⟨Bool.noConfusion, Bool.noConfusion, fun _ => Nat.zero_le _, Finset.sum_const_zero.symm, Nat.zero_le _,
      Bool.noConfusion, fun _ => rfl⟩)
    (fun _ hspares h => ⟨fun hactive => (hspares hactive).retryOnClose.trans (h.allowed hactive),
      fun hactive => (hspares hactive).retry ▸ h.budgets hactive, h.within, h.total, h.paid, h.due, h.denied⟩)
    (fun hbegun hroot ht h => h.turn hbegun hroot ht)

/-- All retries together stay within the allowance. -/
theorem bounded (h : Spent session retryOnClose s i l) : dialCount s ≤ 1 + session.settings.allowance := by
  calc dialCount s ≤ 1 + grantCount s := h.paid
    _ = 1 + ∑ code ∈ session.settings.retryable, spentOn code s := by rw [h.total]
    _ ≤ 1 + session.settings.allowance := Nat.add_le_add_left (Finset.sum_le_sum fun code _ => h.within code) 1

end Spent

/-! Refused redials. -/

/-- Where a chain stands after a redial has failed: it is cancelled and finishes, or it reports the failure, and decides
about it as about a socket that closed without a close frame. -/
inductive AfterFailure (e : ListenerError) : Station → List Deed → Prop
  | finishing {info : CloseInfo} {i : Station} {b : List Deed} : Finishes info i b → AfterFailure e i b
  | complaining : AfterFailure e (.complaining e) []
  | deciding : AfterFailure e (.deciding redialFailed) [.published (.error e)]
  | decided {i : Station} {granted : Bool} {b : List Deed} :
      AfterFailure e i (.published (.error e) :: .met redialFailed granted :: b)

namespace AfterFailure

variable {e : ListenerError} {b : List Deed}

theorem turn (h : AfterFailure e i b) (ht : Turn token retryOnClose l k i ds j) : AfterFailure e j (b ++ ds) := by
  cases h with
  | finishing h => exact .finishing (h.turn ht)
  | complaining =>
    cases ht with
    | pass _ hp =>
      cases hp with
      | rest => exact .complaining
      | complain => exact .deciding
  | deciding =>
    cases ht with
    | pass _ hp =>
      cases hp with
      | rest => exact .deciding
      | deny => exact .decided
    | stay | rotate | exhaust => exact .decided
  | decided => exact .decided

theorem cases_deeds (h : AfterFailure e i b) : (∃ info, b <+: farewell info) ∨ b = [.published (.error e)] ∨
    ∃ granted c, b = .published (.error e) :: .met redialFailed granted :: c := by
  cases h with
  | finishing h => exact .inl ⟨_, h.initial.1⟩
  | complaining => exact .inl ⟨redialFailed, _, rfl⟩
  | deciding => exact .inr (.inl rfl)
  | decided => exact .inr (.inr ⟨_, _, rfl⟩)

theorem invariant (session : Session) (token : Token) (retryOnClose : Bool) :
    Invariant session token retryOnClose fun s i _ =>
      ∀ a x b, s = a ++ x :: b → ∀ e, x = .failed e → AfterFailure e i b := by
  refine .of_after (Q := fun x i b _ => ∀ e, x = .failed e → AfterFailure e i b) (fun _ h => h) ?_ ?_
  · rintro x i j l k ht e rfl
    cases ht with
    | pass _ hp =>
      cases hp with
      | abandon => exact .finishing .ending
      | fail => exact .complaining
  · intro x i j b ds l k _ ht h e hx
    exact (h e hx).turn ht

end AfterFailure

/-- A chain that a call has handed over to has dialed. -/
theorem Chain.hasDialed_station (stage : Chain) : stage.station.hasDialed := by
  cases stage with
  | yielding link stage => cases stage <;> rfl
  | dialing info d =>
    cases d with
    | finished r => cases r <;> rfl
    | _ => rfl
  | finishing info stage => cases stage <;> rfl
  | _ => rfl

variable {world : Surroundings} {log : List Note} {n : Nat} {stage : Starting}

/-- A chain dials at most once, and then at most as often as the rules that are kept allow retries. As long as it is under
way, the budget of each code is its rule's less what the chain has spent on that code: all budgets are full at first, and
none is filled again. After a refused redial, which it reports, the chain decides as after an abnormal closing, unless
it has been cancelled. A chain that is not to be retried dials once, whether the dial succeeds or not. What it reports is
in the streams: each holds the newest events of its kind. -/
theorem dials_are_bounded (h : Noted world session log l)
    (hn : l.work[n]? = some (.start token retryOnClose stage)) :
    dialCount (story n log) ≤ 1 + session.settings.allowance ∧
    (∀ w, l.work[leader n log]? = some w → w.isActive → ∀ code,
      l.retry.budget? code = (session.settings.rule? code).map (fun rule => ⟨rule, 1 + spentOn code (story n log)⟩) ∧
        (spentOn code (story n log) = 0 → l.retry.budget? code = (session.settings.rule? code).map Budget.full)) ∧
    (∀ a e b, story n log = a ++ .failed e :: b →
      (∃ info, b <+: farewell info) ∨ b = [.published (.error e)] ∨
        ∃ granted c, b = .published (.error e) :: .met redialFailed granted :: c) ∧
    (retryOnClose = false →
      dialCount (story n log) ≤ 1 ∧ (stage = .finished (.ok ()) → dialCount (story n log) = 1) ∧
        ∀ op e, stage = .finished (.error (.transport op e)) → dialCount (story n log) = 1) ∧
    (story n log).Sublist (deeds log) ∧ l.events.Holds Events.defaultCapacity ((deeds log).filterMap Deed.event?) := by
  have hinvariant := (Spent.invariant session token retryOnClose).and (AfterFailure.invariant session token retryOnClose)
  obtain ⟨w, hw, hhead, ⟨hbegun, hspent⟩, hafter⟩ := hinvariant.stands h hn
  refine ⟨hspent.bounded, ?_, ?_, ?_, story_sublist n log, h.holds⟩
  · intro w' hw' hactive code
    obtain rfl := Option.some.inj (hw.symm.trans hw')
    have hbudget := hspent.budgets (by rwa [Work.isActive_station]) code
    refine ⟨hbudget, ?_⟩
    intro hnone
    rw [hbudget, hnone]
    rfl
  · exact fun a e b heq => (hafter a _ b heq e rfl).cases_deeds
  · intro hno
    have hle : dialCount (story n log) ≤ 1 := by
      have hpaid := hspent.paid
      rwa [hspent.denied hno] at hpaid
    have heq (hdialed : w.station.hasDialed) : dialCount (story n log) = 1 :=
      le_antisymm hle (List.countP_pos_iff.2 (hbegun.dialed hdialed))
    refine ⟨hle, ?_, ?_⟩
    · rintro rfl
      obtain ⟨stage, rfl⟩ := hhead.exists_chain hw hn
      exact heq stage.hasDialed_station
    · rintro op e rfl
      obtain rfl := hhead.eq_call hw hn
      exact heq rfl

/-- The first dial succeeds, and no other does. -/
def onceWorld : Surroundings := ⟨fun n _ => ⟨0, if n = 0 then none else some .closed⟩, fun _ => 0⟩

/-- a dial, the connection lost, and redials -/
def refusedMoves : List Move :=
  .start ⟨[0]⟩ true :: (List.replicate 11 (Move.work 0 .proceed) ++
    .peerVanish 0 :: List.replicate 2 (Move.reader 0 .proceed) ++ List.replicate 23 (Move.work 1 .proceed))

/-- A chain that dials as often as it may, the last two times in vain. -/
theorem dials_are_bounded_refused :
    1 + scantSession.settings.allowance = 3 ∧
      ∃ log l, Noted onceWorld scantSession log l ∧ dialCount (story 0 log) = 1 + scantSession.settings.allowance ∧
        l.work[leader 0 log]? = some (.chain ⟨[0]⟩ .done) ∧ ∃ a e b, story 0 log = a ++ .failed e :: b ∧
          ((∃ info, b <+: farewell info) ∨ b = [.published (.error e)] ∨
            ∃ granted c, b = .published (.error e) :: .met redialFailed granted :: c) := by
  have hran : (play onceWorld refusedMoves ([], create scantSession)).any (fun s => isOver s &&
      (story 0 s.1).any Deed.isFailed && dialCount (story 0 s.1) == 3) = true := by decide +kernel
  obtain ⟨⟨log, l⟩, hplay, hend⟩ := (Option.any_eq_true _ _).1 hran
  simp only [Bool.and_eq_true, beq_iff_eq] at hend
  obtain ⟨⟨hover, hfailed⟩, hmany⟩ := hend
  obtain ⟨hcall, hdone⟩ := of_isOver hover
  have hnoted := noted_play .start hplay
  obtain ⟨-, -, hrefused, -, -, -⟩ := dials_are_bounded hnoted hcall
  have hthree : 1 + scantSession.settings.allowance = 3 := rfl
  obtain ⟨e, he⟩ := exists_failed hfailed
  obtain ⟨a, b, hstory⟩ := List.append_of_mem he
  exact ⟨hthree, log, l, hnoted, hmany.trans hthree.symm, hdone, a, e, b, hstory, hrefused a e b hstory⟩

end ChatWire.Listener
