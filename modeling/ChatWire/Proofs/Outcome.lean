/-! Computations that may fail. Steps in a row succeed when each of them does, and where one fails the others do
not matter; a step is described by the outcomes that it has, or by what may be wrong with what it is given. -/

namespace ChatWire

variable {ε δ α β γ : Type}

theorem bind_eq_ok_iff {x : Except ε α} {f : α → Except ε β} {b : β} :
    (x >>= f) = .ok b ↔ ∃ a, x = .ok a ∧ f a = .ok b := by
  cases x with
  | error e => exact ⟨nofun, fun ⟨_, h, _⟩ => nomatch h⟩
  | ok a => exact ⟨fun h => ⟨a, rfl, h⟩, fun ⟨_, ha, h⟩ => Except.ok.inj ha ▸ h⟩

theorem mapError_eq_ok_iff {x : Except ε α} {f : ε → δ} {a : α} : x.mapError f = .ok a ↔ x = .ok a := by
  cases x with
  | error e => exact ⟨nofun, nofun⟩
  | ok b => exact ⟨fun h => congrArg Except.ok (Except.ok.inj h), fun h => congrArg Except.ok (Except.ok.inj h)⟩

/-- what is found, or the report that nothing is -/
def orReport (e : ε) : Option α → Except ε α
  | some a => .ok a
  | none => .error e

@[simp] theorem orReport_some_bind (e : ε) (a : α) (f : α → Except ε β) : (orReport e (some a) >>= f) = f a := rfl

@[simp] theorem orReport_none_bind (e : ε) (f : α → Except ε β) : (orReport e none >>= f) = .error e := rfl

/-- The outcomes of a step, for whatever it is given. -/
abbrev Stage (ε α β : Type) := α → Except ε β → Prop

namespace Stage

variable {S : Stage ε α β} {T : Stage ε β γ} {f : α → Except ε β} {g : β → Except ε γ}

/-- One stage after another: what the first reports is reported. -/
inductive Then (S : Stage ε α β) (T : Stage ε β γ) : Stage ε α γ
  | stops {a : α} {e : ε} : S a (.error e) → Then S T a (.error e)
  | goesOn {a : α} {b : β} {out : Except ε γ} : S a (.ok b) → T b out → Then S T a out

/-- Something that `P` allows, or the report that there is no such thing. -/
inductive Finds (P : α → β → Prop) (e : ε) : Stage ε α β
  | passes {a : α} {b : β} : P a b → Finds P e a (.ok b)
  | stops {a : α} : (∀ b, ¬ P a b) → Finds P e a (.error e)

/-- Something that `P` allows, or the report of the fault that reading meets. -/
inductive Reads (P : α → β → Prop) (read : α → Except δ β) (report : δ → ε) : Stage ε α β
  | passes {a : α} {b : β} : P a b → Reads P read report a (.ok b)
  | stops {a : α} {d : δ} : read a = .error d → Reads P read report a (.error (report d))

/-- whether the stage has just the outcomes of `f` -/
def Describes (S : Stage ε α β) (f : α → Except ε β) : Prop := ∀ a out, S a out ↔ f a = out

theorem Describes.then (hf : S.Describes f) (hg : T.Describes g) : (S.Then T).Describes fun a => f a >>= g := by
  intro a out
  show S.Then T a out ↔ f a >>= g = out
  constructor
  · rintro (he | ⟨hb, hout⟩)
    · rw [(hf a _).1 he]
      rfl
    · rw [(hf a _).1 hb]
      exact (hg _ _).1 hout
  · intro h
    cases ha : f a with
    | error e =>
      rw [ha] at h
      exact h ▸ .stops ((hf a _).2 ha)
    | ok b =>
      rw [ha] at h
      exact .goesOn ((hf a _).2 ha) ((hg b _).2 h)

theorem describes_of (hdoes : ∀ a, S a (f a)) (honly : ∀ a out, S a out → f a = out) : S.Describes f :=
  fun a out => ⟨honly a out, fun h => h ▸ hdoes a⟩

theorem finds_describes {P : α → β → Prop} {e : ε} {find : α → Option β} (h : ∀ a b, find a = some b ↔ P a b) :
    (Finds P e).Describes fun a => orReport e (find a) := by
  refine describes_of (fun a => ?_) ?_
  · cases ha : find a with
    | some b => exact .passes ((h a b).1 ha)
    | none => exact .stops fun b hb => nomatch ha.symm.trans ((h a b).2 hb)
  · rintro a out (hb | hnone)
    · rw [(h a _).2 hb]
      rfl
    · rw [Option.eq_none_iff_forall_ne_some.2 fun b hb => hnone b ((h a b).1 hb)]
      rfl

theorem reads_describes {P : α → β → Prop} {read : α → Except δ β} {report : δ → ε}
    (h : ∀ a b, read a = .ok b ↔ P a b) : (Reads P read report).Describes fun a => (read a).mapError report := by
  refine describes_of (fun a => ?_) ?_
  · cases ha : read a with
    | ok b => exact .passes ((h a b).1 ha)
    | error d => exact .stops ha
  · rintro a out (hb | hd)
    · rw [(h a _).2 hb]
      rfl
    · rw [hd]
      rfl

theorem finds_ok_iff {P : α → β → Prop} {e : ε} {a : α} {b : β} : Finds P e a (.ok b) ↔ P a b := by
  constructor
  · rintro ⟨h⟩
    exact h
  · exact .passes

theorem reads_ok_iff {P : α → β → Prop} {read : α → Except δ β} {report : δ → ε} {a : α} {b : β} :
    Reads P read report a (.ok b) ↔ P a b := by
  constructor
  · rintro ⟨h⟩
    exact h
  · exact .passes

theorem then_ok_iff {a : α} {c : γ} : (S.Then T) a (.ok c) ↔ ∃ b, S a (.ok b) ∧ T b (.ok c) := by
  constructor
  · rintro (_ | ⟨hb, hc⟩)
    exact ⟨_, hb, hc⟩
  · rintro ⟨b, hb, hc⟩
    exact .goesOn hb hc

end Stage

/-! Faults in a row. -/

/-- whether a computation reports the first of some faults, and succeeds when there is none -/
def StopsAtFirst (x : Except ε α) (faults : List ε) : Prop := ∀ e, x = .error e ↔ faults.head? = some e

namespace StopsAtFirst

theorem ok (a : α) : StopsAtFirst (.ok a : Except ε α) [] := fun _ => ⟨nofun, nofun⟩

theorem error (e : ε) : StopsAtFirst (.error e : Except ε α) [e] := by
  intro e'
  rw [List.head?_cons, Option.some_inj, Except.error.injEq]

theorem exists_ok_iff {x : Except ε α} {faults : List ε} (h : StopsAtFirst x faults) :
    (∃ a, x = .ok a) ↔ faults = [] := by
  cases x with
  | ok a =>
    refine iff_of_true ⟨a, rfl⟩ (List.head?_eq_none_iff.1 (Option.eq_none_iff_forall_ne_some.2 fun e he => ?_))
    cases (h e).2 he
  | error e =>
    refine iff_of_false nofun ?_
    rintro rfl
    cases (h e).1 rfl

/-- The faults of the first step come before those of the second, which has the same ones whatever it is given. -/
theorem bind {x : Except ε α} {f : α → Except ε β} {faults more : List ε} (hx : StopsAtFirst x faults)
    (hf : ∀ a, StopsAtFirst (f a) more) : StopsAtFirst (x >>= f) (faults ++ more) := by
  intro e
  cases hout : x with
  | ok a =>
    rw [hx.exists_ok_iff.1 ⟨a, hout⟩, List.nil_append]
    exact hf a e
  | error e' =>
    rw [List.head?_append, (hx e').1 hout, Option.some_or, Option.some_inj]
    exact ⟨fun h => Except.error.inj h, fun h => congrArg _ h⟩

/-- A step that cannot fail has no faults. -/
theorem map {x : Except ε α} {faults : List ε} (hx : StopsAtFirst x faults) (f : α → β) :
    StopsAtFirst (x >>= fun a => pure (f a)) faults := by
  have h := hx.bind fun a => ok (f a)
  rwa [List.append_nil] at h

theorem foldlM {f : β → α → Except ε β} {faults : α → List ε} (h : ∀ b a, StopsAtFirst (f b a) (faults a))
    (l : List α) (b : β) : StopsAtFirst (l.foldlM f b) (l.flatMap faults) := by
  induction l generalizing b with
  | nil => exact ok b
  | cons a l ih =>
    rw [List.foldlM_cons, List.flatMap_cons]
    exact (h b a).bind ih

theorem forM {f : α → Except ε PUnit} {faults : α → List ε} (h : ∀ a, StopsAtFirst (f a) (faults a)) (l : List α) :
    StopsAtFirst (l.forM f) (l.flatMap faults) := by
  induction l with
  | nil => exact ok _
  | cons a l ih =>
    rw [List.flatMap_cons]
    exact (h a).bind fun _ => ih

end StopsAtFirst

end ChatWire
