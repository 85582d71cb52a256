import ChatWire.CommandLine.Run
import ChatWire.Proofs.Params.Arrangement

/-! Signatures on the command line. Each argument is split at its first `=`, and in whatever order the arguments are
given, the signature is that of the pairs. -/

namespace ChatWire.CommandLine

/-- A pair as it is given on the command line. -/
def argument (p : String × String) : String := p.1 ++ "=" ++ p.2

theorem pair?_argument {p : String × String} (h : '=' ∉ p.1.toList) : pair? (argument p) = some p := by
  have htext : (argument p).toList = p.1.toList ++ '=' :: p.2.toList := by
    rw [argument, String.toList_append, String.toList_append, List.append_assoc]
    rfl
  have hkey : (argument p).toList.takeWhile (· != '=') = p.1.toList := by
    have hall : ∀ c ∈ p.1.toList, c != '=' := fun c hc => bne_iff_ne.2 fun heq => h (heq ▸ hc)
    rw [htext, List.takeWhile_append_of_pos hall, List.takeWhile_cons_of_neg (by decide), List.append_nil]
  have hvalue : (argument p).toList.drop (p.1.toList.length + 1) = p.2.toList := by
    rw [htext, List.drop_append, List.drop_eq_nil_of_le (Nat.le_succ _), Nat.add_sub_cancel_left]
    rfl
  have hlt : p.1.toList.length < (argument p).toList.length := by
    rw [htext, List.length_append, List.length_cons]
    omega
  rw [pair?]
  simp only [hkey, hvalue, hlt, if_true, String.ofList_toList]

theorem sign_arguments (call : String) {pairs : List (String × String)} (h : ∀ p ∈ pairs, '=' ∉ p.1.toList) :
    sign call (pairs.map argument) = .ok (Signature.sign call pairs) := by
  have hread : (pairs.map argument).mapM parsePair = .ok pairs := by
    induction pairs with
    | nil => rfl
    | cons p r ih =>
      have hp : parsePair (argument p) = .ok p := by
        rw [parsePair, pair?_argument (h p (List.mem_cons_self ..))]
      rw [List.map_cons, List.mapM_cons, hp, ih fun q hq => h q (List.mem_cons_of_mem _ hq)]
      rfl
  rw [sign, hread]
  rfl

theorem takeWords_sign (args : List String) (s : SignArguments) :
    takeWords signGrammar args s = .ok { s with params := s.params ++ args } := by
  induction args generalizing s with
  | nil => rw [List.append_nil]; rfl
  | cons a r ih =>
    have hword : takeWord signGrammar a s = .ok { s with params := s.params ++ [a] } := rfl
    rw [takeWords, hword]
    simp only [bind, Except.bind]
    rw [ih, List.append_assoc, List.singleton_append]

theorem shape_type (call : String) : shape ("--type=" ++ call) = .long "type" (some call) := by
  have htext : ("--type=" ++ call).toList = '-' :: '-' :: 't' :: 'y' :: 'p' :: 'e' :: '=' :: call.toList := by
    rw [String.toList_append]
    rfl
  rw [shape, htext]
  simp only [longShape, List.takeWhile_cons, List.length_cons]
  simp

/-- Behind the mark everything is a parameter. -/
theorem invocation_sign (call : String) (args : List String) :
    invocation ("sign" :: ("--type=" ++ call) :: "--" :: args) = .run (.sign call args) := by
  have hargs : takeArguments signGrammar [] (("--type=" ++ call) :: "--" :: args) ⟨none, []⟩ =
      .ok ⟨some call, args⟩ := by
    rw [takeArguments, shape_type]
    exact takeWords_sign args ⟨some call, []⟩
  rw [invocation, commandOf, hargs]
  rfl

end ChatWire.CommandLine

namespace ChatWire.Signature

open CommandLine (argument)

/-- Only the order of pairs of one name counts: the digest is that of the values by the bytes of their names, and where
each name comes up once any order does, on the command line too. -/
theorem signatures_forget_order (call : String) :
    (∀ p q, Shuffles p q → sign call q = sign call p) ∧
    (∀ p, ∃ r, (∀ l, Arranges p l ↔ l = r) ∧
      sign call p = Hex.encode (Md5.digest (Text.toBytes ("zsecure" ++ call ++ String.join (r.map Prod.snd))))) ∧
    (∀ p q : List (String × String), q.Perm p → (p.map Prod.fst).Nodup → sign call q = sign call p) ∧
    ∀ p q : List (String × String), q.Perm p → (p.map Prod.fst).Nodup → (∀ a ∈ p, '=' ∉ a.1.toList) →
      CommandLine.invocation ("sign" :: ("--type=" ++ call) :: "--" :: q.map argument) =
        .run (.sign call (q.map argument)) ∧
      CommandLine.sign call (q.map argument) = .ok (sign call p) := by
  refine ⟨?_, ?_, fun p q => sign_eq_of_perm call, ?_⟩
  · intro p q h
    rw [sign, sign, arrange_of_shuffles h]
  · intro p
    refine ⟨arrange p, fun l => ⟨Arranges.eq_arrange, ?_⟩, rfl⟩
    rintro rfl
    exact arranges_arrange p
  · intro p q h hd hkey
    refine ⟨CommandLine.invocation_sign call _, ?_⟩
    rw [CommandLine.sign_arguments call fun a ha => hkey a (h.subset ha), sign_eq_of_perm call h hd]

/-- a name that comes up twice, and two names whose order is that of their bytes -/
theorem signatures_forget_order_repeated :
    let p := [("😀", "4"), ("b", "1"), ("ﾟ", "3"), ("b", "2")]
    let q := [("b", "1"), ("b", "2"), ("😀", "4"), ("ﾟ", "3")]
    Shuffles p q ∧ sign "x" q = sign "x" p ∧
      sign "x" p = Hex.encode (Md5.digest (Text.toBytes "zsecurex1234")) ∧
      CommandLine.sign "x" ["b=2=2", "a=1"] = .ok (sign "x" [("a", "1"), ("b", "2=2")]) := by
  intro p q
  obtain ⟨hshuffles, hvalues, -, hcommand⟩ := signatures_forget_order "x"
  have hpq : Shuffles p q := .of_mem (by decide) (by decide)
  have harranges : Arranges p [("b", "1"), ("b", "2"), ("ﾟ", "3"), ("😀", "4")] :=
    ⟨.of_mem (by decide) (by decide), by decide⟩
  obtain ⟨r, hr, hsign⟩ := hvalues p
  rw [← (hr _).1 harranges] at hsign
  refine ⟨hpq, hshuffles p q hpq, hsign, ?_⟩
  exact (hcommand [("a", "1"), ("b", "2=2")] [("b", "2=2"), ("a", "1")] (by decide) (by decide) (by decide)).2

end ChatWire.Signature
