import Mathlib
import Scriptlet.Proofs.Handles
import Scriptlet.Proofs.Simulation

/-! # What programs see

A program sees no more of its session than the values of the names that occur in it, and a name that
is not bound looks like one that is bound to zero. So two sessions that agree on these names, however
else they differ, cannot be told apart by the program.

* `Session.Agree`: what two sessions have in common while the program runs in both.
* `execute_sees_names`: a program does the same in sessions that agree on its names. -/

namespace Scriptlet

/-- What is the same up to a pairing of handles, with names of a given sort. -/
def Likeness.upTo (pairs : Nat → Nat → Prop) (names : String → Prop) : Likeness :=
  ⟨Eq, pairs, names⟩

namespace Bindings

/-- What a name reads as after binding one. -/
theorem read_insert (bindings : Bindings Value) (name sought : String) (value : Value) :
    (bindings.insert name value).read sought =
      if name = sought then value else bindings.read sought := by
  rw [read, get?_insert]
  by_cases h : name = sought
  · rw [if_pos h, if_pos h, Option.getD_some]
  · rw [if_neg h, if_neg h, read]

/-- What a name reads as is no string or one that is bound. -/
theorem AreBelow.read {bound : Nat} {bindings : Bindings Value} (h : bindings.AreBelow bound)
    (name : String) : (bindings.read name).IsBelow bound := by
  rw [Bindings.read]
  cases hvalue : bindings.get? name with
  | none => trivial
  | some value => exact h.get? hvalue

end Bindings

/-- Names that may occur read as values that are alike, in bindings that two sessions have come to;
other names are bound as they were at first. -/
structure Session.Agree (like : Likeness) (session session' : Session)
    (bindings bindings' : Bindings Value) : Prop where
  read : ∀ name, like.name name → (bindings.read name).Like like (bindings'.read name)
  other : ∀ name, ¬ like.name name → bindings.get? name = session.bindings.get? name
  other' : ∀ name, ¬ like.name name → bindings'.get? name = session'.bindings.get? name

/-- Sessions that agree on names serve programs that use no others. -/
theorem Session.serve_agree (like : Likeness) (session session' : Session) :
    Bindings.Serve like (Session.Agree like session session') where
  read hagree hname := hagree.read _ hname
  insert {bindings bindings' name value value'} hagree hname hvalue := by
    -- a name the program does not use is not the one that is bound
    have hne {sought : String} (hsought : ¬ like.name sought) : ¬ name = sought :=
      fun h => hsought (h ▸ hname)
    refine ⟨fun sought hsought => ?_, fun sought hsought => ?_, fun sought hsought => ?_⟩
    · rw [Bindings.read_insert, Bindings.read_insert]
      by_cases h : name = sought
      · rw [if_pos h, if_pos h]
        exact hvalue
      · rw [if_neg h, if_neg h]
        exact hagree.read sought hsought
    · rw [Bindings.get?_insert, if_neg (hne hsought), hagree.other sought hsought]
    · rw [Bindings.get?_insert, if_neg (hne hsought), hagree.other' sought hsought]

/-- A value that both sessions know is like itself. -/
theorem Value.IsBelow.like_self {bound bound' : Nat} {value : Value} (h : value.IsBelow bound)
    (h' : value.IsBelow bound') (names : String → Prop) :
    value.Like (.upTo (Beyond Eq bound bound') names) value := by
  cases value with
  | number value => exact .number value
  | boolean value => exact .boolean value
  | string value => exact .string (.mk value.content (.inl ⟨rfl, h, h'⟩))

/-- **A program sees only the names that occur in it**, and a name that is not bound looks like one
bound to zero. In two sound sessions that agree on the names of a program and know the strings in
it, the program prints the same, starts equally many statements and ends in the same way, and
afterwards the sessions agree on its names again. Values agree up to a pairing of handles that leaves
every string of before as it is; positions, causes and statuses are equal. Names that do not occur
keep what they were bound to. -/
theorem execute_sees_names (session session' : Session) (limit : Nat) (program : List Stmt)
    (hsound : session.IsSound) (hsound' : session'.IsSound)
    (hstrings : ∀ value ∈ Stmt.stringsAll program,
      value.handle < session.nextHandle ∧ value.handle < session'.nextHandle)
    (hagree : ∀ name ∈ Stmt.namesAll program,
      session'.bindings.read name = session.bindings.read name) :
    let settings : Settings := { verbosity := 0, limit }
    let reply := session.execute settings program
    let reply' := session'.execute settings program
    ∃ pairs : Nat → Nat → Prop, IsPairing pairs ∧
      (∀ handle handle', pairs handle handle' →
        handle < session.nextHandle ∨ handle' < session'.nextHandle → handle = handle') ∧
      reply.Alike (.upTo pairs (· ∈ Stmt.namesAll program)) reply' ∧
      (∀ name ∈ Stmt.namesAll program, (reply.session.bindings.read name).Like
        (.upTo pairs (· ∈ Stmt.namesAll program)) (reply'.session.bindings.read name)) ∧
      ∀ name ∉ Stmt.namesAll program,
        reply.session.lookup name = session.lookup name ∧
        reply'.session.lookup name = session'.lookup name := by
  intro settings reply reply'
  let pairs := Beyond Eq session.nextHandle session'.nextHandle
  let like := Likeness.upTo pairs (· ∈ Stmt.namesAll program)
  have hpairing : IsPairing pairs := isPairing_eq.beyond _ _
  -- only strings that are new in both sessions are paired with others than themselves
  have hold (handle handle' : Nat) (hpairs : pairs handle handle')
      (hlt : handle < session.nextHandle ∨ handle' < session'.nextHandle) : handle = handle' := by
    rcases hpairs with ⟨hsame, -, -⟩ | ⟨made, hmade, hmade'⟩
    · exact hsame
    · omega
  have hsimulation : Simulation like (Abreast (Session.Agree like session session')
      session.nextHandle session'.nextHandle 0 []) settings settings :=
    .abreast hpairing (fun made => .inr ⟨made, rfl, rfl⟩)
      (Session.serve_agree like session session') (.inl rfl)
  have hstart : Session.Beside (Session.Agree like session session') session.nextHandle
      session'.nextHandle session session' := by
    refine ⟨⟨fun name hname => ?_, fun _ _ => rfl, fun _ _ => rfl⟩, 0, rfl, rfl⟩
    have hbelow' := hsound'.read name
    rw [hagree name hname] at hbelow' ⊢
    exact (hsound.read name).like_self hbelow' _
  have hself : Stmt.LikeAll like program program :=
    Stmt.likeAll_self (fun _ => rfl) program (fun _ => id)
      fun value hvalue => .inl ⟨rfl, hstrings value hvalue⟩
  obtain ⟨halike, hend⟩ := hstart.execute hsimulation hself
  exact ⟨pairs, hpairing, hold, halike, hend.bindings.read,
    fun name hname => ⟨hend.bindings.other name hname, hend.bindings.other' name hname⟩⟩

/-- A name that is not bound in one session and bound to zero in the other, next to a string made by
the program: `z` cannot be told apart, and the new string is paired. -/
theorem execute_sees_names_unbound_or_zero :
    let session : Session := ⟨.ofList [("a", .string ⟨"x", 0⟩), ("u", .boolean true)], 1⟩
    let session' : Session := ⟨.ofList [("z", .number 0), ("a", .string ⟨"x", 0⟩)], 4⟩
    let program : List Stmt :=
      [.expression (.binary (.name "t" none) .assign
          (.binary (.name "a" none) .plus (.typeOf (.name "z" none) none) none) none) none,
        .print (.name "t" none) none]
    let reply := session.execute { verbosity := 0, limit := 9 } program
    let reply' := session'.execute { verbosity := 0, limit := 9 } program
    session.lookup "z" = none ∧ session'.lookup "z" = some (.number 0) ∧
    reply.output = "xnumber\n" ∧
    ∃ pairs : Nat → Nat → Prop, IsPairing pairs ∧
      (∀ handle handle', pairs handle handle' → handle < 1 ∨ handle' < 4 → handle = handle') ∧
      reply.Alike (.upTo pairs (· ∈ Stmt.namesAll program)) reply' ∧
      (reply.session.bindings.read "t").Like (.upTo pairs (· ∈ Stmt.namesAll program))
        (reply'.session.bindings.read "t") := by
  intro session session' program reply reply'
  have hsound : session.IsSound :=
    ((Bindings.areBelow_empty 1).insert (show (Value.string ⟨"x", 0⟩).IsBelow 1 from Nat.one_pos)
      "a").insert (show (Value.boolean true).IsBelow 1 from trivial) "u"
  have hsound' : session'.IsSound :=
    ((Bindings.areBelow_empty 4).insert (show (Value.number 0).IsBelow 4 from trivial)
      "z").insert (show (Value.string ⟨"x", 0⟩).IsBelow 4 from Nat.zero_lt_succ 3) "a"
  -- a name that was never bound reads as zero, which is what the other session has bound
  have hagree : ∀ name ∈ Stmt.namesAll program,
      session'.bindings.read name = session.bindings.read name := by
    have hnames : Stmt.namesAll program = ["t", "a", "z", "t"] := rfl
    simp only [hnames, List.forall_mem_cons, List.not_mem_nil, false_imp_iff, implies_true, and_true]
    exact ⟨by cbv, by cbv, by cbv, by cbv⟩
  have hnone : Stmt.stringsAll program = [] := rfl
  obtain ⟨pairs, hpairing, hold, halike, hread, -⟩ :=
    execute_sees_names session session' 9 program hsound hsound'
      (hnone ▸ List.forall_mem_nil _) hagree
  refine ⟨by cbv, by cbv, by cbv, pairs, hpairing, hold, halike, hread "t" ?_⟩
  decide

end Scriptlet
