import Scriptlet.Proofs.Failing
import Scriptlet.Proofs.Placement
import Scriptlet.Proofs.Safety

/-! # Faults point at what went wrong

The nodes of a program that was read from a text know where they stand, so the fault that such a
program ends with tells a token and a position: those of the innermost node and statement that
failed.

* `Stmt.fails_of_execute`: the fault of a statement is that of the innermost statement that failed.
* `Stmt.Blamed`: what a fault tells of the statement that failed.
* `run_blames_innermost`: every fault of a program tells this of the innermost statement that was
  being executed. -/

namespace Scriptlet

open Run

namespace Expr

variable {expr node : Expr} {machine machine' : Machine} {fault : Fault}

/-- A node that is reached in an expression is placed as the expression is. -/
theorem Reaches.isPlaced {stands : Token → Option Position → Prop}
    (h : expr.Reaches machine node machine') (hplaced : expr.IsPlaced stands) :
    node.IsPlaced stands := by
  induction h with
  | here => exact hplaced
  | unary _ ih => exact ih hplaced.2
  | typeOf _ ih => exact ih hplaced.2
  | left _ _ ih => exact ih hplaced.2.1
  | right _ _ _ ih => exact ih hplaced.2.2
  | assigned _ _ ih => exact ih hplaced.2.2

/-- A placed node that fails has a position, and so has its fault. -/
theorem Fails.place_isSome {filename : Option String} {source : String}
    (h : node.Fails machine fault) (hplaced : node.IsPlaced (Program.StandsIn filename source)) :
    fault.place.isSome = true := by
  have hstands : ∃ token, Program.StandsIn filename source token fault.place := by
    cases h with
    | unary => exact ⟨_, hplaced.1⟩
    | binary => exact ⟨_, hplaced.1⟩
    | compound => exact ⟨_, hplaced.1⟩
    | target => exact hplaced.2.1.exists_stands
  obtain ⟨token, hstands⟩ := hstands
  exact hstands.isSome

end Expr

namespace Stmt

variable {settings : Settings} {machine machine' : Machine} {fault : Fault}

/-! ## Faults of placed statements -/

section Placed

open Program (StandsIn)

variable {literal : Nat → Prop} {filename : Option String} {source : String}

/-- A statement that was read from a source has a place. -/
theorem IsPlaced.place_isSome {stmt : Stmt} (h : stmt.IsPlaced (StandsIn filename source)) :
    stmt.place?.isSome = true := by
  have hstands : ∃ token, StandsIn filename source token stmt.place? := by
    cases stmt with
    | expression => exact h.1
    | print => exact ⟨_, h.1⟩
    | ret => exact ⟨_, h.1⟩
    | block => exact ⟨_, h.1⟩
    | cond => exact ⟨_, h.1⟩
    | condElse => exact ⟨_, h.1⟩
    | misplaced => exact h.elim
  obtain ⟨token, hstands⟩ := hstands
  exact hstands.isSome

/-- Behind every row of statements, the position of a fault is known. -/
theorem place_isSome_of_executeAll {row : List Stmt}
    (hplaced : ArePlaced (StandsIn filename source) row)
    (h : executeAll settings row machine = .error (.failed fault) machine') :
    fault.place.isSome = true := by
  induction row generalizing machine with
  | nil =>
    rw [executeAll] at h
    cases h
  | cons first rest ih =>
    -- the row itself gives a fault without position that of its statement
    obtain ⟨start, -, ⟨inner, -, rfl⟩ | ⟨result, between, -, hrest⟩⟩ := failed_of_executeAll_cons h
    · rw [Fault.settle, Option.isSome_or, hplaced.1.place_isSome, Bool.or_true]
    · exact ih hplaced.2 hrest

/-- Behind every block, the position of a fault is known. -/
theorem place_isSome_of_block {stmt : Stmt} (hblock : stmt.isBlock = true)
    (hplaced : stmt.IsPlaced (StandsIn filename source))
    (h : stmt.execute settings machine = .error (.failed fault) machine') :
    fault.place.isSome = true := by
  cases stmt with
  | block body place =>
    rw [execute] at h
    obtain hnested | ⟨result, between, -, hreturn⟩ := error_of_bind h
    · obtain ⟨between, hbody⟩ := error_of_nested hnested
      exact place_isSome_of_executeAll hplaced.2 hbody
    · cases hreturn
  | _ => cases hblock

/-- A statement whose expression fails. -/
theorem fails_of_evalWithin {stmt : Stmt} {subject : Expr} (hsubject : stmt.subject? = some subject)
    (hspelled : subject.IsSpelled literal) (hplaced : subject.IsPlaced (StandsIn filename source))
    (h : subject.evalWithin settings.limit machine = .error (.failed fault) machine') :
    stmt.Fails settings machine (fault.settle stmt) := by
  obtain ⟨node, reached, hreaches, hfails⟩ :=
    Expr.fails_of_eval hspelled (Expr.failed_of_evalWithin h)
  rw [Fault.settle_of_isSome (hfails.place_isSome (hreaches.isPlaced hplaced))]
  exact .expression hsubject h hreaches hfails

/-- A conditional statement whose condition fails or has a value that is not a boolean. -/
theorem fails_of_holds {stmt : Stmt} {condition : Expr} (hsubject : stmt.subject? = some condition)
    (hcondition : stmt.condition? = some condition) (hspelled : condition.IsSpelled literal)
    (hplaced : condition.IsPlaced (StandsIn filename source))
    (h : holds settings condition machine = .error (.failed fault) machine') :
    stmt.Fails settings machine (fault.settle stmt) := by
  obtain hvalue | ⟨value, hvalue, hkind, rfl⟩ := failed_of_holds h
  · exact fails_of_evalWithin hsubject hspelled hplaced hvalue
  · obtain ⟨token, hstands⟩ := hplaced.exists_stands
    rw [Fault.settle_of_isSome hstands.isSome]
    exact .condition hcondition hvalue hkind

/-- A fault that comes out of a body is left alone by every statement around it. -/
theorem settle_of_block {body : Stmt} (hblock : body.isBlock = true)
    (hplaced : body.IsPlaced (StandsIn filename source))
    (h : body.execute settings machine = .error (.failed fault) machine') (outer : Stmt) :
    fault.settle body = fault.settle outer := by
  have hplace := place_isSome_of_block hblock hplaced h
  rw [Fault.settle_of_isSome hplace, Fault.settle_of_isSome hplace]

/-- Bodies have no result of their own. -/
theorem failed_of_body {body : Stmt}
    (h : (body.execute settings >>= fun _ => pure none : Run (Option Value)) machine =
      .error (.failed fault) machine') :
    body.execute settings machine = .error (.failed fault) machine' := by
  obtain hbody | ⟨result, between, -, hreturn⟩ := error_of_bind h
  · exact hbody
  · cases hreturn

mutual

/-- **The fault of a statement is that of the innermost statement that failed.** By induction on the
tree; bodies are blocks, so their faults have positions already. -/
theorem fails_of_execute : ∀ (stmt : Stmt) {machine machine' : Machine} {fault : Fault},
    stmt.IsSpelled literal → stmt.IsPlaced (StandsIn filename source) →
    stmt.execute settings machine = .error (.failed fault) machine' →
    ∃ inner at', (inner.IsSpelled literal ∧ inner.IsPlaced (StandsIn filename source)) ∧
      stmt.Leads settings machine inner at' ∧ inner.Fails settings at' (fault.settle stmt)
  | .expression expr place, machine, machine', fault, hspelled, hplaced, h => by
    refine ⟨_, machine, ⟨hspelled, hplaced⟩, .here, ?_⟩
    rw [execute] at h
    obtain hvalue | ⟨value, between, -, hreturn⟩ := error_of_bind h
    · exact fails_of_evalWithin rfl hspelled hplaced.2 hvalue
    · cases hreturn
  | .print expr place, machine, machine', fault, hspelled, hplaced, h => by
    refine ⟨_, machine, ⟨hspelled, hplaced⟩, .here, ?_⟩
    rw [execute] at h
    obtain hvalue | ⟨value, between, -, hprint⟩ := error_of_bind h
    · exact fails_of_evalWithin rfl hspelled hplaced.2 hvalue
    · cases hprint
  | .ret expr place, machine, machine', fault, hspelled, hplaced, h => by
    refine ⟨_, machine, ⟨hspelled, hplaced⟩, .here, ?_⟩
    rw [execute_ret] at h
    obtain hvalue | ⟨value, between, hvalue, hend⟩ := error_of_bind h
    · exact fails_of_evalWithin rfl hspelled hplaced.2 hvalue
    · obtain hstatus | ⟨status, after, -, hthrow⟩ := error_of_bind hend
      · -- nothing is known yet but the cause, so the fault takes the position of the statement
        obtain ⟨cause, hcause, rfl⟩ := failed_of_ofExcept hstatus
        exact .status hvalue hcause
      · cases hthrow
  -- the fault already has the place of a statement inside, so the block leaves it alone
  | .block body place, machine, machine', fault, hspelled, hplaced, h => by
    rw [Fault.settle_of_isSome (place_isSome_of_block rfl hplaced h)]
    rw [execute] at h
    obtain hnested | ⟨result, between, -, hreturn⟩ := error_of_bind h
    · obtain ⟨between, hbody⟩ := error_of_nested hnested
      obtain ⟨inner, at', hinner, hleads, hfails⟩ :=
        fails_of_executeAll body hspelled hplaced.2 hbody
      exact ⟨inner, at', hinner, hleads.block place, hfails⟩
    · cases hreturn
  | .cond condition body place, machine, machine', fault, hspelled, hplaced, h => by
    obtain ⟨-, hcondition, hblock, hplacedBody⟩ := id hplaced
    rw [execute] at h
    obtain hholds | ⟨truth, between, hholds, hchoice⟩ := error_of_bind h
    · exact ⟨_, machine, ⟨hspelled, hplaced⟩, .here,
        fails_of_holds rfl rfl hspelled.1 hcondition hholds⟩
    · cases truth with
      | true =>
        have hbody := failed_of_body hchoice
        obtain ⟨inner, at', hinner, hleads, hfails⟩ :=
          -- the body is a block, which settles its faults before the condition does
          fails_of_execute body hspelled.2 hplacedBody hbody
        rw [settle_of_block hblock hplacedBody hbody (.cond condition body place)] at hfails
        exact ⟨inner, at', hinner, .body hholds hleads, hfails⟩
      | false => cases hchoice
  | .condElse condition body other place, machine, machine', fault, hspelled, hplaced, h => by
    obtain ⟨-, hcondition, ⟨hblock, hplacedBody⟩, hblock', hplacedOther⟩ := id hplaced
    rw [execute] at h
    obtain hholds | ⟨truth, between, hholds, hchoice⟩ := error_of_bind h
    · exact ⟨_, machine, ⟨hspelled, hplaced⟩, .here,
        fails_of_holds rfl rfl hspelled.1 hcondition hholds⟩
    · cases truth with
      | true =>
        have hbody := failed_of_body hchoice
        obtain ⟨inner, at', hinner, hleads, hfails⟩ :=
          fails_of_execute body hspelled.2.1 hplacedBody hbody
        rw [settle_of_block hblock hplacedBody hbody (.condElse condition body other place)]
          at hfails
        exact ⟨inner, at', hinner, .chosen hholds hleads, hfails⟩
      | false =>
        have hother := failed_of_body hchoice
        obtain ⟨inner, at', hinner, hleads, hfails⟩ :=
          fails_of_execute other hspelled.2.2 hplacedOther hother
        rw [settle_of_block hblock' hplacedOther hother (.condElse condition body other place)]
          at hfails
        exact ⟨inner, at', hinner, .other hholds hleads, hfails⟩
  | .misplaced _, _, _, _, hspelled, _, _ => hspelled.elim

/-- A row that fails leads to a statement in it that fails by itself, and with the same fault. -/
theorem fails_of_executeAll : ∀ (row : List Stmt) {machine machine' : Machine} {fault : Fault},
    AreSpelled literal row → ArePlaced (StandsIn filename source) row →
    executeAll settings row machine = .error (.failed fault) machine' →
    ∃ inner at', (inner.IsSpelled literal ∧ inner.IsPlaced (StandsIn filename source)) ∧
      RowLeads settings row machine inner at' ∧ inner.Fails settings at' fault
  | [], _, _, _, _, _, h => by
    rw [executeAll] at h
    cases h
  | first :: rest, machine, machine', fault, hspelled, hplaced, h => by
    obtain ⟨start, henter, ⟨thrown, hfirst, rfl⟩ | ⟨result, between, hfirst, hrest⟩⟩ :=
      failed_of_executeAll_cons h
    -- the first statement fails, or one behind it once the first is done
    · obtain ⟨inner, at', hinner, hleads, hfails⟩ :=
        fails_of_execute first hspelled.1 hplaced.1 hfirst
      exact ⟨inner, at', hinner, .first rest henter hleads, hfails⟩
    · obtain ⟨inner, at', hinner, hleads, hfails⟩ :=
        fails_of_executeAll rest hspelled.2 hplaced.2 hrest
      exact ⟨inner, at', hinner, .later henter hfirst hleads, hfails⟩

end

end Placed

/-! ## What a fault tells -/

/-- What a fault tells of the statement that failed on a machine: the token that it is about and a
position in the text. -/
structure Blamed (settings : Settings) (filename : Option String) (source : String) (stmt : Stmt)
    (machine : Machine) (fault : Fault) (token : String) (place : Position) : Prop where
  /-- The token is known. -/
  names : fault.cause.token? = some token
  /-- The position is known. -/
  stands : fault.place = some place
  /-- The position is one of the program's own file. -/
  inFile : place.filename = filename
  /-- No statement inside the statement was being executed. -/
  innermost : ∀ inner machine', stmt.Leads settings machine inner machine' →
    inner = stmt ∧ machine' = machine
  /-- Unless it is about a condition, a fault on kinds stands where its token does. -/
  text : fault.cause.family = .kinds → token ≠ "if" → Text.BeginsAt source place token
  /-- A fault about a condition stands where the condition does, which had a value of another
  kind. -/
  condition : fault.cause.family = .kinds → token = "if" → ∃ condition value machine',
    stmt.condition? = some condition ∧
      condition.evalWithin settings.limit machine = .ok value machine' ∧ value.kind ≠ .boolean ∧
      fault.node = some (.expression condition) ∧ condition.place? = some place
  /-- A fault of an assignment stands where the rejected target does. -/
  target : fault.cause.family = .assignment → ∃ subject left op right outer reached,
    stmt.subject? = some subject ∧
      subject.Reaches machine (.binary left op right outer) reached ∧ op.isAssignment = true ∧
      left.isNoTarget = true ∧ op.spelling = token ∧
      fault.node = some (.expression left) ∧ left.place? = some place
  /-- A fault of an operator names the node that it came from, whose operands had values. -/
  operator : fault.cause.family = .kinds → token ≠ "if" → token ≠ "return" →
    ∃ subject node reached, stmt.subject? = some subject ∧ subject.Reaches machine node reached ∧
      node.Fails reached fault ∧ fault.node = some (.expression node) ∧ node.place? = some place

end Stmt

/-- The operator that a compound assignment applies begins its spelling. -/
theorem Operator.spelling_of_compound {op applied : Operator} (h : op.compound? = some applied) :
    applied.spelling.toList <+: op.spelling.toList := by
  cases op <;> cases h <;> decide

/-- No operator is spelled as the word that opens a condition. -/
theorem Operator.spelling_ne_if (op : Operator) : op.spelling ≠ "if" := by
  cases op <;> decide

section Placed

open Program (StandsIn)

variable {literal : Nat → Prop} {filename : Option String} {source : String} {fault : Fault}

/-- A node whose operator rejects its operands stands where the operator does; in a compound
assignment it is the operator that is applied. -/
theorem Expr.Fails.cases_placed {node : Expr} {machine : Machine} (h : node.Fails machine fault)
    (hspelled : node.IsSpelled literal) (hplaced : node.IsPlaced (StandsIn filename source)) :
    (∃ op wanted found place,
        fault = ⟨.operands op wanted found, some (.expression node), some place⟩ ∧
        node.place? = some place ∧ place.filename = filename ∧
        Text.BeginsAt source place op.spelling) ∨
      ∃ left op right outer place, node = .binary left op right outer ∧ op.isAssignment = true ∧
        left.isNoTarget = true ∧ fault = ⟨.target op, some (.expression left), some place⟩ ∧
        left.place? = some place ∧ place.filename = filename := by
  cases h with
  | @unary op _ _ value _ _ _ _ hcause =>
    obtain ⟨wanted, found, rfl⟩ := Operator.complains_unary hspelled.1 value _ hcause
    obtain ⟨place, rfl, hfilename, htext⟩ := hplaced.1.operator
    exact .inl ⟨op, wanted, found, place, rfl, rfl, hfilename, htext _ (List.prefix_refl _)⟩
  | @binary _ _ op _ leftValue rightValue _ _ _ _ hop _ _ hcause =>
    obtain ⟨wanted, found, rfl⟩ :=
      Operator.complains_binary hspelled.1 hop leftValue rightValue _ hcause
    obtain ⟨place, rfl, hfilename, htext⟩ := hplaced.1.operator
    exact .inl ⟨op, wanted, found, place, rfl, rfl, hfilename, htext _ (List.prefix_refl _)⟩
  | @compound _ _ op applied _ _ current value _ _ _ hop _ _ hcause =>
    -- the complaint is about the operator that is applied, the node stands at the longer one
    obtain ⟨hbinary, hassignment⟩ := Operator.isBinary_of_compound hop
    obtain ⟨wanted, found, rfl⟩ :=
      Operator.complains_binary hbinary hassignment current value _ hcause
    obtain ⟨place, rfl, hfilename, htext⟩ := hplaced.1.operator
    exact .inl ⟨applied, wanted, found, place, rfl, rfl, hfilename,
      htext _ (Operator.spelling_of_compound hop)⟩
  | @target left right op outer _ hop hleft =>
    obtain ⟨token, hstands⟩ := hplaced.2.1.exists_stands
    obtain ⟨place, hplace, hfilename⟩ := hstands.exists_position
    rw [hplace]
    exact .inr ⟨left, op, right, outer, place, rfl, hop, hleft, rfl, hplace, hfilename⟩

/-- A spelled and placed statement that fails is blamed. -/
theorem Stmt.Fails.blamed {settings : Settings} {stmt : Stmt} {machine : Machine}
    (h : stmt.Fails settings machine fault) (hspelled : stmt.IsSpelled literal)
    (hplaced : stmt.IsPlaced (StandsIn filename source)) :
    ∃ token place, stmt.Blamed settings filename source machine fault token place := by
  have hinnermost : ∀ inner machine', stmt.Leads settings machine inner machine' →
      inner = stmt ∧ machine' = machine := fun _ _ hleads => h.innermost hleads
  -- one case for each way to fail; the facts about the other ways are vacuous
  cases h with
  | @expression _ subject node _ _ reached _ hsubject hstops hreaches hfails =>
    obtain ⟨hspelled', hplaced'⟩ :
        subject.IsSpelled literal ∧ subject.IsPlaced (StandsIn filename source) := by
      cases stmt <;> cases hsubject
      · exact ⟨hspelled, hplaced.2⟩
      · exact ⟨hspelled, hplaced.2⟩
      · exact ⟨hspelled, hplaced.2⟩
      · exact ⟨hspelled.1, hplaced.2.1⟩
      · exact ⟨hspelled.1, hplaced.2.1⟩
    obtain ⟨op, wanted, found, place, rfl, hplace, hfilename, htext⟩ |
        ⟨left, op, right, outer, place, rfl, hop, hleft, rfl, hplace, hfilename⟩ :=
      hfails.cases_placed (hreaches.isSpelled hspelled') (hreaches.isPlaced hplaced')
    · exact ⟨op.spelling, place,
        { names := rfl
          stands := rfl
          inFile := hfilename
          innermost := hinnermost
          text := fun _ _ => htext
          condition := fun _ hif => absurd hif op.spelling_ne_if
          target := nofun
          operator := fun _ _ _ =>
            ⟨subject, node, reached, hsubject, hreaches, hfails, rfl, hplace⟩ }⟩
    · exact ⟨op.spelling, place,
        { names := rfl
          stands := rfl
          inFile := hfilename
          innermost := hinnermost
          text := nofun
          condition := nofun
          target := fun _ =>
            ⟨subject, left, op, right, outer, reached, hsubject, hreaches, hop, hleft, rfl, rfl,
              hplace⟩
          operator := nofun }⟩
  | @condition _ condition value _ machine' hcondition hvalue hkind =>
    have hplaced' : condition.IsPlaced (StandsIn filename source) := by
      cases stmt <;> cases hcondition
      · exact hplaced.2.1
      · exact hplaced.2.1
    obtain ⟨token, hstands⟩ := hplaced'.exists_stands
    obtain ⟨place, hplace, hfilename⟩ := hstands.exists_position
    exact ⟨"if", place,
      { names := rfl
        stands := hplace
        inFile := hfilename
        innermost := hinnermost
        text := fun _ hother => absurd rfl hother
        condition := fun _ _ => ⟨condition, value, machine', hcondition, hvalue, hkind, rfl, hplace⟩
        target := nofun
        operator := fun _ hother => absurd rfl hother }⟩
  | @status expr place value cause _ machine' hvalue hcause =>
    obtain ⟨place, rfl, hfilename, htext⟩ := hplaced.1.keyword
    -- only a string is no status
    cases value <;> cases hcause
    exact ⟨"return", place,
      { names := rfl
        stands := rfl
        inFile := hfilename
        innermost := hinnermost
        text := fun _ _ => htext
        condition := fun _ hif => absurd hif (by decide)
        target := nofun
        operator := fun _ _ hother => absurd rfl hother }⟩

end Placed

/-- **Faults point at what went wrong.** Whatever a program that was read from a text runs into, in
any session and with any amount of tracing, the fault it ends with tells the token and the position
of the innermost statement that was being executed and of the node in it that failed; nothing around
them writes over it. -/
theorem run_blames_innermost (session : Session) (settings : Settings) (filename : Option String)
    (source : String) (fault : Fault)
    (hfailed : (session.run settings filename source).outcome = .error (.halted (.failed fault))) :
    ∃ program stmt machine token place,
      Program.ofSource settings.limit filename session.nextHandle source = .ok program ∧
      Stmt.RowLeads settings program (session.afterReading source).machine stmt machine ∧
      stmt.Blamed settings filename source machine fault token place := by
  cases hread : Program.ofSource settings.limit filename session.nextHandle source with
  | error rejection =>
    rw [Session.run_of_ofSource_error hread] at hfailed
    cases hfailed
  | ok program =>
    rw [Session.run_of_ofSource hread, Session.execute] at hfailed
    have hspelled := Session.spelled_of_ofSource hread
    have hplaced := Program.arePlaced_of_ofSource hread
    cases hrun : Stmt.executeAll settings program (session.afterReading source).machine with
    | ok result machine =>
      rw [hrun] at hfailed
      cases hfailed
    | error halt machine =>
      rw [hrun] at hfailed
      cases hfailed
      obtain ⟨stmt, machine', ⟨hspelled', hplaced'⟩, hleads, hfails⟩ :=
        Stmt.fails_of_executeAll program hspelled hplaced hrun
      obtain ⟨token, place, hblamed⟩ := hfails.blamed hspelled' hplaced'
      exact ⟨program, stmt, machine', token, place, rfl, hleads, hblamed⟩

/-- Adding a string to a name that was never bound, inside an assignment in the body of a
conditional statement: the fault is that of the inner operator, on the second line. -/
theorem run_blames_inner_operator :
    let settings : Settings := { limit := 9 }
    let source := "if \"a\" == \"a\" \x7b\n y = (x += \"b\") \x7d"
    let place : Position := ⟨some "f", 2, 9⟩
    ∃ fault,
      (Session.run {} settings (some "f") source).outcome = .error (.halted (.failed fault)) ∧
      fault.cause = .operands .plus .number ["number", "string"] ∧ fault.place = some place ∧
      ∃ program stmt machine token place',
        Program.ofSource settings.limit (some "f") 0 source = .ok program ∧
        Stmt.RowLeads settings program (Session.afterReading {} source).machine stmt machine ∧
        stmt.Blamed settings (some "f") source machine fault token place' := by
  intro settings source place
  have hfailed : (Session.run {} settings (some "f") source).outcome =
      .error (.halted (.failed ⟨.operands .plus .number ["number", "string"],
        some (.expression (.binary (.name "x" (some ⟨some "f", 2, 7⟩)) .addAssign
          (.string ⟨"b", 27⟩ (some ⟨some "f", 2, 12⟩)) (some place))), some place⟩)) := by cbv
  exact ⟨_, hfailed, rfl, rfl, run_blames_innermost {} settings (some "f") source _ hfailed⟩

end Scriptlet
