import Scriptlet.Program.Parse

/-! # Progress of the parsers

Every parser that succeeds leaves fewer lexemes than it was given, so the loops over rows of
operands and statements never meet a parser that stands still. -/

namespace Scriptlet.Program

/-- A result that is bound to a continuation comes from a first result. -/
theorem bind_eq_ok {α β : Type} {first : Except ParseFault α} {next : α → Except ParseFault β}
    {result : β} (h : first.bind next = .ok result) :
    ∃ found, first = .ok found ∧ next found = .ok result := by
  cases first with
  | error fault => cases h
  | ok found => exact ⟨found, rfl, h⟩

/-- Demanding a token uses up one lexeme. -/
theorem expect_consumes (wanted : Expectation) (token : Token) : Consumes (expect wanted token) := by
  intro lexemes result rest h
  cases lexemes with
  | nil => cases h
  | cons lexeme others =>
    simp only [expect] at h
    split at h
    · cases h; simp
    · cases h

/-- Reading an operand uses up lexemes if reading an expression does. -/
theorem operand_consumes (origin : Origin) {expression : Level → Parser Expr}
    (hexpression : ∀ level, Consumes (expression level)) : Consumes (operand origin expression) := by
  intro lexemes result rest h
  cases lexemes with
  | nil => cases h
  | cons lexeme others =>
    simp only [operand, bind] at h
    split at h
    · cases h; simp
    · cases h; simp
    · cases h; simp
    · split at h
      · obtain ⟨⟨inner, after⟩, hinner, hafter⟩ := bind_eq_ok h
        have := hexpression _ _ _ _ hinner
        cases hafter
        simp only [List.length_cons]; omega
      · cases h
    · obtain ⟨⟨inner, after⟩, hinner, hafter⟩ := bind_eq_ok h
      have := hexpression _ _ _ _ hinner
      cases hafter
      simp only [List.length_cons]; omega
    · obtain ⟨⟨inner, after⟩, hinner, hafter⟩ := bind_eq_ok h
      obtain ⟨⟨closing, behind⟩, hclosing, hbehind⟩ := bind_eq_ok hafter
      have := hexpression _ _ _ _ hinner
      have := expect_consumes _ _ _ _ _ hclosing
      cases hbehind
      dsimp only at *
      simp only [List.length_cons]; omega
    · cases h

/-- Extending an expression never gives lexemes back. -/
theorem length_le_of_climb (origin : Origin) (expression : Level → Parser Expr) (floor : Level)
    (left result : Expr) (lexemes rest : List Lexeme)
    (h : climb origin expression floor left lexemes = .ok (result, rest)) :
    rest.length ≤ lexemes.length := by
  -- on the number of lexemes: the loop goes on behind what `expression` has used up
  induction hsize : lexemes.length using Nat.strongRecOn generalizing left lexemes with
  | ind size ih =>
    rw [climb.eq_def] at h
    split at h
    · cases h; simp
    · rename_i lexeme others
      split at h
      · split at h
        · split at h
          · obtain ⟨⟨right, after⟩, hright, hafter⟩ := bind_eq_ok h
            dsimp only at hafter
            split at hafter
            · have := ih after.length (by simp at hsize; omega) _ _ hafter rfl
              simp at hsize; omega
            · cases hafter
          · cases h
        · cases h; omega
      · cases h; omega

/-- Reading an expression uses up lexemes. -/
theorem expression_consumes (origin : Origin) (limit : Nat) (floor : Level) :
    Consumes (expression origin limit floor) := by
  induction limit generalizing floor with
  | zero => intro lexemes result rest h; cases h
  | succ limit ih =>
    intro lexemes result rest h
    obtain ⟨⟨left, after⟩, hleft, hafter⟩ := bind_eq_ok h
    have := operand_consumes origin ih _ _ _ hleft
    have := length_le_of_climb _ _ _ _ _ _ _ hafter
    omega

/-- Reading the body of a block uses up lexemes. -/
theorem body_consumes (statement : Parser Stmt) : Consumes (body statement) := by
  intro lexemes result rest h
  -- on the number of lexemes: the loop goes on behind a newline or a whole statement
  induction hsize : lexemes.length using Nat.strongRecOn generalizing lexemes result rest with
  | ind size ih =>
    rw [body.eq_def] at h
    split at h
    · cases h
    · rename_i lexeme others
      split at h
      · have := ih others.length (by simp at hsize; omega) _ _ _ h rfl
        simp at hsize; omega
      · split at h
        · cases h; simp at hsize; omega
        · obtain ⟨⟨first, after⟩, hfirst, hafter⟩ := bind_eq_ok h
          dsimp only at hafter
          split at hafter
          · obtain ⟨⟨more, behind⟩, hmore, hbehind⟩ := bind_eq_ok hafter
            have := ih after.length (by omega) _ _ _ hmore rfl
            cases hbehind
            dsimp only
            omega
          · cases hafter

/-- Reading a block uses up lexemes. -/
theorem block_consumes (origin : Origin) (wanted : Expectation) (statement : Parser Stmt) :
    Consumes (block origin wanted statement) := by
  intro lexemes result rest h
  obtain ⟨⟨opening, inside⟩, hopening, hinside⟩ := bind_eq_ok h
  obtain ⟨⟨statements, behind⟩, hstatements, hbehind⟩ := bind_eq_ok hinside
  have := expect_consumes _ _ _ _ _ hopening
  have := body_consumes _ _ _ _ hstatements
  cases hbehind
  omega

/-- Reading a conditional statement uses up lexemes if reading its condition does. -/
theorem conditional_consumes (origin : Origin) (place : Option Position)
    {expression : Level → Parser Expr} (statement : Parser Stmt)
    (hexpression : ∀ level, Consumes (expression level)) :
    Consumes (conditional origin place expression statement) := by
  intro lexemes result rest h
  obtain ⟨⟨condition, afterCondition⟩, hcondition, hnext⟩ := bind_eq_ok h
  obtain ⟨⟨body, afterBody⟩, hbody, hlast⟩ := bind_eq_ok hnext
  have := hexpression _ _ _ _ hcondition
  have := block_consumes _ _ _ _ _ _ hbody
  dsimp only at *
  split at hlast
  · cases hlast; omega
  · simp only [List.length_cons] at *
    split at hlast
    · obtain ⟨⟨other, behind⟩, hother, hbehind⟩ := bind_eq_ok hlast
      have := block_consumes _ _ _ _ _ _ hother
      cases hbehind
      dsimp only
      omega
    · cases hlast; simp only [List.length_cons]; omega

/-- Reading a statement uses up lexemes. -/
theorem statement_consumes (origin : Origin) (limit : Nat) : Consumes (statement origin limit) := by
  cases limit with
  | zero => intro lexemes result rest h; cases h
  | succ limit =>
    intro lexemes result rest h
    cases lexemes with
    | nil => cases h
    | cons lexeme others =>
      simp only [statement] at h
      -- one case for each word that decides the form of a statement
      split at h
      · obtain ⟨⟨expr, after⟩, hexpr, hends⟩ := bind_eq_ok h
        obtain ⟨-, -, hresult⟩ := bind_eq_ok hends
        have := expression_consumes _ _ _ _ _ _ hexpr
        cases hresult
        simp only [List.length_cons]; omega
      · obtain ⟨⟨expr, after⟩, hexpr, hends⟩ := bind_eq_ok h
        obtain ⟨-, -, hresult⟩ := bind_eq_ok hends
        have := expression_consumes _ _ _ _ _ _ hexpr
        cases hresult
        simp only [List.length_cons]; omega
      · have := conditional_consumes _ _ _ (expression_consumes origin limit) _ _ _ h
        simp only [List.length_cons]; omega
      · cases h
      · cases h
      · obtain ⟨⟨expr, after⟩, hexpr, hresult⟩ := bind_eq_ok h
        have := expression_consumes _ _ _ _ _ _ hexpr
        cases hresult
        exact this

end Scriptlet.Program
