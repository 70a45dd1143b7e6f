import Scriptlet.Excerpt
import Scriptlet.Proofs.Reader
import Scriptlet.Proofs.Rereading
import Scriptlet.Proofs.ViablePrefix

/-! # Marked tokens

A report shows the printed lines around a token that was refused, and marks the token in the row with
the number of its line. That number counts newlines, and a printed line may also end at other
boundaries: such a *lone* boundary before the token moves the printed lines against the count.

* `Text.hasLoneBreak`: whether a printed line ends without a newline.
* `Text.Splits`, `Text.exists_splits`: the printed line that a character stands in.
* `Excerpt.Marks`: a display marks the text from an offset on.
* `Program.marks_culprit_iff`: which tokens that are refused are marked. -/

namespace Scriptlet

namespace Token.EndsLine

/-- Texts that end with newlines may be put together. -/
theorem append {front behind : List Char} (hfront : EndsLine front) (hbehind : EndsLine behind) :
    EndsLine (front ++ behind) := by
  intro last hlast
  rw [List.getLast?_append, Option.or_eq_some_iff] at hlast
  rcases hlast with hlast | ⟨-, hlast⟩
  · exact hbehind last hlast
  · exact hfront last hlast

/-- A character may be put before a text that ends with a newline. -/
theorem cons {text : List Char} (h : EndsLine text) (hne : text ≠ []) (c : Char) :
    EndsLine (c :: text) := by
  intro last hlast
  rw [List.getLast?_cons, List.getLast?_eq_some_getLast hne] at hlast
  exact h last ((List.getLast?_eq_some_getLast hne).trans hlast)

end Token.EndsLine

namespace Text

/-! ## Printed lines -/

/-- Whether a printed line ends in a text at a boundary without a newline. -/
def hasLoneBreak : List Char → Bool
  | [] => false
  | '\r' :: '\n' :: rest => hasLoneBreak rest
  | c :: rest => (isLineBoundary c && c != '\n') || hasLoneBreak rest

/-- A carriage return stands in front of a newline. -/
def IsPair (c : Char) (rest : List Char) : Prop :=
  c = '\r' ∧ rest.head? = some '\n'

section Boundaries

variable {c : Char} {rest : List Char}

/-- A pair is the carriage return, the newline and what is behind them. -/
theorem IsPair.eq (h : IsPair c rest) : ∃ behind, c :: rest = '\r' :: '\n' :: behind := by
  obtain ⟨rfl, hhead⟩ := h
  cases rest with
  | nil => cases hhead
  | cons next behind =>
    cases hhead
    exact ⟨behind, rfl⟩

/-- Apart from pairs, a lone boundary is the first character or is behind it. -/
theorem hasLoneBreak_cons (h : ¬ IsPair c rest) :
    hasLoneBreak (c :: rest) = ((isLineBoundary c && c != '\n') || hasLoneBreak rest) := by
  refine hasLoneBreak.eq_3 c rest fun behind hc hrest => h ⟨hc, ?_⟩
  rw [hrest]
  rfl

/-- Apart from pairs, a line ends at the first character or goes on behind it. -/
theorem splitBoundaries_cons (h : ¬ IsPair c rest) :
    splitBoundaries (c :: rest) =
      if isLineBoundary c then [c] :: splitBoundaries rest else consLine c (splitBoundaries rest) := by
  refine splitBoundaries.eq_3 c rest fun behind hc hrest => h ⟨hc, ?_⟩
  rw [hrest]
  rfl

/-- The first printed line begins with the first character. -/
theorem exists_splitBoundaries_cons (c : Char) (rest : List Char) :
    ∃ right others, splitBoundaries (c :: rest) = (c :: right) :: others := by
  by_cases hpair : IsPair c rest
  · obtain ⟨behind, heq⟩ := hpair.eq
    obtain ⟨rfl, rfl⟩ := List.cons.inj heq
    exact ⟨['\n'], splitBoundaries behind, by rw [splitBoundaries]⟩
  · rw [splitBoundaries_cons hpair]
    split
    · exact ⟨[], _, rfl⟩
    · cases splitBoundaries rest with
      | nil => exact ⟨[], [], rfl⟩
      | cons line lines => exact ⟨line, lines, rfl⟩

end Boundaries

/-- Characters are printed as whole lines and the beginning of one more. The newlines among them
count the lines, unless there is a lone boundary, which makes them too few. -/
structure Splits (before : List Char) (lines : List (List Char)) (left : List Char) : Prop where
  /-- Nothing is lost. -/
  flatten_append : lines.flatten ++ left = before
  /-- No newline stands in the line that was begun. -/
  newline_not_mem : '\n' ∉ left
  /-- A lone boundary ends a line that is not counted. -/
  count_lt : hasLoneBreak before = true → before.count '\n' < lines.length
  /-- Without one, every line that ends does so with a newline. -/
  count_eq : hasLoneBreak before = false → before.count '\n' = lines.length
  /-- So does the last of them. -/
  endsLine : hasLoneBreak before = false → Token.EndsLine lines.flatten

namespace Splits

variable {before left : List Char} {lines : List (List Char)}

/-- No characters are no lines, and none was begun. -/
theorem nil : Splits [] [] [] where
  flatten_append := rfl
  newline_not_mem := List.not_mem_nil
  count_lt := nofun
  count_eq _ := rfl
  endsLine _ := nofun

/-- A carriage return and a newline end a line together. -/
theorem pair (h : Splits before lines left) :
    Splits ('\r' :: '\n' :: before) (['\r', '\n'] :: lines) left where
  flatten_append := by rw [List.flatten_cons, List.append_assoc, h.flatten_append]; rfl
  newline_not_mem := h.newline_not_mem
  count_lt hlone := by
    -- a carriage return before a newline is no break of its own
    have hlt := h.count_lt (by rwa [hasLoneBreak] at hlone)
    simpa using hlt
  count_eq hnone := by
    have heq := h.count_eq (by rwa [hasLoneBreak] at hnone)
    simp [heq]
  endsLine hnone := by
    rw [List.flatten_cons]
    refine .append ?_ (h.endsLine (by rwa [hasLoneBreak] at hnone))
    intro last hlast
    exact (Option.some.inj hlast).symm

/-- There are at least as many printed lines as newlines. -/
theorem count_le (h : Splits before lines left) : before.count '\n' ≤ lines.length := by
  cases hlone : hasLoneBreak before with
  | true => exact Nat.le_of_lt (h.count_lt hlone)
  | false => exact Nat.le_of_eq (h.count_eq hlone)

/-- A boundary ends a line; it is counted if it is a newline. -/
theorem boundary (h : Splits before lines left) {c : Char} (hpair : ¬ IsPair c before)
    (hc : isLineBoundary c = true) : Splits (c :: before) ([c] :: lines) left where
  flatten_append := by rw [List.flatten_cons, List.append_assoc, h.flatten_append]; rfl
  newline_not_mem := h.newline_not_mem
  count_lt hlone := by
    rw [hasLoneBreak_cons hpair, hc, Bool.true_and] at hlone
    -- a newline is counted with its line; a lone boundary ends a line that is not counted
    by_cases hnewline : c = '\n'
    · have hlt := h.count_lt (by simpa [hnewline] using hlone)
      simp [hnewline, hlt]
    · have hle := h.count_le
      rw [List.count_cons_of_ne hnewline, List.length_cons]
      omega
  count_eq hnone := by
    rw [hasLoneBreak_cons hpair, hc, Bool.true_and, Bool.or_eq_false_iff, bne_eq_false_iff_eq] at hnone
    simp [hnone.1, h.count_eq hnone.2]
  endsLine hnone := by
    rw [hasLoneBreak_cons hpair, hc, Bool.true_and, Bool.or_eq_false_iff, bne_eq_false_iff_eq] at hnone
    rw [List.flatten_cons]
    refine .append ?_ (h.endsLine hnone.2)
    intro last hlast
    rw [← hnone.1]
    exact (Option.some.inj hlast).symm

/-- Without a lone boundary, lines that end hold a newline. -/
theorem newline_mem (h : Splits before lines left) (hnone : hasLoneBreak before = false)
    (hlines : lines ≠ []) : '\n' ∈ lines.flatten := by
  have hcount := h.count_eq hnone
  have hpos : 0 < lines.length := List.length_pos_iff.2 hlines
  have hmem : '\n' ∈ before := List.count_pos_iff.1 (by omega)
  rw [← h.flatten_append] at hmem
  exact (List.mem_append.1 hmem).resolve_right h.newline_not_mem

/-- Any other character goes on with the first line, be it whole or only begun. -/
theorem other (h : Splits before lines left) {c : Char} (hc : isLineBoundary c = false) :
    ∃ lines' left', Splits (c :: before) lines' left' ∧ ∀ right others,
      consLine c (lines ++ (left ++ right) :: others) = lines' ++ (left' ++ right) :: others := by
  have hnewline : c ≠ '\n' := by
    rintro rfl
    exact absurd hc (by decide)
  have hpair : ¬ IsPair c before := by
    rintro ⟨rfl, -⟩
    exact absurd hc (by decide)
  have hlone : hasLoneBreak (c :: before) = hasLoneBreak before := by
    rw [hasLoneBreak_cons hpair, hc, Bool.false_and, Bool.false_or]
  have hcount : (c :: before).count '\n' = before.count '\n' := List.count_cons_of_ne hnewline
  cases lines with
  | nil =>
    refine ⟨[], c :: left, ⟨by rw [← h.flatten_append]; rfl, ?_, ?_, ?_, fun _ => nofun⟩,
      fun _ _ => rfl⟩
    · simpa [Ne.symm hnewline] using h.newline_not_mem
    · rw [hlone, hcount]
      exact h.count_lt
    · rw [hlone, hcount]
      exact h.count_eq
  | cons line rest =>
    refine ⟨(c :: line) :: rest, left, ⟨by rw [← h.flatten_append]; rfl, h.newline_not_mem, ?_, ?_,
      fun hnone => ?_⟩, fun _ _ => rfl⟩
    · rw [hlone, hcount]
      exact h.count_lt
    · rw [hlone, hcount]
      exact h.count_eq
    -- behind the character there is a newline, so it is not the last
    · rw [hlone] at hnone
      have hmem := h.newline_mem hnone (List.cons_ne_nil _ _)
      exact (h.endsLine hnone).cons (List.ne_nil_of_mem hmem) c

/-- Without a lone boundary, the line that was begun is the last line of the source. -/
theorem isLineStart (h : Splits before lines left) (hnone : hasLoneBreak before = false) :
    IsLineStart before lines.flatten.length := by
  have hends := h.endsLine hnone
  rw [← h.flatten_append]
  rcases List.eq_nil_or_concat lines.flatten with hempty | ⟨front, last, hconcat⟩
  · rw [hempty]
    exact isLineStart_zero h.newline_not_mem
  · rw [List.concat_eq_append] at hconcat
    have hlast : last = '\n' := hends last (by rw [hconcat, List.getLast?_concat])
    rw [hconcat, hlast, List.append_assoc, List.length_append]
    exact isLineStart_append front h.newline_not_mem

end Splits

/-- **The printed line that a character stands in.** By the recursion of the printed lines, from the
character backwards. -/
theorem exists_splits (before : List Char) {c : Char} (hc : c ≠ '\n') (rest : List Char) :
    ∃ lines left right others, Splits before lines left ∧
      splitBoundaries (before ++ c :: rest) = lines ++ (left ++ c :: right) :: others := by
  induction before using hasLoneBreak.induct with
  | case1 =>
    obtain ⟨right, others, hsplit⟩ := exists_splitBoundaries_cons c rest
    exact ⟨[], [], right, others, .nil, hsplit⟩
  | case2 before ih =>
    obtain ⟨lines, left, right, others, hsplits, hsplit⟩ := ih
    refine ⟨['\r', '\n'] :: lines, left, right, others, hsplits.pair, ?_⟩
    rw [List.cons_append, List.cons_append, splitBoundaries, hsplit]
    rfl
  | case3 first before hnot ih =>
    obtain ⟨lines, left, right, others, hsplits, hsplit⟩ := ih
    have hpair : ¬ IsPair first before := by
      intro hpair
      obtain ⟨behind, heq⟩ := hpair.eq
      exact hnot behind (List.cons.inj heq).1 (List.cons.inj heq).2
    -- the character itself is no newline, so none is paired with it either
    have hpair' : ¬ IsPair first (before ++ c :: rest) := by
      rintro ⟨hfirst, hhead⟩
      cases before with
      | nil => exact hc (Option.some.inj hhead)
      | cons next behind => exact hpair ⟨hfirst, hhead⟩
    rw [List.cons_append, splitBoundaries_cons hpair', hsplit]
    cases hboundary : isLineBoundary first with
    | true => exact ⟨[first] :: lines, left, right, others, hsplits.boundary hpair hboundary, rfl⟩
    | false =>
      obtain ⟨lines', left', hsplits', hcons⟩ := hsplits.other hboundary
      exact ⟨lines', left', right, others, hsplits', hcons _ _⟩

/-- What is cut off a line are newlines, so every other character stays with all before it. -/
theorem dropTrailingNewlines_append (left : List Char) {c : Char} (hc : c ≠ '\n')
    (right : List Char) :
    ∃ kept, dropTrailingNewlines (String.ofList (left ++ c :: right)) =
      String.ofList (left ++ c :: kept) := by
  refine ⟨(right.reverse.dropWhile (· == '\n')).reverse, ?_⟩
  have hreverse : (left ++ c :: right).reverse = right.reverse ++ c :: left.reverse := by simp
  -- no newline is dropped from before a character that is none
  have hstays : (c :: left.reverse).dropWhile (· == '\n') = c :: left.reverse :=
    List.dropWhile_cons_of_neg (by simpa using hc)
  rw [dropTrailingNewlines, String.toList_ofList, hreverse, List.dropWhile_append, hstays]
  split
  · rename_i hempty
    rw [List.isEmpty_iff] at hempty
    simp [hempty]
  · simp

/-- To drop newlines makes a line no longer. -/
theorem length_dropTrailingNewlines_le (line : String) :
    (dropTrailingNewlines line).length ≤ line.length := by
  have hle := (List.dropWhile_sublist (l := line.toList.reverse) (· == '\n')).length_le
  rw [List.length_reverse] at hle
  rw [← String.length_toList, ← String.length_toList, dropTrailingNewlines, String.toList_ofList,
    List.length_reverse]
  exact hle

end Text

/-! ## Rows -/

namespace Excerpt

/-- A row with a number, as the row with the problem is written. -/
def numbered (number : Nat) (content : String) : String :=
  Text.white (Text.alignRight 5 (toString number) ++ " |") ++ " " ++ content

/-- A display has a row with a number, which is the row with the problem. -/
def HasRow (display : String) (number : Nat) (content : String) : Prop :=
  ∃ above below,
    display = "\n" ++ Text.join "\n" (above ++ numbered number content :: below) ++ "\n"

/-- Characters of a source from an offset on, in the printed line with a number. -/
structure Spot (source : String) (number offset : Nat) where
  /-- The printed lines before. -/
  earlier : List String
  /-- The printed line. -/
  line : String
  /-- The printed lines behind. -/
  later : List String
  /-- What stands before the characters in the line. -/
  left : String
  /-- The characters. -/
  shown : String
  /-- What stands behind them. -/
  right : String
  printedLines_eq : Text.printedLines source = earlier ++ line :: later
  number_eq : earlier.length + 1 = number
  line_eq : Text.dropTrailingNewlines line = left ++ shown ++ right
  shown_ne : shown ≠ ""
  offset_eq : (earlier.map String.length).sum + left.length = offset

/-- A display marks characters of a source from an offset on, in the row with a number. -/
def Marks (source display : String) (number offset : Nat) : Prop :=
  ∃ spot : Spot source number offset,
    HasRow display number (spot.left ++ Text.marked spot.shown ++ spot.right)

section Rows

variable (earlier : List String) (line : String) (later : List String)

/-- The rows around a line that there is are rows before it, its own, and rows behind it. -/
theorem exists_rowsAround :
    ∃ above below, rowsAround ((earlier.length + 1 : Nat) : Int) (earlier ++ line :: later) =
      above ++ (earlier.length + 1, line) :: below := by
  have hindexed : (earlier ++ line :: later).zipIdx =
      earlier.zipIdx ++ (line, earlier.length) :: later.zipIdx (earlier.length + 1) := by
    simp [List.zipIdx_append]
  have hlength : earlier.zipIdx.length = earlier.length := List.length_zipIdx
  -- the rows begin at or before the line, and end behind it
  obtain ⟨first, hfirst, hle⟩ : ∃ first, ((((earlier.length + 1 : Nat) : Int) - 3).toNat) = first ∧
      first ≤ earlier.zipIdx.length := ⟨_, rfl, by omega⟩
  obtain ⟨more, hmore⟩ : ∃ more, min (earlier ++ line :: later).length
      ((((earlier.length + 1 : Nat) : Int) + 2).toNat) = earlier.zipIdx.length + (more + 1) := by
    refine ⟨min later.length 2, ?_⟩
    simp only [List.length_append, List.length_cons]
    omega
  rw [rowsAround, hfirst, hmore, hindexed, List.take_length_add_append, List.take_succ_cons,
    List.drop_append_of_le_length hle, List.map_append, List.map_cons]
  exact ⟨_, _, rfl⟩

/-- The display around a printed line has a row for it in which the token is marked. -/
theorem hasRow_ofToken (filename : Option String) (column : Int) (token : String) :
    HasRow (ofToken filename ((earlier.length + 1 : Nat) : Int) column token
        (earlier ++ line :: later))
      (earlier.length + 1) (markToken column token (Text.dropTrailingNewlines line)) := by
  obtain ⟨above, below, hrows⟩ := exists_rowsAround earlier line later
  have hrow : row ((earlier.length + 1 : Nat) : Int) column token (earlier.length + 1) line =
      numbered (earlier.length + 1) (markToken column token (Text.dropTrailingNewlines line)) := by
    rw [row, if_pos rfl, numbered]
  rw [ofToken, hrows, List.map_append, List.map_cons, hrow, ← List.cons_append]
  exact ⟨_, _, rfl⟩

end Rows

/-- A column that lies in a line is marked, with at least one character. -/
theorem exists_markToken (left : List Char) (c : Char) (kept : List Char) (token : String) :
    ∃ shown right, shown ++ right = c :: kept ∧ shown ≠ [] ∧
      markToken ((left.length + 1 : Nat) : Int) token (String.ofList (left ++ c :: kept)) =
        String.ofList left ++ Text.marked (String.ofList shown) ++ String.ofList right := by
  -- an empty token is marked as if it had one character
  obtain ⟨more, hwidth⟩ : ∃ more, max 1 token.length = more + 1 := ⟨max 1 token.length - 1, by omega⟩
  have hinside : 0 < ((left.length + 1 : Nat) : Int) ∧
      ((left.length + 1 : Nat) : Int) ≤ (String.ofList (left ++ c :: kept)).length := by
    rw [String.length_ofList, List.length_append, List.length_cons]
    omega
  have hbefore : ((left.length + 1 : Nat) : Int).toNat - 1 = left.length := by omega
  refine ⟨c :: kept.take more, kept.drop more, ?_, List.cons_ne_nil _ _, ?_⟩
  · rw [List.cons_append, List.take_append_drop]
  · rw [markToken, if_pos hinside]
    simp only [hbefore, hwidth, String.toList_ofList, List.take_left, List.drop_left,
      List.take_succ_cons, List.drop_length_add_append, List.drop_succ_cons]

/-! ## Places -/

section Place

variable {source : String} {cursor : Cursor} {c : Char} {rest : List Char}

/-- The printed lines of a text around one of its characters that is no newline. -/
theorem exists_splits_at (hdrop : source.toList.drop cursor.offset = c :: rest) (hc : c ≠ '\n') :
    ∃ lines left right others, Text.Splits (source.toList.take cursor.offset) lines left ∧
      Text.printedLines source =
        lines.map String.ofList ++ String.ofList (left ++ c :: right) :: others := by
  obtain ⟨lines, left, right, others, hsplits, hsplit⟩ :=
    Text.exists_splits (source.toList.take cursor.offset) hc rest
  rw [← hdrop, List.take_append_drop] at hsplit
  refine ⟨lines, left, right, others.map String.ofList, hsplits, ?_⟩
  rw [Text.printedLines, hsplit, List.map_append, List.map_cons]

/-- The lengths of printed lines add up to the length of their characters together. -/
theorem sum_length_map_ofList (lines : List (List Char)) :
    ((lines.map String.ofList).map String.length).sum = lines.flatten.length := by
  rw [List.length_flatten, List.map_map]
  refine congrArg List.sum (List.map_congr_left fun line _ => ?_)
  exact String.length_ofList

/-- The line of a place has a row, since no more lines are counted than are printed. -/
theorem exists_hasRow (hat : cursor.IsAt source.toList)
    (hdrop : source.toList.drop cursor.offset = c :: rest) (hc : c ≠ '\n') (filename : Option String)
    (column : Int) (token : String) :
    ∃ content, HasRow (ofToken filename cursor.line column token (Text.printedLines source))
      cursor.line content := by
  obtain ⟨lines, left, right, others, hsplits, hprinted⟩ := exists_splits_at hdrop hc
  have hcount := hsplits.count_le
  have hlt : cursor.line - 1 < (Text.printedLines source).length := by
    rw [hat.line, hprinted, List.length_append, List.length_map, List.length_cons]
    omega
  -- there are at least as many printed lines as the number says
  obtain ⟨earlier, line, later, hlines, hnumber⟩ : ∃ earlier line later,
      Text.printedLines source = earlier ++ line :: later ∧ earlier.length + 1 = cursor.line := by
    have hlines := List.take_append_drop (cursor.line - 1) (Text.printedLines source)
    rw [List.drop_eq_getElem_cons hlt] at hlines
    refine ⟨_, _, _, hlines.symm, ?_⟩
    rw [List.length_take, Nat.min_eq_left (Nat.le_of_lt hlt), hat.line]
    omega
  have hrow := hasRow_ofToken earlier line later filename column token
  rw [← hlines, hnumber] at hrow
  exact ⟨_, hrow⟩

/-- Without a lone boundary before it, a character is marked where it stands. -/
theorem marks_of_not_hasLoneBreak (hat : cursor.IsAt source.toList)
    (hdrop : source.toList.drop cursor.offset = c :: rest) (hc : c ≠ '\n')
    (hnone : Text.hasLoneBreak (source.toList.take cursor.offset) = false) (filename : Option String)
    (token : String) :
    Marks source (ofToken filename cursor.line cursor.column token (Text.printedLines source))
      cursor.line cursor.offset := by
  obtain ⟨lines, left, right, others, hsplits, hprinted⟩ := exists_splits_at hdrop hc
  obtain ⟨kept, hkept⟩ := Text.dropTrailingNewlines_append left hc right
  obtain ⟨shown, behind, hshown, hne, hmark⟩ := exists_markToken left c kept token
  -- the line that is counted is the one that is printed, and so is its beginning
  have hline : (lines.map String.ofList).length + 1 = cursor.line := by
    rw [List.length_map, hat.line, hsplits.count_eq hnone]
    omega
  have hstart : lines.flatten.length = cursor.lineStart :=
    (hsplits.isLineStart hnone).unique hat.lineStart
  have hoffset : lines.flatten.length + left.length = cursor.offset := by
    have hlength := congrArg List.length hsplits.flatten_append
    have hinside := hat.offset_le hdrop
    rw [List.length_append, List.length_take, Nat.min_eq_left hinside] at hlength
    exact hlength
  have hcolumn : cursor.column = left.length + 1 := by
    rw [Cursor.column]
    omega
  have hrow := hasRow_ofToken (lines.map String.ofList) (String.ofList (left ++ c :: right)) others
    filename ((left.length + 1 : Nat) : Int) token
  rw [hkept, hmark, ← hprinted, hline, ← hcolumn] at hrow
  refine ⟨⟨lines.map String.ofList, String.ofList (left ++ c :: right), others, String.ofList left,
    String.ofList shown, String.ofList behind, hprinted, hline, ?_, ?_, ?_⟩, hrow⟩
  · rw [hkept, ← hshown, String.ofList_append, String.ofList_append, String.append_assoc]
  · simpa using hne
  · rw [sum_length_map_ofList, String.length_ofList, hoffset]

/-- Behind a lone boundary, the row of a character shows an earlier line. -/
theorem not_spot_of_hasLoneBreak (hat : cursor.IsAt source.toList)
    (hdrop : source.toList.drop cursor.offset = c :: rest) (hc : c ≠ '\n')
    (hlone : Text.hasLoneBreak (source.toList.take cursor.offset) = true) :
    Spot source cursor.line cursor.offset → False := by
  intro spot
  obtain ⟨lines, left, right, others, hsplits, hprinted⟩ := exists_splits_at hdrop hc
  have hlt := hsplits.count_lt hlone
  have hnumber := spot.number_eq
  have hcount := hat.line
  -- the line of the row is one of those that end before the character
  have hprefix : spot.earlier ++ [spot.line] <+: lines.map String.ofList := by
    have hshort : (spot.earlier ++ [spot.line]).length ≤ (lines.map String.ofList).length := by
      rw [List.length_append, List.length_singleton, List.length_map]
      omega
    refine List.prefix_of_prefix_length_le ?_ (hprinted ▸ List.prefix_append _ _) hshort
    rw [spot.printedLines_eq, List.append_cons spot.earlier spot.line spot.later]
    exact List.prefix_append _ _
  obtain ⟨between, hbetween⟩ := hprefix
  have hlengths : (spot.earlier.map String.length).sum + spot.line.length ≤ lines.flatten.length := by
    have hsum := sum_length_map_ofList lines
    rw [← hbetween] at hsum
    simp only [List.map_append, List.map_cons, List.map_nil, List.sum_append, List.sum_cons,
      List.sum_nil] at hsum
    omega
  have hflatten : lines.flatten.length ≤ cursor.offset := by
    have hlength := congrArg List.length hsplits.flatten_append
    rw [List.length_append, List.length_take] at hlength
    omega
  -- so it ends before the character, while the mark would begin in it and with the character
  have hshown : 0 < spot.shown.length := by
    rw [Nat.pos_iff_ne_zero]
    simpa using spot.shown_ne
  have hline := Text.length_dropTrailingNewlines_le spot.line
  rw [spot.line_eq, String.length_append, String.length_append] at hline
  have hoffset := spot.offset_eq
  omega

end Place

end Excerpt

/-! ## Tokens that are refused -/

/-- A lexeme is what stands at the front of the text from its first character on. -/
theorem Token.front_of_mem_scanFrom {cursor : Cursor} {input : List Char} {lexeme : Lexeme}
    (h : lexeme ∈ (scanFrom cursor input).1) :
    ∃ first rest, input.drop (lexeme.start.offset - cursor.offset) = first :: rest ∧
      lexeme.token = (front first rest).1 := by
  induction cursor, input using scanFrom_induction with
  | nil cursor =>
    rw [scanFrom_nil] at h
    cases h
  | gap cursor first rest hgap ih =>
    rw [scanFrom_gap hgap] at h
    obtain ⟨next, behind, hdrop, htoken⟩ := ih h
    have hstart := (start_of_mem_scanFrom h).1
    rw [Cursor.offset_step] at hdrop hstart
    refine ⟨next, behind, ?_, htoken⟩
    have hoffset : lexeme.start.offset - cursor.offset =
        lexeme.start.offset - (cursor.offset + 1) + 1 := by omega
    rw [hoffset, List.drop_succ_cons, hdrop]
  | token cursor first rest hgap ih =>
    rw [scanFrom_token hgap] at h
    rcases List.mem_cons.1 h with rfl | hothers
    · exact ⟨first, rest, by simp, rfl⟩
    -- a later lexeme begins behind everything that the first token took
    · obtain ⟨next, behind, hdrop, htoken⟩ := ih hothers
      have hstart := (start_of_mem_scanFrom hothers).1
      rw [offset_stopAfter] at hdrop hstart
      refine ⟨next, behind, ?_, htoken⟩
      have hoffset : lexeme.start.offset - cursor.offset =
          (front first rest).2 + (lexeme.start.offset - (cursor.offset + (front first rest).2)) := by
        omega
      rw [hoffset, ← List.drop_drop, hdrop]

/-- Only the end of a line begins with a newline. -/
theorem Token.exists_first_of_mem {source : String} {lexeme : Lexeme} (h : lexeme ∈ lexemes source)
    (htoken : lexeme.token ≠ .newline) :
    ∃ first rest, source.toList.drop lexeme.start.offset = first :: rest ∧ first ≠ '\n' := by
  obtain ⟨first, rest, hdrop, hfront⟩ := front_of_mem_scanFrom h
  refine ⟨first, rest, hdrop, ?_⟩
  rintro rfl
  rw [front_newline] at hfront
  exact htoken hfront

namespace Program

/-- A lexeme that a text is refused for is one of its lexemes. -/
theorem culprit_mem_lexemes {limit : Nat} {filename : Option String} {firstHandle : Nat}
    {source : String} {rejection : Rejection} {found : Lexeme}
    (hread : ofSource limit filename firstHandle source = .error rejection)
    (hculprit : rejection.fault.culprit? = some found) : found ∈ Token.lexemes source := by
  obtain ⟨fault, hfault, rfl⟩ := ofSource_eq_error_iff.1 hread
  obtain ⟨used, rest, hlexemes, -⟩ := exists_culprit hfault hculprit
  rw [hlexemes]
  exact List.mem_append_right _ List.mem_cons_self

section Culprit

variable {limit : Nat} {filename : Option String} {firstHandle : Nat} {source : String}
  {rejection : Rejection} {wanted : Expectation} {found : Lexeme}
  (hread : ofSource limit filename firstHandle source = .error rejection)
  (hfault : rejection.fault = .unexpected wanted found) (htoken : found.token ≠ .newline)

include hread hfault htoken

/-- A token that is refused stands at a place that is right, and begins with a character that is no
newline. -/
theorem exists_first_of_culprit :
    found.start.IsAt source.toList ∧
      ∃ first rest, source.toList.drop found.start.offset = first :: rest ∧ first ≠ '\n' := by
  have hculprit : rejection.fault.culprit? = some found := by rw [hfault, ParseFault.culprit?]
  have hmem := culprit_mem_lexemes hread hculprit
  exact ⟨(Token.isAt_start_of_mem hmem).1, Token.exists_first_of_mem hmem htoken⟩

/-- Behind a lone boundary, a token that is refused is marked in no display. -/
theorem not_marks_culprit (display : String)
    (hlone : Text.hasLoneBreak (source.toList.take found.start.offset) = true) :
    ¬ Excerpt.Marks source display found.start.line found.start.offset := by
  rintro ⟨spot, -⟩
  obtain ⟨hat, first, rest, hdrop, hfirst⟩ := exists_first_of_culprit hread hfault htoken
  exact Excerpt.not_spot_of_hasLoneBreak hat hdrop hfirst hlone spot

/-- **Which tokens that are refused are marked.** The display of a token that was found in the place of
another, and is not the end of a line, has a row with the number of its line. In that row the mark
stands around text that begins with the first character of the token exactly if no printed line before
the token ends without a newline. -/
theorem marks_culprit_iff (name : Option String) :
    let display := Excerpt.ofToken name rejection.place.line rejection.place.column rejection.token
      (Text.printedLines source)
    rejection.place.line = found.start.line ∧
    (∃ content, Excerpt.HasRow display found.start.line content) ∧
    (Excerpt.Marks source display found.start.line found.start.offset ↔
      Text.hasLoneBreak (source.toList.take found.start.offset) = false) := by
  intro display
  obtain ⟨hat, first, rest, hdrop, hfirst⟩ := exists_first_of_culprit hread hfault htoken
  have hcursor : rejection.cursor = found.start := by rw [Rejection.cursor, hfault]
  have hdisplay : display = Excerpt.ofToken name found.start.line found.start.column rejection.token
      (Text.printedLines source) := by rw [← hcursor]; rfl
  -- the row exists in any case; whether the right text is marked in it depends on the boundaries
  refine ⟨by rw [← hcursor]; rfl, ?_, fun hmarks => ?_, fun hnone => ?_⟩
  · rw [hdisplay]
    exact Excerpt.exists_hasRow hat hdrop hfirst name _ _
  · by_contra hlone
    exact not_marks_culprit hread hfault htoken display (eq_true_of_ne_false hlone) hmarks
  · rw [hdisplay]
    exact Excerpt.marks_of_not_hasLoneBreak hat hdrop hfirst hnone name _

end Culprit

/-- A carriage return before a newline, here in a string, does not move the lines. -/
theorem marks_culprit_behind_pair :
    let source := "x = \"\r\n\"\nprint x y\n"
    ∃ rejection wanted found,
      ofSource nestingLimit none 0 source = .error rejection ∧
      rejection.fault = .unexpected wanted found ∧ found.token = .name "y" ∧
      Excerpt.Marks source
        (Excerpt.ofToken (some "a.lumen") 3 9 "y" (Text.printedLines source)) 3 17 := by
  intro source
  have hlimit : 9 ≤ nestingLimit := by decide
  have hread : ofSource 9 none 0 source = .error
      ⟨.unexpected (.endOfPrint (.name "x")) ⟨.name "y", ⟨17, 3, 9⟩, ⟨18, 3, 9⟩⟩, none,
        ⟨19, 4, 19⟩⟩ := by cbv
  replace hread := ofSource_of_le hlimit hread (by rintro _ ⟨⟩ ⟨⟩)
  refine ⟨_, _, _, hread, rfl, rfl, ?_⟩
  exact ((marks_culprit_iff hread rfl (by rintro ⟨⟩) (some "a.lumen")).2.2).2 (by cbv)

/-- A form feed in a string ends a printed line without a newline, and a token on the next line of the
source is not marked. -/
theorem mark_missed_behind_form_feed :
    let source := "x = \"\x0c\"\nprint x y\n"
    ∃ rejection wanted found,
      ofSource nestingLimit none 0 source = .error rejection ∧
      rejection.fault = .unexpected wanted found ∧ found.token = .name "y" ∧
      rejection.place.line = 2 ∧ rejection.place.column = 9 ∧ rejection.token = "y" ∧
      ¬ Excerpt.Marks source
        (Excerpt.ofToken (some "a.lumen") 2 9 "y" (Text.printedLines source)) 2
          found.start.offset := by
  intro source
  have hlimit : 9 ≤ nestingLimit := by decide
  have hread : ofSource 9 none 0 source = .error
      ⟨.unexpected (.endOfPrint (.name "x")) ⟨.name "y", ⟨16, 2, 8⟩, ⟨17, 2, 8⟩⟩, none,
        ⟨18, 3, 18⟩⟩ := by cbv
  replace hread := ofSource_of_le hlimit hread (by rintro _ ⟨⟩ ⟨⟩)
  refine ⟨_, _, _, hread, rfl, rfl, rfl, rfl, by decide, ?_⟩
  exact not_marks_culprit hread rfl (by rintro ⟨⟩) _ (by cbv)

end Program

end Scriptlet
