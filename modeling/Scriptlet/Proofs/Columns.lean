import Scriptlet.Trace

/-! # The columns of trace lines

A trace line has two fields: the bindings at the right of the first, a statement at the left of the
second. A text that is too long for its field is cut, so that both fields have their width and the
lines of a trace stand in columns. From the front, the cut counts characters from the end of the
text; at a width of two it leaves none of them, and an offset that counts none from the end is the
beginning of the text.

* `ShowsEnd`, `ShowsFront`: what a field is to show of a text.
* `showsEnd_iff`, `showsFront_field`: what the two fields show of any text.
* `columns_keep_width_iff`: both fields of every line keep a width from two on, except that the
  bindings do not keep a width of two. -/

namespace Scriptlet

/-! ## Alignment and offsets -/

namespace Text

/-- A text of spaces only. -/
def IsPadding (text : String) : Prop :=
  ∀ c ∈ text.toList, c = ' '

/-- Copies of the space are padding. -/
theorem isPadding_replicate (count : Nat) :
    IsPadding (String.ofList (List.replicate count ' ')) := by
  intro c hmem
  rw [String.toList_ofList] at hmem
  exact List.eq_of_mem_replicate hmem

/-- A text that is aligned at the right fills its field. -/
theorem length_alignRight (width : Nat) (text : String) :
    (alignRight width text).length = max width text.length := by
  rw [alignRight, String.length_append, String.length_ofList, List.length_replicate]
  omega

/-- A text that is aligned at the left fills its field. -/
theorem length_alignLeft (width : Nat) (text : String) :
    (alignLeft width text).length = max width text.length := by
  rw [alignLeft, String.length_append, String.length_ofList, List.length_replicate]
  omega

/-- A text that fills its field is not padded. -/
theorem alignRight_of_le {width : Nat} {text : String} (h : width ≤ text.length) :
    alignRight width text = text := by
  rw [alignRight, Nat.sub_eq_zero_of_le h, List.replicate_zero, String.ofList_nil,
    String.empty_append]

/-- A text that fills its field is not padded behind it either. -/
theorem alignLeft_of_le {width : Nat} {text : String} (h : width ≤ text.length) :
    alignLeft width text = text := by
  rw [alignLeft, Nat.sub_eq_zero_of_le h, List.replicate_zero, String.ofList_nil,
    String.append_empty]

/-- An offset below zero counts from the end of the text, and stops at its beginning. -/
theorem place_of_neg {length count : Nat} (h : 0 < count) :
    place length (-count) = length - count := by
  rw [place, if_pos (by omega), Int.natAbs_neg, Int.natAbs_natCast]

/-- Any other offset counts from the beginning, and stops at the end. -/
theorem place_of_nonneg (length count : Nat) : place length count = min count length := by
  rw [place, if_neg (by omega), Int.toNat_natCast]

/-- What stands before an offset and what stands behind it are the whole text. -/
theorem takeTo_append_dropTo (offset : Int) (text : String) :
    takeTo offset text ++ dropTo offset text = text := by
  rw [takeTo, dropTo, ← String.ofList_append, List.take_append_drop, String.ofList_toList]

/-- What stands before an offset is as long as the place of the offset says. -/
theorem length_takeTo (offset : Int) (text : String) :
    (takeTo offset text).length = min (place text.length offset) text.length := by
  rw [takeTo, String.length_ofList, List.length_take, String.length_toList]

/-- What stands behind an offset is what the text has beyond its place. -/
theorem length_dropTo (offset : Int) (text : String) :
    (dropTo offset text).length = text.length - place text.length offset := by
  rw [dropTo, String.length_ofList, List.length_drop, String.length_toList]

/-- Behind the offset zero stands the whole text. -/
theorem dropTo_zero (text : String) : dropTo 0 text = text := by
  rw [dropTo, ← Int.natCast_zero, place_of_nonneg, Nat.zero_min, List.drop_zero,
    String.ofList_toList]

end Text

namespace Trace

/-! ## What a field shows -/

/-- A field of some width shows the end of a text. -/
structure ShowsEnd (width : Nat) (text field : String) : Prop where
  /-- The field has its width. -/
  length : field.length = width
  /-- A text that fits stands at the right. -/
  fits : text.length ≤ width → ∃ padding, Text.IsPadding padding ∧ field = padding ++ text
  /-- Of a longer text, the last characters stand behind an ellipsis and a space. -/
  cut : width < text.length →
    ∃ hidden shown, text = hidden ++ shown ∧ shown.length = width - 2 ∧ field = "… " ++ shown

/-- A field of some width shows the beginning of a text. -/
structure ShowsFront (width : Nat) (text field : String) : Prop where
  /-- The field has its width. -/
  length : field.length = width
  /-- A text that fits stands at the left. -/
  fits : text.length ≤ width → ∃ padding, Text.IsPadding padding ∧ field = text ++ padding
  /-- Of a longer text, the first characters stand before a space and an ellipsis. -/
  cut : width < text.length →
    ∃ shown hidden, text = shown ++ hidden ∧ shown.length = width - 2 ∧ field = shown ++ " …"

section Fields

variable {width : Nat} {text : String}

/-- A text that fits is not cut at the front. -/
theorem cutFront_of_le (h : text.length ≤ width) : cutFront width text = text :=
  if_neg (Nat.not_lt.2 h)

/-- A text that is too long keeps its end, behind an ellipsis. -/
theorem cutFront_of_lt (h : width < text.length) :
    cutFront width text = "… " ++ Text.dropTo (2 - width) text :=
  if_pos h

/-- A text that fits is not cut at the back. -/
theorem cutBack_of_le (h : text.length ≤ width) : cutBack width text = text :=
  if_neg (Nat.not_lt.2 h)

/-- A text that is too long keeps its beginning, before an ellipsis. -/
theorem cutBack_of_lt (h : width < text.length) :
    cutBack width text = Text.takeTo (width - 2) text ++ " …" :=
  if_pos h

/-- A text that is cut to its beginning fills its field. -/
theorem length_takeTo_field (hwidth : 2 ≤ width) (h : width < text.length) :
    (Text.takeTo (width - 2) text).length = width - 2 := by
  have hoffset : (width - 2 : Int) = (width - 2 : Nat) := by omega
  rw [Text.length_takeTo, hoffset, Text.place_of_nonneg]
  omega

/-- A text that is cut to its end fills its field, if that is wider than the ellipsis. -/
theorem length_dropTo_field (hwidth : 2 < width) (h : width < text.length) :
    (Text.dropTo (2 - width) text).length = width - 2 := by
  have hoffset : (2 - width : Int) = -(width - 2 : Nat) := by omega
  rw [Text.length_dropTo, hoffset, Text.place_of_neg (by omega)]
  omega

/-- The field of a statement keeps its width. -/
theorem showsFront_field (hwidth : 2 ≤ width) (text : String) :
    ShowsFront width text (statementField width text) := by
  rcases Nat.lt_or_ge width text.length with hlong | hfits
  · have hshown := length_takeTo_field hwidth hlong
    -- what is cut off makes room for a blank and an ellipsis
    have hcut : (Text.takeTo (width - 2) text ++ " …").length = width := by
      rw [String.length_append, hshown]
      exact Nat.sub_add_cancel hwidth
    rw [statementField, cutBack_of_lt hlong, Text.alignLeft_of_le (Nat.le_of_eq hcut.symm)]
    refine ⟨hcut, fun hfits => absurd hfits (Nat.not_le.2 hlong), fun _ => ?_⟩
    exact ⟨_, _, (Text.takeTo_append_dropTo _ text).symm, hshown, rfl⟩
  · rw [statementField, cutBack_of_le hfits]
    refine ⟨?_, fun _ => ?_, fun hlong => absurd hlong (Nat.not_lt.2 hfits)⟩
    · rw [Text.length_alignLeft, Nat.max_eq_left hfits]
    · exact ⟨_, Text.isPadding_replicate _, rfl⟩

/-- The field that the bindings are shown in, for any text. -/
def endField (width : Nat) (text : String) : String :=
  Text.alignRight width (cutFront width text)

/-- At a width, the field of the bindings shows the end of their text. -/
theorem itemsField_some (width : Nat) (items : List (String × Option Value)) :
    itemsField (some width) items = endField width (itemsText items) := rfl

/-- A text that fits keeps the width of its field. -/
theorem showsEnd_of_le (h : text.length ≤ width) : ShowsEnd width text (endField width text) := by
  rw [endField, cutFront_of_le h]
  refine ⟨?_, fun _ => ?_, fun hlong => absurd hlong (Nat.not_lt.2 h)⟩
  · rw [Text.length_alignRight, Nat.max_eq_left h]
  · exact ⟨_, Text.isPadding_replicate _, rfl⟩

/-- A text that is cut keeps the width of its field, if that is wider than the ellipsis. -/
theorem showsEnd_of_lt (hwidth : 2 < width) (h : width < text.length) :
    ShowsEnd width text (endField width text) := by
  have hshown := length_dropTo_field hwidth h
  have hcut : ("… " ++ Text.dropTo (2 - width) text).length = width := by
    rw [String.length_append, hshown]
    exact Nat.add_sub_cancel' (Nat.le_of_lt hwidth)
  rw [endField, cutFront_of_lt h, Text.alignRight_of_le (Nat.le_of_eq hcut.symm)]
  refine ⟨hcut, fun hfits => absurd hfits (Nat.not_le.2 h), fun _ => ?_⟩
  exact ⟨_, _, (Text.takeTo_append_dropTo _ text).symm, hshown, rfl⟩

/-- In a field as wide as the ellipsis, all of a text that is too long is left. -/
theorem endField_two (h : 2 < text.length) : endField 2 text = "… " ++ text := by
  have hoffset : (2 - (2 : Nat) : Int) = 0 := by omega
  have hlong : 2 ≤ ("… " ++ text).length := by
    rw [String.length_append]
    omega
  rw [endField, cutFront_of_lt h, hoffset, Text.dropTo_zero, Text.alignRight_of_le hlong]

/-- The field of the bindings keeps its width, unless that is two and something has to be cut. -/
theorem showsEnd_iff (hwidth : 2 ≤ width) (text : String) :
    ShowsEnd width text (endField width text) ↔ (width = 2 → text.length ≤ 2) := by
  constructor
  · rintro hshows rfl
    -- the field would be longer than the text, and the text longer than the field
    refine Nat.not_lt.1 fun hlong => ?_
    have hlength := hshows.length
    rw [endField_two hlong, String.length_append] at hlength
    omega
  · intro hnarrow
    rcases Nat.lt_or_ge width text.length with hlong | hfits
    · exact showsEnd_of_lt (by omega) hlong
    · exact showsEnd_of_le hfits

end Fields

/-! ## Lines -/

/-- **Columns.** The line of every statement that has a text is made of two fields. The right one
shows the beginning of that text in the width, from two on. The left one shows the end of the
bindings in the width exactly if the width is not two or the bindings fit: in a field of two
characters, the ellipsis stands before all of them. -/
theorem columns_keep_width_iff (items : List (String × Option Value)) (stmt : Stmt)
    (hstmt : stmt.isComplete = true) (width : Nat) (hwidth : 2 ≤ width) :
    ∃ text left right, stmt.render? = some text ∧
      line width items text = left ++ separator ++ right ++ "\n" ∧
      ShowsFront width text right ∧
      (ShowsEnd width (itemsText items) left ↔ (width = 2 → (itemsText items).length ≤ 2)) ∧
      (width = 2 → 2 < (itemsText items).length → left = "… " ++ itemsText items) := by
  refine ⟨stmt.render, itemsField (some width) items, statementField width stmt.render,
    if_pos hstmt, rfl, showsFront_field hwidth _, ?_, ?_⟩
  · rw [itemsField_some]
    exact showsEnd_iff hwidth _
  · rintro rfl hlong
    rw [itemsField_some]
    exact endField_two hlong

/-- In a field of five characters, three are left of the bindings and three of the statement. -/
theorem columns_keep_width_of_five :
    let items : List (String × Option Value) := [("a", some (.boolean true)), ("b", none)]
    let stmt : Stmt := .print (.name "count" none) none
    stmt.isComplete = true ∧ 2 ≤ 5 ∧
      line 5 items "print count" = "… one \x1b[36m <=> \x1b[0m pri …\n" ∧
      ∃ text left right, stmt.render? = some text ∧
        line 5 items text = left ++ separator ++ right ++ "\n" ∧
        ShowsFront 5 text right ∧ ShowsEnd 5 (itemsText items) left := by
  intro items stmt
  have hstmt : stmt.isComplete = true := by decide
  have hwidth : 2 ≤ 5 := by decide
  obtain ⟨text, left, right, htext, hline, hright, hleft, -⟩ :=
    columns_keep_width_iff items stmt hstmt 5 hwidth
  exact ⟨hstmt, hwidth, by decide, text, left, right, htext, hline, hright, hleft.2 nofun⟩

/-- In a field of two characters, all of the bindings are left and nothing of the statement. -/
theorem columns_lose_width_of_two :
    let items : List (String × Option Value) := [("a", some (.boolean true))]
    let stmt : Stmt := .print (.name "x" none) none
    (stmt.render? = some "print x" ∧
      line 2 items "print x" = "… a=true \x1b[36m <=> \x1b[0m  …\n") ∧
    ¬ ∀ (items : List (String × Option Value)) (stmt : Stmt) (text : String) (width : Nat),
        stmt.render? = some text → 2 ≤ width →
        ∃ left right, line width items text = left ++ separator ++ right ++ "\n" ∧
          ShowsEnd width (itemsText items) left ∧ ShowsFront width text right := by
  intro items stmt
  have hrender : stmt.render? = some "print x" := by decide
  have hline : line 2 items "print x" = "… a=true \x1b[36m <=> \x1b[0m  …\n" := by decide
  refine ⟨⟨hrender, hline⟩, fun h => ?_⟩
  obtain ⟨left, right, hparts, hleft, hright⟩ := h items stmt "print x" 2 hrender (by decide)
  -- two fields of two characters would make a shorter line
  have hlength := congrArg String.length (hline.symm.trans hparts)
  have hshort : separator.length = 16 := by decide
  simp only [String.length_append, hleft.length, hright.length, hshort] at hlength
  revert hlength
  decide

end Trace

end Scriptlet
