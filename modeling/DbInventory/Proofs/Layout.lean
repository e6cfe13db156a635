/-
# DbInventory.Proofs.Layout -- tables whose columns line up

A table shows any value as lines of fields. `IsLayout` says what such a text is: its columns are
as wide as their widest lines, each field of a line fills its column, and each row has a block
of as many lines as its tallest cell. One field (`isField_paddedLine`) gives one line
(`isRowLine_rowLine`), and those give a block and then the table (`isLayout_tableText`). Since a
field ends in a blank, what stands in it does not move what stands behind it, so all lines of a
table take the same number of columns (`IsRowLine.textWidth_eq`). The table of a state has a row
for each of its items, and the row of a listed instance shows its columns (`Report.row_item`).
-/

import DbInventory.Instance.Flat
import DbInventory.Proofs.Json.Indented
import DbInventory.Report
import Mathlib.Algebra.GroupWithZero.Nat
import Mathlib.Data.List.FinRange
import Mathlib.Order.Bounds.Basic

namespace DbInventory

/-! ## The largest of some numbers -/

theorem isGreatest_foldl_max (l : List Nat) (n : Nat) :
    IsGreatest {m | m = n ∨ m ∈ l} (l.foldl max n) := by
  induction l generalizing n with
  | nil =>
    refine ⟨.inl rfl, fun m hm => ?_⟩
    have heq : m = n := by simpa using hm
    exact heq.le
  | cons x l ih =>
    obtain ⟨hmem, hupper⟩ := ih (max n x)
    rw [List.foldl_cons]
    constructor
    · rcases hmem with hmax | hl
      · show _ = n ∨ _ ∈ x :: l
        rw [hmax, List.mem_cons]
        omega
      · exact .inr (List.mem_cons_of_mem x hl)
    · have hle : max n x ≤ l.foldl max (max n x) := hupper (.inl rfl)
      rintro m (rfl | hm)
      · omega
      · rcases List.mem_cons.1 hm with rfl | hl
        · omega
        · exact hupper (.inr hl)

/-- The largest of some numbers, of which there is one at least. -/
theorem isGreatest_largest {α : Type} {l : List α} (f : α → Nat) (hne : l ≠ []) :
    IsGreatest {m | ∃ x ∈ l, m = f x} ((l.map f).foldl max 0) := by
  obtain ⟨hmem, hupper⟩ := isGreatest_foldl_max (l.map f) 0
  have hle : ∀ x ∈ l, f x ≤ (l.map f).foldl max 0 := fun x hx =>
    hupper (.inr (List.mem_map_of_mem hx))
  constructor
  · rcases hmem with hzero | hmem
    · obtain ⟨x, hx⟩ := List.exists_mem_of_ne_nil l hne
      exact ⟨x, hx, by have := hle x hx; omega⟩
    · obtain ⟨x, hx, heq⟩ := List.mem_map.1 hmem
      exact ⟨x, hx, heq.symm⟩
  · rintro m ⟨x, hx, rfl⟩
    exact hle x hx

/-! ## The columns of a line -/

namespace Unicode

/-- Takes one column, whatever stands beside it. -/
structure IsPlain (c : Char) : Prop where
  width : charWidth c = 1
  not_emoji : isEmoji c = false
  not_lam : isLam c = false
  not_tone : isSkinTone c = false
  not_joiner : c ≠ joiner

theorem isPlain_dash : IsPlain '-' := by
  constructor <;> decide +kernel

theorem isPlain_plus : IsPlain '+' := by
  constructor <;> decide +kernel

theorem isPlain_bar : IsPlain '|' := by
  constructor <;> decide +kernel

theorem IsPlain.textWidth_cons {c : Char} (h : IsPlain c) (s : List Char) :
    textWidth (c :: s) = 1 + textWidth s := by
  have hpicture : isPicture c s = false := by simp [isPicture, h.not_emoji]
  have hwidth : widthBetween .other c s = 1 := by
    simp [widthBetween, widthBetween.alone, hpicture, h.not_emoji, h.width]
  have hnext : Before.next .other c s = .other := by
    simp [Before.next, h.not_joiner, h.not_lam, h.not_tone, hpicture, h.width]
  rw [textWidth, widthAfter, hwidth, hnext, textWidth]

theorem textWidth_plain_append {s : List Char} (h : ∀ c ∈ s, IsPlain c) (t : List Char) :
    textWidth (s ++ t) = s.length + textWidth t := by
  induction s with
  | nil => simp
  | cons c s ih =>
    obtain ⟨hc, hs⟩ := List.forall_mem_cons.1 h
    rw [List.cons_append, hc.textWidth_cons, ih hs, List.length_cons]
    omega

end Unicode

namespace Table

open Unicode (textWidth textWidth_blank textWidth_replicate_blank)
open Text (parts joinParts)

variable {width : Nat} {text field line : List Char}

/-! ## Fields -/

/-- A text between blanks that fills its column: one blank in front, the text as it is, and
nothing but blanks behind it, one at least. -/
structure IsField (width : Nat) (text field : List Char) : Prop where
  shown : ∃ n, field = ' ' :: text ++ List.replicate (n + 1) ' '
  width : textWidth field = width + 2

/-- **A line of a cell fills its column**, if the column is as wide as the line. -/
theorem isField_paddedLine (h : textWidth text ≤ width) :
    IsField width text (paddedLine width text) := by
  have hshown : paddedLine width text =
      ' ' :: text ++ List.replicate (width - textWidth text + 1) ' ' := by
    simp [paddedLine, List.replicate_succ']
  refine ⟨⟨_, hshown⟩, ?_⟩
  have hfront := textWidth_blank [] (text ++ List.replicate (width - textWidth text + 1) ' ')
  have hback := textWidth_blank text (List.replicate (width - textWidth text) ' ')
  rw [textWidth_replicate_blank] at hback
  rw [List.replicate_succ] at hfront hshown
  rw [hshown, List.cons_append, ← List.nil_append (' ' :: _), hfront, hback]
  have hnil : textWidth [] = 0 := rfl
  omega

/-- A field ends in a blank, so nothing in it changes what stands behind a bar. -/
theorem IsField.textWidth_append (h : IsField width text field) (s : List Char) :
    textWidth (field ++ '|' :: s) = width + 3 + textWidth s := by
  obtain ⟨n, hfield⟩ := h.shown
  have hlast : field = (' ' :: text ++ List.replicate n ' ') ++ ' ' :: [] := by
    rw [hfield, List.replicate_succ', List.append_assoc]
  have hwidth := h.width
  rw [hlast, textWidth_blank] at hwidth
  rw [hlast, List.append_assoc, List.singleton_append, textWidth_blank,
    Unicode.isPlain_bar.textWidth_cons]
  have hnil : textWidth [] = 0 := rfl
  omega

/-- Parts that are as wide as fields, also in front of a mark, take the columns of all of them. -/
theorem textWidth_joined {ι : Type} {columns : List ι} {width : ι → Nat} {part : ι → List Char}
    {mark : Char} (hlast : ∀ j ∈ columns, textWidth (part j) = width j + 2)
    (hmark : ∀ j ∈ columns, ∀ s, textWidth (part j ++ mark :: s) = width j + 3 + textWidth s) :
    textWidth (joinParts mark (columns.map part)) =
      (columns.map fun j => width j + 2).sum + (columns.length - 1) := by
  induction columns with
  | nil => rfl
  | cons j columns ih =>
    obtain ⟨hj, hcolumns⟩ := List.forall_mem_cons.1 hlast
    obtain ⟨hjmark, hcolumnsmark⟩ := List.forall_mem_cons.1 hmark
    -- the last part has no mark behind it
    cases columns with
    | nil => simp [joinParts, hj]
    | cons k columns =>
      have hrest := ih hcolumns hcolumnsmark
      simp only [List.map_cons, List.sum_cons, List.length_cons] at hrest ⊢
      rw [joinParts, hjmark, hrest]
      omega

/-! ## Lines -/

variable {count : Nat} {widths : Fin count → Nat} {texts : Fin count → List Char}

/-- The columns of a line with fields of the given widths, and a mark between two fields. -/
def lineWidth (widths : Fin count → Nat) : Nat :=
  (List.ofFn fun j => widths j + 2).sum + (count - 1)

theorem lineWidth_eq (widths : Fin count → Nat) :
    lineWidth widths =
      ((List.finRange count).map fun j => widths j + 2).sum +
        ((List.finRange count).length - 1) := by
  rw [lineWidth, List.ofFn_eq_map, List.length_finRange]

theorem lineWidth_pos (widths : Fin count → Nat) (h : 0 < count) : 0 < lineWidth widths := by
  obtain ⟨n, rfl⟩ := Nat.exists_eq_succ_of_ne_zero h.ne'
  rw [lineWidth, List.ofFn_succ, List.sum_cons]
  omega

/-- A line of fields with bars between them, one field for each column. -/
def IsRowLine (widths : Fin count → Nat) (texts : Fin count → List Char) (line : List Char) :
    Prop :=
  ∃ field : Fin count → List Char,
    line = joinParts '|' (List.ofFn field) ∧ ∀ j, IsField (widths j) (texts j) (field j)

/-- A line of dashes with crosses between them, as wide as the fields of the other lines. -/
def IsRule (widths : Fin count → Nat) (line : List Char) : Prop :=
  line = joinParts '+' (List.ofFn fun j => List.replicate (widths j + 2) '-')

/-- **A line of fields takes the columns of all fields**, whatever they show. -/
theorem IsRowLine.textWidth_eq (h : IsRowLine widths texts line) :
    textWidth line = lineWidth widths := by
  obtain ⟨field, rfl, hfield⟩ := h
  rw [List.ofFn_eq_map, lineWidth_eq]
  exact textWidth_joined (fun j _ => (hfield j).width) fun j _ s => (hfield j).textWidth_append s

/-- **The rule is as wide as the lines of fields.** -/
theorem IsRule.textWidth_eq (h : IsRule widths line) :
    textWidth line = lineWidth widths := by
  have hdashes : ∀ n, ∀ c ∈ List.replicate n '-', Unicode.IsPlain c := fun n c hc =>
    List.eq_of_mem_replicate hc ▸ Unicode.isPlain_dash
  have hrun : ∀ n s, textWidth (List.replicate n '-' ++ s) = n + textWidth s := fun n s => by
    rw [Unicode.textWidth_plain_append (hdashes n), List.length_replicate]
  rw [h, List.ofFn_eq_map, lineWidth_eq]
  refine textWidth_joined (fun j _ => ?_) fun j _ s => ?_
  · have hwidth := hrun (widths j + 2) []
    rwa [List.append_nil] at hwidth
  · rw [hrun, Unicode.isPlain_plus.textWidth_cons]
    omega

/-! ## Blocks and tables -/

/-- The text of a cell of a row. -/
def cellAt (row : List Cell) (j : Fin count) : Cell := row.getD j []

/-- The line of a cell that stands in a line of its row; blank when the cell has no such line. -/
def cellLine (row : List Cell) (n : Nat) (j : Fin count) : List Char :=
  (cellLines (cellAt row j)).getD n []

/-- The lines of a row: as many as its tallest cell has, and each one shows the lines of the
cells at its height. -/
structure IsBlock (widths : Fin count → Nat) (row : List Cell) (lines : List (List Char)) :
    Prop where
  height : IsGreatest {m | ∃ j : Fin count, m = (cellLines (cellAt row j)).length} lines.length
  lines : ∀ n line, lines[n]? = some line → IsRowLine widths (cellLine row n) line

/-- The widths of all lines of the cells of a column. -/
def lineWidths (rows : List (List Cell)) (j : Fin count) : Set Nat :=
  {m | ∃ row ∈ rows, ∃ line ∈ cellLines (cellAt row j), m = textWidth line}

/-- The text is a table of headings and rows, whose columns have the given widths. -/
structure IsLayout (headings : List Cell) (rows : List (List Cell)) (widths : Fin count → Nat)
    (text : List Char) : Prop where
  /-- A column is as wide as the widest line in it, the headings included. -/
  widest : ∀ j, IsGreatest (lineWidths (headings :: rows) j) (widths j)
  /-- One line of headings, a rule, one block for each row, and nothing else. -/
  lines : ∃ header rule blocks, parts '\n' text = header :: rule :: List.flatten blocks ∧
    IsRowLine widths (cellAt headings) header ∧ IsRule widths rule ∧
    List.Forall₂ (IsBlock widths) rows blocks
  /-- All lines are equally wide. -/
  even : ∀ line ∈ parts '\n' text, textWidth line = lineWidth widths
  /-- No line feed ends the text. -/
  ended : text.getLast? ≠ some '\n'

/-! ## The table that is made -/

theorem isGreatest_cellWidth (cell : Cell) :
    IsGreatest {m | ∃ line ∈ cellLines cell, m = textWidth line} (cellWidth cell) :=
  isGreatest_largest textWidth (Text.parts_ne_nil _ _)

/-- **A column is as wide as its widest line.** -/
theorem isGreatest_columnWidth {rows : List (List Cell)} (hne : rows ≠ []) (j : Fin count) :
    IsGreatest (lineWidths rows j) (columnWidth rows j) := by
  obtain ⟨⟨row, hrow, hcell⟩, hupper⟩ :=
    isGreatest_largest (fun row : List Cell => cellWidth (cellAt row j)) hne
  constructor
  · obtain ⟨⟨line, hline, hwidth⟩, -⟩ := isGreatest_cellWidth (cellAt row j)
    exact ⟨row, hrow, line, hline, hcell.trans hwidth⟩
  · rintro m ⟨row, hrow, line, hline, rfl⟩
    have hcell : textWidth line ≤ cellWidth (cellAt row j) :=
      (isGreatest_cellWidth (cellAt row j)).2 ⟨line, hline, rfl⟩
    exact hcell.trans (hupper ⟨row, hrow, rfl⟩)

theorem mem_row_iff {row : List Cell} (hlength : row.length = count) (cell : Cell) :
    cell ∈ row ↔ ∃ j : Fin count, cell = cellAt row j := by
  rw [List.mem_iff_getElem]
  constructor
  · rintro ⟨n, hn, rfl⟩
    exact ⟨⟨n, hlength ▸ hn⟩, by simp [cellAt, hn]⟩
  · rintro ⟨j, rfl⟩
    have hj : (j : Nat) < row.length := hlength.symm ▸ j.isLt
    exact ⟨j, hj, by simp [cellAt, hj]⟩

/-- **A block has as many lines as its tallest cell.** -/
theorem isGreatest_rowHeight {row : List Cell} (hlength : row.length = count) (hcount : 0 < count) :
    IsGreatest {m | ∃ j : Fin count, m = (cellLines (cellAt row j)).length} (rowHeight row) := by
  have hne : row ≠ [] := List.ne_nil_of_length_pos (hlength ▸ hcount)
  obtain ⟨⟨cell, hcell, hheight⟩, hupper⟩ :=
    isGreatest_largest (fun cell => (cellLines cell).length) hne
  constructor
  · obtain ⟨j, rfl⟩ := (mem_row_iff hlength cell).1 hcell
    exact ⟨j, hheight⟩
  · rintro m ⟨j, rfl⟩
    exact hupper ⟨_, (mem_row_iff hlength _).2 ⟨j, rfl⟩, rfl⟩

/-- A line of a cell is not wider than its column. -/
theorem textWidth_cellLine_le {rows : List (List Cell)} {row : List Cell} (hrow : row ∈ rows)
    (n : Nat) (j : Fin count) : textWidth (cellLine row n j) ≤ columnWidth rows j := by
  rw [cellLine, List.getD_eq_getElem?_getD]
  cases hline : (cellLines (cellAt row j))[n]? with
  | none => exact Nat.zero_le _
  | some line =>
    have hgreatest := isGreatest_columnWidth (List.ne_nil_of_mem hrow) j
    exact hgreatest.2 ⟨row, hrow, line, List.mem_of_getElem? hline, rfl⟩

/-- **Each line of a row is a line of fields.** -/
theorem isRowLine_rowLine {rows : List (List Cell)} {row : List Cell} (hrow : row ∈ rows)
    (hlength : row.length = count) (n : Nat) :
    IsRowLine (fun j : Fin count => columnWidth rows j) (cellLine row n)
      (rowLine (columnWidths count rows) row n) := by
  refine ⟨fun j => paddedLine (columnWidth rows j) (cellLine row n j), ?_, fun j =>
    isField_paddedLine (textWidth_cellLine_le hrow n j)⟩
  rw [rowLine]
  congr 1
  apply List.ext_getElem
  · simp [columnWidths, hlength]
  · intro i hi _
    have hrowi : i < row.length := by
      rw [List.length_zipWith] at hi
      omega
    simp [columnWidths, cellLine, cellAt, hrowi]

theorem isBlock_rowLines {rows : List (List Cell)} {row : List Cell} (hrow : row ∈ rows)
    (hlength : row.length = count) (hcount : 0 < count) :
    IsBlock (fun j : Fin count => columnWidth rows j) row
      (rowLines (columnWidths count rows) row) where
  height := by
    rw [rowLines, List.length_map, List.length_range]
    exact isGreatest_rowHeight hlength hcount
  lines := by
    intro n line hline
    rw [rowLines, List.getElem?_map] at hline
    obtain ⟨m, hm, rfl⟩ := Option.map_eq_some_iff.1 hline
    obtain ⟨hlt, rfl⟩ := List.getElem?_eq_some_iff.1 hm
    rw [List.getElem_range]
    exact isRowLine_rowLine hrow hlength n

theorem isRule_ruleLine (count : Nat) (rows : List (List Cell)) :
    IsRule (fun j : Fin count => columnWidth rows j) (ruleLine (columnWidths count rows)) := by
  rw [IsRule, ruleLine, columnWidths]
  congr 1
  apply List.ext_getElem <;> simp

/-! ## Lines of one text -/

/-- Parts without a line feed make a line without one. -/
theorem not_mem_joined {mark : Char} {part : Fin count → List Char} (hmark : '\n' ≠ mark)
    (h : ∀ j, '\n' ∉ part j) : '\n' ∉ joinParts mark (List.ofFn part) := by
  intro hmem
  rcases Text.mem_joinParts hmem with heq | ⟨_, hpart, hmem⟩
  · exact hmark heq
  · obtain ⟨j, rfl⟩ := List.mem_ofFn.1 hpart
    exact h j hmem

/-- Fields of texts without a line feed make a line without one. -/
theorem IsRowLine.not_mem (h : IsRowLine widths texts line) (htexts : ∀ j, '\n' ∉ texts j) :
    '\n' ∉ line := by
  obtain ⟨field, rfl, hfield⟩ := h
  refine not_mem_joined (by decide) fun j => ?_
  obtain ⟨n, hshown⟩ := (hfield j).shown
  simp [hshown, htexts j]

theorem IsRule.not_mem (h : IsRule widths line) : '\n' ∉ line := by
  rw [h]
  exact not_mem_joined (by decide) fun j => by simp

theorem not_mem_cellLine (row : List Cell) (n : Nat) (j : Fin count) : '\n' ∉ cellLine row n j := by
  rw [cellLine, List.getD_eq_getElem?_getD]
  cases hline : (cellLines (cellAt row j))[n]? with
  | none => simp
  | some line => exact Text.not_mem_of_mem_parts (List.mem_of_getElem? hline)

/-- A text that ends in a line feed has an empty last line. -/
theorem nil_mem_parts (h : text.getLast? = some '\n') : [] ∈ parts '\n' text := by
  obtain ⟨s, rfl⟩ := List.getLast?_eq_some_iff.1 h
  rw [Text.parts_append]
  simp [parts]

/-- A cell of one line is that line. -/
theorem cellLines_of_not_mem {cell : Cell} (h : '\n' ∉ cell) : cellLines cell = [cell] :=
  Text.parts_of_not_mem h

/-- Headings of one line each make one line. -/
theorem rowLines_headings {headings : List Cell} (widths : List Nat) (hne : headings ≠ [])
    (h : ∀ cell ∈ headings, '\n' ∉ cell) :
    rowLines widths headings = [rowLine widths headings 0] := by
  have hheight : rowHeight headings = 1 := by
    obtain ⟨⟨j, hj⟩, -⟩ := isGreatest_rowHeight rfl (List.length_pos_iff.2 hne)
    rw [hj, cellLines_of_not_mem (h _ ((mem_row_iff rfl _).2 ⟨j, rfl⟩)), List.length_singleton]
  rw [rowLines, hheight]
  rfl

/-- A line of a table: one of fields, whose texts are lines, or the rule. -/
def IsTableLine (widths : Fin count → Nat) (line : List Char) : Prop :=
  (∃ texts, IsRowLine widths texts line ∧ ∀ j, '\n' ∉ texts j) ∨ IsRule widths line

theorem IsTableLine.not_mem (h : IsTableLine widths line) : '\n' ∉ line := by
  rcases h with ⟨texts, hline, htexts⟩ | hrule
  · exact hline.not_mem htexts
  · exact hrule.not_mem

theorem IsTableLine.textWidth_eq (h : IsTableLine widths line) :
    textWidth line = lineWidth widths := by
  rcases h with ⟨texts, hline, -⟩ | hrule
  · exact hline.textWidth_eq
  · exact hrule.textWidth_eq

section Made

variable {headings : List Cell} {rows : List (List Cell)}

/-- The widths of the columns of a table. -/
def tableWidths (headings : List Cell) (rows : List (List Cell)) (j : Fin headings.length) : Nat :=
  columnWidth (headings :: rows) j

theorem tableLines_eq (hne : headings ≠ []) (hheadings : ∀ cell ∈ headings, '\n' ∉ cell) :
    tableLines headings rows =
      rowLine (columnWidths headings.length (headings :: rows)) headings 0 ::
        ruleLine (columnWidths headings.length (headings :: rows)) ::
          (rows.map (rowLines (columnWidths headings.length (headings :: rows)))).flatten := by
  rw [tableLines, rowLines_headings _ hne hheadings, List.singleton_append, List.flatMap_def]

theorem isTableLine_of_mem (hrows : ∀ row ∈ rows, row.length = headings.length)
    (hmem : line ∈ tableLines headings rows) :
    IsTableLine (tableWidths headings rows) line := by
  have hrow : ∀ row ∈ headings :: rows, row.length = headings.length →
      line ∈ rowLines (columnWidths headings.length (headings :: rows)) row →
      IsTableLine (tableWidths headings rows) line := by
    intro row hrow hlength hline
    obtain ⟨n, -, rfl⟩ := List.mem_map.1 hline
    exact .inl ⟨cellLine row n, isRowLine_rowLine hrow hlength n, not_mem_cellLine row n⟩
  rw [tableLines, List.mem_append, List.mem_cons, List.mem_flatMap] at hmem
  rcases hmem with hheader | rfl | ⟨row, hmem, hline⟩
  · exact hrow headings (by simp) rfl hheader
  · exact .inr (isRule_ruleLine _ _)
  · exact hrow row (List.mem_cons_of_mem _ hmem) (hrows row hmem) hline

/-- **A table of rows with a cell for each heading lines up.** -/
theorem isLayout_tableText (hne : headings ≠ []) (hheadings : ∀ cell ∈ headings, '\n' ∉ cell)
    (hrows : ∀ row ∈ rows, row.length = headings.length) :
    IsLayout headings rows (tableWidths headings rows)
      (tableText headings rows) := by
  have hcount : 0 < headings.length := List.length_pos_iff.2 hne
  have hlines : parts '\n' (tableText headings rows) = tableLines headings rows :=
    Text.parts_joinParts (by simp [tableLines_eq hne hheadings]) fun line hline =>
      (isTableLine_of_mem hrows hline).not_mem
  have heven : ∀ line ∈ tableLines headings rows, textWidth line =
      lineWidth (tableWidths headings rows) :=
    fun line hline => (isTableLine_of_mem hrows hline).textWidth_eq
  refine ⟨isGreatest_columnWidth (by simp), ⟨_, _, _, hlines.trans (tableLines_eq hne hheadings),
    ?_, isRule_ruleLine _ _, ?_⟩, hlines ▸ heven, fun hended => ?_⟩
  · have htexts : cellAt headings = fun j : Fin headings.length => cellLine headings 0 j := by
      funext j
      rw [cellLine, cellLines_of_not_mem (hheadings _ ((mem_row_iff rfl _).2 ⟨j, rfl⟩))]
      rfl
    rw [htexts]
    exact isRowLine_rowLine List.mem_cons_self rfl 0
  · rw [List.forall₂_map_right_iff, List.forall₂_same]
    exact fun row hrow => isBlock_rowLines (List.mem_cons_of_mem _ hrow) (hrows row hrow) hcount
  · -- an empty line is narrower than the table
    have hempty : 0 = lineWidth _ := heven [] (hlines ▸ nil_mem_parts hended)
    exact absurd hempty (lineWidth_pos _ hcount).ne

end Made

end Table

/-! ## The cells of an instance -/

namespace DbInstance

/-- Beside its tags, the members of an item are the attributes of its instance. -/
theorem member_item (x : DbInstance) (tags : Dict String) {key : String} (hkey : key ≠ "tags") :
    (x.item tags).member key = (x.flatten.get? key).getD .null := by
  show ((x.flatten.insert "tags" (tagsJson tags)).get? key).getD .null = _
  rw [Dict.get?_insert, if_neg hkey]

end DbInstance

namespace Report

/-- A number in decimal digits, or a dash. -/
def numberText (n : Option Int64) : String := (n.map fun n => toString n.toInt).getD "-"

/-- An address with its port, or what is known of it. -/
def hostText : Option String → Option Int64 → String
  | some vip, some port => vip ++ ":" ++ toString port.toInt
  | some vip, none => vip
  | none, _ => "-"

theorem compactText_int64 (n : Int64) : (Json.int64 n).compactText = toString n.toInt := by
  rw [← String.toList_inj, Json.toList_toString_int]
  exact String.toList_ofList

theorem shownText_string {item : Json} {key : String} {t : Option String}
    (h : item.member key = Json.optional Json.string t) : shownText item key = t.getD "-" := by
  rw [shownText, h]
  cases t <;> rfl

theorem shownText_int64 {item : Json} {key : String} {n : Option Int64}
    (h : item.member key = Json.optional Json.int64 n) : shownText item key = numberText n := by
  rw [shownText, h]
  cases n with
  | none => rfl
  | some n => exact compactText_int64 n

theorem addressText_eq {item : Json} {vip : Option String} {port : Option Int64}
    (hvip : item.member "vip" = Json.optional Json.string vip)
    (hport : item.member "vport" = Json.optional Json.int64 port) :
    addressText item = hostText vip port := by
  have hdash := shownText_string hvip
  rw [addressText, hvip, hport]
  cases vip with
  | none => exact hdash
  | some vip =>
    cases port with
    | none => exact hdash
    | some port =>
      exact congrArg (vip ++ ":" ++ ·) (compactText_int64 port)

theorem tagsText_tagsJson {item : Json} {tags : Dict String}
    (h : item.member "tags" = DbInstance.tagsJson tags) :
    tagsText item = ",".intercalate (tags.entries.map fun t => t.1 ++ "=" ++ t.2) := by
  rw [tagsText, h]
  show ",".intercalate ((tags.entries.map fun e => (e.1, Json.string e.2)).map _) = _
  rw [List.map_map]
  rfl

/-- **The cells of an instance show its columns**: texts as they are, numbers in decimal digits,
the kind of charge, and a dash for what is missing; the tags stand with commas between them. -/
theorem row_item (x : DbInstance) (tags : Dict String) :
    row (x.item tags) = [
      x.instanceId.getD "-", x.name.getD "-", x.zone.getD "-", numberText x.status,
      chargeType x.payMode,
      numberText x.cpu ++ "C/" ++ numberText x.memory ++ "G/" ++ numberText x.storage ++ "G",
      hostText x.vip x.vport,
      ",".intercalate (tags.entries.map fun t => t.1 ++ "=" ++ t.2)].map String.toList := by
  have htext : ∀ (key : String) (t : Option String), key ≠ "tags" →
      (x.flatten.get? key).getD .null = Json.optional Json.string t →
      shownText (x.item tags) key = t.getD "-" := fun _ _ hkey h =>
    shownText_string ((x.member_item tags hkey).trans h)
  have hnumber : ∀ (key : String) (n : Option Int64), key ≠ "tags" →
      (x.flatten.get? key).getD .null = Json.optional Json.int64 n →
      shownText (x.item tags) key = numberText n := fun _ _ hkey h =>
    shownText_int64 ((x.member_item tags hkey).trans h)
  have hsize : sizeText (x.item tags) =
      numberText x.cpu ++ "C/" ++ numberText x.memory ++ "G/" ++ numberText x.storage ++ "G" := by
    rw [sizeText, hnumber "cpu" x.cpu (by decide) rfl, hnumber "memory" x.memory (by decide) rfl,
      hnumber "storage" x.storage (by decide) rfl]
  have haddress : addressText (x.item tags) = hostText x.vip x.vport :=
    addressText_eq (x.member_item tags (by decide)) (x.member_item tags (by decide))
  have htags : (x.item tags).member "tags" = DbInstance.tagsJson tags := by
    show ((x.flatten.insert "tags" (DbInstance.tagsJson tags)).get? "tags").getD .null = _
    rw [Dict.get?_insert_self, Option.getD_some]
  simp only [row, columns, List.map_cons, List.map_nil, hsize, haddress, tagsText_tagsJson htags,
    htext "id" x.instanceId (by decide) rfl, htext "name" x.name (by decide) rfl,
    htext "availability_zone" x.zone (by decide) rfl,
    htext "charge_type" (some (chargeType x.payMode)) (by decide) rfl,
    hnumber "status" x.status (by decide) rfl, Option.getD_some]

/-! ## The table of a state -/

/-- The listed instances of a state: what its list holds, and nothing if it has no list. -/
inductive Lists (state : Json) : List Json → Prop where
  | list {items : List Json} (h : state.member "instance_list" = .array items) : Lists state items
  | nothing (h : ∀ items, state.member "instance_list" ≠ .array items) : Lists state []

theorem lists_listed (state : Json) : Lists state (listed state) := by
  unfold listed
  cases hmember : state.member "instance_list" with
  | array items => exact .list hmember
  | _ => exact .nothing (by simp [hmember])

theorem not_mem_headings : ∀ cell ∈ headings, '\n' ∉ cell := by decide

/-- **Any state is shown as a table that lines up.** It has a line of headings, a rule, and then
for each listed instance in turn as many lines as its tallest cell; no other line and no line feed
at the end. There are eight columns, each as wide as the widest line in it, and each field of a
line shows its text in full, with blanks around it that fill the column. -/
theorem text_table_lines_up (state : Json) :
    ∃ items, Lists state items ∧ ∃ widths : Fin 8 → Nat,
      Table.IsLayout headings (items.map row) widths (text state .table).toList := by
  refine ⟨listed state, lists_listed state,
    Table.tableWidths headings ((listed state).map row), ?_⟩
  have hrows : ∀ cells ∈ (listed state).map row, cells.length = headings.length := by
    intro cells hcells
    obtain ⟨item, -, rfl⟩ := List.mem_map.1 hcells
    rfl
  have htext : (text state .table).toList = Table.tableText headings ((listed state).map row) := by
    rw [text, tableText, String.toList_ofList]
  rw [htext]
  exact Table.isLayout_tableText (by decide) not_mem_headings hrows

end Report

end DbInventory
