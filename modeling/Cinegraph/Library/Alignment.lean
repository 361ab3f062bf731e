import Mathlib.Algebra.Order.Field.Basic
import Mathlib.Tactic.Linarith

/-!
Monotone paths over a grid of rows and columns, whose moves skip a column, skip a row, or match a
row to a column, the next one or the one before again. A table that is filled cell by cell with the
best of the moves into a cell holds the best value of all paths, and the moves it stores lead back
to the origin.
-/

namespace Cinegraph.Library.Alignment

inductive Move where
  | skipColumn
  | skipRow
  | matchNext
  | matchRepeat
  deriving DecidableEq, Repr

/-- What moves earn: the score of a match, which needs to reach the floor, and the price of a skip. -/
structure Scoring (R : Type) where
  score : Nat → Nat → R
  floor : R
  penalty : R

variable {R : Type} [Field R] [LinearOrder R]

/-- A path from the origin to a cell, with its value and the matched cells in their order. -/
inductive Path (scoring : Scoring R) : (row column : Nat) → R → List (Nat × Nat) → Prop
  | origin : Path scoring 0 0 0 []
  | skipColumn {row column value matched} (path : Path scoring row column value matched) :
      Path scoring row (column + 1) (value - scoring.penalty) matched
  | skipRow {row column value matched} (path : Path scoring row column value matched) :
      Path scoring (row + 1) column (value - scoring.penalty) matched
  | matchNext {row column value matched} (path : Path scoring row column value matched)
      (enough : scoring.floor ≤ scoring.score row column) :
      Path scoring (row + 1) (column + 1) (value + scoring.score row column)
        (matched ++ [(row, column)])
  | matchRepeat {row column value matched} (path : Path scoring row (column + 1) value matched)
      (enough : scoring.floor ≤ scoring.score row column) :
      Path scoring (row + 1) (column + 1) (value + scoring.score row column)
        (matched ++ [(row, column)])

section Path

variable {scoring : Scoring R} {row column : Nat} {value : R} {matched : List (Nat × Nat)}

/-- The matched rows are below the end of the path, and so are the matched columns. -/
theorem Path.inside (path : Path scoring row column value matched) :
    ∀ cell ∈ matched, cell.1 < row ∧ cell.2 < column := by
  induction path with
  | origin => exact fun _ member => absurd member List.not_mem_nil
  | skipColumn _ ih =>
      exact fun cell member => ⟨(ih cell member).1, Nat.lt_succ_of_lt (ih cell member).2⟩
  | skipRow _ ih =>
      exact fun cell member => ⟨Nat.lt_succ_of_lt (ih cell member).1, (ih cell member).2⟩
  | matchNext _ _ ih =>
      rw [List.forall_mem_append, List.forall_mem_singleton]
      refine ⟨fun cell member => ?_, Nat.lt_succ_self _, Nat.lt_succ_self _⟩
      exact ⟨Nat.lt_succ_of_lt (ih cell member).1, Nat.lt_succ_of_lt (ih cell member).2⟩
  | matchRepeat _ _ ih =>
      rw [List.forall_mem_append, List.forall_mem_singleton]
      refine ⟨fun cell member => ?_, Nat.lt_succ_self _, Nat.lt_succ_self _⟩
      exact ⟨Nat.lt_succ_of_lt (ih cell member).1, (ih cell member).2⟩

/-- Rows are matched once each, and the columns they are matched to never go back. -/
theorem Path.monotone (path : Path scoring row column value matched) :
    matched.Pairwise fun earlier later => earlier.1 < later.1 ∧ earlier.2 ≤ later.2 := by
  have concat {row column : Nat} {matched : List (Nat × Nat)}
      (before : matched.Pairwise fun earlier later => earlier.1 < later.1 ∧ earlier.2 ≤ later.2)
      (inside : ∀ cell ∈ matched, cell.1 < row ∧ cell.2 ≤ column) :
      (matched ++ [(row, column)]).Pairwise fun earlier later =>
        earlier.1 < later.1 ∧ earlier.2 ≤ later.2 := by
    rw [List.pairwise_append]
    refine ⟨before, List.pairwise_singleton _ _, fun earlier member later last => ?_⟩
    rw [List.mem_singleton.mp last]
    exact inside earlier member
  induction path with
  | origin => exact List.Pairwise.nil
  | skipColumn _ ih => exact ih
  | skipRow _ ih => exact ih
  | matchNext path _ ih =>
      exact concat ih fun cell member => ⟨(path.inside cell member).1, (path.inside cell member).2.le⟩
  | matchRepeat path _ ih =>
      exact concat ih fun cell member =>
        ⟨(path.inside cell member).1, Nat.lt_succ_iff.mp (path.inside cell member).2⟩

theorem Path.enough (path : Path scoring row column value matched) :
    ∀ cell ∈ matched, scoring.floor ≤ scoring.score cell.1 cell.2 := by
  induction path with
  | origin => exact fun _ member => absurd member List.not_mem_nil
  | skipColumn _ ih => exact ih
  | skipRow _ ih => exact ih
  | matchNext _ enough ih =>
      rw [List.forall_mem_append, List.forall_mem_singleton]
      exact ⟨ih, enough⟩
  | matchRepeat _ enough ih =>
      rw [List.forall_mem_append, List.forall_mem_singleton]
      exact ⟨ih, enough⟩

end Path

/-- A move into the cell behind `row` and `column`, and the value it gives there. -/
inductive Into (scoring : Scoring R) (values : Nat → Nat → R) (row column : Nat) : Move → R → Prop
  | skipColumn :
      Into scoring values row column .skipColumn (values (row + 1) column - scoring.penalty)
  | skipRow : Into scoring values row column .skipRow (values row (column + 1) - scoring.penalty)
  | matchNext (enough : scoring.floor ≤ scoring.score row column) :
      Into scoring values row column .matchNext (values row column + scoring.score row column)
  | matchRepeat (enough : scoring.floor ≤ scoring.score row column) :
      Into scoring values row column .matchRepeat
        (values row (column + 1) + scoring.score row column)

/-- The table of values and moves is filled up to a last row and a last column. -/
structure Filled (scoring : Scoring R) (rows columns : Nat) (values : Nat → Nat → R)
    (steps : Nat → Nat → Option Move) : Prop where
  origin : values 0 0 = 0
  firstRow : ∀ column < columns, values 0 (column + 1) = values 0 column - scoring.penalty ∧
    steps 0 (column + 1) = some .skipColumn
  firstColumn : ∀ row < rows, values (row + 1) 0 = values row 0 - scoring.penalty ∧
    steps (row + 1) 0 = some .skipRow
  inner : ∀ row < rows, ∀ column < columns, ∃ move, steps (row + 1) (column + 1) = some move ∧
    Into scoring values row column move (values (row + 1) (column + 1)) ∧
    ∀ other value, Into scoring values row column other value →
      value ≤ values (row + 1) (column + 1)

/-- The cells that the stored moves match on the way back from a cell. -/
inductive Trace (steps : Nat → Nat → Option Move) : (row column : Nat) → List (Nat × Nat) → Prop
  | origin : Trace steps 0 0 []
  | skipColumn {row column matched} (step : steps row (column + 1) = some .skipColumn)
      (trace : Trace steps row column matched) : Trace steps row (column + 1) matched
  | skipRow {row column matched} (step : steps (row + 1) column = some .skipRow)
      (trace : Trace steps row column matched) : Trace steps (row + 1) column matched
  | matchNext {row column matched} (step : steps (row + 1) (column + 1) = some .matchNext)
      (trace : Trace steps row column matched) :
      Trace steps (row + 1) (column + 1) (matched ++ [(row, column)])
  | matchRepeat {row column matched} (step : steps (row + 1) (column + 1) = some .matchRepeat)
      (trace : Trace steps row (column + 1) matched) :
      Trace steps (row + 1) (column + 1) (matched ++ [(row, column)])

namespace Filled

variable {scoring : Scoring R} {rows columns : Nat} {values : Nat → Nat → R}
  {steps : Nat → Nat → Option Move}

/-- No path is worth more than the table says. -/
theorem bounds [IsStrictOrderedRing R] (filled : Filled scoring rows columns values steps)
    {row column : Nat} {value : R} {matched : List (Nat × Nat)} (path : Path scoring row column value matched)
    (in_rows : row ≤ rows) (in_columns : column ≤ columns) : value ≤ values row column := by
  induction path with
  | origin => exact filled.origin.ge
  | @skipColumn row column value _ path ih =>
      have before := ih in_rows (by omega)
      cases row with
      | zero =>
          rw [(filled.firstRow column in_columns).1]
          linarith
      | succ row =>
          obtain ⟨-, -, -, best⟩ := filled.inner row in_rows column in_columns
          have := best _ _ .skipColumn
          linarith
  | @skipRow row column value _ path ih =>
      have before := ih (by omega) in_columns
      cases column with
      | zero =>
          rw [(filled.firstColumn row in_rows).1]
          linarith
      | succ column =>
          obtain ⟨-, -, -, best⟩ := filled.inner row in_rows column in_columns
          have := best _ _ .skipRow
          linarith
  | @matchNext row column value _ path enough ih =>
      have before := ih (by omega) (by omega)
      obtain ⟨-, -, -, best⟩ := filled.inner row in_rows column in_columns
      have := best _ _ (.matchNext enough)
      linarith
  | @matchRepeat row column value _ path enough ih =>
      have before := ih (by omega) in_columns
      obtain ⟨-, -, -, best⟩ := filled.inner row in_rows column in_columns
      have := best _ _ (.matchRepeat enough)
      linarith

/-- The stored moves lead back to the origin, on a path worth what the table says. -/
theorem traced (filled : Filled scoring rows columns values steps) {row column : Nat}
    (in_rows : row ≤ rows) (in_columns : column ≤ columns) :
    ∃ matched, Trace steps row column matched ∧
      Path scoring row column (values row column) matched := by
  induction distance : row + column using Nat.strong_induction_on generalizing row column with
  | _ distance ih =>
      cases row with
      | zero =>
          cases column with
          | zero =>
              rw [filled.origin]
              exact ⟨[], .origin, .origin⟩
          | succ column =>
              obtain ⟨same, step⟩ := filled.firstRow column in_columns
              obtain ⟨matched, trace, path⟩ :=
                ih (0 + column) (by omega) in_rows (Nat.le_of_succ_le in_columns) rfl
              rw [same]
              exact ⟨matched, .skipColumn step trace, .skipColumn path⟩
      | succ row =>
          cases column with
          | zero =>
              obtain ⟨same, step⟩ := filled.firstColumn row in_rows
              obtain ⟨matched, trace, path⟩ :=
                ih (row + 0) (by omega) (Nat.le_of_succ_le in_rows) in_columns rfl
              rw [same]
              exact ⟨matched, .skipRow step trace, .skipRow path⟩
          | succ column =>
              obtain ⟨move, step, into, -⟩ := filled.inner row in_rows column in_columns
              generalize values (row + 1) (column + 1) = value at into
              cases into with
              | skipColumn =>
                  obtain ⟨matched, trace, path⟩ :=
                    ih (row + 1 + column) (by omega) in_rows (Nat.le_of_succ_le in_columns) rfl
                  exact ⟨matched, .skipColumn step trace, .skipColumn path⟩
              | skipRow =>
                  obtain ⟨matched, trace, path⟩ :=
                    ih (row + (column + 1)) (by omega) (Nat.le_of_succ_le in_rows) in_columns rfl
                  exact ⟨matched, .skipRow step trace, .skipRow path⟩
              | matchNext enough =>
                  obtain ⟨matched, trace, path⟩ := ih (row + column) (by omega)
                    (Nat.le_of_succ_le in_rows) (Nat.le_of_succ_le in_columns) rfl
                  exact ⟨_, .matchNext step trace, .matchNext path enough⟩
              | matchRepeat enough =>
                  obtain ⟨matched, trace, path⟩ :=
                    ih (row + (column + 1)) (by omega) (Nat.le_of_succ_le in_rows) in_columns rfl
                  exact ⟨_, .matchRepeat step trace, .matchRepeat path enough⟩

section Always

variable (filled : Filled scoring rows columns values steps)
  (enough : ∀ row < rows, ∀ column < columns,
    scoring.floor ≤ scoring.score row column ∧ 0 ≤ scoring.score row column)
  (priced : 0 < scoring.penalty)

include filled enough in
/-- A repeated match never makes a column worse. -/
theorem repeat_le {row column : Nat} (in_rows : row < rows) (in_columns : column < columns) :
    values row (column + 1) + scoring.score row column ≤ values (row + 1) (column + 1) := by
  obtain ⟨-, -, -, best⟩ := filled.inner row in_rows column in_columns
  exact best _ _ (.matchRepeat (enough row in_rows column in_columns).1)

variable [IsStrictOrderedRing R]

include filled priced in
/-- Skipped rows alone make the first column worse and worse. -/
theorem firstColumn_le {row : Nat} (in_rows : row < rows) :
    values (row + 1) 0 ≤ -scoring.penalty := by
  induction row with
  | zero =>
      rw [(filled.firstColumn 0 in_rows).1, filled.origin]
      linarith
  | succ row ih =>
      have before := ih (by omega)
      rw [(filled.firstColumn (row + 1) in_rows).1]
      linarith

include filled enough in
theorem secondColumn_ge {row : Nat} (in_rows : row < rows) (some_column : 0 < columns) :
    0 ≤ values (row + 1) 1 := by
  induction row with
  | zero =>
      obtain ⟨-, -, -, best⟩ := filled.inner 0 in_rows 0 some_column
      have first := best _ _ (.matchNext (enough 0 in_rows 0 some_column).1)
      rw [filled.origin] at first
      have := (enough 0 in_rows 0 some_column).2
      linarith
  | succ row ih =>
      have before := ih (by omega)
      have := filled.repeat_le enough in_rows some_column
      have := (enough (row + 1) in_rows 0 some_column).2
      linarith

include filled enough priced in
/-- Where every match reaches the floor and earns something, the moves back from any cell behind
the first column match every row. -/
theorem trace_rows {row column : Nat} {matched : List (Nat × Nat)}
    (trace : Trace steps row column matched) (in_rows : row ≤ rows) (in_columns : column ≤ columns)
    (behind : row = 0 ∨ 0 < column) : matched.map Prod.fst = List.range row := by
  induction trace with
  | origin => rfl
  | @skipColumn row column _ step trace ih =>
      refine ih in_rows (Nat.le_of_succ_le in_columns) ?_
      cases row with
      | zero => exact Or.inl rfl
      | succ row =>
          right
          by_contra first
          have zero : column = 0 := by omega
          subst zero
          obtain ⟨move, stored, into, -⟩ := filled.inner row in_rows 0 in_columns
          rw [step] at stored
          cases stored
          -- skipping every row and then the column is worth less than matching the last row
          have below := filled.firstColumn_le priced in_rows
          have above := filled.secondColumn_ge enough in_rows in_columns
          generalize values (row + 1) 1 = value at into above
          cases into
          linarith
  | @skipRow row column _ step trace ih =>
      cases column with
      | zero => exact absurd behind (by omega)
      | succ column =>
          obtain ⟨move, stored, into, -⟩ := filled.inner row in_rows column in_columns
          rw [step] at stored
          cases stored
          have better := filled.repeat_le enough in_rows in_columns
          have score := (enough row in_rows column in_columns).2
          generalize values (row + 1) (column + 1) = value at into better
          cases into
          linarith
  | @matchNext row column _ step trace ih =>
      have before : row = 0 ∨ 0 < column := by
        cases row with
        | zero => exact Or.inl rfl
        | succ row =>
            right
            by_contra first
            have zero : column = 0 := by omega
            subst zero
            obtain ⟨move, stored, into, -⟩ := filled.inner (row + 1) in_rows 0 in_columns
            rw [step] at stored
            cases stored
            have below := filled.firstColumn_le priced (Nat.lt_of_succ_lt in_rows)
            have above := filled.secondColumn_ge enough (Nat.lt_of_succ_lt in_rows) in_columns
            have better := filled.repeat_le enough in_rows in_columns
            generalize values (row + 1 + 1) (0 + 1) = value at into better
            cases into
            rw [zero_add] at better
            linarith
      rw [List.map_append, ih (Nat.le_of_succ_le in_rows) (Nat.le_of_succ_le in_columns) before,
        List.map_singleton, List.range_succ]
  | @matchRepeat row column _ step trace ih =>
      rw [List.map_append, ih (Nat.le_of_succ_le in_rows) in_columns (Or.inr (Nat.succ_pos _)),
        List.map_singleton, List.range_succ]

end Always

end Filled

end Cinegraph.Library.Alignment
