import Cinegraph.Library.Lines

/-!
Texts made of blocks of lines with blank lines between them: how the blocks are cut out
of a joined text again, whatever white space surrounds it.
-/

namespace Cinegraph.Library

/-- `"\n".join(lines)` -/
def joinLines : List (List Char) → List Char
  | [] => []
  | [line] => line
  | line :: next :: lines => line ++ '\n' :: joinLines (next :: lines)

/-- The text behind the last newline of the white space that a text begins with. -/
def afterBlank : List Char → Option (List Char)
  | [] => none
  | c :: text =>
      if Text.isSpace c then
        match afterBlank text with
        | some rest => some rest
        | none => if c = '\n' then some text else none
      else none

theorem length_afterBlank {text rest : List Char} (found : afterBlank text = some rest) :
    rest.length < text.length := by
  induction text with
  | nil => cases found
  | cons c text ih =>
      rw [afterBlank] at found
      split at found
      · split at found
        · rename_i shorter
          cases found
          have := ih shorter
          rw [List.length_cons]
          omega
        · split at found
          · cases found
            exact Nat.lt_succ_self _
          · cases found
      · cases found

/-- The text behind a separator `\r?\n\s*\r?\n` at the start of a text. -/
def afterSeparator : List Char → Option (List Char)
  | '\r' :: '\n' :: rest => afterBlank rest
  | '\n' :: rest => afterBlank rest
  | _ => none

theorem length_afterSeparator {text rest : List Char} (found : afterSeparator text = some rest) :
    rest.length < text.length := by
  unfold afterSeparator at found
  split at found
  · have := length_afterBlank found
    simp only [List.length_cons]
    omega
  · have := length_afterBlank found
    simp only [List.length_cons]
    omega
  · cases found

/-- `re.split(r"\r?\n\s*\r?\n", text)` behind the reversed beginning of a block. -/
def splitBlocksFrom (block text : List Char) : List (List Char) :=
  match text with
  | [] => [block.reverse]
  | c :: rest =>
      match _found : afterSeparator (c :: rest) with
      | some later => block.reverse :: splitBlocksFrom [] later
      | none => splitBlocksFrom (c :: block) rest
  termination_by text.length
  decreasing_by
    · exact length_afterSeparator _found
    · exact Nat.lt_succ_self _

def splitBlocks (text : List Char) : List (List Char) := splitBlocksFrom [] text

/-- The lines of each block of a text. Every reader of a line strips it first. -/
def cueBlocks (text : List Char) : List (List (List Char)) :=
  ((splitBlocks (Text.stripChars text)).filter isFilled).map fun block =>
    (splitLines block).map Text.stripChars

section Groups

variable {α β : Type} (filled : α → Bool)

/-- The runs of filled lines, behind the beginning of a run. -/
def groupsFrom (group : List α) : List α → List (List α)
  | [] => if group.isEmpty then [] else [group]
  | line :: lines =>
      if filled line then groupsFrom (group ++ [line]) lines
      else if group.isEmpty then groupsFrom [] lines
      else group :: groupsFrom [] lines

def groups (lines : List α) : List (List α) := groupsFrom filled [] lines

theorem groupsFrom_filled {group : List α} {line : α} (lines : List α)
    (full : filled line = true) :
    groupsFrom filled group (line :: lines) = groupsFrom filled (group ++ [line]) lines := by
  rw [groupsFrom, if_pos full]

theorem groupsFrom_blank {group : List α} {line : α} (lines : List α)
    (blank : filled line = false) :
    groupsFrom filled group (line :: lines) =
      (if group.isEmpty then [] else [group]) ++ groupsFrom filled [] lines := by
  rw [groupsFrom, if_neg (by simp [blank])]
  cases group <;> rfl

theorem groupsFrom_map (f : α → β) (test : β → Bool) (group : List α) {lines : List α}
    (same : ∀ a ∈ lines, test (f a) = filled a) :
    groupsFrom test (group.map f) (lines.map f) = (groupsFrom filled group lines).map (·.map f) := by
  induction lines generalizing group with
  | nil => cases group <;> rfl
  | cons line lines ih =>
      have tail := fun a member => same a (List.mem_cons_of_mem _ member)
      have next := ih (group ++ [line]) tail
      have fresh := ih [] tail
      rw [List.map_append, List.map_singleton] at next
      rw [List.map_nil] at fresh
      rw [List.map_cons, groupsFrom, groupsFrom, same line List.mem_cons_self, next, fresh]
      cases filled line <;> cases group <;> rfl

variable {filled}

/-- The runs hold the filled lines in their order. -/
theorem flatten_groupsFrom (group lines : List α) :
    (groupsFrom filled group lines).flatten = group ++ lines.filter filled := by
  induction lines generalizing group with
  | nil => cases group <;> simp [groupsFrom]
  | cons line lines ih =>
      rw [groupsFrom, List.filter_cons]
      cases filled line <;> cases group <;> simp [ih]

/-- Filled lines behind a run extend it. -/
theorem groupsFrom_append {group block : List α} (rest : List α)
    (all : ∀ line ∈ block, filled line = true) :
    groupsFrom filled group (block ++ rest) = groupsFrom filled (group ++ block) rest := by
  induction block generalizing group with
  | nil => rw [List.nil_append, List.append_nil]
  | cons line block ih =>
      rw [List.cons_append, groupsFrom, if_pos (all line List.mem_cons_self),
        ih fun l member => all l (List.mem_cons_of_mem _ member), List.append_assoc,
        List.singleton_append]

end Groups

section Split

/-- A line on its own: none of its characters ends one. -/
def Unbreaking (line : List Char) : Prop := ∀ c ∈ line, isLineBreak c = false

theorem Unbreaking.ne {line : List Char} (inside : Unbreaking line) {c d : Char} (member : c ∈ line)
    (ends : isLineBreak d = true) : c ≠ d := by
  rintro rfl
  rw [inside c member] at ends
  cases ends

theorem joinLines_cons (line : List Char) {lines : List (List Char)} (more : lines ≠ []) :
    joinLines (line :: lines) = line ++ '\n' :: joinLines lines := by
  cases lines with
  | nil => exact absurd rfl more
  | cons next lines => rfl

theorem joinLines_concat {lines : List (List Char)} (line : List Char) (more : lines ≠ []) :
    joinLines (lines ++ [line]) = joinLines lines ++ '\n' :: line := by
  induction lines with
  | nil => exact absurd rfl more
  | cons first lines ih =>
      cases lines with
      | nil => rfl
      | cons next lines =>
          have deeper := ih (List.cons_ne_nil next lines)
          change first ++ '\n' :: joinLines (next :: lines ++ [line]) =
            (first ++ '\n' :: joinLines (next :: lines)) ++ '\n' :: line
          rw [deeper, List.append_assoc, List.cons_append]

theorem afterSeparator_char {c : Char} (rest : List Char) (inside : isLineBreak c = false) :
    afterSeparator (c :: rest) = none := by
  unfold afterSeparator
  split
  · rename_i same
    injection same with same
    subst same
    exact absurd inside (by decide)
  · rename_i same
    injection same with same
    subst same
    exact absurd inside (by decide)
  · rfl

theorem splitBlocksFrom_char {c : Char} (block rest : List Char) (inside : isLineBreak c = false) :
    splitBlocksFrom block (c :: rest) = splitBlocksFrom (c :: block) rest := by
  rw [splitBlocksFrom]
  split
  · rename_i found
    rw [afterSeparator_char rest inside] at found
    cases found
  · rfl

theorem splitBlocksFrom_line {line : List Char} (inside : Unbreaking line)
    (block rest : List Char) :
    splitBlocksFrom block (line ++ rest) = splitBlocksFrom (line.reverse ++ block) rest := by
  induction line generalizing block with
  | nil => rfl
  | cons c line ih =>
      rw [List.cons_append, splitBlocksFrom_char _ _ (inside c List.mem_cons_self),
        ih fun d member => inside d (List.mem_cons_of_mem _ member)]
      simp

theorem splitBlocksFrom_newline (block rest : List Char) :
    splitBlocksFrom block ('\n' :: rest) =
      match afterBlank rest with
      | some later => block.reverse :: splitBlocksFrom [] later
      | none => splitBlocksFrom ('\n' :: block) rest := by
  have separator : afterSeparator ('\n' :: rest) = afterBlank rest := by
    rw [afterSeparator]
  rw [splitBlocksFrom]
  split
  · rename_i found
    rw [separator] at found
    rw [found]
  · rename_i found
    rw [separator] at found
    rw [found]

theorem isFilled_cons (c : Char) (line : List Char) :
    isFilled (c :: line) = (!Text.isSpace c || isFilled line) := List.any_cons

theorem afterBlank_filled {line : List Char} (inside : Unbreaking line)
    (filled : isFilled line = true) (rest : List Char) : afterBlank (line ++ rest) = none := by
  induction line with
  | nil => cases filled
  | cons c line ih =>
      rw [isFilled_cons] at filled
      rw [List.cons_append, afterBlank]
      cases space : Text.isSpace c with
      | false => rfl
      | true =>
          rw [space, Bool.not_true, Bool.false_or] at filled
          have newline : c ≠ '\n' := inside.ne List.mem_cons_self (by decide)
          rw [if_pos rfl, ih (fun d member => inside d (List.mem_cons_of_mem _ member)) filled,
            if_neg newline]

theorem afterBlank_newline (rest : List Char) :
    afterBlank ('\n' :: rest) = some ((afterBlank rest).getD rest) := by
  rw [afterBlank, if_pos (by decide)]
  cases afterBlank rest <;> rfl

theorem afterBlank_blank {line : List Char} (blank : isFilled line = false) (rest : List Char) :
    afterBlank (line ++ '\n' :: rest) = some ((afterBlank rest).getD rest) := by
  induction line with
  | nil => exact afterBlank_newline rest
  | cons c line ih =>
      rw [isFilled_cons, Bool.or_eq_false_iff, Bool.not_eq_false'] at blank
      rw [List.cons_append, afterBlank, if_pos blank.1, ih blank.2]

/-- Behind a blank line the text goes on at the next filled one. -/
theorem afterBlank_joinLines {lines : List (List Char)} (some_filled : ∃ l ∈ lines, isFilled l = true)
    (clean : ∀ l ∈ lines, Unbreaking l) :
    (afterBlank (joinLines lines)).getD (joinLines lines) =
      joinLines (lines.dropWhile fun l => !isFilled l) ∧
    ((∀ l ∈ lines.head?, isFilled l = false) → afterBlank (joinLines lines) =
      some (joinLines (lines.dropWhile fun l => !isFilled l))) := by
  induction lines with
  | nil =>
      obtain ⟨l, member, -⟩ := some_filled
      cases member
  | cons line lines ih =>
      cases filled : isFilled line with
      | true =>
          have none_here : afterBlank (joinLines (line :: lines)) = none := by
            cases lines with
            | nil =>
                have here := afterBlank_filled (clean line List.mem_cons_self) filled []
                rwa [List.append_nil] at here
            | cons next lines => exact afterBlank_filled (clean line List.mem_cons_self) filled _
          constructor
          · rw [none_here, List.dropWhile_cons_of_neg (by simp [filled])]
            rfl
          · intro blank
            rw [blank line rfl] at filled
            cases filled
      | false =>
          have more : ∃ l ∈ lines, isFilled l = true := by
            obtain ⟨l, member, full⟩ := some_filled
            rcases List.mem_cons.mp member with rfl | member
            · rw [filled] at full
              cases full
            · exact ⟨l, member, full⟩
          have nonempty : lines ≠ [] := by
            rintro rfl
            obtain ⟨l, member, -⟩ := more
            cases member
          have next := (ih more fun l member => clean l (List.mem_cons_of_mem _ member)).1
          have here : afterBlank (joinLines (line :: lines)) =
              some (joinLines (lines.dropWhile fun l => !isFilled l)) := by
            rw [joinLines_cons _ nonempty, afterBlank_blank filled, next]
          rw [List.dropWhile_cons_of_pos (by simp [filled]), here]
          exact ⟨rfl, fun _ => rfl⟩

/-- The beginning of a block is the text of the lines it has so far. -/
def Begun (block : List Char) (group : List (List Char)) : Prop :=
  (block = [] ∧ group = []) ∨ (group ≠ [] ∧ block.reverse = joinLines group ++ ['\n'])

theorem Begun.line {block : List Char} {group : List (List Char)} (begun : Begun block group)
    (line : List Char) : (line.reverse ++ block).reverse = joinLines (group ++ [line]) := by
  rw [List.reverse_append, List.reverse_reverse]
  rcases begun with ⟨rfl, rfl⟩ | ⟨more, shape⟩
  · rfl
  · rw [shape, joinLines_concat _ more, List.append_assoc, List.singleton_append]

theorem Begun.newline {block : List Char} {group : List (List Char)} (begun : Begun block group)
    (line : List Char) : Begun ('\n' :: (line.reverse ++ block)) (group ++ [line]) :=
  Or.inr ⟨by simp, by rw [List.reverse_cons, begun.line line]⟩

theorem groupsFrom_dropWhile {lines : List (List Char)} :
    groupsFrom isFilled [] (lines.dropWhile fun l => !isFilled l) = groupsFrom isFilled [] lines := by
  induction lines with
  | nil => rfl
  | cons line lines ih =>
      cases filled : isFilled line with
      | true => rw [List.dropWhile_cons_of_neg (by simp [filled])]
      | false =>
          rw [List.dropWhile_cons_of_pos (by simp [filled]), ih, groupsFrom, filled]
          rfl

/-- Behind the blank lines in front, the first line and the last one are filled. -/
theorem dropWhile_ends {lines : List (List Char)}
    (last : ∃ l ∈ lines.getLast?, isFilled l = true) :
    (∃ l ∈ (lines.dropWhile fun l => !isFilled l).head?, isFilled l = true) ∧
      ∃ l ∈ (lines.dropWhile fun l => !isFilled l).getLast?, isFilled l = true := by
  obtain ⟨l, member, filled⟩ := last
  have split := List.takeWhile_append_dropWhile (p := fun l => !isFilled l) (l := lines)
  cases rest : lines.dropWhile fun l => !isFilled l with
  | nil =>
      have all := List.dropWhile_eq_nil_iff.mp rest l (List.mem_of_getLast? member)
      rw [filled] at all
      cases all
  | cons first more =>
      have head := List.head_dropWhile_not (l := lines) (fun l => !isFilled l) (by simp [rest])
      simp only [rest, List.head_cons, Bool.not_eq_false'] at head
      refine ⟨⟨first, rfl, head⟩, l, ?_, filled⟩
      rw [rest] at split
      rw [← split, List.getLast?_append] at member
      cases found : (first :: more).getLast? with
      | none => simp at found
      | some k =>
          rw [found] at member
          exact member

/-- Between two filled lines a joined text is cut into its groups. -/
theorem splitBlocksFrom_joinLines {lines block} (clean : ∀ l ∈ lines, Unbreaking l)
    (first : ∃ l ∈ lines.head?, isFilled l = true) (last : ∃ l ∈ lines.getLast?, isFilled l = true)
    {group : List (List Char)} (begun : Begun block group) :
    splitBlocksFrom block (joinLines lines) = (groupsFrom isFilled group lines).map joinLines := by
  -- a blank line may skip several, so the induction is on the number of lines
  induction h : lines.length using Nat.strong_induction_on generalizing lines block group with
  | _ n ih =>
      cases lines with
      | nil =>
          obtain ⟨l, member, -⟩ := first
          cases member
      | cons line lines =>
          obtain ⟨l, member, filled⟩ := first
          cases member
          have inside := clean line List.mem_cons_self
          rw [List.length_cons] at h
          cases lines with
          | nil =>
              have walked := splitBlocksFrom_line inside block []
              rw [List.append_nil] at walked
              rw [joinLines, walked, splitBlocksFrom, begun.line, groupsFrom, if_pos filled,
                groupsFrom, if_neg (by simp)]
              rfl
          | cons next lines =>
              rw [List.getLast?_cons_cons] at last
              have others (l : List Char) (member : l ∈ next :: lines) : Unbreaking l :=
                clean l (List.mem_cons_of_mem _ member)
              have some_filled : ∃ l ∈ next :: lines, isFilled l = true := by
                obtain ⟨l, member, full⟩ := last
                exact ⟨l, List.mem_of_getLast? member, full⟩
              rw [joinLines, splitBlocksFrom_line inside, splitBlocksFrom_newline, groupsFrom,
                if_pos filled]
              cases nextFilled : isFilled next with
              | true =>
                  have none_here : afterBlank (joinLines (next :: lines)) = none := by
                    cases lines with
                    | nil =>
                        have here := afterBlank_filled (others next List.mem_cons_self) nextFilled []
                        rwa [List.append_nil] at here
                    | cons => exact afterBlank_filled (others next List.mem_cons_self) nextFilled _
                  rw [none_here]
                  exact ih (next :: lines).length (by omega) others ⟨next, rfl, nextFilled⟩ last
                    (begun.newline line) rfl
              | false =>
                  have skipped := (afterBlank_joinLines some_filled others).2 (by
                    rintro l ⟨⟩
                    exact nextFilled)
                  have shorter := List.length_dropWhile_le (fun l => !isFilled l) (next :: lines)
                  obtain ⟨headFilled, lastFilled⟩ := dropWhile_ends last
                  have rest : (next :: lines).dropWhile (fun l => !isFilled l) =
                      lines.dropWhile fun l => !isFilled l :=
                    List.dropWhile_cons_of_pos (by simp [nextFilled])
                  have cut : splitBlocksFrom [] (joinLines
                      ((next :: lines).dropWhile fun l => !isFilled l)) =
                      (groupsFrom isFilled [] ((next :: lines).dropWhile fun l =>
                        !isFilled l)).map joinLines :=
                    ih _ (by omega) (fun l member => others l
                      ((List.dropWhile_suffix _).subset member)) headFilled lastFilled
                      (Or.inl ⟨rfl, rfl⟩) rfl
                  rw [skipped, begun.line, groupsFrom, if_neg (by simp [nextFilled]),
                    if_neg (by simp), List.map_cons]
                  change _ :: splitBlocksFrom [] _ = _
                  rw [cut, rest, groupsFrom_dropWhile]

end Split

section Strip

theorem isFilled_append (a b : List Char) : isFilled (a ++ b) = (isFilled a || isFilled b) :=
  List.any_append

theorem isFilled_dropWhile (line : List Char) :
    isFilled (line.dropWhile Text.isSpace) = isFilled line := by
  induction line with
  | nil => rfl
  | cons c line ih =>
      rw [isFilled_cons]
      cases space : Text.isSpace c with
      | true => rw [List.dropWhile_cons_of_pos space, ih]; rfl
      | false =>
          rw [List.dropWhile_cons_of_neg (by simp [space]), isFilled_cons, space]

theorem isFilled_reverse (line : List Char) : isFilled line.reverse = isFilled line := by
  rw [isFilled, isFilled, List.any_reverse]

theorem isFilled_rdropWhile (line : List Char) :
    isFilled (line.rdropWhile Text.isSpace) = isFilled line := by
  rw [List.rdropWhile, isFilled_reverse, isFilled_dropWhile, isFilled_reverse]

theorem isFilled_stripChars (line : List Char) :
    isFilled (Text.stripChars line) = isFilled line := by
  rw [Text.stripChars, isFilled_rdropWhile, isFilled_dropWhile]

theorem dropWhile_eq_nil {line : List Char} :
    line.dropWhile Text.isSpace = [] ↔ isFilled line = false := by
  rw [List.dropWhile_eq_nil_iff, isFilled, List.any_eq_false]
  simp

theorem rdropWhile_eq_nil {line : List Char} :
    line.rdropWhile Text.isSpace = [] ↔ isFilled line = false := by
  rw [List.rdropWhile, List.reverse_eq_nil_iff, dropWhile_eq_nil, isFilled_reverse]

theorem rdropWhile_append (a b : List Char) :
    (a ++ b).rdropWhile Text.isSpace =
      if isFilled b then a ++ b.rdropWhile Text.isSpace else a.rdropWhile Text.isSpace := by
  rw [List.rdropWhile, List.reverse_append, List.dropWhile_append]
  cases filled : isFilled b with
  | true =>
      have more : (b.reverse.dropWhile Text.isSpace).isEmpty = false := by
        rw [List.isEmpty_eq_false_iff, ne_eq, dropWhile_eq_nil, isFilled_reverse, filled]
        exact Bool.noConfusion
      rw [if_neg (by simp [more]), List.reverse_append, List.reverse_reverse, if_pos rfl,
        List.rdropWhile]
  | false =>
      have none_left : (b.reverse.dropWhile Text.isSpace).isEmpty = true := by
        rw [List.isEmpty_iff, dropWhile_eq_nil, isFilled_reverse, filled]
      rw [if_pos none_left, if_neg Bool.noConfusion, List.rdropWhile]

theorem stripChars_blank {line : List Char} (blank : isFilled line = false) :
    Text.stripChars line = [] := by
  rw [Text.stripChars, dropWhile_eq_nil.mpr blank]
  rfl

theorem stripChars_dropWhile (line : List Char) :
    Text.stripChars (line.dropWhile Text.isSpace) = Text.stripChars line := by
  rw [Text.stripChars, Text.stripChars, List.dropWhile_idempotent]

theorem rdropWhile_cons {c : Char} (line : List Char) (solid : Text.isSpace c = false) :
    (c :: line).rdropWhile Text.isSpace = c :: line.rdropWhile Text.isSpace := by
  rw [← List.singleton_append, rdropWhile_append]
  cases filled : isFilled line with
  | true => rfl
  | false =>
      rw [if_neg Bool.noConfusion, rdropWhile_eq_nil.mpr filled]
      simp [List.rdropWhile, solid]

theorem dropWhile_rdropWhile (line : List Char) :
    (line.rdropWhile Text.isSpace).dropWhile Text.isSpace =
      (line.dropWhile Text.isSpace).rdropWhile Text.isSpace := by
  induction line with
  | nil => rfl
  | cons c line ih =>
      cases space : Text.isSpace c with
      | true =>
          rw [List.dropWhile_cons_of_pos space, ← List.singleton_append, rdropWhile_append]
          cases filled : isFilled line with
          | true => rw [if_pos rfl, List.singleton_append, List.dropWhile_cons_of_pos space, ih]
          | false =>
              rw [if_neg Bool.noConfusion, dropWhile_eq_nil.mpr filled]
              simp [List.rdropWhile, space]
      | false =>
          rw [List.dropWhile_cons_of_neg (by simp [space]), rdropWhile_cons line space,
            List.dropWhile_cons_of_neg (by simp [space])]

theorem stripChars_cons {c : Char} (line : List Char) (solid : Text.isSpace c = false) :
    Text.stripChars (c :: line) = c :: line.rdropWhile Text.isSpace := by
  rw [Text.stripChars, List.dropWhile_cons_of_neg (by simp [solid]), rdropWhile_cons line solid]

theorem length_stripChars_le (text : List Char) : (Text.stripChars text).length ≤ text.length := by
  have back := (List.rdropWhile_prefix Text.isSpace (text.dropWhile Text.isSpace)).length_le
  have front := (List.dropWhile_suffix (l := text) Text.isSpace).length_le
  rw [Text.stripChars]
  omega

theorem stripChars_rdropWhile (line : List Char) :
    Text.stripChars (line.rdropWhile Text.isSpace) = Text.stripChars line := by
  rw [Text.stripChars, Text.stripChars, dropWhile_rdropWhile, List.rdropWhile_idempotent]

theorem stripChars_stripChars (line : List Char) :
    Text.stripChars (Text.stripChars line) = Text.stripChars line := by
  conv_lhs => rw [Text.stripChars.eq_def line]
  rw [stripChars_rdropWhile, stripChars_dropWhile]

theorem dropWhile_eq_self {line : List Char} :
    line.dropWhile Text.isSpace = line ↔ ∀ c ∈ line.head?, Text.isSpace c = false := by
  cases line with
  | nil => simp
  | cons c line =>
      rw [List.dropWhile_eq_self_iff]
      simp

/-- A text is stripped when it neither begins nor ends with white space. -/
theorem stripChars_eq_self {line : List Char} :
    Text.stripChars line = line ↔ (∀ c ∈ line.head?, Text.isSpace c = false) ∧
      ∀ c ∈ line.getLast?, Text.isSpace c = false := by
  have back : line.rdropWhile Text.isSpace = line ↔ ∀ c ∈ line.getLast?, Text.isSpace c = false := by
    rw [List.rdropWhile, List.reverse_eq_iff, dropWhile_eq_self, List.head?_reverse]
  rw [← dropWhile_eq_self, ← back]
  constructor
  · intro same
    have front : line.dropWhile Text.isSpace = line := by
      have shorter : (Text.stripChars line).length ≤ (line.dropWhile Text.isSpace).length :=
        (List.rdropWhile_prefix _ _).length_le
      rw [same] at shorter
      exact (List.dropWhile_suffix _).eq_of_length_le shorter
    rw [Text.stripChars, front] at same
    exact ⟨front, same⟩
  · rintro ⟨front, back⟩
    rw [Text.stripChars, front, back]

theorem stripChars_subset {text : List Char} {c : Char} (member : c ∈ Text.stripChars text) :
    c ∈ text := by
  have inside := (List.rdropWhile_prefix _ _).subset member
  exact (List.dropWhile_suffix _).subset inside

theorem isFilled_of_stripped {line : List Char} (stripped : Text.stripChars line = line)
    (some_char : line ≠ []) : isFilled line = true := by
  rw [← Bool.not_eq_false]
  intro blank
  rw [stripChars_blank blank] at stripped
  exact some_char stripped.symm

/-- Two lists of lines that are the same groups of stripped lines. -/
def SameGroups (lines others : List (List Char)) : Prop :=
  ∀ group, groupsFrom isFilled group (lines.map Text.stripChars) =
    groupsFrom isFilled group (others.map Text.stripChars)

/-- White space in front of a text goes with its first lines. -/
theorem dropWhile_joinLines {lines : List (List Char)} (clean : ∀ l ∈ lines, Unbreaking l) :
    ∃ rest, (joinLines lines).dropWhile Text.isSpace = joinLines rest ∧
      (∀ l ∈ rest, Unbreaking l) ∧
      groups isFilled (rest.map Text.stripChars) = groups isFilled (lines.map Text.stripChars) ∧
      (rest = [] ∨ ∃ l ∈ rest.head?, isFilled l = true) := by
  induction lines with
  | nil => exact ⟨[], rfl, nofun, rfl, Or.inl rfl⟩
  | cons line lines ih =>
      have later (l : List Char) (member : l ∈ lines) : Unbreaking l :=
        clean l (List.mem_cons_of_mem _ member)
      cases filled : isFilled line with
      | true =>
          have head : ∃ c more, line.dropWhile Text.isSpace = c :: more := by
            refine List.exists_cons_of_ne_nil fun empty => ?_
            rw [dropWhile_eq_nil, filled] at empty
            cases empty
          have dropped (more : List Char) : (line ++ more).dropWhile Text.isSpace =
              line.dropWhile Text.isSpace ++ more := by
            rw [List.dropWhile_append, if_neg]
            obtain ⟨c, more, shape⟩ := head
            simp [shape]
          refine ⟨line.dropWhile Text.isSpace :: lines, ?_, ?_, ?_, Or.inr ⟨_, rfl, ?_⟩⟩
          · cases lines with
            | nil => rfl
            | cons next lines => exact dropped _
          · intro l member
            rcases List.mem_cons.mp member with rfl | member
            · exact fun c inside => clean line List.mem_cons_self c
                ((List.dropWhile_suffix _).subset inside)
            · exact later l member
          · rw [List.map_cons, List.map_cons, stripChars_dropWhile]
          · rw [isFilled_dropWhile, filled]
      | false =>
          obtain ⟨rest, cut, unbreaking, same, head⟩ := ih later
          refine ⟨rest, ?_, unbreaking, ?_, head⟩
          · rw [← cut]
            cases lines with
            | nil => exact dropWhile_eq_nil.mpr filled
            | cons next lines =>
                rw [joinLines, List.dropWhile_append, dropWhile_eq_nil.mpr filled,
                  if_pos List.isEmpty_nil, List.dropWhile_cons_of_pos (by decide)]
          · rw [same, List.map_cons, stripChars_blank filled]
            rfl

/-- White space behind a text goes with its last lines. -/
theorem rdropWhile_joinLines {lines : List (List Char)} (clean : ∀ l ∈ lines, Unbreaking l) :
    ∃ rest, (joinLines lines).rdropWhile Text.isSpace = joinLines rest ∧
      (∀ l ∈ rest, Unbreaking l) ∧ SameGroups rest lines ∧
      (rest = [] ∨ ∃ l ∈ rest.getLast?, isFilled l = true) ∧
      ((∃ l ∈ lines.head?, isFilled l = true) → ∃ l ∈ rest.head?, isFilled l = true) ∧
      (rest = [] ↔ isFilled (joinLines lines) = false) := by
  induction lines with
  | nil => exact ⟨[], rfl, nofun, fun _ => rfl, Or.inl rfl, id, by simp [joinLines, isFilled]⟩
  | cons line lines ih =>
      have later (l : List Char) (member : l ∈ lines) : Unbreaking l :=
        clean l (List.mem_cons_of_mem _ member)
      obtain ⟨rest, cut, unbreaking, same, last, -, empty⟩ := ih later
      have own : Unbreaking (line.rdropWhile Text.isSpace) := fun c inside =>
        clean line List.mem_cons_self c ((List.rdropWhile_prefix _ _).subset inside)
      have joined : isFilled (joinLines (line :: lines)) =
          (isFilled line || isFilled (joinLines lines)) := by
        cases lines with
        | nil => simp [joinLines, isFilled]
        | cons next lines => rw [joinLines, isFilled_append, isFilled_cons]; rfl
      have trimmed : (joinLines (line :: lines)).rdropWhile Text.isSpace =
          if isFilled (joinLines lines) then
            line ++ '\n' :: (joinLines lines).rdropWhile Text.isSpace
          else line.rdropWhile Text.isSpace := by
        cases lines with
        | nil => rfl
        | cons next lines =>
            rw [joinLines, rdropWhile_append, isFilled_cons]
            cases filled : isFilled (joinLines (next :: lines)) with
            | false => rfl
            | true =>
                have newline : ('\n' :: joinLines (next :: lines)).rdropWhile Text.isSpace =
                    '\n' :: (joinLines (next :: lines)).rdropWhile Text.isSpace := by
                  rw [← List.singleton_append, rdropWhile_append, if_pos filled,
                    List.singleton_append]
                rw [newline]
                rfl
      rw [joined, trimmed]
      cases rest with
      | nil =>
          have blank := empty.mp rfl
          rw [blank, if_neg Bool.noConfusion, Bool.or_false]
          cases filled : isFilled line with
          | true =>
              refine ⟨[line.rdropWhile Text.isSpace], rfl, ?_, ?_, Or.inr ⟨_, rfl, ?_⟩,
                fun _ => ⟨_, rfl, ?_⟩, by simp⟩
              · intro l member
                rw [List.mem_singleton.mp member]
                exact own
              · intro group
                have after := same (group ++ [Text.stripChars line])
                have full : isFilled (Text.stripChars line) = true := by
                  rw [isFilled_stripChars, filled]
                rw [List.map_singleton, stripChars_rdropWhile, List.map_cons,
                  groupsFrom_filled _ _ full, groupsFrom_filled _ _ full, ← after]
                rfl
              · exact (isFilled_rdropWhile line).trans filled
              · exact (isFilled_rdropWhile line).trans filled
          | false =>
              refine ⟨[], rdropWhile_eq_nil.mpr filled, nofun, ?_, Or.inl rfl, ?_, by simp⟩
              · intro group
                have after := same []
                rw [List.map_cons, groupsFrom, isFilled_stripChars, filled, if_neg Bool.noConfusion,
                  ← after]
                cases group <;> rfl
              · rintro ⟨l, ⟨⟩, full⟩
                rw [filled] at full
                cases full
      | cons first rest =>
          have full : isFilled (joinLines lines) = true := by
            cases filled : isFilled (joinLines lines) with
            | true => rfl
            | false => cases empty.mpr filled
          rw [full, if_pos rfl, Bool.or_true, cut]
          refine ⟨line :: first :: rest, rfl, ?_, ?_, ?_, fun head => head, by simp⟩
          · intro l member
            rcases List.mem_cons.mp member with rfl | member
            · exact clean l List.mem_cons_self
            · exact unbreaking l member
          · intro group
            rw [List.map_cons, List.map_cons (l := lines), groupsFrom, groupsFrom, same, same]
          · right
            rw [List.getLast?_cons_cons]
            exact last.resolve_left (by simp)

theorem splitLinesFrom_end {text : List Char} (inside : Unbreaking text) (line : List Char)
    (more : line ≠ [] ∨ text ≠ []) : splitLinesFrom line text = [line.reverse ++ text] := by
  induction text generalizing line with
  | nil =>
      cases line with
      | nil => simp at more
      | cons c line =>
          rw [splitLinesFrom, List.append_nil]
  | cons c text ih =>
      rw [splitLinesFrom_char _ _ (inside c List.mem_cons_self),
        ih (fun d member => inside d (List.mem_cons_of_mem _ member)) _ (Or.inl (by simp))]
      simp

/-- The lines of a joined text whose last line is not empty. -/
theorem splitLines_joinLines {lines : List (List Char)} (clean : ∀ l ∈ lines, Unbreaking l)
    (last : ∀ l ∈ lines.getLast?, l ≠ []) : splitLines (joinLines lines) = lines := by
  induction lines with
  | nil => rfl
  | cons line lines ih =>
      cases lines with
      | nil =>
          have ended := splitLinesFrom_end (clean line List.mem_cons_self) []
            (Or.inr (last line rfl))
          rwa [List.reverse_nil, List.nil_append] at ended
      | cons next lines =>
          rw [List.getLast?_cons_cons] at last
          have rest := ih (fun l member => clean l (List.mem_cons_of_mem _ member)) last
          rw [joinLines, splitLines, splitLinesFrom_append _ _ _ (clean line List.mem_cons_self)]
          rw [splitLines] at rest
          rw [rest]
          rfl

theorem mem_flush {α : Type} {filled : α → Bool} {group lines run : List α}
    (all : ∀ line ∈ group, filled line = true)
    (inside : run ∈ if group.isEmpty then [] else [group]) :
    run ≠ [] ∧ ∀ line ∈ run, (line ∈ group ∨ line ∈ lines) ∧ filled line = true := by
  cases group with
  | nil => cases inside
  | cons first rest =>
      rw [List.mem_singleton.mp inside]
      exact ⟨List.cons_ne_nil first rest, fun line own => ⟨Or.inl own, all line own⟩⟩

/-- The runs of filled lines hold lines of the list, filled ones and at least one each. -/
theorem mem_groupsFrom {α : Type} {filled : α → Bool} {group lines run : List α}
    (all : ∀ line ∈ group, filled line = true) (member : run ∈ groupsFrom filled group lines) :
    run ≠ [] ∧ ∀ line ∈ run, (line ∈ group ∨ line ∈ lines) ∧ filled line = true := by
  induction lines generalizing group with
  | nil => exact mem_flush all member
  | cons line lines ih =>
      cases full : filled line with
      | true =>
          rw [groupsFrom_filled _ _ full] at member
          have longer : ∀ l ∈ group ++ [line], filled l = true := by
            intro l inside
            rcases List.mem_append.mp inside with inside | inside
            · exact all l inside
            · rw [List.mem_singleton.mp inside, full]
          obtain ⟨nonempty, each⟩ := ih longer member
          refine ⟨nonempty, fun l inside => ?_⟩
          obtain ⟨source, good⟩ := each l inside
          simp only [List.mem_append, List.mem_singleton] at source
          exact ⟨by simp only [List.mem_cons]; tauto, good⟩
      | false =>
          rw [groupsFrom_blank _ _ full, List.mem_append] at member
          rcases member with now | later
          · exact mem_flush all now
          · obtain ⟨nonempty, each⟩ := ih (by simp) later
            refine ⟨nonempty, fun l inside => ?_⟩
            obtain ⟨source, good⟩ := each l inside
            exact ⟨Or.inr (List.mem_cons_of_mem _ (source.resolve_left (by simp))), good⟩

theorem isFilled_joinLines {lines : List (List Char)} {line : List Char} (member : line ∈ lines)
    (filled : isFilled line = true) : isFilled (joinLines lines) = true := by
  induction lines with
  | nil => cases member
  | cons first lines ih =>
      cases lines with
      | nil =>
          rw [List.mem_singleton] at member
          rw [joinLines, ← member, filled]
      | cons next lines =>
          rw [joinLines, isFilled_append, isFilled_cons, Bool.or_eq_true, Bool.or_eq_true]
          rcases List.mem_cons.mp member with rfl | member
          · exact Or.inl filled
          · exact Or.inr (Or.inr (ih member))

/-- The blocks of a joined text are the runs of filled lines, with every line stripped. -/
theorem cueBlocks_joinLines {lines : List (List Char)} (clean : ∀ l ∈ lines, Unbreaking l) :
    cueBlocks (joinLines lines) = groups isFilled (lines.map Text.stripChars) := by
  obtain ⟨front, frontCut, frontClean, frontSame, frontHead⟩ := dropWhile_joinLines clean
  obtain ⟨rest, cut, unbreaking, same, last, head, empty⟩ := rdropWhile_joinLines frontClean
  have stripped : Text.stripChars (joinLines lines) = joinLines rest := by
    rw [Text.stripChars, frontCut, cut]
  have grouped : groups isFilled (rest.map Text.stripChars) =
      groups isFilled (lines.map Text.stripChars) := (same []).trans frontSame
  rw [cueBlocks, stripped, ← grouped]
  cases rest with
  | nil =>
      rw [joinLines, splitBlocks, splitBlocksFrom]
      rfl
  | cons first more =>
      have headFilled : ∃ l ∈ (first :: more).head?, isFilled l = true := by
        rcases frontHead with rfl | filled
        · cases empty.mpr rfl
        · exact head filled
      have split := splitBlocksFrom_joinLines unbreaking headFilled (last.resolve_left (by simp))
        (Or.inl ⟨rfl, rfl⟩)
      have mapped : groupsFrom isFilled ([].map Text.stripChars)
          ((first :: more).map Text.stripChars) =
          (groupsFrom isFilled [] (first :: more)).map (·.map Text.stripChars) :=
        groupsFrom_map isFilled Text.stripChars isFilled [] fun l _ => isFilled_stripChars l
      rw [splitBlocks, split, groups, ← List.map_nil, mapped]
      have each : ∀ run ∈ groupsFrom isFilled [] (first :: more), isFilled (joinLines run) = true ∧
          splitLines (joinLines run) = run := by
        intro run member
        obtain ⟨nonempty, lines⟩ := mem_groupsFrom nofun member
        have source (l : List Char) (inside : l ∈ run) : Unbreaking l :=
          unbreaking l ((lines l inside).1.resolve_left nofun)
        obtain ⟨l, inside⟩ := List.exists_mem_of_ne_nil run nonempty
        refine ⟨isFilled_joinLines inside (lines l inside).2, splitLines_joinLines source ?_⟩
        rintro l ended rfl
        exact absurd (lines [] (List.mem_of_getLast? ended)).2 (by decide)
      rw [List.filter_eq_self.mpr, List.map_map]
      · apply List.map_congr_left
        intro run member
        rw [Function.comp_apply, (each run member).2]
      · intro block member
        obtain ⟨run, inside, rfl⟩ := List.mem_map.mp member
        exact (each run inside).1

theorem stripChars_append_blank (text : List Char) {blank : List Char}
    (white : isFilled blank = false) : Text.stripChars (text ++ blank) = Text.stripChars text := by
  rw [← stripChars_rdropWhile, rdropWhile_append, white, if_neg Bool.noConfusion,
    stripChars_rdropWhile]

theorem joinLines_append {lines others : List (List Char)} (some_line : lines ≠ [])
    (other : others ≠ []) :
    joinLines (lines ++ others) = joinLines lines ++ '\n' :: joinLines others := by
  induction lines with
  | nil => exact absurd rfl some_line
  | cons line lines ih =>
      cases lines with
      | nil => exact joinLines_cons line other
      | cons next lines =>
          rw [List.cons_append, joinLines_cons line (by simp), ih (by simp), joinLines, List.append_assoc,
            List.cons_append]

/-- Blocks joined with a blank line between them are one list of lines. -/
theorem joinLines_intercalate {blocks : List (List (List Char))} (filled : ∀ block ∈ blocks, block ≠ []) :
    ['\n', '\n'].intercalate (blocks.map joinLines) = joinLines ([[]].intercalate blocks) := by
  induction blocks with
  | nil => rfl
  | cons block blocks ih =>
      have rest := ih fun b member => filled b (List.mem_cons_of_mem _ member)
      have here := filled block List.mem_cons_self
      cases blocks with
      | nil => simp
      | cons next blocks =>
          have more : [[]].intercalate (next :: blocks) ≠ [] := by
            have := filled next (by simp)
            cases blocks <;> simp [this]
          have cut : [[]].intercalate (block :: next :: blocks) =
              block ++ ([[]] ++ [[]].intercalate (next :: blocks)) := rfl
          have joined : ['\n', '\n'].intercalate ((block :: next :: blocks).map joinLines) =
              joinLines block ++ ('\n' :: '\n' ::
                ['\n', '\n'].intercalate ((next :: blocks).map joinLines)) := rfl
          rw [cut, joined, rest, joinLines_append here (by simp), joinLines_append (by simp) more]
          rfl

theorem groups_intercalate {α : Type} {filled : α → Bool} {blank : α} {blocks : List (List α)}
    (white : filled blank = false)
    (each : ∀ block ∈ blocks, block ≠ [] ∧ ∀ line ∈ block, filled line = true) :
    groups filled ([blank].intercalate blocks) = blocks := by
  induction blocks with
  | nil => rfl
  | cons block blocks ih =>
      obtain ⟨some_line, all⟩ := each block List.mem_cons_self
      have rest := ih fun b member => each b (List.mem_cons_of_mem _ member)
      have nonempty : block.isEmpty = false := List.isEmpty_eq_false_iff.mpr some_line
      cases blocks with
      | nil =>
          have one : groupsFrom filled [] (block ++ []) = groupsFrom filled ([] ++ block) [] :=
            groupsFrom_append [] all
          rw [List.append_nil, List.nil_append] at one
          rw [List.intercalate_singleton, groups, one, groupsFrom, nonempty]
          rfl
      | cons next blocks =>
          have cut : [blank].intercalate (block :: next :: blocks) =
              block ++ blank :: [blank].intercalate (next :: blocks) := rfl
          rw [cut, groups, groupsFrom_append _ all, groupsFrom_blank _ _ white, List.nil_append,
            nonempty]
          rw [groups] at rest
          rw [rest]
          rfl

theorem mem_intercalate {α : Type} {a blank : α} {blocks : List (List α)}
    (member : a ∈ [blank].intercalate blocks) : a = blank ∨ ∃ block ∈ blocks, a ∈ block := by
  induction blocks with
  | nil => cases member
  | cons block blocks ih =>
      cases blocks with
      | nil =>
          rw [List.intercalate_singleton] at member
          exact Or.inr ⟨block, List.mem_cons_self, member⟩
      | cons next blocks =>
          have cut : [blank].intercalate (block :: next :: blocks) =
              block ++ blank :: [blank].intercalate (next :: blocks) := rfl
          rw [cut, List.mem_append, List.mem_cons] at member
          rcases member with own | rfl | later
          · exact Or.inr ⟨block, List.mem_cons_self, own⟩
          · exact Or.inl rfl
          · rcases ih later with same | ⟨b, inside, own⟩
            · exact Or.inl same
            · exact Or.inr ⟨b, List.mem_cons_of_mem _ inside, own⟩

theorem unbreaking_splitLinesFrom {line text : List Char} (before : Unbreaking line) :
    ∀ l ∈ splitLinesFrom line text, Unbreaking l := by
  have whole {line : List Char} (before : Unbreaking line) : Unbreaking line.reverse :=
    fun c member => before c (List.mem_reverse.mp member)
  fun_induction splitLinesFrom line text with
  | case1 => exact fun l member => absurd member List.not_mem_nil
  | case2 c line =>
      rintro l member
      rw [List.mem_singleton.mp member]
      exact whole before
  | case3 line rest ih =>
      rw [List.forall_mem_cons]
      exact ⟨whole before, ih fun c member => absurd member List.not_mem_nil⟩
  | case4 line c rest pair ends ih =>
      rw [List.forall_mem_cons]
      exact ⟨whole before, ih fun c member => absurd member List.not_mem_nil⟩
  | case5 line c rest pair inside ih =>
      apply ih
      intro d member
      rcases List.mem_cons.mp member with rfl | member
      · simpa using inside
      · exact before d member

/-- The lines of a block are stripped and in one piece. -/
theorem cueBlocks_line {text line : List Char} {block : List (List Char)}
    (inside : block ∈ cueBlocks text) (member : line ∈ block) :
    Text.stripChars line = line ∧ Unbreaking line := by
  obtain ⟨whole, -, rfl⟩ := List.mem_map.mp inside
  obtain ⟨raw, own, rfl⟩ := List.mem_map.mp member
  refine ⟨stripChars_stripChars raw, fun c here => ?_⟩
  have empty : Unbreaking [] := fun c member => absurd member List.not_mem_nil
  exact unbreaking_splitLinesFrom empty raw own c (stripChars_subset here)

/-- Blocks of stripped lines come back from their text. -/
theorem cueBlocks_intercalate {blocks : List (List (List Char))} {blank : List Char}
    (white : isFilled blank = false)
    (each : ∀ block ∈ blocks, block ≠ [] ∧ ∀ line ∈ block,
      isFilled line = true ∧ Text.stripChars line = line ∧ Unbreaking line) :
    cueBlocks (['\n', '\n'].intercalate (blocks.map joinLines) ++ blank) = blocks := by
  have clean : ∀ line ∈ [[]].intercalate blocks, Unbreaking line := by
    intro line member
    rcases mem_intercalate member with rfl | ⟨block, inside, own⟩
    · exact nofun
    · exact ((each block inside).2 line own).2.2
  have stripped : ([[]].intercalate blocks).map Text.stripChars = [[]].intercalate blocks := by
    rw [List.map_congr_left (g := id), List.map_id]
    intro line member
    rcases mem_intercalate member with rfl | ⟨block, inside, own⟩
    · rfl
    · exact ((each block inside).2 line own).2.1
  have stripSame : cueBlocks (['\n', '\n'].intercalate (blocks.map joinLines) ++ blank) =
      cueBlocks (['\n', '\n'].intercalate (blocks.map joinLines)) := by
    rw [cueBlocks, stripChars_append_blank _ white, cueBlocks]
  rw [stripSame, joinLines_intercalate fun block member => (each block member).1,
    cueBlocks_joinLines clean, stripped]
  exact groups_intercalate rfl fun block member =>
    ⟨(each block member).1, fun line own => ((each block member).2 line own).1⟩

end Strip

/-! ### The filled lines of a text -/

section Filled

theorem splitLinesFrom_carriage {c : Char} (line rest : List Char) (other : c ≠ '\n') :
    splitLinesFrom line ('\r' :: c :: rest) = line.reverse :: splitLinesFrom [] (c :: rest) := by
  rw [splitLinesFrom.eq_def]
  split
  · simp_all
  · simp_all
  · simp_all
  · rename_i same
    cases same
    exact if_pos (by decide)

/-- A text before a newline and the text behind it are cut into lines apart. -/
theorem filledLines_append (text rest : List Char) :
    filledLines (text ++ '\n' :: rest) = filledLines text ++ filledLines rest := by
  have apart (line : List Char) :
      (splitLinesFrom line (text ++ '\n' :: rest)).filter isFilled =
        (splitLinesFrom line text).filter isFilled ++ filledLines rest := by
    fun_induction splitLinesFrom line text with
    | case1 =>
        rw [List.nil_append, splitLinesFrom_newline]
        rfl
    | case2 c line =>
        rw [List.nil_append, splitLinesFrom_newline, ← List.singleton_append, List.filter_append]
        rfl
    | case3 line text ih =>
        rw [List.cons_append, List.cons_append, splitLinesFrom, ← List.singleton_append,
          List.filter_append, ih, ← List.append_assoc, ← List.filter_append, List.singleton_append]
    | case4 line c text single ends ih =>
        by_cases return_ : c = '\r'
        · subst return_
          cases text with
          | nil =>
              -- a carriage return at the end of the text joins the newline behind it
              rw [List.singleton_append, splitLinesFrom, splitLinesFrom, ← List.singleton_append,
                List.filter_append]
              rfl
          | cons d text =>
              have other : d ≠ '\n' := fun same => single text rfl (by rw [same])
              rw [List.cons_append, List.cons_append, splitLinesFrom_carriage line _ other,
                ← List.cons_append, ← List.singleton_append, List.filter_append, ih,
                ← List.append_assoc, ← List.filter_append, List.singleton_append]
        · rw [List.cons_append, splitLinesFrom_break line _ ends return_, ← List.singleton_append,
            List.filter_append, ih, ← List.append_assoc, ← List.filter_append, List.singleton_append]
    | case5 line c text single inside ih =>
        rw [List.cons_append, splitLinesFrom_char line _ (by simpa using inside), ih]
  exact apart []

theorem isSpace_of_isLineBreak {c : Char} (ends : isLineBreak c = true) :
    Text.isSpace c = true := by
  have inside : lineBreaks ⊆ Text.spaces := by decide
  rw [isLineBreak, List.contains_iff_mem] at ends
  rw [Text.isSpace, List.contains_iff_mem]
  exact inside ends

theorem isFilled_of_isLineBreak {c : Char} (text : List Char) (ends : isLineBreak c = true) :
    isFilled (c :: text) = isFilled text := by
  rw [isFilled_cons, isSpace_of_isLineBreak ends]
  rfl

theorem filledLines_eq_nil {text : List Char} : filledLines text = [] ↔ isFilled text = false := by
  have kept (line : List Char) :
      (splitLinesFrom line text).any isFilled = (isFilled line || isFilled text) := by
    fun_induction splitLinesFrom line text with
    | case1 => rfl
    | case2 c line => rw [List.any_cons, List.any_nil, isFilled_reverse]; rfl
    | case3 line text ih =>
        rw [List.any_cons, ih, isFilled_reverse, isFilled_of_isLineBreak _ (by decide),
          isFilled_of_isLineBreak _ isLineBreak_newline]
        rfl
    | case4 line c text single ends ih =>
        rw [List.any_cons, ih, isFilled_reverse, isFilled_of_isLineBreak _ ends]
        rfl
    | case5 line c text single inside ih =>
        rw [ih, isFilled_cons, isFilled_cons, ← Bool.or_assoc,
          Bool.or_comm (!Text.isSpace c) (isFilled line)]
  have whole := kept []
  rw [show isFilled [] = false from rfl, Bool.false_or] at whole
  rw [← whole, filledLines, List.filter_eq_nil_iff, splitLines, List.any_eq_false]

end Filled

end Cinegraph.Library
