import Cinegraph.Library.JsonText
import Cinegraph.Library.Text

/-!
The lines of a text as `str.splitlines` sees them, and which of its boundaries the
text of a JSON value can contain.
-/

namespace Cinegraph.Library

/-- The characters that end a line. -/
def lineBreaks : List Nat := [10, 11, 12, 13, 28, 29, 30, 133, 8232, 8233]

def isLineBreak (c : Char) : Bool := lineBreaks.contains c.toNat

/-- `str.splitlines()`, behind the reversed beginning of a line. -/
def splitLinesFrom : (line : List Char) → List Char → List (List Char)
  | [], [] => []
  | c :: line, [] => [(c :: line).reverse]
  | line, '\r' :: '\n' :: rest => line.reverse :: splitLinesFrom [] rest
  | line, c :: rest =>
      if isLineBreak c then line.reverse :: splitLinesFrom [] rest
      else splitLinesFrom (c :: line) rest

def splitLines (text : List Char) : List (List Char) := splitLinesFrom [] text

/-- `if line.strip()` -/
def isFilled (line : List Char) : Bool := line.any (fun c => !Text.isSpace c)

/-- The lines that are not blank. -/
def filledLines (text : List Char) : List (List Char) := (splitLines text).filter isFilled

section SplitLines

theorem isLineBreak_newline : isLineBreak '\n' = true := by decide

theorem splitLinesFrom_newline (line rest : List Char) :
    splitLinesFrom line ('\n' :: rest) = line.reverse :: splitLinesFrom [] rest := by
  rw [splitLinesFrom.eq_def]
  split
  · simp_all
  · simp_all
  · simp_all
  · rename_i c _ _ same
    cases same
    rw [if_pos isLineBreak_newline]

theorem splitLinesFrom_char {c : Char} (line rest : List Char) (inside : isLineBreak c = false) :
    splitLinesFrom line (c :: rest) = splitLinesFrom (c :: line) rest := by
  rw [splitLinesFrom.eq_def]
  split
  · simp_all
  · simp_all
  · rename_i same
    cases same
    exact absurd inside (by decide)
  · rename_i same
    cases same
    rw [if_neg (by simp [inside])]

theorem splitLinesFrom_break {c : Char} (line rest : List Char) (ends : isLineBreak c = true)
    (single : c ≠ '\r') :
    splitLinesFrom line (c :: rest) = line.reverse :: splitLinesFrom [] rest := by
  rw [splitLinesFrom.eq_def]
  split
  · simp_all
  · simp_all
  · rename_i same
    cases same
    exact absurd rfl single
  · rename_i same
    cases same
    rw [if_pos ends]

/-- A text without boundaries is one line. -/
theorem splitLinesFrom_append (line text rest : List Char)
    (inside : ∀ c ∈ text, isLineBreak c = false) :
    splitLinesFrom line (text ++ '\n' :: rest) =
      (line.reverse ++ text) :: splitLinesFrom [] rest := by
  induction text generalizing line with
  | nil => rw [List.nil_append, splitLinesFrom_newline, List.append_nil]
  | cons c text ih =>
      rw [List.cons_append, splitLinesFrom_char _ _ (inside c List.mem_cons_self),
        ih _ fun d member => inside d (List.mem_cons_of_mem _ member)]
      simp

theorem filledLines_cons {text : List Char} (rest : List Char)
    (inside : ∀ c ∈ text, isLineBreak c = false) (filled : isFilled text = true) :
    filledLines (text ++ '\n' :: rest) = text :: filledLines rest := by
  rw [filledLines, splitLines, splitLinesFrom_append _ _ _ inside]
  simp [filled, filledLines, splitLines]

/-- Wherever a text is broken, what is not blank in it fills a line. -/
theorem length_filledLines_from (line text rest : List Char) :
    (filledLines rest).length + (if isFilled (line.reverse ++ text) then 1 else 0) ≤
      ((splitLinesFrom line (text ++ '\n' :: rest)).filter isFilled).length := by
  induction h : text.length using Nat.strong_induction_on generalizing line text with
  | _ n ih =>
      have count (l : List Char) (more : List (List Char)) :
          ((l :: more).filter isFilled).length =
            (if isFilled l then 1 else 0) + (more.filter isFilled).length := by
        rw [List.filter_cons]
        split <;> simp [Nat.add_comm]
      have filled_append (a b : List Char) : isFilled (a ++ b) = (isFilled a || isFilled b) :=
        List.any_append
      cases text with
      | nil =>
          rw [List.nil_append, splitLinesFrom_newline, count, List.append_nil]
          simp only [filledLines, splitLines]
          omega
      | cons c text =>
          rw [List.length_cons] at h
          by_cases ends : isLineBreak c = true
          · have broken : isFilled [c] = false := by
              have space : Text.isSpace c = true := by
                simp only [isLineBreak, lineBreaks, Text.isSpace, Text.spaces,
                  List.contains_eq_mem, List.mem_cons, List.not_mem_nil, or_false,
                  decide_eq_true_eq] at ends ⊢
                omega
              simp [isFilled, space]
            have blank : isFilled (line.reverse ++ c :: text) =
                (isFilled line.reverse || isFilled text) := by
              rw [← List.singleton_append, filled_append, filled_append, broken, Bool.false_or]
            have tail (text : List Char) (shorter : text.length < n) :=
              ih text.length shorter [] text rfl
            simp only [List.reverse_nil, List.nil_append] at tail
            rw [blank]
            by_cases pair : c = '\r' ∧ ∃ more, text = '\n' :: more
            · obtain ⟨rfl, more, rfl⟩ := pair
              have step : splitLinesFrom line ('\r' :: '\n' :: more ++ '\n' :: rest) =
                  line.reverse :: splitLinesFrom [] (more ++ '\n' :: rest) := by
                rw [List.cons_append, List.cons_append, splitLinesFrom.eq_def]
                simp
              have shorter := tail more (by rw [List.length_cons] at h; omega)
              have blankMore : isFilled ('\n' :: more) = isFilled more := by
                rw [← List.singleton_append, filled_append]
                rfl
              rw [step, count, blankMore]
              cases isFilled line.reverse <;> cases hmore : isFilled more <;>
                simp only [hmore, Bool.or_true, Bool.or_false, Bool.false_eq_true, if_true, if_false]
                  at shorter ⊢ <;> omega
            · by_cases carriage : c = '\r' ∧ text = []
              · obtain ⟨rfl, rfl⟩ := carriage
                have step : splitLinesFrom line (['\r'] ++ '\n' :: rest) =
                    line.reverse :: splitLinesFrom [] rest := by
                  rw [List.singleton_append, splitLinesFrom.eq_def]
                  simp
                rw [step, count]
                simp only [filledLines, splitLines, show isFilled [] = false from rfl,
                  Bool.or_false]
                omega
              · have step : splitLinesFrom line (c :: text ++ '\n' :: rest) =
                    line.reverse :: splitLinesFrom [] (text ++ '\n' :: rest) := by
                  rw [List.cons_append, splitLinesFrom.eq_def]
                  split
                  · simp_all
                  · simp_all
                  · rename_i same
                    injection same with first second
                    cases text with
                    | nil => exact absurd ⟨first, rfl⟩ carriage
                    | cons d more =>
                        injection second with second _
                        exact absurd ⟨first, more, by rw [second]⟩ pair
                  · rename_i same
                    cases same
                    rw [if_pos ends]
                have shorter := tail text (by omega)
                rw [step, count]
                cases isFilled line.reverse <;> cases hmore : isFilled text <;>
                  simp only [hmore, Bool.or_true, Bool.or_false, Bool.false_eq_true, if_true,
                    if_false] at shorter ⊢ <;> omega
          · rw [Bool.not_eq_true] at ends
            rw [List.cons_append, splitLinesFrom_char _ _ ends]
            have shorter := ih text.length (by omega) (c :: line) text rfl
            rwa [List.reverse_cons, List.append_assoc, List.singleton_append] at shorter

/-- A boundary between two filled parts of a text makes two lines of it. -/
theorem length_filledLines_broken {before after : List Char} {b : Char} (rest : List Char)
    (inside : ∀ c ∈ before, isLineBreak c = false) (ends : isLineBreak b = true) (single : b ≠ '\r')
    (filled : isFilled before = true) (filledAfter : isFilled after = true) :
    (filledLines rest).length + 2 ≤
      (filledLines (before ++ b :: after ++ '\n' :: rest)).length := by
  have split : splitLines (before ++ b :: after ++ '\n' :: rest) =
      before :: splitLinesFrom [] (after ++ '\n' :: rest) := by
    have walk (line text : List Char) (inside : ∀ c ∈ text, isLineBreak c = false) (more : List Char) :
        splitLinesFrom line (text ++ more) = splitLinesFrom (text.reverse ++ line) more := by
      induction text generalizing line with
      | nil => rfl
      | cons c text ih =>
          rw [List.cons_append, splitLinesFrom_char _ _ (inside c List.mem_cons_self),
            ih _ fun d member => inside d (List.mem_cons_of_mem _ member)]
          simp
    rw [splitLines, List.append_assoc, walk [] before inside, List.cons_append,
      splitLinesFrom_break _ _ ends single]
    simp
  have tail := length_filledLines_from [] after rest
  rw [List.reverse_nil, List.nil_append, filledAfter, if_pos rfl] at tail
  have lines : filledLines (before ++ b :: after ++ '\n' :: rest) =
      before :: (splitLinesFrom [] (after ++ '\n' :: rest)).filter isFilled := by
    rw [filledLines, split, List.filter_cons, if_pos filled]
  rw [lines, List.length_cons]
  omega

end SplitLines

namespace Json

section Breaks

mutual

/-- The characters of all strings of a value, keys included. -/
def chars : Json → List Char
  | .str s => s.toList
  | .arr items => charsAll items
  | .obj items => charsFields items
  | _ => []

def charsAll : List Json → List Char
  | [] => []
  | a :: as => chars a ++ charsAll as

def charsFields : List (String × Json) → List Char
  | [] => []
  | (k, a) :: as => k.toList ++ (chars a ++ charsFields as)

end

/-- The line boundaries that the text of a string keeps: the others are escaped. -/
def isRawBreak (c : Char) : Bool := isLineBreak c && 32 ≤ c.toNat

theorem mem_escape {c d : Char} (ends : isLineBreak c = true) :
    c ∈ escape d ↔ c = d ∧ isRawBreak c = true := by
  have literal (text : List Char) (all : text.all (fun x => !isLineBreak x) = true) :
      c ∉ text := by
    intro member
    have := List.all_eq_true.mp all c member
    simp [ends] at this
  have hex (n : Nat) (small : n < 16) : isLineBreak (UUID.hexChar n) = false := by
    have all : ∀ n : Fin 16, isLineBreak (UUID.hexChar n) = false := by decide
    exact all ⟨n, small⟩
  have raw : isRawBreak c = decide (32 ≤ c.toNat) := by simp [isRawBreak, ends]
  rw [raw]
  unfold escape
  split
  · subst d
    exact iff_of_false (literal _ (by decide)) (by rintro ⟨rfl, -⟩; exact absurd ends (by decide))
  split
  · subst d
    exact iff_of_false (literal _ (by decide)) (by rintro ⟨rfl, -⟩; exact absurd ends (by decide))
  split
  · subst d
    exact iff_of_false (literal _ (by decide)) (by rintro ⟨rfl, big⟩; exact absurd big (by decide))
  split
  · subst d
    exact iff_of_false (literal _ (by decide)) (by rintro ⟨rfl, big⟩; exact absurd big (by decide))
  split
  · subst d
    exact iff_of_false (literal _ (by decide)) (by rintro ⟨rfl, big⟩; exact absurd big (by decide))
  split
  · exact iff_of_false (literal _ (by decide)) (by
      rintro ⟨rfl, big⟩
      simp only [decide_eq_true_eq] at big
      omega)
  split
  · exact iff_of_false (literal _ (by decide)) (by
      rintro ⟨rfl, big⟩
      simp only [decide_eq_true_eq] at big
      omega)
  split
  · rename_i control
    refine iff_of_false (literal _ ?_) (by
      rintro ⟨rfl, big⟩
      simp only [decide_eq_true_eq] at big
      omega)
    have high := hex (d.toNat / 16) (by omega)
    have low := hex (d.toNat % 16) (by omega)
    simp only [List.all_cons, List.all_nil, high, low, Bool.not_false, Bool.and_true]
    decide
  · rename_i big
    rw [List.mem_singleton]
    constructor
    · rintro rfl
      exact ⟨rfl, decide_eq_true (Nat.not_lt.mp big)⟩
    · exact fun h => h.1

theorem mem_quoted {c : Char} (ends : isLineBreak c = true) (s : String) :
    c ∈ quoted escape s ↔ c ∈ s.toList ∧ isRawBreak c = true := by
  have quote : c ≠ '"' := by
    rintro rfl
    exact absurd ends (by decide)
  simp only [quoted, List.mem_cons, quote, false_or, List.mem_append, List.mem_flatMap,
    List.not_mem_nil, or_false, mem_escape ends]
  constructor
  · rintro ⟨d, member, rfl, raw⟩
    exact ⟨member, raw⟩
  · rintro ⟨member, raw⟩
    exact ⟨c, member, rfl, raw⟩

theorem digits_no_break {text : List Char} (all : text.all isDigit = true) {c : Char}
    (ends : isLineBreak c = true) : c ∉ text := by
  intro member
  have digit := List.all_eq_true.mp all c member
  simp only [isDigit, Bool.and_eq_true, decide_eq_true_eq] at digit
  simp only [isLineBreak, lineBreaks, List.contains_eq_mem, List.mem_cons, List.not_mem_nil,
    or_false, decide_eq_true_eq] at ends
  omega

theorem dumpInt_no_break (n : Int) {c : Char} (ends : isLineBreak c = true) : c ∉ dumpInt n := by
  have minus : c ≠ '-' := by
    rintro rfl
    exact absurd ends (by decide)
  cases n with
  | ofNat n => exact digits_no_break (wholeDigits_decimal n).1 ends
  | negSucc n =>
      rw [dumpInt, List.mem_cons, not_or]
      exact ⟨minus, digits_no_break (wholeDigits_decimal _).1 ends⟩

theorem floatText_no_break (l : FloatLiteral) {c : Char} (ends : isLineBreak c = true) :
    c ∉ l.text := by
  have other (d : Char) (inside : isLineBreak d = false) : c ≠ d := by
    rintro rfl
    rw [ends] at inside
    cases inside
  have minus := other '-' (by decide)
  have plus := other '+' (by decide)
  have dot := other '.' (by decide)
  have exp := other 'e' (by decide)
  have sign : c ∉ (if l.negative = true then ['-'] else []) := by
    split <;> simp [minus]
  have fraction : c ∉ l.fraction := by
    rcases l.fraction_digits with none | ⟨d, rest, some, all⟩
    · simp [none]
    · rw [some, List.mem_cons, not_or]
      exact ⟨dot, digits_no_break all ends⟩
  have exponent : c ∉ l.exponent := by
    rcases l.exponent_digits with none | ⟨s, d, rest, some, signs, all⟩
    · simp [none]
    · rw [some, List.mem_cons, List.mem_append, not_or, not_or]
      refine ⟨exp, ?_, digits_no_break all ends⟩
      rcases signs with rfl | rfl | rfl <;> simp [plus, minus]
  simp only [FloatLiteral.text, List.mem_append, not_or]
  exact ⟨⟨⟨sign, digits_no_break l.whole_digits ends⟩, fraction⟩, exponent⟩

theorem mem_charsFields (items : List (String × Json)) (c : Char) :
    c ∈ charsFields items ↔ ∃ item ∈ items, c ∈ item.1.toList ∨ c ∈ chars item.2 := by
  induction items with
  | nil => simp [charsFields]
  | cons item items ih =>
      obtain ⟨k, a⟩ := item
      simp [charsFields, ih, or_assoc]

mutual

theorem mem_chars_sortKeys (c : Char) : ∀ a : Json, c ∈ chars a.sortKeys ↔ c ∈ chars a
  | .null | .bool _ | .int _ | .float _ | .str _ => by rw [sortKeys]
  | .arr items => by
      rw [sortKeys, chars, chars]
      exact mem_charsAll_sortAll c items
  | .obj items => by
      rw [sortKeys, chars, chars, mem_charsFields, ← mem_charsFields_sortFields c items,
        mem_charsFields]
      constructor
      · rintro ⟨item, member, inside⟩
        exact ⟨item, (sortItems_perm _).mem_iff.mp member, inside⟩
      · rintro ⟨item, member, inside⟩
        exact ⟨item, (sortItems_perm _).mem_iff.mpr member, inside⟩

theorem mem_charsAll_sortAll (c : Char) : ∀ as : List Json, c ∈ charsAll (sortAll as) ↔ c ∈ charsAll as
  | [] => by rw [sortAll]
  | a :: as => by
      rw [sortAll, charsAll, charsAll, List.mem_append, List.mem_append, mem_chars_sortKeys c a,
        mem_charsAll_sortAll c as]

theorem mem_charsFields_sortFields (c : Char) : ∀ as : List (String × Json),
    c ∈ charsFields (sortFields as) ↔ c ∈ charsFields as
  | [] => by rw [sortFields]
  | (k, a) :: as => by
      rw [sortFields, charsFields, charsFields, List.mem_append, List.mem_append, List.mem_append,
        List.mem_append, mem_chars_sortKeys c a, mem_charsFields_sortFields c as]

end

/-- None of the strings of a value holds a boundary that its text keeps. -/
def Unbroken (a : Json) : Prop := ∀ c ∈ chars a, isRawBreak c = false

theorem isRawBreak_iff (c : Char) :
    isRawBreak c = true ↔ c.toNat = 133 ∨ c.toNat = 8232 ∨ c.toNat = 8233 := by
  simp only [isRawBreak, isLineBreak, lineBreaks, Bool.and_eq_true, List.contains_eq_mem,
    List.mem_cons, List.not_mem_nil, or_false, decide_eq_true_eq]
  omega

instance (a : Json) : Decidable (Unbroken a) :=
  List.decidableBAll _ _

/-- A text without a boundary that its literal keeps. -/
def UnbrokenText (text : String) : Prop := ∀ c ∈ text.toList, isRawBreak c = false

instance (text : String) : Decidable (UnbrokenText text) :=
  List.decidableBAll _ _

/-- A literal unifies with the text of its characters, which are then checked one by one. -/
theorem unbrokenText_ofList {chars : List Char}
    (all : chars.all (fun c => !isRawBreak c) = true) : UnbrokenText (String.ofList chars) := by
  intro c member
  rw [String.toList_ofList] at member
  simpa using List.all_eq_true.mp all c member

theorem unbroken_str (text : String) : Unbroken (.str text) ↔ UnbrokenText text := by
  rw [Unbroken, chars, UnbrokenText]

theorem unbroken_arr (items : List Json) : Unbroken (.arr items) ↔ ∀ a ∈ items, Unbroken a := by
  have all : ∀ c, c ∈ charsAll items ↔ ∃ a ∈ items, c ∈ chars a := by
    intro c
    induction items with
    | nil => simp [charsAll]
    | cons a items ih => simp [charsAll, ih]
  rw [Unbroken, chars]
  constructor
  · exact fun whole a member c inside => whole c ((all c).mpr ⟨a, member, inside⟩)
  · intro each c inside
    obtain ⟨a, member, inside⟩ := (all c).mp inside
    exact each a member c inside

theorem unbroken_obj (items : List (String × Json)) :
    Unbroken (.obj items) ↔ ∀ item ∈ items, UnbrokenText item.1 ∧ Unbroken item.2 := by
  rw [Unbroken, chars]
  constructor
  · intro whole item member
    exact ⟨fun c inside => whole c ((mem_charsFields items c).mpr ⟨item, member, Or.inl inside⟩),
      fun c inside => whole c ((mem_charsFields items c).mpr ⟨item, member, Or.inr inside⟩)⟩
  · intro each c inside
    obtain ⟨item, member, inside | inside⟩ := (mem_charsFields items c).mp inside
    · exact (each item member).1 c inside
    · exact (each item member).2 c inside

theorem unbroken_atom {a : Json} (empty : chars a = []) : Unbroken a := by
  intro c inside
  rw [empty] at inside
  cases inside

/-- The first boundary of a text. -/
theorem exists_first_break {text : List Char} {b : Char} (member : b ∈ text)
    (ends : isLineBreak b = true) :
    ∃ before c after, text = before ++ c :: after ∧ isLineBreak c = true ∧
      ∀ d ∈ before, isLineBreak d = false := by
  induction text with
  | nil => cases member
  | cons d text ih =>
      cases first : isLineBreak d with
      | true => exact ⟨[], d, text, rfl, first, nofun⟩
      | false =>
          have later : b ∈ text := by
            rcases List.mem_cons.mp member with rfl | later
            · rw [ends] at first
              cases first
            · exact later
          obtain ⟨before, c, after, rfl, ends, inside⟩ := ih later
          refine ⟨d :: before, c, after, rfl, ends, ?_⟩
          simp only [List.mem_cons, forall_eq_or_imp]
          exact ⟨first, inside⟩

variable [Floats]

mutual

/-- A line boundary occurs in the text of a value when it is a raw one of its strings. -/
theorem mem_write : ∀ (a : Json), Plain a → ∀ {c : Char}, isLineBreak c = true →
    (c ∈ write .spaced a ↔ c ∈ chars a ∧ isRawBreak c = true)
  | .null, _, c, ends => by
      refine iff_of_false (fun member => ?_) (by simp [chars])
      have all : ("null".toList).all (fun x => !isLineBreak x) = true := by decide
      have := List.all_eq_true.mp all c (by simpa [write] using member)
      simp [ends] at this
  | .bool b, _, c, ends => by
      refine iff_of_false (fun member => ?_) (by simp [chars])
      have all : ("true".toList ++ "false".toList).all (fun x => !isLineBreak x) = true := by decide
      have := List.all_eq_true.mp all c (by
        rw [List.mem_append]
        cases b
        · exact Or.inr (by simpa [write] using member)
        · exact Or.inl (by simpa [write] using member))
      simp [ends] at this
  | .int n, _, c, ends => by
      rw [write]
      exact iff_of_false (dumpInt_no_break n ends) (by simp [chars])
  | .float (.finite q), plain, c, ends => by
      have float : Floats.isFloat q := plain
      obtain ⟨l, text⟩ := Floats.literal q float
      rw [write, dumpFloat, text]
      exact iff_of_false (floatText_no_break l ends) (by simp [chars])
  | .float (.infinity negative), _, c, ends => by
      refine iff_of_false (fun member => ?_) (by simp [chars])
      have all : ("-Infinity".toList ++ "Infinity".toList).all (fun x => !isLineBreak x) = true := by
        decide
      have := List.all_eq_true.mp all c (by
        rw [List.mem_append]
        rw [write, dumpFloat] at member
        cases negative
        · exact Or.inr member
        · exact Or.inl member)
      simp [ends] at this
  | .float .nan, _, c, ends => by
      refine iff_of_false (fun member => ?_) (by simp [chars])
      have all : ("NaN".toList).all (fun x => !isLineBreak x) = true := by decide
      have := List.all_eq_true.mp all c (by simpa [write, dumpFloat] using member)
      simp [ends] at this
  | .str s, _, c, ends => by
      rw [write, chars]
      exact mem_quoted ends s
  | .arr items, plain, c, ends => by
      rw [Plain] at plain
      have bracket : c ≠ '[' := by
        rintro rfl
        exact absurd ends (by decide)
      rw [write, chars, List.mem_cons, mem_writeAll items plain ends]
      simp [bracket]
  | .obj items, plain, c, ends => by
      rw [Plain] at plain
      have brace : c ≠ '{' := by
        rintro rfl
        exact absurd ends (by decide)
      rw [write, chars, List.mem_cons, mem_writeFields items plain.2 ends]
      simp [brace]

theorem mem_writeAll : ∀ (as : List Json), PlainAll as → ∀ {c : Char}, isLineBreak c = true →
    (c ∈ writeAll .spaced as ↔ c ∈ charsAll as ∧ isRawBreak c = true)
  | [], _, c, ends => by
      have bracket : c ≠ ']' := by
        rintro rfl
        exact absurd ends (by decide)
      simp [writeAll, charsAll, bracket]
  | [a], plain, c, ends => by
      rw [PlainAll] at plain
      have bracket : c ≠ ']' := by
        rintro rfl
        exact absurd ends (by decide)
      simp [writeAll, charsAll, bracket, mem_write a plain.1 ends]
  | a :: b :: as, plain, c, ends => by
      rw [PlainAll] at plain
      have comma : c ≠ ',' ∧ c ≠ ' ' := by
        constructor <;> (rintro rfl; exact absurd ends (by decide))
      have more := mem_writeAll (b :: as) plain.2 ends
      rw [writeAll, charsAll]
      simp only [Layout.gap_spaced, List.mem_append, List.mem_cons, List.not_mem_nil, or_false, comma,
        false_or, mem_write a plain.1 ends, more]
      tauto

theorem mem_writeFields : ∀ (as : List (String × Json)), PlainFields as → ∀ {c : Char},
    isLineBreak c = true → (c ∈ writeFields .spaced as ↔ c ∈ charsFields as ∧ isRawBreak c = true)
  | [], _, c, ends => by
      have brace : c ≠ '}' := by
        rintro rfl
        exact absurd ends (by decide)
      simp [writeFields, charsFields, brace]
  | [(k, a)], plain, c, ends => by
      rw [PlainFields] at plain
      have marks : c ≠ '}' ∧ c ≠ ':' ∧ c ≠ ' ' := by
        refine ⟨?_, ?_, ?_⟩ <;> (rintro rfl; exact absurd ends (by decide))
      simp only [writeFields, charsFields, Layout.gap_spaced, Layout.escape_spaced, List.mem_append,
        List.mem_cons, marks, false_or, mem_quoted ends, mem_write a plain.1 ends, List.not_mem_nil,
        or_false]
      tauto
  | (k, a) :: b :: as, plain, c, ends => by
      rw [PlainFields] at plain
      have marks : c ≠ ',' ∧ c ≠ ':' ∧ c ≠ ' ' := by
        refine ⟨?_, ?_, ?_⟩ <;> (rintro rfl; exact absurd ends (by decide))
      have more := mem_writeFields (b :: as) plain.2 ends
      rw [writeFields, charsFields]
      simp only [Layout.gap_spaced, Layout.escape_spaced, List.mem_append, List.mem_cons, marks,
        false_or, List.not_mem_nil, or_false, mem_quoted ends, mem_write a plain.1 ends, more]
      tauto

end

theorem mem_dumps {a : Json} (plain : Plain a) {c : Char} (ends : isLineBreak c = true) :
    c ∈ dumps a ↔ c ∈ chars a ∧ isRawBreak c = true := by
  rw [dumps, mem_write _ (plain_sortKeys a plain) ends, mem_chars_sortKeys]

theorem isLineBreak_of_mem_dumps {a : Json} (plain : Plain a) (unbroken : Unbroken a) :
    ∀ c ∈ dumps a, isLineBreak c = false := by
  intro c member
  cases ends : isLineBreak c with
  | false => rfl
  | true =>
      obtain ⟨inside, raw⟩ := (mem_dumps plain ends).mp member
      rw [unbroken c inside] at raw
      cases raw

/-- The text of a value holds a boundary exactly when one of its strings keeps one. -/
theorem unbrokenText_dumps {a : Json} (plain : Plain a) :
    UnbrokenText (String.ofList (dumps a)) ↔ Unbroken a := by
  rw [UnbrokenText, String.toList_ofList]
  constructor
  · intro text c inside
    cases raw : isRawBreak c with
    | false => rfl
    | true =>
        have ends : isLineBreak c = true := by
          rw [isRawBreak, Bool.and_eq_true] at raw
          exact raw.1
        rw [← raw]
        exact text c ((mem_dumps plain ends).mpr ⟨inside, raw⟩)
  · intro unbroken c inside
    rw [isRawBreak, isLineBreak_of_mem_dumps plain unbroken c inside]
    rfl

end Breaks

section Records

/-! A file with one value a line. -/

def isObject : Json → Bool
  | .obj _ => true
  | _ => false

theorem exists_of_isObject {a : Json} (object : isObject a = true) : ∃ items, a = .obj items := by
  cases a with
  | obj items => exact ⟨items, rfl⟩
  | _ => cases object

variable [Floats]

/-- The text of an object opens and closes with a brace. -/
theorem dumps_obj (items : List (String × Json)) :
    ∃ middle, dumps (.obj items) = '{' :: (middle ++ ['}']) := by
  have close (fields : List (String × Json)) : ∃ middle, writeFields .spaced fields = middle ++ ['}'] := by
    induction fields with
    | nil => exact ⟨[], rfl⟩
    | cons item fields ih =>
        obtain ⟨k, a⟩ := item
        cases fields with
        | nil =>
            refine ⟨quoted escape k ++ ':' :: ' ' :: write .spaced a, ?_⟩
            rw [writeFields]
            simp
        | cons other fields =>
            obtain ⟨middle, shape⟩ := ih
            refine ⟨quoted escape k ++ ':' :: ' ' :: (write .spaced a ++ ',' :: ' ' :: middle), ?_⟩
            rw [writeFields, shape]
            simp
  obtain ⟨middle, shape⟩ := close (sortItems (sortFields items))
  exact ⟨middle, by rw [dumps, sortKeys, write, shape]⟩

theorem isFilled_dumps (items : List (String × Json)) : isFilled (dumps (.obj items)) = true := by
  obtain ⟨middle, shape⟩ := dumps_obj items
  rw [shape, isFilled, List.any_cons]
  simp [show Text.isSpace '{' = false by decide]

/-- One value a line. -/
def jsonLines (items : List Json) : List Char := items.flatMap fun item => dumps item ++ ['\n']

theorem jsonLines_cons (item : Json) (items : List Json) :
    jsonLines (item :: items) = dumps item ++ '\n' :: jsonLines items := by
  simp [jsonLines]

/-- Where no string holds a boundary, the lines are the texts of the values. -/
theorem filledLines_jsonLines (items : List Json)
    (all : ∀ a ∈ items, Plain a ∧ isObject a = true ∧ Unbroken a) :
    filledLines (jsonLines items) = items.map dumps := by
  induction items with
  | nil => rfl
  | cons a items ih =>
      obtain ⟨plain, object, unbroken⟩ := all a List.mem_cons_self
      obtain ⟨fields, rfl⟩ := exists_of_isObject object
      rw [jsonLines_cons, filledLines_cons _ (isLineBreak_of_mem_dumps plain unbroken)
        (isFilled_dumps fields), ih fun b member => all b (List.mem_cons_of_mem _ member),
        List.map_cons]

theorem length_filledLines_cons (item : Json) (object : isObject item = true) (rest : List Char) :
    (filledLines rest).length + 1 ≤ (filledLines (dumps item ++ '\n' :: rest)).length := by
  obtain ⟨fields, rfl⟩ := exists_of_isObject object
  have counted := length_filledLines_from [] (dumps (.obj fields)) rest
  rwa [List.reverse_nil, List.nil_append, isFilled_dumps, if_pos rfl] at counted

/-- A boundary in a string breaks its record into two lines at least. -/
theorem length_filledLines_cons_broken (item : Json) (plain : Plain item)
    (object : isObject item = true) (broken : ¬Unbroken item) (rest : List Char) :
    (filledLines rest).length + 2 ≤ (filledLines (dumps item ++ '\n' :: rest)).length := by
  obtain ⟨fields, rfl⟩ := exists_of_isObject object
  obtain ⟨b, member, raw⟩ : ∃ b ∈ chars (.obj fields), isRawBreak b = true := by
    simp only [Unbroken, not_forall, Bool.not_eq_false] at broken
    obtain ⟨b, member, raw⟩ := broken
    exact ⟨b, member, raw⟩
  have ends : isLineBreak b = true := by
    rw [isRawBreak, Bool.and_eq_true] at raw
    exact raw.1
  obtain ⟨before, c, after, shape, breaks, inside⟩ :=
    exists_first_break ((mem_dumps plain ends).mpr ⟨member, raw⟩) ends
  have written : c ∈ dumps (.obj fields) := by
    rw [shape]
    exact List.mem_append_right _ List.mem_cons_self
  have high : 32 ≤ c.toNat := by
    have raw := ((mem_dumps plain breaks).mp written).2
    rw [isRawBreak, Bool.and_eq_true] at raw
    exact of_decide_eq_true raw.2
  have single : c ≠ '\r' := by
    rintro rfl
    exact absurd high (by decide)
  obtain ⟨middle, braces⟩ := dumps_obj fields
  have filled : isFilled before = true := by
    cases before with
    | nil =>
        rw [List.nil_append, braces] at shape
        injection shape with first
        subst first
        exact absurd breaks (by decide)
    | cons d before =>
        rw [List.cons_append, braces] at shape
        injection shape with first
        subst first
        rw [isFilled, List.any_cons]
        simp [show Text.isSpace '{' = false by decide]
  have filledAfter : isFilled after = true := by
    rcases List.eq_nil_or_concat after with rfl | ⟨start, d, rfl⟩
    · have same : ('{' :: middle) ++ ['}'] = before ++ [c] := braces.symm.trans shape
      have last := List.append_inj_right' same rfl
      injection last with last
      subst last
      exact absurd breaks (by decide)
    · have same : ('{' :: middle) ++ ['}'] = (before ++ c :: start) ++ [d] := by
        rw [List.concat_eq_append] at shape
        rw [List.append_assoc]
        exact braces.symm.trans shape
      have last := List.append_inj_right' same rfl
      injection last with last
      subst last
      rw [List.concat_eq_append, isFilled, List.any_append]
      simp [show Text.isSpace '}' = false by decide]
  rw [shape]
  exact length_filledLines_broken rest inside breaks single filled filledAfter

/-- A file has a line for each record, and more where a string holds a boundary. -/
theorem length_filledLines_jsonLines (items : List Json)
    (all : ∀ a ∈ items, Plain a ∧ isObject a = true) :
    items.length ≤ (filledLines (jsonLines items)).length ∧
      ((filledLines (jsonLines items)).length = items.length → ∀ a ∈ items, Unbroken a) := by
  induction items with
  | nil => exact ⟨Nat.zero_le _, fun _ => nofun⟩
  | cons a items ih =>
      obtain ⟨plain, object⟩ := all a List.mem_cons_self
      obtain ⟨enough, exact_lines⟩ := ih fun b member => all b (List.mem_cons_of_mem _ member)
      have one := length_filledLines_cons a object (jsonLines items)
      rw [jsonLines_cons, List.length_cons]
      constructor
      · omega
      · intro same
        have rest := exact_lines (by omega)
        have first : Unbroken a := by
          by_contra broken
          have two := length_filledLines_cons_broken a plain object broken (jsonLines items)
          omega
        intro b member
        rcases List.mem_cons.mp member with rfl | member
        · exact first
        · exact rest b member

end Records

end Json

end Cinegraph.Library
