import Mathlib.Data.List.DropRight
import Mathlib.Data.List.Infix

/-!
Text primitives of the host language: whitespace trimming, full case folding
and substring tests. A text is a sequence of Unicode scalar values, so texts
with lone surrogates are outside this model. The case-folding data is the
table of Unicode 15.0.
-/

namespace Cinegraph.Library.Text

/-- The code points that `str.strip` and `str.split` treat as white space. -/
def spaces : List Nat :=
  [9, 10, 11, 12, 13, 28, 29, 30, 31, 32, 133, 160, 5760, 8192, 8193, 8194, 8195, 8196, 8197,
    8198, 8199, 8200, 8201, 8202, 8232, 8233, 8239, 8287, 12288]

def isSpace (c : Char) : Bool := spaces.contains c.toNat

/-- `str.strip()` on the underlying sequence. -/
def stripChars (text : List Char) : List Char :=
  (text.dropWhile isSpace).rdropWhile isSpace

def strip (text : String) : String := String.ofList (stripChars text.toList)

/-- Runs of code points with a one-character folding: first, last, step and
offset to the folded code point. -/
def foldRuns : List (Nat × Nat × Nat × Int) :=
  [(181, 181, 1, 775), (192, 214, 1, 32), (216, 222, 1, 32), (256, 302, 2, 1),
    (306, 310, 2, 1), (313, 327, 2, 1), (330, 374, 2, 1), (376, 376, 1, -121), (377, 381, 2, 1),
    (383, 383, 1, -268), (385, 385, 1, 210), (386, 388, 2, 1), (390, 390, 1, 206),
    (391, 391, 1, 1), (393, 394, 1, 205), (395, 395, 1, 1), (398, 398, 1, 79),
    (399, 399, 1, 202), (400, 400, 1, 203), (401, 401, 1, 1), (403, 403, 1, 205),
    (404, 404, 1, 207), (406, 406, 1, 211), (407, 407, 1, 209), (408, 408, 1, 1),
    (412, 412, 1, 211), (413, 413, 1, 213), (415, 415, 1, 214), (416, 420, 2, 1),
    (422, 422, 1, 218), (423, 423, 1, 1), (425, 425, 1, 218), (428, 428, 1, 1),
    (430, 430, 1, 218), (431, 431, 1, 1), (433, 434, 1, 217), (435, 437, 2, 1),
    (439, 439, 1, 219), (440, 440, 1, 1), (444, 444, 1, 1), (452, 452, 1, 2), (453, 453, 1, 1),
    (455, 455, 1, 2), (456, 456, 1, 1), (458, 458, 1, 2), (459, 475, 2, 1), (478, 494, 2, 1),
    (497, 497, 1, 2), (498, 500, 2, 1), (502, 502, 1, -97), (503, 503, 1, -56),
    (504, 542, 2, 1), (544, 544, 1, -130), (546, 562, 2, 1), (570, 570, 1, 10795),
    (571, 571, 1, 1), (573, 573, 1, -163), (574, 574, 1, 10792), (577, 577, 1, 1),
    (579, 579, 1, -195), (580, 580, 1, 69), (581, 581, 1, 71), (582, 590, 2, 1),
    (837, 837, 1, 116), (880, 882, 2, 1), (886, 886, 1, 1), (895, 895, 1, 116),
    (902, 902, 1, 38), (904, 906, 1, 37), (908, 908, 1, 64), (910, 911, 1, 63),
    (913, 929, 1, 32), (931, 939, 1, 32), (962, 962, 1, 1), (975, 975, 1, 8),
    (976, 976, 1, -30), (977, 977, 1, -25), (981, 981, 1, -15), (982, 982, 1, -22),
    (984, 1006, 2, 1), (1008, 1008, 1, -54), (1009, 1009, 1, -48), (1012, 1012, 1, -60),
    (1013, 1013, 1, -64), (1015, 1015, 1, 1), (1017, 1017, 1, -7), (1018, 1018, 1, 1),
    (1021, 1023, 1, -130), (1024, 1039, 1, 80), (1040, 1071, 1, 32), (1120, 1152, 2, 1),
    (1162, 1214, 2, 1), (1216, 1216, 1, 15), (1217, 1229, 2, 1), (1232, 1326, 2, 1),
    (1329, 1366, 1, 48), (4256, 4293, 1, 7264), (4295, 4295, 1, 7264), (4301, 4301, 1, 7264),
    (5112, 5117, 1, -8), (7296, 7296, 1, -6222), (7297, 7297, 1, -6221), (7298, 7298, 1, -6212),
    (7299, 7300, 1, -6210), (7301, 7301, 1, -6211), (7302, 7302, 1, -6204),
    (7303, 7303, 1, -6180), (7304, 7304, 1, 35267), (7312, 7354, 1, -3008),
    (7357, 7359, 1, -3008), (7680, 7828, 2, 1), (7835, 7835, 1, -58), (7840, 7934, 2, 1),
    (7944, 7951, 1, -8), (7960, 7965, 1, -8), (7976, 7983, 1, -8), (7992, 7999, 1, -8),
    (8008, 8013, 1, -8), (8025, 8031, 2, -8), (8040, 8047, 1, -8), (8120, 8121, 1, -8),
    (8122, 8123, 1, -74), (8126, 8126, 1, -7173), (8136, 8139, 1, -86), (8152, 8153, 1, -8),
    (8154, 8155, 1, -100), (8168, 8169, 1, -8), (8170, 8171, 1, -112), (8172, 8172, 1, -7),
    (8184, 8185, 1, -128), (8186, 8187, 1, -126), (8486, 8486, 1, -7517),
    (8490, 8490, 1, -8383), (8491, 8491, 1, -8262), (8498, 8498, 1, 28), (8544, 8559, 1, 16),
    (8579, 8579, 1, 1), (9398, 9423, 1, 26), (11264, 11311, 1, 48), (11360, 11360, 1, 1),
    (11362, 11362, 1, -10743), (11363, 11363, 1, -3814), (11364, 11364, 1, -10727),
    (11367, 11371, 2, 1), (11373, 11373, 1, -10780), (11374, 11374, 1, -10749),
    (11375, 11375, 1, -10783), (11376, 11376, 1, -10782), (11378, 11378, 1, 1),
    (11381, 11381, 1, 1), (11390, 11391, 1, -10815), (11392, 11490, 2, 1), (11499, 11501, 2, 1),
    (11506, 11506, 1, 1), (42560, 42604, 2, 1), (42624, 42650, 2, 1), (42786, 42798, 2, 1),
    (42802, 42862, 2, 1), (42873, 42875, 2, 1), (42877, 42877, 1, -35332), (42878, 42886, 2, 1),
    (42891, 42891, 1, 1), (42893, 42893, 1, -42280), (42896, 42898, 2, 1), (42902, 42920, 2, 1),
    (42922, 42922, 1, -42308), (42923, 42923, 1, -42319), (42924, 42924, 1, -42315),
    (42925, 42925, 1, -42305), (42926, 42926, 1, -42308), (42928, 42928, 1, -42258),
    (42929, 42929, 1, -42282), (42930, 42930, 1, -42261), (42931, 42931, 1, 928),
    (42932, 42946, 2, 1), (42948, 42948, 1, -48), (42949, 42949, 1, -42307),
    (42950, 42950, 1, -35384), (42951, 42953, 2, 1), (42960, 42960, 1, 1), (42966, 42968, 2, 1),
    (42997, 42997, 1, 1), (43888, 43967, 1, -38864), (65313, 65338, 1, 32),
    (66560, 66599, 1, 40), (66736, 66771, 1, 40), (66928, 66938, 1, 39), (66940, 66954, 1, 39),
    (66956, 66962, 1, 39), (66964, 66965, 1, 39), (68736, 68786, 1, 64), (71840, 71871, 1, 32),
    (93760, 93791, 1, 32), (125184, 125217, 1, 34)]

/-- Code points whose folding has several characters. -/
def foldExpansions : List (Nat × List Nat) :=
  [(223, [115, 115]), (304, [105, 775]), (329, [700, 110]), (496, [106, 780]),
    (912, [953, 776, 769]), (944, [965, 776, 769]), (1415, [1381, 1410]), (7830, [104, 817]),
    (7831, [116, 776]), (7832, [119, 778]), (7833, [121, 778]), (7834, [97, 702]),
    (7838, [115, 115]), (8016, [965, 787]), (8018, [965, 787, 768]), (8020, [965, 787, 769]),
    (8022, [965, 787, 834]), (8064, [7936, 953]), (8065, [7937, 953]), (8066, [7938, 953]),
    (8067, [7939, 953]), (8068, [7940, 953]), (8069, [7941, 953]), (8070, [7942, 953]),
    (8071, [7943, 953]), (8072, [7936, 953]), (8073, [7937, 953]), (8074, [7938, 953]),
    (8075, [7939, 953]), (8076, [7940, 953]), (8077, [7941, 953]), (8078, [7942, 953]),
    (8079, [7943, 953]), (8080, [7968, 953]), (8081, [7969, 953]), (8082, [7970, 953]),
    (8083, [7971, 953]), (8084, [7972, 953]), (8085, [7973, 953]), (8086, [7974, 953]),
    (8087, [7975, 953]), (8088, [7968, 953]), (8089, [7969, 953]), (8090, [7970, 953]),
    (8091, [7971, 953]), (8092, [7972, 953]), (8093, [7973, 953]), (8094, [7974, 953]),
    (8095, [7975, 953]), (8096, [8032, 953]), (8097, [8033, 953]), (8098, [8034, 953]),
    (8099, [8035, 953]), (8100, [8036, 953]), (8101, [8037, 953]), (8102, [8038, 953]),
    (8103, [8039, 953]), (8104, [8032, 953]), (8105, [8033, 953]), (8106, [8034, 953]),
    (8107, [8035, 953]), (8108, [8036, 953]), (8109, [8037, 953]), (8110, [8038, 953]),
    (8111, [8039, 953]), (8114, [8048, 953]), (8115, [945, 953]), (8116, [940, 953]),
    (8118, [945, 834]), (8119, [945, 834, 953]), (8124, [945, 953]), (8130, [8052, 953]),
    (8131, [951, 953]), (8132, [942, 953]), (8134, [951, 834]), (8135, [951, 834, 953]),
    (8140, [951, 953]), (8146, [953, 776, 768]), (8147, [953, 776, 769]), (8150, [953, 834]),
    (8151, [953, 776, 834]), (8162, [965, 776, 768]), (8163, [965, 776, 769]),
    (8164, [961, 787]), (8166, [965, 834]), (8167, [965, 776, 834]), (8178, [8060, 953]),
    (8179, [969, 953]), (8180, [974, 953]), (8182, [969, 834]), (8183, [969, 834, 953]),
    (8188, [969, 953]), (64256, [102, 102]), (64257, [102, 105]), (64258, [102, 108]),
    (64259, [102, 102, 105]), (64260, [102, 102, 108]), (64261, [115, 116]),
    (64262, [115, 116]), (64275, [1396, 1398]), (64276, [1396, 1381]), (64277, [1396, 1387]),
    (64278, [1406, 1398]), (64279, [1396, 1389])]

/-- The folding of one code point; the ASCII range is decided without the tables. -/
def foldNat (code : Nat) : List Nat :=
  if code < 128 then [if 65 ≤ code ∧ code ≤ 90 then code + 32 else code]
  else
    match foldExpansions.lookup code with
    | some folded => folded
    | none =>
        match foldRuns.find? (fun (first, last, step, _) =>
            first ≤ code && code ≤ last && (code - first) % step == 0) with
        | some (_, _, _, offset) => [(code + offset).toNat]
        | none => [code]

def foldChar (c : Char) : List Char := (foldNat c.toNat).map Char.ofNat

/-- `str.casefold()`. -/
def casefold (text : String) : String := String.ofList (text.toList.flatMap foldChar)

/-- `marker in text`. -/
def contains (text marker : String) : Bool :=
  text.toList.tails.any (fun rest => marker.toList.isPrefixOf rest)

theorem contains_iff (text marker : String) :
    contains text marker = true ↔ marker.toList <:+: text.toList := by
  simp only [contains, List.any_eq_true, List.mem_tails, List.isPrefixOf_iff_prefix]
  constructor
  · rintro ⟨rest, suffix, pre⟩
    exact pre.isInfix.trans suffix.isInfix
  · rintro ⟨before, after, h⟩
    exact ⟨marker.toList ++ after, ⟨before, by simpa using h⟩, List.prefix_append _ _⟩

/-- A marker with a character the text lacks does not occur in the text. -/
theorem contains_eq_false {text marker : String} {c : Char} (hm : c ∈ marker.toList)
    (ht : c ∉ text.toList) : contains text marker = false := by
  rw [Bool.eq_false_iff, ne_eq, contains_iff]
  intro h
  exact ht (h.subset hm)

theorem casefold_eq_self {text : String} (h : ∀ c ∈ text.toList, foldChar c = [c]) :
    casefold text = text := by
  have folded : text.toList.flatMap foldChar = text.toList := by
    rw [List.flatMap_congr h]
    simp
  rw [casefold, folded, String.ofList_toList]

/-- A character folds to one, two or three. -/
theorem length_foldNat (code : Nat) : 1 ≤ (foldNat code).length ∧ (foldNat code).length ≤ 3 := by
  have expansions : ∀ entry ∈ foldExpansions, 1 ≤ entry.2.length ∧ entry.2.length ≤ 3 := by decide
  unfold foldNat
  split
  · simp
  · split
    · rename_i folded found
      obtain ⟨before, after, table, _⟩ := List.lookup_eq_some_iff.mp found
      exact expansions (code, folded) (by rw [table]; simp)
    · split <;> simp

theorem length_casefold (text : String) : text.toList.length ≤ (casefold text).toList.length ∧
    (casefold text).toList.length ≤ 3 * text.toList.length := by
  rw [casefold, String.toList_ofList]
  induction text.toList with
  | nil => simp
  | cons c rest ih =>
      have here := length_foldNat c.toNat
      rw [List.flatMap_cons, List.length_append, List.length_cons, foldChar, List.length_map]
      omega

/-- No code point but a space folds to a space. -/
theorem mem_spaces_of_foldNat {code folded : Nat} (member : folded ∈ foldNat code)
    (space : folded ∈ spaces) : code ∈ spaces := by
  have expansions : ∀ entry ∈ foldExpansions, ∀ folded ∈ entry.2, folded ∉ spaces := by decide
  have runs : ∀ run ∈ foldRuns, ∀ folded ∈ spaces,
      ¬((run.1 : Int) + run.2.2.2 ≤ folded ∧ (folded : Int) ≤ run.2.1 + run.2.2.2) := by
    decide +kernel
  have letters : ∀ folded ∈ spaces, 9 ≤ folded ∧ ¬(97 ≤ folded ∧ folded ≤ 122) := by decide
  unfold foldNat at member
  split at member
  · rw [List.mem_singleton] at member
    split at member
    · exact absurd (by omega) (letters folded space).2
    · exact member ▸ space
  · split at member
    · rename_i known found
      obtain ⟨before, after, table, -⟩ := List.lookup_eq_some_iff.mp found
      exact absurd space (expansions (code, known) (by rw [table]; simp) folded member)
    · split at member
      · rename_i first last step offset found
        have inside := List.mem_of_find?_eq_some found
        have within := List.find?_some found
        simp only [Bool.and_eq_true, decide_eq_true_eq] at within
        rw [List.mem_singleton] at member
        have apart := runs _ inside folded space
        have positive := (letters folded space).1
        dsimp only at apart
        omega
      · rw [List.mem_singleton] at member
        exact member ▸ space

theorem isSpace_of_foldChar {c folded : Char} (member : folded ∈ foldChar c)
    (space : isSpace folded = true) : isSpace c = true := by
  obtain ⟨code, inside, rfl⟩ := List.mem_map.mp member
  unfold isSpace at space ⊢
  rw [List.contains_iff_mem] at space ⊢
  by_cases valid : code.isValidChar
  · rw [Char.ofNat, dif_pos valid] at space
    exact mem_spaces_of_foldNat inside space
  · rw [Char.ofNat, dif_neg valid] at space
    exact absurd space (by decide)

/-- A text with a character that is no space is not empty when it is stripped. -/
theorem strip_ne_empty {text : String} {c : Char} (member : c ∈ text.toList)
    (filled : isSpace c = false) : strip text ≠ "" := by
  intro empty
  have none_left : stripChars text.toList = [] := by
    have same := congrArg String.toList empty
    rw [strip, String.toList_ofList] at same
    exact same
  unfold stripChars at none_left
  rw [List.rdropWhile_eq_nil_iff] at none_left
  have split := List.takeWhile_append_dropWhile (p := isSpace) (l := text.toList)
  rw [← split] at member
  have space : isSpace c = true := by
    rcases List.mem_append.mp member with before | behind
    · exact List.mem_takeWhile_imp before
    · exact none_left c behind
  rw [space] at filled
  cases filled

end Cinegraph.Library.Text
