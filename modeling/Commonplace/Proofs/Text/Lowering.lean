import Commonplace.Text.Blank
import Commonplace.Text.LowerCase
import Mathlib.Data.List.Range
import Mathlib.Data.String.Basic

namespace Commonplace
namespace Text

/-!
# Lower case twice

Lower-casing a text again changes nothing.  For single characters this is a property of the tables:
no character that a mapping leads to is mapped itself.  Sets of code points are kept as the bits of
one number, so that the two sides of the tables are compared at once.
-/

/-! ## Sets of code points as bits -/

/-- The number whose bits are some code points. -/
def bitsOf (points : List Nat) : Nat :=
  points.foldr (fun point bits => bits ||| Nat.pow 2 point) 0

theorem testBit_bitsOf (points : List Nat) (point : Nat) :
    (bitsOf points).testBit point = true ↔ point ∈ points := by
  induction points with
  | nil => simp [bitsOf]
  | cons head tail inductionHypothesis =>
      have split : bitsOf (head :: tail) = bitsOf tail ||| Nat.pow 2 head := rfl
      have single : (Nat.pow 2 head).testBit point = decide (head = point) :=
        Nat.testBit_two_pow
      rw [split, Nat.testBit_or, Bool.or_eq_true, inductionHypothesis, single,
        decide_eq_true_eq, List.mem_cons]
      constructor
      · rintro (later | here)
        · exact .inr later
        · exact .inl here.symm
      · rintro (here | later)
        · exact .inr here.symm
        · exact .inl later

/-- Two sets without a common bit have no common code point. -/
theorem disjoint_of_bitsOf {first second : List Nat} (apart : bitsOf first &&& bitsOf second = 0)
    {point : Nat} (inFirst : point ∈ first) : point ∉ second := by
  intro inSecond
  have both : (bitsOf first &&& bitsOf second).testBit point = true := by
    rw [Nat.testBit_and, (testBit_bitsOf first point).mpr inFirst,
      (testBit_bitsOf second point).mpr inSecond]
    rfl
  rw [apart, Nat.zero_testBit] at both
  cases both

/-! ## Both sides of the tables -/

/-- The code points of a run. -/
def CaseRun.points (run : CaseRun) : List Nat :=
  List.range' run.first ((run.last - run.first) / run.stride + 1) run.stride

theorem CaseRun.mem_points_of_covers {run : CaseRun} {point : Nat}
    (covered : run.covers point = true) : point ∈ run.points := by
  simp only [covers, Bool.and_eq_true, decide_eq_true_eq, beq_iff_eq] at covered
  rcases covered with ⟨⟨above, below⟩, step⟩
  rw [points, List.mem_range']
  refine ⟨(point - run.first) / run.stride, ?_, ?_⟩
  · have bound := Nat.div_le_div_right (c := run.stride)
      (Nat.sub_le_sub_right below run.first)
    exact Nat.lt_succ_of_le bound
  · rw [Nat.mul_div_cancel' (Nat.dvd_of_mod_eq_zero step)]
    omega

/-- The code points of the characters that have another lower-case form. -/
def upperPoints : List Nat :=
  List.range' 65 26 ++ 304 :: lowerCaseRuns.flatMap CaseRun.points

/-- The code points that the runs lead to. -/
def loweredPoints : List Nat :=
  lowerCaseRuns.flatMap fun run =>
    run.points.map fun (point : Nat) => Int.toNat (point + run.shift)

theorem upper_disjoint_lowered : bitsOf upperPoints &&& bitsOf loweredPoints = 0 := by
  decide +kernel

/-! ## Characters that are their own lower-case form -/

/-- A character that no lower-case mapping changes. -/
def IsLow (character : Char) : Prop :=
  lowerFull character = [character]

instance (character : Char) : Decidable (IsLow character) :=
  inferInstanceAs (Decidable (lowerFull character = [character]))

/-- What holds of the first 128 code points holds of every ASCII character. -/
theorem forall_ascii (property : Char -> Prop) (each : ∀ point < 128, property (Char.ofNat point))
    {character : Char} (ascii : character.toNat < 128) : property character := by
  rw [← Char.ofNat_toNat character]
  exact each character.toNat ascii

theorem isLow_toLower {character : Char} (ascii : character.toNat < 128) :
    IsLow character.toLower :=
  forall_ascii (fun character => IsLow character.toLower) (by decide +kernel) ascii

theorem toLower_of_notCapital {character : Char} (ascii : character.toNat < 128) :
    character.toNat ∉ List.range' 65 26 → character.toLower = character :=
  forall_ascii
    (fun character => character.toNat ∉ List.range' 65 26 → character.toLower = character)
    (by decide +kernel) ascii

/-- The characters outside the table are low. -/
theorem isLow_of_notUpper {character : Char} (notUpper : character.toNat ∉ upperPoints) :
    IsLow character := by
  simp only [upperPoints, List.mem_append, List.mem_cons, List.mem_flatMap, not_or, not_exists,
    not_and] at notUpper
  rcases notUpper with ⟨notCapital, notDotted, notCovered⟩
  have plain : lowerFull character = [lowerSimple character] := by
    rw [lowerFull, if_neg]
    simpa using notDotted
  rw [IsLow, plain, lowerSimple]
  by_cases ascii : character.toNat < 128
  · rw [if_pos ascii, toLower_of_notCapital ascii notCapital]
  · rw [if_neg ascii, List.find?_eq_none.mpr]
    intro run member covered
    exact notCovered run member (CaseRun.mem_points_of_covers covered)

theorem toNat_ofNat {point : Nat} (valid : point.isValidChar) :
    (Char.ofNat point).toNat = point := by
  rw [Char.ofNat, dif_pos valid]
  rfl

/-- A number that the table leads to is that of a low character.  When it is the number of no
character, it stands for the null character, which is low too. -/
theorem isLow_ofNat {point : Nat} (lowered : point ∈ loweredPoints) :
    IsLow (Char.ofNat point) := by
  by_cases valid : point.isValidChar
  · apply isLow_of_notUpper
    rw [toNat_ofNat valid]
    intro upper
    exact disjoint_of_bitsOf upper_disjoint_lowered upper lowered
  · have null : Char.ofNat point = Char.ofNat 0 := by
      rw [Char.ofNat, dif_neg valid]
      rfl
    rw [null]
    decide

/-- A character goes to its small letter when it is ASCII, stays as it is, or goes where the table
leads. -/
theorem lowerSimple_cases (character : Char) :
    (character.toNat < 128 ∧ lowerSimple character = character.toLower) ∨
      lowerSimple character = character ∨
        ∃ point ∈ loweredPoints, lowerSimple character = Char.ofNat point := by
  by_cases ascii : character.toNat < 128
  · left
    rw [lowerSimple, if_pos ascii]
    exact ⟨ascii, rfl⟩
  · right
    rw [lowerSimple, if_neg ascii]
    cases found : lowerCaseRuns.find? fun run => run.covers character.toNat with
    | none => exact .inl rfl
    | some run =>
        right
        refine ⟨_, ?_, rfl⟩
        rw [loweredPoints, List.mem_flatMap]
        refine ⟨run, List.mem_of_find?_eq_some found, List.mem_map.mpr ⟨_, ?_, rfl⟩⟩
        have covered := List.find?_some found
        exact CaseRun.mem_points_of_covers covered

theorem isLow_lowerSimple {character : Char} (notDotted : character.toNat ≠ 304) :
    IsLow (lowerSimple character) := by
  rcases lowerSimple_cases character with ⟨ascii, small⟩ | same | ⟨point, lowered, moved⟩
  · rw [small]
    exact isLow_toLower ascii
  · rw [same, IsLow, lowerFull, if_neg (by simpa using notDotted), same]
  · rw [moved]
    exact isLow_ofNat lowered

theorem isLow_of_mem_lowerFull {character other : Char} (member : other ∈ lowerFull character) :
    IsLow other := by
  unfold lowerFull at member
  split at member
  · rcases List.mem_cons.mp member with rfl | dot
    · decide +kernel
    · rw [List.mem_singleton.mp dot]
      decide +kernel
  · rename_i notDotted
    rw [List.mem_singleton.mp member]
    exact isLow_lowerSimple (by simpa using notDotted)

/-! ## Texts in lower case -/

/-- The capital sigma is not low, so a text of low characters has none. -/
theorem ne_sigma_of_isLow {character : Char} (low : IsLow character) : character ≠ 'Σ' := by
  rintro rfl
  revert low
  decide +kernel

theorem lowerFrom_of_isLow (before : List Char) {characters : List Char}
    (low : ∀ character ∈ characters, IsLow character) :
    lowerFrom before characters = characters := by
  induction characters generalizing before with
  | nil => rfl
  | cons head tail inductionHypothesis =>
      have headLow := low head List.mem_cons_self
      have plain : (head == 'Σ') = false := beq_eq_false_iff_ne.mpr (ne_sigma_of_isLow headLow)
      rw [lowerFrom, plain, inductionHypothesis (head :: before)
        fun character member => low character (List.mem_cons_of_mem head member)]
      simp only [Bool.false_eq_true, if_false]
      rw [headLow]
      rfl

theorem isLow_of_mem_lowerFrom (before : List Char) {characters : List Char} {character : Char}
    (member : character ∈ lowerFrom before characters) : IsLow character := by
  induction characters generalizing before with
  | nil => cases member
  | cons head tail inductionHypothesis =>
      simp only [lowerFrom, List.mem_append] at member
      rcases member with here | later
      · split at here
        · split at here <;> rw [List.mem_singleton.mp here] <;> decide +kernel
        · exact isLow_of_mem_lowerFull here
      · exact inductionHypothesis _ later

/-- All characters of a text in lower case are low. -/
theorem isLow_of_mem_lower {text : String} {character : Char}
    (member : character ∈ (lower text).toList) : IsLow character := by
  rw [lower, String.toList_ofList] at member
  exact isLow_of_mem_lowerFrom [] member

/-- A text of low characters is its own lower-case form. -/
theorem lower_of_isLow {text : String} (low : ∀ character ∈ text.toList, IsLow character) :
    lower text = text := by
  rw [lower, lowerFrom_of_isLow [] low, String.ofList_toList]

/-- Lower-casing a text twice is the same as once. -/
@[simp] theorem lower_lower (text : String) : lower (lower text) = lower text :=
  lower_of_isLow fun _ member => isLow_of_mem_lower member

/-! ## Separators -/

/-- The code points of the blanks, the quote and the colon. -/
def separatorPoints : List Nat :=
  [9, 10, 11, 12, 13, 32, 34, 58, 133, 160, 5760] ++ List.range' 8192 11 ++
    [8232, 8233, 8239, 8287, 12288]

/-- A blank, the quote or the colon: a character that can end a word. -/
def IsSeparator (character : Char) : Prop :=
  character.toNat ∈ separatorPoints

instance (character : Char) : Decidable (IsSeparator character) :=
  inferInstanceAs (Decidable (character.toNat ∈ separatorPoints))

theorem isSeparator_of_isBlank {character : Char} (blank : isBlank character = true) :
    IsSeparator character := by
  simp only [isBlank, Bool.or_eq_true, Bool.and_eq_true, decide_eq_true_eq, beq_iff_eq] at blank
  simp only [IsSeparator, separatorPoints, List.mem_append, List.mem_cons, List.not_mem_nil,
    List.mem_range'_1]
  omega

/-! ## Marks -/

/-- The code points of the separators, the star, the comma, the slash and the question mark. -/
def markPoints : List Nat :=
  [42, 44, 47, 63] ++ separatorPoints

/-- A separator, the star, the comma, the slash or the question mark: a character that means
something in a query or between tags, and that no letter is lowered to. -/
def IsMark (character : Char) : Prop :=
  character.toNat ∈ markPoints

instance (character : Char) : Decidable (IsMark character) :=
  inferInstanceAs (Decidable (character.toNat ∈ markPoints))

theorem IsSeparator.isMark {character : Char} (separator : IsSeparator character) :
    IsMark character :=
  List.mem_append_right _ separator

theorem marks_disjoint_lowered : bitsOf markPoints &&& bitsOf loweredPoints = 0 := by
  decide +kernel

theorem eq_of_toLower {character : Char} (ascii : character.toNat < 128) :
    IsMark character.toLower → character = character.toLower :=
  forall_ascii (fun character => IsMark character.toLower → character = character.toLower)
    (by decide +kernel) ascii

/-- Only a mark itself is lowered to it. -/
theorem eq_of_lowerSimple {character : Char} (mark : IsMark (lowerSimple character)) :
    character = lowerSimple character := by
  rcases lowerSimple_cases character with ⟨ascii, small⟩ | same | ⟨point, lowered, moved⟩
  · rw [small] at mark ⊢
    exact eq_of_toLower ascii mark
  · exact same.symm
  · -- The table leads to no mark, and to the null character where it leads to none.
    rw [moved] at mark
    exfalso
    by_cases valid : point.isValidChar
    · rw [IsMark, toNat_ofNat valid] at mark
      exact disjoint_of_bitsOf marks_disjoint_lowered mark lowered
    · rw [Char.ofNat, dif_neg valid] at mark
      exact absurd mark (by decide)

theorem eq_of_mem_lowerFull {character mark : Char} (isMark : IsMark mark)
    (member : mark ∈ lowerFull character) : mark = character := by
  unfold lowerFull at member
  split at member
  · rcases List.mem_cons.mp member with rfl | dot
    · exact absurd isMark (by decide)
    · rw [List.mem_singleton.mp dot] at isMark
      exact absurd isMark (by decide)
  · rw [List.mem_singleton.mp member] at isMark ⊢
    exact (eq_of_lowerSimple isMark).symm

theorem marks_disjoint_upper : bitsOf markPoints &&& bitsOf upperPoints = 0 := by
  decide +kernel

theorem IsMark.isLow {mark : Char} (isMark : IsMark mark) : IsLow mark :=
  isLow_of_notUpper (disjoint_of_bitsOf marks_disjoint_upper isMark)

/-- Nothing else has the lower-case form of a mark. -/
theorem IsMark.eq_of_lowerFull_eq {mark other : Char} (isMark : IsMark mark)
    (same : lowerFull mark = lowerFull other) : mark = other := by
  apply eq_of_mem_lowerFull isMark
  rw [← same, isMark.isLow]
  exact List.mem_singleton_self mark

theorem isBlank_of_lowerFull_eq {first second : Char}
    (same : lowerFull first = lowerFull second) : isBlank first = isBlank second := by
  have isMark : ∀ {character : Char}, isBlank character = true → IsMark character :=
    fun blank => (isSeparator_of_isBlank blank).isMark
  rw [Bool.eq_iff_iff]
  constructor
  · intro blank
    rw [← (isMark blank).eq_of_lowerFull_eq same]
    exact blank
  · intro blank
    rw [← (isMark blank).eq_of_lowerFull_eq same.symm]
    exact blank

theorem mem_of_mem_lowerFrom (before : List Char) {characters : List Char} {mark : Char}
    (isMark : IsMark mark) (member : mark ∈ lowerFrom before characters) : mark ∈ characters := by
  induction characters generalizing before with
  | nil => cases member
  | cons head tail inductionHypothesis =>
      simp only [lowerFrom, List.mem_append] at member
      rcases member with here | later
      · split at here
        · -- Neither small sigma is a mark.
          split at here <;> rw [List.mem_singleton.mp here] at isMark <;>
            exact absurd isMark (by decide)
        · rw [eq_of_mem_lowerFull isMark here]
          exact List.mem_cons_self
      · exact List.mem_cons_of_mem _ (inductionHypothesis _ later)

/-- Lower-casing brings no mark into a text. -/
theorem mem_of_mem_lower {text : String} {mark : Char} (isMark : IsMark mark)
    (member : mark ∈ (lower text).toList) : mark ∈ text.toList := by
  rw [lower, String.toList_ofList] at member
  exact mem_of_mem_lowerFrom [] isMark member

/-- Lower-casing brings no line feed into a text. -/
theorem not_mem_lower {text : String} (noBreak : '\n' ∉ text.toList) :
    '\n' ∉ (lower text).toList :=
  fun member => noBreak (mem_of_mem_lower (by decide) member)

theorem lowerFull_ne_nil (character : Char) : lowerFull character ≠ [] := by
  unfold lowerFull
  split <;> exact List.cons_ne_nil _ _

/-- The lower-case form of a character that stands between others is not empty. -/
theorem lowered_ne_nil (before after : List Char) (character : Char) :
    (if character == 'Σ' then
        if meetsCased before && !meetsCased after then ['ς'] else ['σ']
      else lowerFull character) ≠ [] := by
  split
  · split <;> exact List.cons_ne_nil _ _
  · exact lowerFull_ne_nil character

theorem lowerFrom_ne_nil (before : List Char) {characters : List Char}
    (notEmpty : characters ≠ []) : lowerFrom before characters ≠ [] := by
  cases characters with
  | nil => exact absurd rfl notEmpty
  | cons head tail =>
      exact List.append_ne_nil_of_left_ne_nil (lowered_ne_nil before tail head) _

/-- Only the empty text has an empty lower-case form. -/
theorem lower_ne_empty {text : String} (notEmpty : text.toList ≠ []) :
    (lower text).toList ≠ [] := by
  rw [lower, String.toList_ofList]
  exact lowerFrom_ne_nil [] notEmpty

/-! ## Sizes and ends -/

theorem length_lowerFull_le (character : Char) : (lowerFull character).length ≤ 2 := by
  unfold lowerFull
  split
  · exact le_refl 2
  · exact Nat.le_succ 1

theorem length_lowerFrom_le (before characters : List Char) :
    (lowerFrom before characters).length ≤ 2 * characters.length := by
  induction characters generalizing before with
  | nil => exact Nat.zero_le _
  | cons head tail inductionHypothesis =>
      have later := inductionHypothesis (head :: before)
      have first : (if head == 'Σ' then
          if meetsCased before && !meetsCased tail then ['ς'] else ['σ']
          else lowerFull head).length ≤ 2 := by
        split
        · split <;> exact Nat.le_succ 1
        · exact length_lowerFull_le head
      rw [lowerFrom, List.length_append, List.length_cons]
      omega

theorem utf8Len_bounds (characters : List Char) :
    characters.length ≤ String.utf8Len characters ∧
      String.utf8Len characters ≤ 4 * characters.length := by
  induction characters with
  | nil => exact ⟨le_refl _, le_refl _⟩
  | cons head tail inductionHypothesis =>
      have some := head.utf8Size_pos
      have few := head.utf8Size_le_four
      rw [String.utf8Len_cons, List.length_cons]
      omega

/-- Lower-casing makes a text at most eight times as large. -/
theorem utf8ByteSize_lower_le (text : String) :
    (lower text).utf8ByteSize ≤ 8 * text.utf8ByteSize := by
  have bounds := utf8Len_bounds text.toList
  have lowered := utf8Len_bounds (lowerFrom [] text.toList)
  have longer := length_lowerFrom_le [] text.toList
  rw [lower, String.utf8ByteSize_ofList, ← String.utf8Len_toList]
  omega

/-! ## Slashes -/

/-- A lowered text begins with a mark only if the text does. -/
theorem head?_of_lowerFrom (before : List Char) {characters : List Char} {mark : Char}
    (isMark : IsMark mark) (first : (lowerFrom before characters).head? = some mark) :
    characters.head? = some mark := by
  cases characters with
  | nil => cases first
  | cons head tail =>
      rw [lowerFrom, List.head?_append_of_ne_nil _ (lowered_ne_nil before tail head)] at first
      have member := List.mem_of_mem_head? first
      rw [List.head?_cons]
      split at member
      · split at member <;> rw [List.mem_singleton.mp member] at isMark <;>
          exact absurd isMark (by decide)
      · rw [eq_of_mem_lowerFull isMark member]

/-- A lowered text ends in a mark only if the text does. -/
theorem getLast?_of_lowerFrom (before : List Char) {characters : List Char} {mark : Char}
    (isMark : IsMark mark) (last : (lowerFrom before characters).getLast? = some mark) :
    characters.getLast? = some mark := by
  induction characters generalizing before with
  | nil => cases last
  | cons head tail inductionHypothesis =>
      cases tail with
      | nil =>
          have member := mem_of_mem_lowerFrom before isMark (List.mem_of_getLast? last)
          rw [List.getLast?_singleton, List.mem_singleton.mp member]
      | cons next rest =>
          have notEmpty := lowerFrom_ne_nil (head :: before) (List.cons_ne_nil next rest)
          rw [lowerFrom, List.getLast?_append_of_ne_nil _ notEmpty] at last
          rw [List.getLast?_cons_cons]
          exact inductionHypothesis _ last

theorem getLast?_of_lower {text : String} (last : (lower text).toList.getLast? = some '/') :
    text.toList.getLast? = some '/' := by
  rw [lower, String.toList_ofList] at last
  exact getLast?_of_lowerFrom [] (by decide) last

/-- Beyond a slash there is no letter of the word in front of it. -/
theorem meetsCased_append_slash (characters after : List Char) :
    meetsCased (characters ++ '/' :: after) = meetsCased characters := by
  have notIgnored : caseIgnorableCodePoints.contains '/' = false := by decide +kernel
  have notCased : casedCodePoints.contains '/' = false := by decide +kernel
  unfold meetsCased
  rw [List.dropWhile_append, List.dropWhile_cons, notIgnored]
  cases characters.dropWhile caseIgnorableCodePoints.contains with
  | nil => exact notCased
  | cons head tail => rfl

/-- A text is lowered up to a slash and from there on.  In between, no sigma looks for letters on
the other side. -/
theorem lowerFrom_append_slash (before start after : List Char) :
    lowerFrom before (start ++ '/' :: after) =
      lowerFrom before start ++ '/' :: lowerFrom ('/' :: (start.reverse ++ before)) after := by
  induction start generalizing before with
  | nil =>
      have slash : lowerFull '/' = ['/'] := by decide +kernel
      change lowerFull '/' ++ lowerFrom ('/' :: before) after = _
      rw [slash]
      rfl
  | cons head tail inductionHypothesis =>
      rw [List.cons_append, lowerFrom, lowerFrom, meetsCased_append_slash, inductionHypothesis,
        List.append_assoc, List.reverse_cons, List.append_assoc]
      rfl

theorem getLast?_lower {text : String} (last : text.toList.getLast? = some '/') :
    (lower text).toList.getLast? = some '/' := by
  rcases List.getLast?_eq_some_iff.mp last with ⟨start, whole⟩
  rw [lower, String.toList_ofList, whole, lowerFrom_append_slash]
  exact List.getLast?_concat

end Text
end Commonplace
