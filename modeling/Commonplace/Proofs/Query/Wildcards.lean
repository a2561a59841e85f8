import Commonplace.Proofs.Text.Trimming
import Commonplace.Query.Expr
import Mathlib.Computability.Language
import Mathlib.Data.List.DropRight

namespace Commonplace
namespace WildcardKind

/-!
# The texts that a pattern stands for

A star stands for any text, also the empty one, and every other character for itself.  Several stars
side by side stand for no more than one.  So the stars at the ends of a pattern can be reduced or
put there again without a change, as long as there is one where the pattern shows it.  A pattern
without a star stands for itself alone, and bringing it into the shape of its kind makes more of it.
-/

/-- The texts that a character of a pattern stands for. -/
def textsOf (character : Char) : Language Char :=
  if isStar character then ⊤ else {[character]}

/-- The texts that a pattern stands for: those of its characters, one behind the other. -/
def texts (pattern : List Char) : Language Char :=
  (pattern.map textsOf).prod

theorem texts_cons (head : Char) (tail : List Char) :
    texts (head :: tail) = textsOf head * texts tail :=
  rfl

theorem texts_append (first second : List Char) :
    texts (first ++ second) = texts first * texts second := by
  rw [texts, List.map_append, List.prod_append]
  rfl

theorem texts_star : texts ['*'] = ⊤ :=
  mul_one _

theorem mem_texts_star_cons {pattern text : List Char} :
    text ∈ texts ('*' :: pattern) ↔
      ∃ skipped rest, text = skipped ++ rest ∧ rest ∈ texts pattern := by
  rw [texts_cons, Language.mem_mul]
  constructor
  · rintro ⟨skipped, _, rest, member, rfl⟩
    exact ⟨skipped, rest, rfl, member⟩
  · rintro ⟨skipped, rest, rfl, member⟩
    exact ⟨skipped, trivial, rest, member, rfl⟩

theorem mem_texts_cons {head : Char} (notStar : head ≠ '*') {pattern text : List Char} :
    text ∈ texts (head :: pattern) ↔ ∃ rest, text = head :: rest ∧ rest ∈ texts pattern := by
  have alone : textsOf head = {[head]} := if_neg (mt beq_iff_eq.mp notStar)
  rw [texts_cons, alone, Language.mem_mul]
  constructor
  · rintro ⟨_, rfl, rest, member, rfl⟩
    exact ⟨rest, rfl, member⟩
  · rintro ⟨rest, rfl, member⟩
    exact ⟨[head], rfl, rest, member, rfl⟩

/-- A pattern without a star stands for itself. -/
theorem mem_texts_of_not_mem {pattern : List Char} (noStar : '*' ∉ pattern) {text : List Char} :
    text ∈ texts pattern ↔ text = pattern := by
  induction pattern generalizing text with
  | nil => exact Language.mem_one text
  | cons head tail inductionHypothesis =>
      rw [List.mem_cons, not_or] at noStar
      rw [mem_texts_cons (Ne.symm noStar.1)]
      simp only [inductionHypothesis noStar.2, exists_eq_right]

/-! ## Stars side by side -/

theorem top_mul_top : (⊤ : Language Char) * ⊤ = ⊤ :=
  top_le_iff.mp fun text _ => ⟨[], trivial, text, trivial, rfl⟩

/-- Behind a star, the stars at the start of a pattern make no difference. -/
theorem top_mul_texts_dropWhile (pattern : List Char) :
    ⊤ * texts (pattern.dropWhile isStar) = ⊤ * texts pattern := by
  induction pattern with
  | nil => rfl
  | cons head tail inductionHypothesis =>
      by_cases star : isStar head = true
      · rw [List.dropWhile_cons_of_pos star, inductionHypothesis, texts_cons, textsOf, if_pos star,
          ← mul_assoc, top_mul_top]
      · rw [List.dropWhile_cons_of_neg star]

/-- In front of a star, the stars at the end of a pattern make no difference. -/
theorem texts_withoutEndStars_mul_top (pattern : List Char) :
    texts (withoutEndStars pattern) * ⊤ = texts pattern * ⊤ := by
  change texts (pattern.rdropWhile isStar) * ⊤ = texts pattern * ⊤
  induction pattern using List.reverseRecOn with
  | nil => rfl
  | append_singleton start last inductionHypothesis =>
      by_cases star : isStar last = true
      · rw [List.rdropWhile_concat_pos _ _ _ star, inductionHypothesis, texts_append,
          beq_iff_eq.mp star, texts_star, mul_assoc, top_mul_top]
      · rw [List.rdropWhile_concat_neg _ _ _ star]

theorem top_mul_texts_of_head? {pattern : List Char} (star : pattern.head? = some '*') :
    ⊤ * texts pattern = texts pattern := by
  rcases List.head?_eq_some_iff.mp star with ⟨rest, rfl⟩
  change ⊤ * (⊤ * texts rest) = ⊤ * texts rest
  rw [← mul_assoc, top_mul_top]

theorem texts_mul_top_of_getLast? {pattern : List Char} (star : pattern.getLast? = some '*') :
    texts pattern * ⊤ = texts pattern := by
  rcases List.getLast?_eq_some_iff.mp star with ⟨start, rfl⟩
  rw [texts_append, texts_star, mul_assoc, top_mul_top]

/-! ## The shape of a kind -/

/-- The stars of a pattern are where the kind that it shows has them, or it has none at its ends. -/
theorem ofPattern_cases (pattern : String) :
    (pattern.toList.head? = some '*' ∧ pattern.toList.getLast? = some '*' ∧
        ofPattern pattern = openBoth) ∨
      (pattern.toList.head? = some '*' ∧ ofPattern pattern = openStart) ∨
      (pattern.toList.getLast? = some '*' ∧ ofPattern pattern = openEnd) ∨
      (pattern.toList.head? ≠ some '*' ∧ pattern.toList.getLast? ≠ some '*' ∧
        ofPattern pattern = openBoth) := by
  unfold ofPattern
  split
  · rename_i first last
    exact .inl ⟨beq_iff_eq.mp first, beq_iff_eq.mp last, rfl⟩
  · rename_i first _
    exact .inr (.inl ⟨beq_iff_eq.mp first, rfl⟩)
  · rename_i _ last
    exact .inr (.inr (.inl ⟨beq_iff_eq.mp last, rfl⟩))
  · rename_i first last
    exact .inr (.inr (.inr ⟨beq_eq_false_iff_ne.mp first, beq_eq_false_iff_ne.mp last, rfl⟩))

theorem dropWhile_isStar_of_head? {pattern : List Char} (first : pattern.head? ≠ some '*') :
    pattern.dropWhile isStar = pattern := by
  refine Text.dropWhile_of_head? fun head isFirst => beq_eq_false_iff_ne.mpr ?_
  rintro rfl
  exact first isFirst

theorem withoutEndStars_of_getLast? {pattern : List Char} (last : pattern.getLast? ≠ some '*') :
    withoutEndStars pattern = pattern := by
  rw [← List.head?_reverse] at last
  rw [withoutEndStars, dropWhile_isStar_of_head? last, List.reverse_reverse]

theorem withoutEndStars_append_star {pattern : List Char} (noStar : '*' ∉ pattern) :
    withoutEndStars (pattern ++ ['*']) = pattern := by
  have last : pattern.getLast? ≠ some '*' := fun star => noStar (List.mem_of_getLast? star)
  change (pattern ++ ['*']).rdropWhile isStar = pattern
  rw [List.rdropWhile_concat_pos _ _ _ rfl]
  exact withoutEndStars_of_getLast? last

/-- What is left of a pattern between the stars at its ends. -/
def inner (pattern : List Char) : List Char :=
  withoutEndStars (pattern.dropWhile isStar)

theorem normalizeChars_openBoth (pattern : List Char) :
    openBoth.normalizeChars pattern =
      if '*' ∈ inner pattern then pattern else '*' :: (inner pattern ++ ['*']) := by
  simp only [normalizeChars, List.contains_iff_mem, List.cons_append]
  rfl

/-- A pattern without stars at its ends is all left. -/
theorem inner_of_ends {pattern : List Char} (first : pattern.head? ≠ some '*')
    (last : pattern.getLast? ≠ some '*') : inner pattern = pattern := by
  rw [inner, dropWhile_isStar_of_head? first, withoutEndStars_of_getLast? last]

/-- What has no star is left when stars are put around it. -/
theorem inner_surrounded {pattern : List Char} (noStar : '*' ∉ pattern) :
    inner ('*' :: (pattern ++ ['*'])) = pattern := by
  cases pattern with
  | nil => rfl
  | cons head tail =>
      have first : (head :: tail ++ ['*']).head? ≠ some '*' := by
        rintro ⟨⟩
        exact noStar List.mem_cons_self
      rw [inner, List.dropWhile_cons_of_pos rfl, dropWhile_isStar_of_head? first,
        withoutEndStars_append_star noStar]

/-- A pattern in the shape of a kind stays as it is. -/
theorem normalizeChars_normalizeChars (kind : WildcardKind) (pattern : List Char) :
    kind.normalizeChars (kind.normalizeChars pattern) = kind.normalizeChars pattern := by
  cases kind with
  | openEnd =>
      change (pattern.rdropWhile isStar ++ ['*']).rdropWhile isStar ++ ['*'] =
        pattern.rdropWhile isStar ++ ['*']
      rw [List.rdropWhile_concat_pos _ _ _ rfl, List.rdropWhile_idempotent]
  | openStart =>
      rw [normalizeChars, normalizeChars, List.dropWhile_cons_of_pos rfl,
        List.dropWhile_idempotent]
  | openBoth =>
      rw [normalizeChars_openBoth pattern]
      by_cases star : '*' ∈ inner pattern
      · rw [if_pos star, normalizeChars_openBoth, if_pos star]
      · rw [if_neg star, normalizeChars_openBoth, inner_surrounded star, if_neg star]

/-! ## What the shape stands for -/

/-- Stars around what is left of a pattern stand for as much as stars around the pattern. -/
theorem texts_surrounded_inner (pattern : List Char) :
    texts ('*' :: (inner pattern ++ ['*'])) = ⊤ * texts pattern * ⊤ := by
  calc texts ('*' :: (inner pattern ++ ['*']))
      = ⊤ * (texts (inner pattern) * ⊤) := by
        rw [← texts_star, ← texts_append, ← texts_append]
        rfl
    _ = ⊤ * texts (pattern.dropWhile isStar) * ⊤ := by
        rw [inner, texts_withoutEndStars_mul_top, mul_assoc]
    _ = ⊤ * texts pattern * ⊤ := by rw [top_mul_texts_dropWhile]

/-- In the shape of the kind that it shows, a pattern with a star stands for the same texts. -/
theorem texts_normalizeChars_of_mem {pattern : String} (star : '*' ∈ pattern.toList) :
    texts ((ofPattern pattern).normalizeChars pattern.toList) = texts pattern.toList := by
  rcases ofPattern_cases pattern with
    ⟨first, last, kind⟩ | ⟨first, kind⟩ | ⟨last, kind⟩ | ⟨first, last, kind⟩
  · rw [kind, normalizeChars_openBoth]
    split
    · rfl
    · rw [texts_surrounded_inner, top_mul_texts_of_head? first, texts_mul_top_of_getLast? last]
  · rw [kind]
    exact (top_mul_texts_dropWhile _).trans (top_mul_texts_of_head? first)
  · rw [kind, normalizeChars, texts_append, texts_star, texts_withoutEndStars_mul_top,
      texts_mul_top_of_getLast? last]
  · rw [kind, normalizeChars_openBoth, inner_of_ends first last, if_pos star]

/-- In the shape of the kind that it shows, a pattern without a star stands for longer texts too. -/
theorem texts_normalizeChars_of_not_mem {pattern : String} (noStar : '*' ∉ pattern.toList) :
    texts ((ofPattern pattern).normalizeChars pattern.toList) ≠ texts pattern.toList := by
  have first : pattern.toList.head? ≠ some '*' := fun star => noStar (List.mem_of_mem_head? star)
  have last : pattern.toList.getLast? ≠ some '*' := fun star => noStar (List.mem_of_getLast? star)
  have kind : ofPattern pattern = openBoth := by
    rcases ofPattern_cases pattern with ⟨star, _⟩ | ⟨star, _⟩ | ⟨star, _⟩ | ⟨_, _, kind⟩
    · exact absurd star first
    · exact absurd star first
    · exact absurd star last
    · exact kind
  rw [kind, normalizeChars_openBoth, inner_of_ends first last, if_neg noStar]
  intro same
  have longer : ' ' :: pattern.toList ∈ texts ('*' :: (pattern.toList ++ ['*'])) := by
    refine mem_texts_star_cons.mpr ⟨[' '], pattern.toList, rfl, ?_⟩
    rw [texts_append, texts_star]
    exact ⟨_, (mem_texts_of_not_mem noStar).mpr rfl, [], trivial, List.append_nil _⟩
  rw [same, mem_texts_of_not_mem noStar] at longer
  exact absurd longer (List.cons_ne_self _ _)

/-- A pattern that was brought into the shape of a kind stays as it is.  In the shape of the kind
that it shows, a pattern stands for the same texts as before exactly when it has a star. -/
theorem shape_keeps_texts (pattern : String) :
    (∀ kind : WildcardKind, kind.normalize (kind.normalize pattern) = kind.normalize pattern) ∧
      (texts ((ofPattern pattern).normalize pattern).toList = texts pattern.toList ↔
        '*' ∈ pattern.toList) := by
  constructor
  · intro kind
    rw [normalize, normalize, String.toList_ofList, normalizeChars_normalizeChars]
  · rw [normalize, String.toList_ofList]
    exact ⟨not_imp_not.mp texts_normalizeChars_of_not_mem, texts_normalizeChars_of_mem⟩

end WildcardKind
end Commonplace
