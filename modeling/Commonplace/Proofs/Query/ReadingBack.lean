import Commonplace.Proofs.Query.Chains
import Commonplace.Query.Printer
import Mathlib.Data.List.DropRight

namespace Commonplace
namespace QueryLanguage

/-!
# Reading a written query back

The text of a query that was read is read as the same expressions again.  Quotes are the one thing
that the text can lose: a value is quoted only when it is empty or holds a blank.  So the values
that were quoted have to be such, and the word `OR` must not have been kept from being the keyword
by a quote behind it.
-/

/-! ## Quotes that are written again -/

/-- Whether a text ends in the word `OR`, with nothing or a blank before it. -/
def endsInOr (characters : List Char) : Bool :=
  characters.rtakeWhile (fun character => !Text.isBlank character) == ['O', 'R']

/-- Whether a quoted value is empty or holds a blank. -/
def needsQuotes (inside : List Char) : Bool :=
  inside.isEmpty || inside.any Text.isBlank

/-- Whether the parts of a text between its quotes, which stand outside and inside of quotes by
turns, can be told from the text that is written. -/
def partsAreClear : List (List Char) -> Bool
  | outside :: inside :: rest => !endsInOr outside && needsQuotes inside && partsAreClear rest
  | _ => true

/-- Whether every quoted value of a text is empty or holds a blank, and no `OR` that stands alone is
directly followed by a quote. -/
def quotesAreClear (characters : List Char) : Bool :=
  partsAreClear (characters.splitOn '"')

theorem beq_quote_of_not_mem {characters : List Char} (noQuote : '"' ∉ characters) :
    ∀ character ∈ characters, (character == '"') = false := by
  intro character member
  rw [beq_eq_false_iff_ne]
  rintro rfl
  exact noQuote member

theorem splitOn_quote {outside : List Char} (noQuote : '"' ∉ outside) (rest : List Char) :
    (outside ++ '"' :: rest).splitOn '"' = outside :: rest.splitOn '"' :=
  List.splitOnP_append_cons_of_forall_mem (beq_quote_of_not_mem noQuote) '"' (beq_self_eq_true '"')
    rest

theorem quotesAreClear_of_not_mem {characters : List Char} (noQuote : '"' ∉ characters) :
    quotesAreClear characters = true := by
  have whole : characters.splitOn '"' = [characters] :=
    List.splitOnP_eq_singleton (beq_quote_of_not_mem noQuote)
  rw [quotesAreClear, whole]
  rfl

theorem quotesAreClear_quoted {outside inside : List Char} (noQuote : '"' ∉ outside)
    (free : '"' ∉ inside) (rest : List Char) :
    quotesAreClear (outside ++ '"' :: (inside ++ '"' :: rest)) =
      (!endsInOr outside && needsQuotes inside && quotesAreClear rest) := by
  rw [quotesAreClear, splitOn_quote noQuote, splitOn_quote free]
  rfl

/-- What follows an unquoted text is clear when the whole is, unless an `OR` stands alone only after
the text is taken away. -/
theorem quotesAreClear_of_append {before rest : List Char} (noQuote : '"' ∉ before)
    (apart : ∀ outside tail, rest = outside ++ '"' :: tail → '"' ∉ outside →
      endsInOr outside = true → endsInOr (before ++ outside) = true)
    (clear : quotesAreClear (before ++ rest) = true) : quotesAreClear rest = true := by
  by_cases quoted : '"' ∈ rest
  · rcases List.eq_append_cons_of_mem quoted with ⟨outside, tail, rfl, free⟩
    have noQuotes : '"' ∉ before ++ outside := by simp [noQuote, free]
    rw [quotesAreClear, ← List.append_assoc, splitOn_quote noQuotes] at clear
    rw [quotesAreClear, splitOn_quote free]
    cases parts : tail.splitOn '"' with
    | nil => rfl
    | cons inside more =>
        rw [parts] at clear
        simp only [partsAreClear, Bool.and_eq_true, Bool.not_eq_true'] at clear ⊢
        refine ⟨⟨?_, clear.1.2⟩, clear.2⟩
        by_contra ends
        rw [Bool.not_eq_false] at ends
        have both := apart outside tail rfl free ends
        rw [clear.1.1] at both
        cases both
  · exact quotesAreClear_of_not_mem quoted

theorem rtakeWhile_append_cons {keep : Char -> Bool} {stop : Char} (stops : keep stop = false)
    (before after : List Char) :
    (before ++ stop :: after).rtakeWhile keep = after.rtakeWhile keep := by
  simp only [List.rtakeWhile, List.reverse_append, List.reverse_cons, List.append_assoc,
    List.singleton_append, List.takeWhile_append]
  split
  · rename_i whole
    rw [List.takeWhile_cons_of_neg (by rw [stops]; exact Bool.false_ne_true), List.append_nil,
      (List.takeWhile_prefix keep).eq_of_length whole]
  · rfl

/-- Whether an `OR` stands alone is a matter of what follows the last blank. -/
theorem endsInOr_append_blank {blank : Char} (isBlank : Text.isBlank blank = true)
    (before after : List Char) : endsInOr (before ++ blank :: after) = endsInOr after := by
  rw [endsInOr, rtakeWhile_append_cons (by rw [isBlank]; rfl)]
  rfl

theorem quotesAreClear_of_blank {blank : Char} {rest : List Char}
    (isBlank : Text.isBlank blank = true) (clear : quotesAreClear (blank :: rest) = true) :
    quotesAreClear rest = true := by
  refine quotesAreClear_of_append ?_ ?_ (show quotesAreClear ([blank] ++ rest) = true from clear)
  · rw [List.mem_singleton]
    rintro rfl
    revert isBlank
    decide
  · intro outside _ _ _ ends
    rw [← endsInOr_append_blank isBlank [] outside] at ends
    exact ends

/-- What follows an unquoted text is clear when it begins with a blank or a quote. -/
theorem quotesAreClear_of_word {before rest : List Char} (noQuote : '"' ∉ before)
    (ends : ∀ head ∈ rest.head?, Text.isBlank head = true ∨ head ∈ ['"'])
    (clear : quotesAreClear (before ++ rest) = true) : quotesAreClear rest = true := by
  apply quotesAreClear_of_append noQuote _ clear
  rintro outside tail rfl free endsOutside
  cases outside with
  | nil => cases endsOutside
  | cons head others =>
      have notQuote : head ∉ ['"'] := by
        rw [List.mem_singleton]
        rintro rfl
        exact free List.mem_cons_self
      have isBlank := (ends head rfl).resolve_right notQuote
      rw [← List.nil_append (head :: others), endsInOr_append_blank isBlank] at endsOutside
      rw [endsInOr_append_blank isBlank]
      exact endsOutside

/-! ## Values -/

theorem valueText_ofList (characters : List Char) :
    Expr.valueText (String.ofList characters) =
      if needsQuotes characters then "\"" ++ String.ofList characters ++ "\""
      else String.ofList characters := by
  have isEmpty : (String.ofList characters).isEmpty = characters.isEmpty := by
    rw [Bool.eq_iff_iff]
    simp
  rw [Expr.valueText, isEmpty, String.toList_ofList, needsQuotes]

theorem valueText_of_needsQuotes {inside : List Char} (needs : needsQuotes inside = true) :
    (Expr.valueText (String.ofList inside)).toList = '"' :: (inside ++ ['"']) := by
  rw [valueText_ofList, if_pos needs]
  simp

theorem valueText_of_isSolid {word : List Char} (notEmpty : word ≠ [])
    (noBlank : ∀ character ∈ word, Text.isBlank character = false) :
    Expr.valueText (String.ofList word) = String.ofList word := by
  have plain : needsQuotes word = false := by
    rw [needsQuotes, List.isEmpty_eq_false_iff.mpr notEmpty, Bool.false_or, List.any_eq_false]
    intro character member
    rw [noBlank character member]
    exact Bool.false_ne_true
  rw [valueText_ofList, plain]
  rfl

/-- A value is read again from the text that is written for it, which is the text it was read
from. -/
theorem ReadsValue.readsBack {characters rest : List Char} {value : String} {quoted : Bool}
    (reads : ReadsValue characters value quoted rest) {before : List Char} (noQuote : '"' ∉ before)
    (clear : quotesAreClear (before ++ characters) = true) :
    characters = (Expr.valueText value).toList ++ rest ∧
      ReadsValue (Expr.valueText value).toList value quoted [] ∧ quotesAreClear rest = true := by
  cases reads with
  | quoted free =>
      rw [quotesAreClear_quoted noQuote free] at clear
      simp only [Bool.and_eq_true] at clear
      rw [valueText_of_needsQuotes clear.1.2]
      exact ⟨by simp, .quoted free, clear.2⟩
  | @plain word rest notEmpty isWord =>
      have noBlank := fun character member => (isWord.solid character member).1
      have wordFree : '"' ∉ before ++ word := by
        intro member
        rcases List.mem_append.mp member with inBefore | inWord
        · exact noQuote inBefore
        · exact (isWord.solid _ inWord).2 List.mem_cons_self
      rw [← List.append_assoc] at clear
      rw [valueText_of_isSolid notEmpty noBlank, String.toList_ofList]
      refine ⟨rfl, ?_, quotesAreClear_of_word wordFree isWord.ends clear⟩
      have alone := ReadsValue.plain notEmpty (IsWord.alone isWord.solid)
      rw [List.append_nil] at alone
      exact alone

/-- A value without quotes is written without them. -/
theorem ReadsValue.valueText_eq {characters rest : List Char} {value : String} {quoted : Bool}
    (reads : ReadsValue characters value quoted rest) (plain : quoted = false) :
    Expr.valueText value = value := by
  cases reads with
  | quoted => cases plain
  | plain notEmpty isWord =>
      exact valueText_of_isSolid notEmpty fun character member => (isWord.solid character member).1

/-! ## Expressions -/

theorem splitRange_eq_some {characters start stop : List Char}
    (split : splitRange characters = some (start, stop)) :
    characters = start ++ '.' :: '.' :: stop := by
  induction characters generalizing start with
  | nil => cases split
  | cons head tail inductionHypothesis =>
      unfold splitRange at split
      split at split
      · rename_i same
        cases split
        exact same
      · rename_i same
        cases same
        rcases Option.map_eq_some_iff.mp split with ⟨⟨before, after⟩, found, sides⟩
        cases sides
        rw [inductionHypothesis found]
        rfl
      · cases split

/-- A field is written with its name, its sign and its value, whatever kind of expression it is. -/
theorem text_of_fieldExpr {name value : String} {comparison : Comparison} {quoted : Bool}
    {start : List Char} {expression : Expr}
    (made : fieldExpr name comparison value quoted start = .ok expression) (named : name ≠ "")
    (plain : quoted = false → Expr.valueText value = value) :
    expression.text.toList =
      name.toList ++ ':' :: (writtenSign comparison ++ (Expr.valueText value).toList) := by
  have compared : (name ++ ":" ++ (if comparison.isOrdering then comparison.sign else "") ++
      Expr.valueText value).toList =
        name.toList ++ ':' :: (writtenSign comparison ++ (Expr.valueText value).toList) := by
    unfold writtenSign
    split <;> simp
  have equal : writtenSign .equals = [] := rfl
  unfold fieldExpr dateExpr at made
  split at made
  · split at made
    · cases made
      exact compared
    · rename_i range
      rw [Bool.or_eq_true, not_or, Bool.not_eq_true, bne_iff_ne, not_not] at range
      split at made
      · rename_i before after sides
        split at made
        · cases made
        · cases made
          have whole := splitRange_eq_some sides
          rw [range.2, equal, plain range.1, whole]
          simp [Expr.text]
      · cases made
        exact compared
  · split at made
    · rename_i pattern
      simp only [Bool.and_eq_true, Bool.not_eq_true', beq_iff_eq] at pattern
      cases made
      have filled : name.isEmpty = false := by simpa using named
      rw [pattern.1.2, equal, plain pattern.1.1, Expr.wildcardOf, Expr.text, filled]
      simp
    · cases made
      exact compared

/-- The names that may stand before a colon are words, without a dash or a capital O. -/
theorem names_are_solid : ∀ name ∈ fieldNames ++ presenceWords,
    name ≠ "" ∧ IsSolid ['"', ':', '-', 'O'] name.toList := by
  decide +kernel

/-- Lower-casing keeps a word free of blanks and stops. -/
theorem IsSolid.lower {name : List Char} (solid : IsSolid ['"', ':'] name) :
    IsSolid ['"', ':'] (Text.lower (String.ofList name)).toList := by
  intro character member
  have back : Text.IsSeparator character → character ∈ name := by
    intro separator
    have inName := Text.mem_of_mem_lower separator.isMark member
    rw [String.toList_ofList] at inName
    exact inName
  constructor
  · by_contra blank
    rw [Bool.not_eq_false] at blank
    have notBlank := (solid character (back (Text.isSeparator_of_isBlank blank))).1
    rw [blank] at notBlank
    cases notBlank
  · intro stop
    have separator : Text.IsSeparator character := by
      rcases List.mem_cons.mp stop with rfl | colon
      · decide
      · rw [List.mem_singleton.mp colon]
        decide
    exact (solid character (back separator)).2 stop

theorem isSolid_of_name {name : String} (known : name ∈ fieldNames ++ presenceWords) :
    IsSolid ['"', ':'] name.toList := by
  intro character member
  have solid := (names_are_solid name known).2 character member
  refine ⟨solid.1, fun stop => solid.2 ?_⟩
  exact List.mem_append_left ['-', 'O'] stop

theorem text_bareWord {word : List Char} (notEmpty : word ≠ [])
    (noBlank : ∀ character ∈ word, Text.isBlank character = false) :
    (bareWord (String.ofList word)).text = String.ofList word := by
  unfold bareWord
  split
  · rfl
  · exact valueText_of_isSolid notEmpty noBlank

theorem text_exists {keyword : String} (asks : keyword ∈ presenceWords) (name : String) :
    (Expr.exists name (keyword == "missing")).text.toList =
      keyword.toList ++ ':' :: name.toList := by
  rcases List.mem_cons.mp asks with rfl | asks
  · exact String.toList_append
  · rw [List.mem_singleton.mp asks]
    exact String.toList_append

/-- A question for presence is read again from what is written for it. -/
theorem readsAtom_exists {keyword name : String} (asks : keyword ∈ presenceWords)
    (lowKeyword : Text.lower keyword = keyword) (lowName : Text.lower name = name)
    (notEmpty : name.toList ≠ []) (solid : IsSolid ['"', ':'] name.toList) :
    ReadsAtom (Expr.exists name (keyword == "missing")).text.toList
      (.exists name (keyword == "missing")) [] := by
  have isKeyword : Text.lower (String.ofList keyword.toList) ∈ presenceWords := by
    rw [String.ofList_toList, lowKeyword]
    exact asks
  have reads := ReadsAtom.presence (isSolid_of_name (List.mem_append_right fieldNames asks))
    isKeyword notEmpty (.alone solid)
  rw [String.ofList_toList, String.ofList_toList, lowKeyword, lowName, List.append_nil] at reads
  rw [text_exists asks]
  exact reads

/-- A field is read again from what is written for it. -/
theorem readsAtom_field {name value : String} {comparison : Comparison} {quoted : Bool}
    {rest start : List Char} {expression : Expr} (known : name ∈ fieldNames)
    (lowName : Text.lower name = name)
    (single : (writtenSign comparison ++ ((Expr.valueText value).toList ++ rest)).head? ≠ some ':')
    (stands : StandsBefore comparison ((Expr.valueText value).toList ++ rest))
    (reads : ReadsValue (Expr.valueText value).toList value quoted [])
    (made : fieldExpr name comparison value quoted start = .ok expression) :
    ReadsAtom expression.text.toList expression [] := by
  have listed := List.mem_append_left presenceWords known
  have isName : Text.lower (String.ofList name.toList) = name := by
    rw [String.ofList_toList, lowName]
  have signed : (writtenSign comparison ++ (Expr.valueText value).toList).head? ≠ some ':' := by
    rw [← List.append_assoc, List.head?_append_of_ne_nil] at single
    · exact single
    · exact List.append_ne_nil_of_right_ne_nil _ reads.ne_nil
  rw [text_of_fieldExpr made (names_are_solid _ listed).1 reads.valueText_eq]
  refine .field (isSolid_of_name listed) ?_ signed ((standsBefore_append reads.ne_nil _).mp stands)
    reads ?_
  · rw [isName]
    exact known
  · rw [isName]
    exact fieldExpr_ok_of_ok made _

theorem IsSolid.quote_not_mem {word : List Char} (solid : IsSolid ['"', ':'] word) : '"' ∉ word :=
  fun member => (solid _ member).2 List.mem_cons_self

/-- A word that no colon ends ends at a blank or at a quote. -/
theorem IsWord.ends_of_noColon {word rest : List Char} (isWord : IsWord ['"', ':'] word rest)
    (noColon : rest.head? ≠ some ':') :
    ∀ head ∈ rest.head?, Text.isBlank head = true ∨ head ∈ ['"'] := by
  intro head first
  refine (isWord.ends head first).imp_right fun stop => ?_
  rcases List.mem_cons.mp stop with rfl | colon
  · exact List.mem_cons_self
  · rw [List.mem_singleton.mp colon] at first
    exact absurd first noColon

/-- What is written for an atom is read as the same atom, and what follows the atom is clear. -/
theorem ReadsAtom.readsBack {characters rest before : List Char} {expression : Expr}
    (reads : ReadsAtom characters expression rest) (noQuote : '"' ∉ before)
    (noColon : rest.head? ≠ some ':') (clear : quotesAreClear (before ++ characters) = true) :
    ReadsAtom expression.text.toList expression [] ∧ quotesAreClear rest = true := by
  cases reads with
  | @phrase inside rest free =>
      rw [quotesAreClear_quoted noQuote free] at clear
      simp only [Bool.and_eq_true] at clear
      refine ⟨?_, clear.2⟩
      rw [Expr.text, valueText_of_needsQuotes clear.1.2]
      exact .phrase free
  | @word word rest notEmpty isWord noField =>
      have noQuotes : '"' ∉ before ++ word := by simp [noQuote, isWord.solid.quote_not_mem]
      rw [← List.append_assoc] at clear
      refine ⟨?_, quotesAreClear_of_word noQuotes (isWord.ends_of_noColon noColon) clear⟩
      rw [text_bareWord notEmpty fun character member => (isWord.solid character member).1,
        String.toList_ofList]
      have alone := ReadsAtom.word notEmpty (.alone isWord.solid) (fun first => nomatch first)
      rw [List.append_nil] at alone
      exact alone
  | @presence word name rest solid asks notEmpty isName =>
      have noQuotes : '"' ∉ before ++ word ++ ':' :: name := by
        simp [noQuote, solid.quote_not_mem, isName.solid.quote_not_mem]
      have whole : before ++ (word ++ ':' :: (name ++ rest)) =
          (before ++ word ++ ':' :: name) ++ rest := by simp
      rw [whole] at clear
      refine ⟨?_, quotesAreClear_of_word noQuotes (isName.ends_of_noColon noColon) clear⟩
      refine readsAtom_exists asks (Text.lower_lower _) (Text.lower_lower _) ?_ isName.solid.lower
      apply Text.lower_ne_empty
      rw [String.toList_ofList]
      exact notEmpty
  | @field word characters rest comparison value quoted expression solid known single stands reads
      made =>
      have noSign : '"' ∉ writtenSign comparison := by cases comparison <;> decide
      have noQuotes : '"' ∉ before ++ word ++ ':' :: writtenSign comparison := by
        simp [noQuote, solid.quote_not_mem, noSign]
      have whole : before ++ (word ++ ':' :: (writtenSign comparison ++ characters)) =
          (before ++ word ++ ':' :: writtenSign comparison) ++ characters := by simp
      rw [whole] at clear
      rcases reads.readsBack noQuotes clear with ⟨rfl, again, clearRest⟩
      exact ⟨readsAtom_field known (Text.lower_lower _) single stands again made, clearRest⟩

/-- Whether a text begins with neither a dash nor the keyword. -/
def StartsPlain (characters : List Char) : Prop :=
  characters.head? ≠ some '-' ∧ startsWithOr characters = false

theorem startsPlain_of_name {name : String} (known : name ∈ fieldNames ++ presenceWords)
    (more : List Char) : StartsPlain (name.toList ++ more) := by
  have solid := (names_are_solid name known).2
  have notEmpty := toList_ne_nil (names_are_solid name known).1
  have noDash := solid.head?_beq notEmpty (by decide : '-' ∈ ['"', ':', '-', 'O']) more
  have noCapital := solid.head?_beq notEmpty (by decide : 'O' ∈ ['"', ':', '-', 'O']) more
  refine ⟨beq_eq_false_iff_ne.mp noDash, ?_⟩
  rw [← Bool.not_eq_true, startsWithOr_eq_true_iff]
  rintro ⟨rest, same, _⟩
  rw [same] at noCapital
  cases noCapital

/-- A quote directly after the word `OR` is not clear. -/
theorem quotesAreClear_or (rest : List Char) :
    ¬quotesAreClear (['O', 'R'] ++ '"' :: rest) = true := by
  rw [quotesAreClear, splitOn_quote (by decide)]
  cases parts : rest.splitOn '"' with
  | nil => exact absurd parts (List.splitOn_ne_nil '"' rest)
  | cons inside more =>
      have ends : endsInOr ['O', 'R'] = true := by decide
      rw [partsAreClear, ends]
      exact Bool.false_ne_true

/-- A word that is not read as the keyword is not `OR`, unless a quote follows it. -/
theorem startsPlain_of_word {word rest : List Char} (notEmpty : word ≠ [])
    (isWord : IsWord ['"', ':'] word rest) (noField : rest.head? ≠ some ':')
    (clear : quotesAreClear (word ++ rest) = true) (plain : StartsPlain (word ++ rest)) :
    StartsPlain word := by
  constructor
  · rw [← List.head?_append_of_ne_nil word notEmpty]
    exact plain.1
  · rw [← Bool.not_eq_true, startsWithOr_eq_true_iff]
    rintro ⟨more, rfl, alone⟩
    have noMore : more = [] := by
      cases more with
      | nil => rfl
      | cons head tail =>
          have solid := (isWord.solid head (by simp)).1
          rw [alone head rfl] at solid
          cases solid
    subst noMore
    cases rest with
    | nil => cases plain.2
    | cons head tail =>
        have notBlank : Text.isBlank head = false := plain.2
        rcases isWord.ends_of_noColon noField head rfl with blank | quote
        · rw [notBlank] at blank
          cases blank
        · rw [List.mem_singleton.mp quote] at clear
          exact quotesAreClear_or tail clear

theorem ReadsAtom.startsPlain {characters rest : List Char} {expression : Expr}
    (reads : ReadsAtom characters expression rest) (clear : quotesAreClear characters = true)
    (plain : StartsPlain characters) : StartsPlain expression.text.toList := by
  cases reads with
  | phrase free =>
      rw [← List.nil_append ('"' :: _), quotesAreClear_quoted (by decide) free] at clear
      simp only [Bool.and_eq_true] at clear
      rw [Expr.text, valueText_of_needsQuotes clear.1.2]
      exact ⟨by simp, rfl⟩
  | word notEmpty isWord noField =>
      rw [text_bareWord notEmpty fun character member => (isWord.solid character member).1,
        String.toList_ofList]
      exact startsPlain_of_word notEmpty isWord noField clear plain
  | presence _ asks =>
      rw [text_exists asks]
      exact startsPlain_of_name (List.mem_append_right _ asks) _
  | field _ known _ _ reads made =>
      have listed := List.mem_append_left presenceWords known
      rw [text_of_fieldExpr made (names_are_solid _ listed).1 reads.valueText_eq]
      exact startsPlain_of_name listed _

/-- What is written for an expression is read as this expression alone. -/
def ReadsBack (expression : Expr) : Prop :=
  Spells expression.text.toList [some expression]

theorem ReadsExpr.readsBack {start rest : List Char} {expression : Expr}
    (reads : ReadsExpr start expression rest) (noKeyword : startsWithOr start = false)
    (noColon : rest.head? ≠ some ':') (clear : quotesAreClear start = true) :
    ReadsBack expression ∧ quotesAreClear rest = true := by
  cases reads with
  | plain noDash reads =>
      have noQuote : '"' ∉ ([] : List Char) := List.not_mem_nil
      rcases reads.readsBack noQuote noColon clear with ⟨again, clearRest⟩
      have plain := reads.startsPlain clear ⟨noDash, noKeyword⟩
      exact ⟨.expr plain.2 (.plain plain.1 again) .done, clearRest⟩
  | negated reads =>
      have noQuote : '"' ∉ ['-'] := by decide
      rcases reads.readsBack noQuote noColon clear with ⟨again, clearRest⟩
      rw [ReadsBack, Expr.text, String.toList_append]
      exact ⟨.expr rfl (.negated again) .done, clearRest⟩

theorem ReadsExpr.head?_ne_colon {start rest : List Char} {expression : Expr}
    (reads : ReadsExpr start expression rest) : start.head? ≠ some ':' := by
  have word : ∀ {word : List Char}, IsSolid ['"', ':'] word → word ≠ [] → ∀ more,
      (word ++ more).head? ≠ some ':' := by
    intro word solid notEmpty more
    exact beq_eq_false_iff_ne.mp (solid.head?_beq notEmpty (by decide) more)
  cases reads with
  | negated => exact fun same => by cases same
  | plain _ reads =>
      cases reads with
      | phrase => exact fun same => by cases same
      | word notEmpty isWord => exact word isWord.solid notEmpty _
      | presence solid asks => exact word solid (ne_nil_of_known (by decide) asks) _
      | field solid known => exact word solid (ne_nil_of_known (by decide) known) _

/-- Nothing that can be read begins with a colon. -/
theorem Spells.head?_ne_colon {text : List Char} {marks : List (Option Expr)}
    (spells : Spells text marks) : text.head? ≠ some ':' := by
  cases spells with
  | done | keyword => exact fun same => by cases same
  | blank isBlank =>
      intro same
      rw [Option.some.inj same] at isBlank
      revert isBlank
      decide
  | expr _ reads => exact reads.head?_ne_colon

/-- All expressions of a text with clear quotes read back. -/
theorem Spells.readsBack {text : List Char} {marks : List (Option Expr)}
    (spells : Spells text marks) (clear : quotesAreClear text = true) {expression : Expr}
    (member : some expression ∈ marks) : ReadsBack expression := by
  induction spells with
  | done => cases member
  | blank isBlank _ inductionHypothesis =>
      exact inductionHypothesis (quotesAreClear_of_blank isBlank clear) member
  | keyword alone _ inductionHypothesis =>
      refine inductionHypothesis ?_ (List.mem_of_ne_of_mem (by exact Option.some_ne_none _) member)
      have noQuote : '"' ∉ ['O', 'R'] := by decide
      exact quotesAreClear_of_word noQuote (fun head first => .inl (alone head first)) clear
  | expr noKeyword reads spells inductionHypothesis =>
      rcases reads.readsBack noKeyword spells.head?_ne_colon clear with ⟨back, clearRest⟩
      rcases List.mem_cons.mp member with same | later
      · rw [Option.some.inj same]
        exact back
      · exact inductionHypothesis clearRest later

/-! ## Texts of queries -/

theorem texts_eq (expressions : List Expr) :
    Expr.texts expressions = expressions.map Expr.text := by
  induction expressions with
  | nil => rfl
  | cons head tail inductionHypothesis => rw [Expr.texts, inductionHypothesis, List.map_cons]

/-- The expressions of a chain are written side by side, and so they are read. -/
theorem spells_intercalate {chain : List Expr}
    (readBack : ∀ expression ∈ chain, ReadsBack expression) :
    Spells (" ".intercalate (Expr.texts chain)).toList (chain.map some) := by
  rw [texts_eq, String.toList_intercalate, List.map_map]
  induction chain with
  | nil => exact .done
  | cons head tail inductionHypothesis =>
      have parts := List.forall_mem_cons.mp readBack
      cases tail with
      | nil =>
          rw [List.map_singleton, List.intercalate_singleton]
          exact parts.1
      | cons next rest =>
          have later := inductionHypothesis parts.2
          rw [List.map_cons, List.map_cons, List.intercalate_cons_cons, List.append_assoc]
          exact parts.1.append (fun _ first => by cases first; decide) (.blank (by decide) later)

theorem text_conjunction (chain : List Expr) :
    (Expr.conjunction chain).text = " ".intercalate (Expr.texts chain) := by
  match chain with
  | [] | _ :: _ :: _ => rfl
  | [expression] => rfl

/-- A disjunction is written with the keyword between its chains, and so it is read. -/
theorem spells_foldl_or {tree : Expr} {before rest : List (List Expr)}
    (spells : Spells tree.text.toList (marksOf before)) (someBefore : before ≠ [])
    (readBack : ∀ chain ∈ rest, ∀ expression ∈ chain, ReadsBack expression) :
    Spells (rest.foldl (fun left chain => Expr.or left (.conjunction chain)) tree).text.toList
      (marksOf (before ++ rest)) := by
  induction rest generalizing tree before with
  | nil =>
      rw [List.append_nil]
      exact spells
  | cons chain rest inductionHypothesis =>
      have parts := List.forall_mem_cons.mp readBack
      have last := spells_intercalate parts.1
      rw [← text_conjunction] at last
      have joined : Spells (Expr.or tree (.conjunction chain)).text.toList
          (marksOf (before ++ [chain])) := by
        have text : (Expr.or tree (.conjunction chain)).text.toList = tree.text.toList ++
            ' ' :: 'O' :: 'R' :: ' ' :: (Expr.conjunction chain).text.toList := by
          simp [Expr.text]
        rw [text, marksOf_append someBefore (List.cons_ne_nil _ _)]
        refine spells.append (fun _ first => by cases first; decide) (.blank (by decide) ?_)
        exact .keyword (fun _ first => by cases first; decide) (.blank (by decide) last)
      rw [List.foldl_cons, ← List.singleton_append, ← List.append_assoc]
      exact inductionHypothesis joined (List.append_ne_nil_of_right_ne_nil _ (List.cons_ne_nil _ _))
        parts.2

theorem spells_joinChains {chains : List (List Expr)} (someChain : chains ≠ [])
    (readBack : ∀ chain ∈ chains, ∀ expression ∈ chain, ReadsBack expression) (raw : String) :
    Spells (Query.mk (joinChains chains) raw).text.toList (marksOf chains) := by
  match chains, someChain with
  | [chain], _ => exact spells_intercalate (readBack chain List.mem_cons_self)
  | first :: second :: rest, _ =>
      have parts := List.forall_mem_cons.mp readBack
      have begins : Spells (Expr.conjunction first).text.toList (marksOf [first]) := by
        rw [text_conjunction]
        exact spells_intercalate parts.1
      exact spells_foldl_or begins (List.cons_ne_nil _ _) parts.2

/-- Parsing what is written for a query that was read gives the same expressions, and so the same
text, when the quotes of the input are clear. -/
theorem parse_text {input : String} {query : Query} (parsed : parse input = .ok query)
    (clear : quotesAreClear input.toList = true) :
    parse query.text = .ok { query with raw := query.text } ∧
      (parse query.text).map Query.text = .ok query.text := by
  rcases parse_eq_ok.mp parsed with ⟨chains, reads, rfl⟩
  have readBack : ∀ chain ∈ chains, ∀ expression ∈ chain, ReadsBack expression :=
    fun _ inChains _ inChain => reads.spells.readsBack clear (mem_marksOf inChain inChains)
  have written : ReadsChains (Query.mk (joinChains chains) input).text.toList chains :=
    ⟨spells_joinChains reads.proper.ne_nil readBack input, reads.proper⟩
  have again := written.parse.1
  refine ⟨again, ?_⟩
  rw [again]
  rfl

theorem parse_text_of_disjunction :
    parse "tag:work  -\"project plan\"OR created:>=2024-01-01" =
        .ok ⟨[.or (.and [.field "tag" .equals "work", .not (.term "project plan")])
          (.date "created" .atLeast "2024-01-01")],
          "tag:work  -\"project plan\"OR created:>=2024-01-01"⟩ ∧
      parse "tag:work -\"project plan\" OR created:>=2024-01-01" =
        .ok ⟨[.or (.and [.field "tag" .equals "work", .not (.term "project plan")])
          (.date "created" .atLeast "2024-01-01")],
          "tag:work -\"project plan\" OR created:>=2024-01-01"⟩ := by
  have parsed : parse "tag:work  -\"project plan\"OR created:>=2024-01-01" =
      .ok ⟨[.or (.and [.field "tag" .equals "work", .not (.term "project plan")])
        (.date "created" .atLeast "2024-01-01")],
        "tag:work  -\"project plan\"OR created:>=2024-01-01"⟩ := by rfl
  exact ⟨parsed, (parse_text parsed (by rfl)).1⟩

end QueryLanguage
end Commonplace
