import Commonplace.Proofs.Text.Lowering
import Commonplace.Proofs.Text.Trimming
import Commonplace.Query.Parser
import Mathlib.Data.List.TakeDrop
import Mathlib.Data.List.TakeWhile

namespace Commonplace
namespace QueryLanguage

/-!
# What the readers accept

Each reader of a query text accepts the texts of one shape and leaves what follows.  The shapes are
relations between a text, what is read from it, and the rest.  They say nothing of faults, and they
do not depend on the rest beyond its first character, so a reader reads the same when the rest goes
on.
-/

/-! ## Words -/

theorem toList_ne_nil {text : String} (notEmpty : text ≠ "") : text.toList ≠ [] :=
  fun empty => notEmpty (String.toList_eq_nil_iff.mp empty)

/-- Whether a text is empty or begins with a blank. -/
def BeginsBlank (characters : List Char) : Prop :=
  ∀ head ∈ characters.head?, Text.isBlank head = true

/-- Whether a text begins with a character that is not blank. -/
def BeginsSolid (characters : List Char) : Prop :=
  ∃ head tail, characters = head :: tail ∧ Text.isBlank head = false

theorem BeginsBlank.append {first second : List Char} (firstBlank : BeginsBlank first)
    (secondBlank : BeginsBlank second) : BeginsBlank (first ++ second) := by
  cases first with
  | nil => exact secondBlank
  | cons head tail => exact firstBlank

theorem BeginsSolid.append {characters : List Char} (solid : BeginsSolid characters)
    (more : List Char) : BeginsSolid (characters ++ more) := by
  rcases solid with ⟨head, tail, rfl, notBlank⟩
  exact ⟨head, tail ++ more, rfl, notBlank⟩

theorem BeginsSolid.ne_nil {characters : List Char} (solid : BeginsSolid characters) :
    characters ≠ [] := by
  rcases solid with ⟨head, tail, rfl, _⟩
  exact List.cons_ne_nil head tail

/-- Whether the characters of a word are neither blanks nor stops. -/
def IsSolid (stops word : List Char) : Prop :=
  ∀ character ∈ word, Text.isBlank character = false ∧ character ∉ stops

-- Instances are also found by going through all characters there are, which is not to be tried.
instance (stops word : List Char) : Decidable (IsSolid stops word) :=
  List.decidableBAll _ word

/-- Whether a word ends in front of a rest. -/
structure IsWord (stops word rest : List Char) : Prop where
  solid : IsSolid stops word
  ends : ∀ head ∈ rest.head?, Text.isBlank head = true ∨ head ∈ stops

theorem keeps_eq_true_iff (stops : List Char) (character : Char) :
    (!Text.isBlank character && !stops.contains character) = true ↔
      Text.isBlank character = false ∧ character ∉ stops := by
  simp

theorem wordChars_append_afterWord (stops characters : List Char) :
    wordChars stops characters ++ afterWord stops characters = characters :=
  List.takeWhile_append_dropWhile

theorem isWord_wordChars (stops characters : List Char) :
    IsWord stops (wordChars stops characters) (afterWord stops characters) where
  solid := by
    intro character member
    rw [wordChars] at member
    have keeps := List.mem_takeWhile_imp member
    exact (keeps_eq_true_iff stops character).mp keeps
  ends := by
    intro head first
    have stays := Text.stays_of_mem_head?_dropWhile first
    by_contra keeps
    rw [not_or, Bool.not_eq_true] at keeps
    rw [(keeps_eq_true_iff stops head).mpr keeps] at stays
    cases stays

namespace IsWord

variable {stops word rest : List Char}

theorem wordChars_eq (isWord : IsWord stops word rest) :
    wordChars stops (word ++ rest) = word := by
  have kept := fun character member =>
    (keeps_eq_true_iff stops character).mpr (isWord.solid character member)
  rw [wordChars, List.takeWhile_append_of_pos kept]
  cases rest with
  | nil => exact List.append_nil word
  | cons head tail =>
      have stays := isWord.ends head rfl
      rw [List.takeWhile_cons_of_neg, List.append_nil]
      rw [keeps_eq_true_iff]
      rcases stays with blank | stop <;> simp [*]

theorem afterWord_eq (isWord : IsWord stops word rest) :
    afterWord stops (word ++ rest) = rest := by
  have whole := wordChars_append_afterWord stops (word ++ rest)
  rw [isWord.wordChars_eq] at whole
  exact List.append_cancel_left whole

/-- A word ends at the end of the text, and also when a blank follows there. -/
theorem append (isWord : IsWord stops word rest) {more : List Char} (blank : BeginsBlank more) :
    IsWord stops word (rest ++ more) where
  solid := isWord.solid
  ends := by
    cases rest with
    | nil => exact fun head first => .inl (blank head first)
    | cons head tail => exact isWord.ends

theorem alone (solid : IsSolid stops word) : IsWord stops word [] where
  solid := solid
  ends := fun _ first => nomatch first

end IsWord

theorem exists_isWord (stops characters : List Char) :
    ∃ word rest, characters = word ++ rest ∧ IsWord stops word rest :=
  ⟨_, _, (wordChars_append_afterWord stops characters).symm, isWord_wordChars stops characters⟩

theorem IsSolid.begins {stops word : List Char} (solid : IsSolid stops word)
    (notEmpty : word ≠ []) : BeginsSolid word := by
  cases word with
  | nil => exact absurd rfl notEmpty
  | cons head tail => exact ⟨head, tail, rfl, (solid head List.mem_cons_self).1⟩

/-- A solid word does not begin with a stop. -/
theorem IsSolid.head?_beq {stops word : List Char} (solid : IsSolid stops word)
    (notEmpty : word ≠ []) {stop : Char} (isStop : stop ∈ stops) (rest : List Char) :
    ((word ++ rest).head? == some stop) = false := by
  cases word with
  | nil => exact absurd rfl notEmpty
  | cons head tail =>
      apply beq_eq_false_iff_ne.mpr
      intro same
      rw [← Option.some.inj same] at isStop
      exact (solid head List.mem_cons_self).2 isStop

/-! ## Quotes, signs and values -/

/-- A changed result comes from a result. -/
theorem map_eq_ok {fault first second : Type} {action : Except fault first}
    {change : first -> second} {result : second} :
    action.map change = .ok result ↔ ∃ value, action = .ok value ∧ change value = result := by
  cases action <;> simp [Except.map]

/-- A quoted value goes from the opening quote to the next one. -/
theorem readQuoted_eq_ok {tail rest : List Char} {value : String} :
    readQuoted ('"' :: tail) = .ok (value, rest) ↔
      ∃ inside, tail = inside ++ '"' :: rest ∧ '"' ∉ inside ∧ value = String.ofList inside := by
  have isInside : ∀ character : Char, (character != '"') = true ↔ character ≠ '"' :=
    fun character => bne_iff_ne
  constructor
  · intro reads
    have split := List.takeWhile_append_dropWhile (p := fun character => character != '"')
      (l := tail)
    unfold readQuoted at reads
    dsimp only [List.tail_cons] at reads
    cases after : tail.dropWhile (fun character => character != '"') with
    | nil =>
        rw [after] at reads
        cases reads
    | cons head others =>
        have first : head ∈ (tail.dropWhile fun character => character != '"').head? := by
          rw [after]
          rfl
        have stays := Text.stays_of_mem_head?_dropWhile first
        have closes : head = '"' := by simpa using stays
        rw [after] at reads split
        have parts := Prod.mk.inj (Except.ok.inj reads)
        refine ⟨tail.takeWhile (fun character => character != '"'), ?_, ?_, parts.1.symm⟩
        · rw [← parts.2]
          subst closes
          exact split.symm
        · intro member
          have keeps := List.mem_takeWhile_imp member
          exact (isInside _).mp keeps rfl
  · rintro ⟨inside, rfl, free, rfl⟩
    have kept : ∀ character ∈ inside, (character != '"') = true := by
      intro character member
      rw [isInside]
      rintro rfl
      exact free member
    unfold readQuoted
    dsimp only [List.tail_cons]
    rw [List.dropWhile_append_of_pos kept, List.takeWhile_append_of_pos kept]
    simp

/-- The sign of a comparison as it is written: only an order has one. -/
def writtenSign (comparison : Comparison) : List Char :=
  if comparison.isOrdering then comparison.sign.toList else []

/-- Whether a comparison can stand in front of a rest, which does not make another sign of it. -/
def StandsBefore (comparison : Comparison) (rest : List Char) : Prop :=
  match comparison with
  | .equals => rest.head? ≠ some '>' ∧ rest.head? ≠ some '<'
  | .greater | .less => rest.head? ≠ some '='
  | .atLeast | .atMost => True
  | .startsWith | .endsWith => False

theorem head?_ne_some_iff {characters : List Char} {character : Char} :
    characters.head? ≠ some character ↔ ∀ tail, characters ≠ character :: tail := by
  cases characters <;> simp

theorem readComparison_eq_iff {characters rest : List Char} {comparison : Comparison} :
    readComparison characters = (comparison, rest) ↔
      characters = writtenSign comparison ++ rest ∧ StandsBefore comparison rest := by
  constructor
  · intro reads
    unfold readComparison at reads
    split at reads <;> cases reads <;> simp_all [writtenSign, Comparison.isOrdering,
      Comparison.sign, StandsBefore, head?_ne_some_iff]
  · rintro ⟨rfl, stands⟩
    cases comparison with
    | startsWith | endsWith => cases stands
    | atLeast | atMost => rfl
    | greater | less =>
        have noSign := head?_ne_some_iff.mp stands
        simp [writtenSign, Comparison.isOrdering, Comparison.sign, readComparison]
    | equals =>
        have noGreater := head?_ne_some_iff.mp stands.1
        have noLess := head?_ne_some_iff.mp stands.2
        change readComparison rest = (.equals, rest)
        unfold readComparison
        split <;> simp_all

theorem standsBefore_append {comparison : Comparison} {rest : List Char} (notEmpty : rest ≠ [])
    (more : List Char) : StandsBefore comparison (rest ++ more) ↔ StandsBefore comparison rest := by
  cases rest with
  | nil => exact absurd rfl notEmpty
  | cons head tail => exact Iff.rfl

/-- A value as it is read: quoted, or up to the next blank or quote. -/
inductive ReadsValue : List Char -> String -> Bool -> List Char -> Prop where
  | quoted {inside rest : List Char} (free : '"' ∉ inside) :
      ReadsValue ('"' :: (inside ++ '"' :: rest)) (String.ofList inside) true rest
  | plain {word rest : List Char} (notEmpty : word ≠ []) (isWord : IsWord ['"'] word rest) :
      ReadsValue (word ++ rest) (String.ofList word) false rest

theorem readValue_eq_ok {name value : String} {characters rest : List Char} {quoted : Bool} :
    readValue name characters = .ok (value, quoted, rest) ↔
      ReadsValue characters value quoted rest := by
  constructor
  · intro reads
    unfold readValue at reads
    split at reads
    · rename_i opens
      rcases List.head?_eq_some_iff.mp (beq_iff_eq.mp opens) with ⟨tail, rfl⟩
      rcases map_eq_ok.mp reads with ⟨found, readsQuoted, same⟩
      cases same
      rcases readQuoted_eq_ok.mp readsQuoted with ⟨inside, rfl, free, same⟩
      rw [same]
      exact .quoted free
    · rcases exists_isWord ['"'] characters with ⟨word, after, rfl, isWord⟩
      rw [isWord.wordChars_eq, isWord.afterWord_eq] at reads
      split at reads
      · cases reads
      · rename_i notEmpty
        cases reads
        exact .plain notEmpty isWord
  · intro reads
    cases reads with
    | @quoted inside rest free =>
        have readsQuoted : readQuoted ('"' :: (inside ++ '"' :: rest)) =
            .ok (String.ofList inside, rest) := readQuoted_eq_ok.mpr ⟨inside, rfl, free, rfl⟩
        unfold readValue
        rw [List.head?_cons, beq_self_eq_true, if_pos rfl, readsQuoted]
        rfl
    | @plain word rest notEmpty isWord =>
        unfold readValue
        rw [isWord.solid.head?_beq notEmpty (by decide), isWord.wordChars_eq, isWord.afterWord_eq]
        cases word with
        | nil => exact absurd rfl notEmpty
        | cons head tail => rfl

namespace ReadsValue

variable {characters rest : List Char} {value : String} {quoted : Bool}

theorem length_lt (reads : ReadsValue characters value quoted rest) :
    rest.length < characters.length := by
  cases reads with
  | quoted =>
      simp only [List.length_append, List.length_cons]
      omega
  | plain notEmpty =>
      have some := List.length_pos_of_ne_nil notEmpty
      rw [List.length_append]
      omega

theorem ne_nil (reads : ReadsValue characters value quoted rest) : characters ≠ [] := by
  cases reads with
  | quoted => exact List.cons_ne_nil _ _
  | plain notEmpty => exact List.append_ne_nil_of_left_ne_nil notEmpty _

theorem append (reads : ReadsValue characters value quoted rest) {more : List Char}
    (blank : BeginsBlank more) : ReadsValue (characters ++ more) value quoted (rest ++ more) := by
  cases reads with
  | quoted free =>
      rw [List.cons_append, List.append_assoc, List.cons_append]
      exact .quoted free
  | plain notEmpty isWord =>
      rw [List.append_assoc]
      exact .plain notEmpty (isWord.append blank)

end ReadsValue

/-! ## Expressions -/

/-- A failure to make an expression of a field is a matter of its value alone. -/
theorem fieldExpr_ok_of_ok {name value : String} {comparison : Comparison} {quoted : Bool}
    {first : List Char} {expression : Expr}
    (made : fieldExpr name comparison value quoted first = .ok expression) (second : List Char) :
    fieldExpr name comparison value quoted second = .ok expression := by
  unfold fieldExpr dateExpr at made ⊢
  split at made
  · rename_i isDate
    rw [if_pos isDate]
    split at made
    · rename_i whole
      rw [if_pos whole]
      exact made
    · rename_i notWhole
      rw [if_neg notWhole]
      split at made
      · split at made
        · cases made
        · rename_i sides _ bothSides
          rw [if_neg bothSides]
          exact made
      · exact made
  · rename_i notDate
    rw [if_neg notDate]
    exact made

/-- An expression without a dash, as it is read from a text that begins with it. -/
inductive ReadsAtom : List Char -> Expr -> List Char -> Prop where
  | phrase {inside rest : List Char} (free : '"' ∉ inside) :
      ReadsAtom ('"' :: (inside ++ '"' :: rest)) (.term (String.ofList inside)) rest
  | word {word rest : List Char} (notEmpty : word ≠ []) (isWord : IsWord ['"', ':'] word rest)
      (noField : rest.head? ≠ some ':') :
      ReadsAtom (word ++ rest) (bareWord (String.ofList word)) rest
  | presence {word name rest : List Char} (solid : IsSolid ['"', ':'] word)
      (asks : Text.lower (String.ofList word) ∈ presenceWords) (notEmpty : name ≠ [])
      (isName : IsWord ['"', ':'] name rest) :
      ReadsAtom (word ++ ':' :: (name ++ rest))
        (.exists (Text.lower (String.ofList name)) (Text.lower (String.ofList word) == "missing"))
        rest
  | field {word characters rest : List Char} {comparison : Comparison} {value : String}
      {quoted : Bool} {expression : Expr} (solid : IsSolid ['"', ':'] word)
      (known : Text.lower (String.ofList word) ∈ fieldNames)
      (single : (writtenSign comparison ++ characters).head? ≠ some ':')
      (stands : StandsBefore comparison characters)
      (reads : ReadsValue characters value quoted rest)
      (made : fieldExpr (Text.lower (String.ofList word)) comparison value quoted characters =
        .ok expression) :
      ReadsAtom (word ++ ':' :: (writtenSign comparison ++ characters)) expression rest

/-- No word asks for presence and names a field. -/
theorem not_presenceWord_of_fieldName : ∀ name ∈ fieldNames, name ∉ presenceWords := by
  decide

theorem ne_nil_of_known {word : List Char} {names : List String} (noEmpty : "" ∉ names)
    (known : Text.lower (String.ofList word) ∈ names) : word ≠ [] := by
  rintro rfl
  exact noEmpty known

namespace ReadsAtom

variable {characters rest : List Char} {expression : Expr}

theorem begins (reads : ReadsAtom characters expression rest) : BeginsSolid characters := by
  cases reads with
  | phrase => exact ⟨'"', _, rfl, by decide⟩
  | word notEmpty isWord => exact (isWord.solid.begins notEmpty).append _
  | presence solid asks => exact (solid.begins (ne_nil_of_known (by decide) asks)).append _
  | field solid known => exact (solid.begins (ne_nil_of_known (by decide) known)).append _

theorem length_lt (reads : ReadsAtom characters expression rest) :
    rest.length < characters.length := by
  cases reads with
  | word notEmpty =>
      have some := List.length_pos_of_ne_nil notEmpty
      rw [List.length_append]
      omega
  | phrase | presence =>
      simp only [List.length_append, List.length_cons]
      omega
  | field _ _ _ _ reads =>
      have value := reads.length_lt
      simp only [List.length_append, List.length_cons]
      omega

/-- What is read does not depend on what follows after a blank. -/
theorem append (reads : ReadsAtom characters expression rest) {more : List Char}
    (blank : BeginsBlank more) : ReadsAtom (characters ++ more) expression (rest ++ more) := by
  cases reads with
  | phrase free =>
      rw [List.cons_append, List.append_assoc, List.cons_append]
      exact .phrase free
  | @word word rest notEmpty isWord noField =>
      rw [List.append_assoc]
      refine .word notEmpty (isWord.append blank) ?_
      cases rest with
      | cons head tail => exact noField
      | nil =>
          intro colon
          have isBlank := blank ':' colon
          revert isBlank
          decide
  | presence solid asks notEmpty isName =>
      rw [List.append_assoc, List.cons_append, List.append_assoc]
      exact .presence solid asks notEmpty (isName.append blank)
  | field solid known single stands reads made =>
      rw [List.append_assoc, List.cons_append, List.append_assoc]
      have standing := (standsBefore_append reads.ne_nil more).mpr stands
      refine .field solid known ?_ standing (reads.append blank) (fieldExpr_ok_of_ok made _)
      rw [← List.append_assoc, List.head?_append_of_ne_nil]
      · exact single
      · exact List.append_ne_nil_of_right_ne_nil _ reads.ne_nil

end ReadsAtom

/-! ## The readers of expressions -/

theorem readPresence_eq_ok {keyword : String} {characters rest : List Char} {expression : Expr} :
    readPresence keyword characters = .ok (expression, rest) ↔
      ∃ name, name ≠ [] ∧ characters = name ++ rest ∧ IsWord ['"', ':'] name rest ∧
        expression = .exists (Text.lower (String.ofList name)) (keyword == "missing") := by
  unfold readPresence
  constructor
  · intro reads
    rcases exists_isWord ['"', ':'] characters with ⟨name, after, rfl, isName⟩
    rw [isName.wordChars_eq, isName.afterWord_eq] at reads
    split at reads
    · cases reads
    · rename_i notEmpty
      cases reads
      exact ⟨name, notEmpty, rfl, isName, rfl⟩
  · rintro ⟨name, notEmpty, rfl, isName, rfl⟩
    rw [isName.wordChars_eq, isName.afterWord_eq]
    cases name with
    | nil => exact absurd rfl notEmpty
    | cons head tail => rfl

/-- What follows the colon after a word makes an atom with the word. -/
theorem readsAtom_of_readField {word start characters rest : List Char} {expression : Expr}
    (solid : IsSolid ['"', ':'] word)
    (reads : readField word start characters = .ok (expression, rest)) :
    ReadsAtom (word ++ ':' :: characters) expression rest := by
  unfold readField at reads
  dsimp only at reads
  split at reads
  · cases reads
  · rename_i notDoubled
    have single : characters.head? ≠ some ':' := by simpa using notDoubled
    split at reads
    · rename_i asks
      rcases readPresence_eq_ok.mp reads with ⟨name, notEmpty, rfl, isName, rfl⟩
      exact .presence solid (List.contains_iff_mem.mp asks) notEmpty isName
    · split at reads
      · cases reads
      · rename_i known
        cases compared : readComparison characters with
        | mk comparison valueStart =>
            rw [compared] at reads
            rcases readComparison_eq_iff.mp compared with ⟨rfl, stands⟩
            dsimp only at reads
            cases valued : readValue (Text.lower (String.ofList word)) valueStart with
            | error failure =>
                rw [valued] at reads
                cases reads
            | ok found =>
                rw [valued] at reads
                rcases map_eq_ok.mp reads with ⟨made, makes, same⟩
                cases same
                have isName : Text.lower (String.ofList word) ∈ fieldNames := by simpa using known
                exact .field solid isName single stands (readValue_eq_ok.mp valued) makes

/-- A word that no colon ends stands for itself. -/
theorem readAtom_word {word rest : List Char} (notEmpty : word ≠ [])
    (isWord : IsWord ['"', ':'] word rest) (noField : rest.head? ≠ some ':') :
    readAtom (word ++ rest) = .ok (bareWord (String.ofList word), rest) := by
  unfold readAtom
  rw [isWord.solid.head?_beq notEmpty (by decide), if_neg Bool.false_ne_true,
    isWord.wordChars_eq, isWord.afterWord_eq]
  dsimp only
  split
  · exact absurd rfl noField
  · rfl

/-- A word that a colon ends is the name of a field or a word that asks for presence. -/
theorem readAtom_named {word characters : List Char} (notEmpty : word ≠ [])
    (solid : IsSolid ['"', ':'] word) :
    readAtom (word ++ ':' :: characters) =
      readField word (word ++ ':' :: characters) characters := by
  have isWord : IsWord ['"', ':'] word (':' :: characters) :=
    ⟨solid, fun head first => .inr (by rw [← Option.some.inj first]; decide)⟩
  unfold readAtom
  rw [solid.head?_beq notEmpty (by decide), isWord.wordChars_eq, isWord.afterWord_eq]
  cases word with
  | nil => exact absurd rfl notEmpty
  | cons head tail => rfl

theorem readField_presence {word name rest start : List Char}
    (asks : Text.lower (String.ofList word) ∈ presenceWords) (notEmpty : name ≠ [])
    (isName : IsWord ['"', ':'] name rest) :
    readField word start (name ++ rest) =
      .ok (.exists (Text.lower (String.ofList name))
        (Text.lower (String.ofList word) == "missing"), rest) := by
  unfold readField
  rw [isName.solid.head?_beq notEmpty (by decide), if_neg Bool.false_ne_true,
    if_pos (List.contains_iff_mem.mpr asks)]
  exact readPresence_eq_ok.mpr ⟨name, notEmpty, rfl, isName, rfl⟩

theorem readField_value {word characters rest start : List Char} {comparison : Comparison}
    {value : String} {quoted : Bool} {expression : Expr}
    (known : Text.lower (String.ofList word) ∈ fieldNames)
    (single : (writtenSign comparison ++ characters).head? ≠ some ':')
    (stands : StandsBefore comparison characters)
    (reads : ReadsValue characters value quoted rest)
    (made : fieldExpr (Text.lower (String.ofList word)) comparison value quoted characters =
      .ok expression) :
    readField word start (writtenSign comparison ++ characters) = .ok (expression, rest) := by
  have notDoubled := beq_eq_false_iff_ne.mpr single
  have notPresence := not_presenceWord_of_fieldName _ known
  have compared := readComparison_eq_iff.mpr ⟨rfl, stands⟩
  have valued : readValue (Text.lower (String.ofList word)) characters =
      .ok (value, quoted, rest) := readValue_eq_ok.mpr reads
  unfold readField
  dsimp only
  rw [notDoubled, if_neg Bool.false_ne_true, if_neg (by simpa using notPresence),
    if_neg (by simpa using known), compared]
  dsimp only
  rw [valued]
  dsimp only
  rw [made]
  rfl

/-- An atom is read just where a text begins with one. -/
theorem readAtom_eq_ok {characters rest : List Char} {expression : Expr}
    (begins : BeginsSolid characters) :
    readAtom characters = .ok (expression, rest) ↔ ReadsAtom characters expression rest := by
  constructor
  · intro reads
    by_cases opens : characters.head? = some '"'
    · rcases List.head?_eq_some_iff.mp opens with ⟨tail, rfl⟩
      rcases map_eq_ok.mp reads with ⟨found, readsQuoted, same⟩
      cases same
      rcases readQuoted_eq_ok.mp readsQuoted with ⟨inside, rfl, free, same⟩
      rw [same]
      exact .phrase free
    · rcases exists_isWord ['"', ':'] characters with ⟨word, after, rfl, isWord⟩
      -- The first character is neither a blank nor a quote, so the word is empty at a colon only.
      by_cases empty : word = []
      · subst empty
        rcases begins with ⟨head, tail, rfl, notBlank⟩
        rcases isWord.ends head rfl with blank | stop
        · rw [notBlank] at blank
          cases blank
        · rcases List.mem_cons.mp stop with rfl | stop
          · exact absurd rfl opens
          · rw [List.mem_singleton.mp stop] at reads
            cases reads
      · by_cases colon : after.head? = some ':'
        · rcases List.head?_eq_some_iff.mp colon with ⟨tail, rfl⟩
          rw [readAtom_named empty isWord.solid] at reads
          exact readsAtom_of_readField isWord.solid reads
        · rw [readAtom_word empty isWord colon] at reads
          cases reads
          exact .word empty isWord colon
  · intro reads
    cases reads with
    | @phrase inside rest free =>
        have readsQuoted : readQuoted ('"' :: (inside ++ '"' :: rest)) =
            .ok (String.ofList inside, rest) := readQuoted_eq_ok.mpr ⟨inside, rfl, free, rfl⟩
        unfold readAtom
        rw [List.head?_cons, beq_self_eq_true, if_pos rfl, readsQuoted]
        rfl
    | word notEmpty isWord noField => exact readAtom_word notEmpty isWord noField
    | presence solid asks notEmpty isName =>
        rw [readAtom_named (ne_nil_of_known (by decide) asks) solid]
        exact readField_presence asks notEmpty isName
    | field solid known single stands reads made =>
        rw [readAtom_named (ne_nil_of_known (by decide) known) solid]
        exact readField_value known single stands reads made

/-- An expression, as it is read from a text that begins with it. -/
inductive ReadsExpr : List Char -> Expr -> List Char -> Prop where
  | plain {characters rest : List Char} {expression : Expr} (noDash : characters.head? ≠ some '-')
      (reads : ReadsAtom characters expression rest) : ReadsExpr characters expression rest
  | negated {characters rest : List Char} {expression : Expr}
      (reads : ReadsAtom characters expression rest) :
      ReadsExpr ('-' :: characters) (.not expression) rest

theorem beginsSolid_of_head? {characters : List Char}
    (notBlank : characters.head?.all Text.isBlank = false) : BeginsSolid characters := by
  cases characters with
  | nil => cases notBlank
  | cons head tail => exact ⟨head, tail, rfl, notBlank⟩

theorem BeginsSolid.head?_all {characters : List Char} (solid : BeginsSolid characters) :
    characters.head?.all Text.isBlank = false := by
  rcases solid with ⟨head, tail, rfl, notBlank⟩
  exact notBlank

/-- An expression is read just where a text begins with one. -/
theorem readExpr_eq_ok {characters rest : List Char} {expression : Expr}
    (begins : BeginsSolid characters) :
    readExpr characters = .ok (expression, rest) ↔ ReadsExpr characters expression rest := by
  constructor
  · intro reads
    unfold readExpr at reads
    split at reads
    · split at reads
      · cases reads
      · rename_i notBlank
        rcases map_eq_ok.mp reads with ⟨found, readsAtom, same⟩
        cases same
        have inside := beginsSolid_of_head? (Bool.eq_false_iff.mpr notBlank)
        exact .negated ((readAtom_eq_ok inside).mp readsAtom)
    · rename_i noDash
      exact .plain (head?_ne_some_iff.mpr noDash) ((readAtom_eq_ok begins).mp reads)
  · intro reads
    unfold readExpr
    cases reads with
    | plain noDash reads =>
        split
        · exact absurd rfl noDash
        · exact (readAtom_eq_ok begins).mpr reads
    | @negated characters rest expression reads =>
        have atom := (readAtom_eq_ok reads.begins).mpr reads
        change (if characters.head?.all Text.isBlank then _ else _) = _
        rw [reads.begins.head?_all, if_neg Bool.false_ne_true, atom]
        rfl

namespace ReadsExpr

variable {characters rest : List Char} {expression : Expr}

theorem begins (reads : ReadsExpr characters expression rest) : BeginsSolid characters := by
  cases reads with
  | plain _ reads => exact reads.begins
  | negated reads => exact ⟨'-', _, rfl, by decide⟩

theorem length_lt (reads : ReadsExpr characters expression rest) :
    rest.length < characters.length := by
  cases reads with
  | plain _ reads => exact reads.length_lt
  | negated reads => exact Nat.lt_succ_of_lt reads.length_lt

theorem append (reads : ReadsExpr characters expression rest) {more : List Char}
    (blank : BeginsBlank more) : ReadsExpr (characters ++ more) expression (rest ++ more) := by
  cases reads with
  | plain noDash reads =>
      refine .plain ?_ (reads.append blank)
      rw [List.head?_append_of_ne_nil _ reads.begins.ne_nil]
      exact noDash
  | negated reads => exact .negated (reads.append blank)

end ReadsExpr

end QueryLanguage

end Commonplace
