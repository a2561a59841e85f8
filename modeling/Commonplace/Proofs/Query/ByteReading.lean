import Commonplace.Proofs.Query.Items
import Commonplace.Proofs.Text.Bytes
import Commonplace.Query.Cursor
import Mathlib.Data.List.Infix

namespace Commonplace
namespace QueryLanguage

/-!
# The reader by bytes agrees with the readers by characters

At a place in a text where a character begins, the reader by bytes finds what the readers by
characters find in the rest of the text from there on, and comes to a place where a character begins
again.  So it never cuts a character, and its errors are at the same places.
-/

open Text

/-- The number of bytes of a text in front of the rest of it. -/
def offsetOf (input : String) (rest : List Char) : Nat :=
  input.utf8ByteSize - byteSize rest

/-- What a reader by bytes makes of what a reader by characters finds. -/
def placed {α : Type} (input : String) :
    Except Failure (α × List Char) → Except Stop (α × Nat)
  | .ok (found, rest) => .ok (found, offsetOf input rest)
  | .error failure => .error (.failed (failure.toError input))

variable {input : String} {rest : List Char}

theorem offsetOf_eq {before : List Char} (whole : input.toList = before ++ rest) :
    offsetOf input rest = byteSize before := by
  rw [offsetOf, ← byteSize_toList, whole, byteSize_append, Nat.add_sub_cancel]

theorem offsetOf_append (word : List Char) (suffix : word ++ rest <:+ input.toList) :
    offsetOf input (word ++ rest) + byteSize word = offsetOf input rest := by
  rcases suffix with ⟨before, whole⟩
  rw [offsetOf_eq whole.symm, ← byteSize_append]
  rw [← List.append_assoc] at whole
  exact (offsetOf_eq whole.symm).symm

theorem offsetOf_cons {character : Char} (suffix : character :: rest <:+ input.toList) :
    offsetOf input (character :: rest) + character.utf8Size = offsetOf input rest := by
  rw [← List.singleton_append] at suffix ⊢
  rw [← offsetOf_append [character] suffix, byteSize_cons, byteSize_nil]
  rfl

theorem suffix_of_append {word : List Char} (suffix : word ++ rest <:+ input.toList) :
    rest <:+ input.toList :=
  (List.suffix_append word rest).trans suffix

namespace Cursor

/-! ## Steps -/

theorem ok_bind {α β : Type} (found : α) (next : α → Except Stop β) :
    (Except.ok found >>= next) = next found :=
  rfl

theorem error_bind {α β : Type} (stop : Stop) (next : α → Except Stop β) :
    ((Except.error stop : Except Stop α) >>= next) = .error stop :=
  rfl

theorem textFrom_append (before rest : List Char) :
    textFrom (before ++ rest) (byteSize before) = .ok rest := by
  rw [textFrom, splitAtByte?_eq_some_iff.mpr ⟨rfl, rfl⟩]

theorem textTo_append (before rest : List Char) :
    textTo (before ++ rest) (byteSize before) = .ok before := by
  rw [textTo, splitAtByte?_eq_some_iff.mpr ⟨rfl, rfl⟩]

theorem textFrom_offsetOf (suffix : rest <:+ input.toList) :
    textFrom input.toList (offsetOf input rest) = .ok rest := by
  rcases suffix with ⟨before, whole⟩
  rw [offsetOf_eq whole.symm, ← whole, textFrom_append]

theorem peek_offsetOf (suffix : rest <:+ input.toList) :
    peek input (offsetOf input rest) = .ok rest.head? := by
  rw [peek, textFrom_offsetOf suffix]
  rfl

theorem isAtEnd_offsetOf (suffix : rest <:+ input.toList) :
    isAtEnd input (offsetOf input rest) = rest.isEmpty := by
  rcases suffix with ⟨before, whole⟩
  have size := congrArg byteSize whole
  rw [byteSize_append, byteSize_toList] at size
  rw [isAtEnd, offsetOf_eq whole.symm, Bool.eq_iff_iff, decide_eq_true_iff, List.isEmpty_iff,
    ← byteSize_eq_zero_iff]
  omega

theorem bump_offsetOf {character : Char} (suffix : character :: rest <:+ input.toList) :
    bump input (offsetOf input (character :: rest)) = .ok (offsetOf input rest) := by
  rw [bump, peek_offsetOf suffix, ok_bind, List.head?_cons]
  exact congrArg Except.ok (offsetOf_cons suffix)

theorem skipWhile_offsetOf (keep : Char → Bool) {budget : Nat} (suffix : rest <:+ input.toList)
    (enough : rest.length < budget) :
    skipWhile input keep budget (offsetOf input rest) =
      .ok (offsetOf input (rest.dropWhile keep)) := by
  induction rest generalizing budget with
  | nil =>
      cases budget with
      | zero => cases enough
      | succ budget =>
          rw [skipWhile, peek_offsetOf suffix]
          rfl
  | cons character rest inductionHypothesis =>
      cases budget with
      | zero => cases enough
      | succ budget =>
          have later := (List.suffix_cons character rest).trans suffix
          rw [skipWhile, peek_offsetOf suffix, ok_bind, List.head?_cons, Option.any_some]
          cases keeps : keep character with
          | true =>
              rw [if_pos rfl, bump_offsetOf suffix, ok_bind, List.dropWhile_cons_of_pos keeps]
              exact inductionHypothesis later (Nat.lt_of_succ_lt_succ enough)
          | false =>
              rw [if_neg Bool.false_ne_true,
                List.dropWhile_cons_of_neg (Bool.not_eq_true _ ▸ keeps)]
              rfl

theorem length_lt_budgetOf (suffix : rest <:+ input.toList) : rest.length < budgetOf input :=
  Nat.lt_succ_of_le suffix.length_le

theorem skipBlanks_offsetOf (suffix : rest <:+ input.toList) :
    skipBlanks input (offsetOf input rest) =
      .ok (offsetOf input (rest.dropWhile Text.isBlank)) :=
  skipWhile_offsetOf Text.isBlank suffix (length_lt_budgetOf suffix)

/-- An error of the reader by bytes is at the place where the rest of the text begins. -/
theorem fail_offsetOf {α : Type} (suffix : rest <:+ input.toList) (fault : ParseFault) :
    (fail input (offsetOf input rest) fault : Except Stop α) =
      .error (.failed (Failure.toError input ⟨fault, rest⟩)) := by
  rcases suffix with ⟨before, whole⟩
  have inside : min (byteSize before) input.utf8ByteSize = byteSize before := by
    rw [← byteSize_toList, ← whole, byteSize_append]
    omega
  have read : input.toList.take (input.toList.length - rest.length) = before := by
    rw [← whole, List.length_append, Nat.add_sub_cancel, List.take_left]
  rw [fail, offsetOf_eq whole.symm, inside, Failure.toError, read, ← whole, textTo_append, ok_bind]
  rfl

theorem isAtKeyword_offsetOf (suffix : rest <:+ input.toList) :
    isAtKeyword input (offsetOf input rest) = .ok (startsWithOr rest) := by
  rw [isAtKeyword, textFrom_offsetOf suffix, ok_bind]
  cases isPrefix : ['O', 'R'].isPrefixOf rest with
  | true =>
      rcases List.isPrefixOf_iff_prefix.mp isPrefix with ⟨behind, rfl⟩
      rw [if_pos rfl, ← byteSize_pair (rfl : 'O'.utf8Size = 1) (rfl : 'R'.utf8Size = 1),
        textFrom_append]
      rfl
  | false =>
      have noKeyword : startsWithOr rest = false := by
        apply Bool.eq_false_iff.mpr
        intro starts
        rcases startsWithOr_eq_true_iff.mp starts with ⟨behind, rfl, -⟩
        cases isPrefix
      rw [if_neg Bool.false_ne_true, noKeyword]
      rfl

/-- Two bytes are passed over where the keyword is. -/
theorem skipTwo_offsetOf (suffix : 'O' :: 'R' :: rest <:+ input.toList)
    (alone : BeginsBlank rest) :
    skipTwo input (offsetOf input ('O' :: 'R' :: rest)) = .ok (offsetOf input rest) := by
  have passed := offsetOf_append ['O', 'R'] suffix
  rw [byteSize_pair rfl rfl] at passed
  rw [skipTwo, isAtKeyword_offsetOf suffix, startsWithOr_eq_true_iff.mpr ⟨rest, rfl, alone⟩,
    ok_bind, if_pos rfl, ← passed]
  rfl

theorem word_offsetOf (stops : List Char) (suffix : rest <:+ input.toList) :
    word input stops (offsetOf input rest) =
      .ok (wordChars stops rest, offsetOf input (afterWord stops rest)) := by
  have skips : skipWhile input
      (fun character => !Text.isBlank character && !stops.contains character) (budgetOf input)
      (offsetOf input rest) = .ok (offsetOf input (afterWord stops rest)) :=
    skipWhile_offsetOf _ suffix (length_lt_budgetOf suffix)
  rcases suffix with ⟨before, whole⟩
  have isWhole : input.toList = (before ++ wordChars stops rest) ++ afterWord stops rest := by
    rw [List.append_assoc, wordChars_append_afterWord, whole]
  rw [word, skips, ok_bind, offsetOf_eq isWhole, isWhole, textTo_append, ok_bind,
    offsetOf_eq whole.symm, textFrom_append]
  rfl

end Cursor

/-! ## Where readers stop -/

/-- What a reader leaves, and where it fails, is in what it was given. -/
def StaysIn {α : Type} (rest : List Char) : Except Failure (α × List Char) → Prop
  | .ok (_, after) => after <:+ rest
  | .error failure => failure.unread <:+ rest

theorem StaysIn.trans {α : Type} {first second : List Char}
    {result : Except Failure (α × List Char)} (stays : StaysIn first result)
    (suffix : first <:+ second) : StaysIn second result := by
  cases result with
  | error failure => exact List.IsSuffix.trans stays suffix
  | ok found => exact List.IsSuffix.trans stays suffix

theorem StaysIn.map {α β : Type} {result : Except Failure (α × List Char)}
    (stays : StaysIn rest result) (change : α → β) :
    StaysIn rest (result.map fun found => (change found.1, found.2)) := by
  cases result with
  | error failure => exact stays
  | ok found => exact stays

theorem suffix_afterWord (stops : List Char) (characters : List Char) :
    afterWord stops characters <:+ characters :=
  List.dropWhile_suffix _

theorem readQuoted_free (free : '"' ∉ rest) :
    readQuoted ('"' :: rest) = .error ⟨.openQuote, '"' :: rest⟩ := by
  have kept : rest.dropWhile (fun character => character != '"') = [] :=
    List.dropWhile_eq_nil_iff.mpr fun character member =>
      bne_iff_ne.mpr fun same => free (same ▸ member)
  rw [readQuoted, List.tail_cons]
  simp only [kept]

theorem staysIn_readQuoted (rest : List Char) :
    StaysIn ('"' :: rest) (readQuoted ('"' :: rest)) := by
  by_cases closed : '"' ∈ rest
  · rcases List.eq_append_cons_of_mem closed with ⟨inside, after, rfl, free⟩
    rw [readQuoted_eq_ok.mpr ⟨inside, rfl, free, rfl⟩]
    exact (List.suffix_cons _ _).trans
      ((List.suffix_append inside _).trans (List.suffix_cons _ _))
  · rw [readQuoted_free closed]
    exact List.suffix_rfl

/-- The value of a field and whether it was quoted, as one thing that is read. -/
def readValuePair (name : String) (characters : List Char) :
    Except Failure ((String × Bool) × List Char) :=
  (readValue name characters).map fun found => ((found.1, found.2.1), found.2.2)

theorem staysIn_readValue (name : String) (rest : List Char) :
    StaysIn rest (readValuePair name rest) := by
  rw [readValuePair, readValue]
  split
  · rename_i opens
    rcases List.head?_eq_some_iff.mp (beq_iff_eq.mp opens) with ⟨tail, rfl⟩
    have stays := staysIn_readQuoted tail
    cases read : readQuoted ('"' :: tail) with
    | error failure =>
        rw [read] at stays
        exact stays
    | ok found =>
        rw [read] at stays
        exact stays
  · split
    · exact List.suffix_rfl
    · exact suffix_afterWord _ rest

theorem staysIn_readPresence (keyword : String) (rest : List Char) :
    StaysIn rest (readPresence keyword rest) := by
  rw [readPresence]
  split
  · exact List.suffix_rfl
  · exact suffix_afterWord _ rest

theorem suffix_readComparison (rest : List Char) : (readComparison rest).2 <:+ rest := by
  cases read : readComparison rest with
  | mk comparison after =>
      rw [(readComparison_eq_iff.mp read).1]
      exact List.suffix_append _ _

/-- A fault in the value of a field is where the value begins. -/
theorem fieldExpr_eq (name : String) (comparison : Comparison) (value : String) (quoted : Bool)
    (start : List Char) : fieldExpr name comparison value quoted start =
      match fieldExpr name comparison value quoted [] with
      | .ok expression => .ok expression
      | .error failure => .error ⟨failure.fault, start⟩ := by
  unfold fieldExpr dateExpr
  split
  · split
    · rfl
    · split
      · split <;> rfl
      · rfl
  · split <;> rfl

theorem staysIn_readField (name : List Char) {start : List Char} (later : rest <:+ start) :
    StaysIn start (readField name start rest) := by
  rw [readField]
  dsimp only
  split
  · exact later
  · split
    · exact (staysIn_readPresence _ rest).trans later
    · split
      · exact List.suffix_rfl
      · have behind := (suffix_readComparison rest).trans later
        have stays := (staysIn_readValue (Text.lower (String.ofList name))
          (readComparison rest).2).trans behind
        rw [readValuePair] at stays
        cases read : readValue (Text.lower (String.ofList name)) (readComparison rest).2 with
        | error failure =>
            rw [read] at stays
            exact stays
        | ok found =>
            rw [read] at stays
            dsimp only
            rw [fieldExpr_eq]
            cases fieldExpr (Text.lower (String.ofList name)) (readComparison rest).1 found.1
              found.2.1 [] with
            | error failure => exact behind
            | ok expression => exact stays

theorem staysIn_readAtom (rest : List Char) : StaysIn rest (readAtom rest) := by
  rw [readAtom]
  split
  · rename_i opens
    rcases List.head?_eq_some_iff.mp (beq_iff_eq.mp opens) with ⟨tail, rfl⟩
    exact (staysIn_readQuoted tail).map Expr.term
  · have suffix := suffix_afterWord ['"', ':'] rest
    dsimp only
    split
    · rename_i behind isBehind
      rw [isBehind] at suffix
      split
      · exact List.suffix_rfl
      · exact staysIn_readField _ ((List.suffix_cons _ _).trans suffix)
    · exact suffix

theorem readExpr_dash (rest : List Char) : readExpr ('-' :: rest) =
    if rest.head?.all Text.isBlank then .error ⟨.nothingAfterDash, '-' :: rest⟩
    else (readAtom rest).map fun found => (.not found.1, found.2) :=
  rfl

theorem readExpr_of_noDash (noDash : rest.head? ≠ some '-') : readExpr rest = readAtom rest := by
  rw [readExpr.eq_def]
  split
  · exact absurd rfl noDash
  · rfl

theorem staysIn_readExpr (rest : List Char) : StaysIn rest (readExpr rest) := by
  by_cases dash : rest.head? = some '-'
  · rcases List.head?_eq_some_iff.mp dash with ⟨inside, rfl⟩
    rw [readExpr_dash]
    split
    · exact List.suffix_rfl
    · exact ((staysIn_readAtom inside).map Expr.not).trans (List.suffix_cons _ _)
  · rw [readExpr_of_noDash dash]
    exact staysIn_readAtom rest

namespace Cursor

theorem quoted_offsetOf (suffix : '"' :: rest <:+ input.toList) :
    quoted input (offsetOf input ('"' :: rest)) = placed input (readQuoted ('"' :: rest)) := by
  have later := (List.suffix_cons '"' rest).trans suffix
  rw [quoted, bump_offsetOf suffix, ok_bind, textFrom_offsetOf later, ok_bind, findByte?]
  by_cases closed : '"' ∈ rest
  · rw [if_pos (List.contains_iff_mem.mpr closed)]
    rcases List.eq_append_cons_of_mem closed with ⟨inside, after, rfl, free⟩
    have kept : (inside ++ '"' :: after).takeWhile (fun character => character != '"') =
        inside := by
      rw [List.takeWhile_append_of_pos, List.takeWhile_cons_of_neg (by decide), List.append_nil]
      exact fun character member => bne_iff_ne.mpr fun same => free (same ▸ member)
    have closing := (List.suffix_append inside _).trans later
    rw [readQuoted_eq_ok.mpr ⟨inside, rfl, free, rfl⟩, kept]
    dsimp only
    rw [textTo_append, ok_bind, ← Nat.add_assoc, offsetOf_append inside later]
    exact congrArg (fun stop => Except.ok (String.ofList inside, stop)) (offsetOf_cons closing)
  · rw [if_neg fun contains => closed (List.contains_iff_mem.mp contains), readQuoted_free closed]
    exact fail_offsetOf suffix _

theorem comparison_offsetOf (suffix : rest <:+ input.toList) :
    comparison input (offsetOf input rest) =
      .ok ((readComparison rest).1, offsetOf input (readComparison rest).2) := by
  have passed {sign after : List Char} {size : Nat} (comparison : Comparison)
      (whole : sign ++ after = rest) (isSign : writtenSign comparison = sign)
      (stands : StandsBefore comparison after) (isSize : byteSize sign = size) :
      (pure (comparison, offsetOf input rest + size) : Except Stop (Comparison × Nat)) =
        .ok ((readComparison rest).1, offsetOf input (readComparison rest).2) := by
    subst whole isSign
    rw [readComparison_eq_iff.mpr ⟨rfl, stands⟩, ← isSize, offsetOf_append _ suffix]
    rfl
  have next {first second : Char} {after : List Char} (isFirst : [first] ++ after = rest)
      (noPair : ¬[first, second].isPrefixOf rest = true) : after.head? ≠ some second := by
    intro isSecond
    rcases List.head?_eq_some_iff.mp isSecond with ⟨others, rfl⟩
    exact noPair (List.isPrefixOf_iff_prefix.mpr ⟨others, isFirst⟩)
  rw [comparison, textFrom_offsetOf suffix, ok_bind]
  split
  · rename_i isPrefix
    rcases List.isPrefixOf_iff_prefix.mp isPrefix with ⟨after, whole⟩
    exact passed .atLeast whole rfl trivial (byteSize_pair rfl rfl)
  · rename_i notAtLeast
    split
    · rename_i isPrefix
      rcases List.isPrefixOf_iff_prefix.mp isPrefix with ⟨after, whole⟩
      exact passed .atMost whole rfl trivial (byteSize_pair rfl rfl)
    · rename_i notAtMost
      split
      · rename_i isPrefix
        rcases List.isPrefixOf_iff_prefix.mp isPrefix with ⟨after, whole⟩
        exact passed .greater whole rfl (next whole notAtLeast) (byteSize_singleton rfl)
      · rename_i notGreater
        split
        · rename_i isPrefix
          rcases List.isPrefixOf_iff_prefix.mp isPrefix with ⟨after, whole⟩
          exact passed .less whole rfl (next whole notAtMost) (byteSize_singleton rfl)
        · rename_i notLess
          have starts {sign : Char} (noSign : ¬[sign].isPrefixOf rest = true) :
              rest.head? ≠ some sign := by
            intro isSign
            rcases List.head?_eq_some_iff.mp isSign with ⟨others, whole⟩
            exact noSign (List.isPrefixOf_iff_prefix.mpr ⟨others, whole.symm⟩)
          exact passed .equals (List.nil_append rest) rfl ⟨starts notGreater, starts notLess⟩
            byteSize_nil

theorem value_offsetOf (name : String) (suffix : rest <:+ input.toList) :
    value input name (offsetOf input rest) = placed input (readValuePair name rest) := by
  rw [value, peek_offsetOf suffix, ok_bind, readValuePair, readValue]
  split
  · rename_i opens
    rcases List.head?_eq_some_iff.mp (beq_iff_eq.mp opens) with ⟨tail, rfl⟩
    rw [quoted_offsetOf suffix]
    cases readQuoted ('"' :: tail) with
    | error failure => rfl
    | ok found => rfl
  · rw [word_offsetOf _ suffix, ok_bind]
    dsimp only
    cases wordChars ['"'] rest with
    | nil => exact fail_offsetOf suffix _
    | cons character others => rfl

theorem presence_offsetOf (keyword : String) (suffix : rest <:+ input.toList) :
    presence input keyword (offsetOf input rest) = placed input (readPresence keyword rest) := by
  rw [presence, word_offsetOf _ suffix, ok_bind, readPresence]
  dsimp only
  cases wordChars ['"', ':'] rest with
  | nil => exact fail_offsetOf suffix _
  | cons character others => rfl

theorem field_offsetOf (name : List Char) {start : List Char} (suffix : start <:+ input.toList)
    (later : rest <:+ start) :
    field input name (offsetOf input start) (offsetOf input rest) =
      placed input (readField name start rest) := by
  have inside := later.trans suffix
  rw [field, peek_offsetOf inside, ok_bind, readField]
  dsimp only
  split
  · exact fail_offsetOf inside _
  · split
    · exact presence_offsetOf _ inside
    · split
      · exact fail_offsetOf suffix _
      · rw [comparison_offsetOf inside, ok_bind]
        cases read : readComparison rest with
        | mk comparison after =>
            have behind := suffix_readComparison rest
            rw [read] at behind
            dsimp only at behind ⊢
            rw [value_offsetOf _ (behind.trans inside)]
            rw [readValuePair]
            cases readValue (Text.lower (String.ofList name)) after with
            | error failure => rfl
            | ok found =>
                rcases found with ⟨value, quoted, stop⟩
                dsimp only [Except.map, placed]
                rw [ok_bind]
                dsimp only
                rw [fieldExpr_eq _ _ _ _ after]
                cases fieldExpr (Text.lower (String.ofList name)) comparison value quoted [] with
                | error failure => exact fail_offsetOf (behind.trans inside) _
                | ok expression => rfl

theorem atom_offsetOf (suffix : rest <:+ input.toList) :
    atom input (offsetOf input rest) = placed input (readAtom rest) := by
  rw [atom, peek_offsetOf suffix, ok_bind, readAtom]
  split
  · rename_i opens
    rcases List.head?_eq_some_iff.mp (beq_iff_eq.mp opens) with ⟨tail, rfl⟩
    rw [quoted_offsetOf suffix]
    cases readQuoted ('"' :: tail) with
    | error failure => rfl
    | ok found => rfl
  · have behind := (suffix_afterWord ['"', ':'] rest).trans suffix
    rw [word_offsetOf _ suffix, ok_bind]
    dsimp only
    rw [peek_offsetOf behind, ok_bind]
    split
    · rename_i colon
      rcases List.head?_eq_some_iff.mp (beq_iff_eq.mp colon) with ⟨others, isOthers⟩
      have inside : others <:+ rest :=
        (List.suffix_cons ':' others).trans (isOthers ▸ suffix_afterWord ['"', ':'] rest)
      rw [isOthers] at behind ⊢
      rw [bump_offsetOf behind]
      split
      · exact fail_offsetOf suffix _
      · exact field_offsetOf _ suffix inside
    · rename_i noColon
      split
      · rename_i others isOthers
        rw [isOthers] at noColon
        exact absurd rfl noColon
      · rfl

theorem expression_offsetOf (suffix : rest <:+ input.toList) :
    expression input (offsetOf input rest) = placed input (readExpr rest) := by
  rw [expression, peek_offsetOf suffix, ok_bind]
  split
  · rename_i dash
    rcases List.head?_eq_some_iff.mp (beq_iff_eq.mp dash) with ⟨inside, rfl⟩
    have later := (List.suffix_cons '-' inside).trans suffix
    rw [bump_offsetOf suffix, ok_bind, peek_offsetOf later, ok_bind, readExpr_dash]
    split
    · exact fail_offsetOf suffix _
    · rw [atom_offsetOf later]
      cases readAtom inside with
      | error failure => rfl
      | ok found => rfl
  · rename_i noDash
    rw [readExpr_of_noDash fun dash => noDash (beq_iff_eq.mpr dash)]
    exact atom_offsetOf suffix

end Cursor

end QueryLanguage
end Commonplace
