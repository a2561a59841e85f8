import Commonplace.Proofs.Query.ByteReading
import Commonplace.Proofs.Query.Chains

namespace Commonplace
namespace QueryLanguage

/-!
# Where errors are

The reader by bytes reads every query text as the reader by characters does.  So it never cuts a
character, passes over two bytes only where the keyword stands alone, and has come to the end of a
text that it has read.  An error is at a place where a character begins, and its line and column
lead to this place.
-/

open Text

variable {input : String} {rest : List Char}

/-! ## Chains -/

theorem foldl_add_left (first : List Expr) (left : Expr) (chains : List (List Expr)) :
    chains.foldl Joined.add ⟨first, some left⟩ =
      ⟨first, some (chains.foldl (fun left chain => Expr.or left (.conjunction chain)) left)⟩ := by
  induction chains generalizing left with
  | nil => rfl
  | cons chain chains inductionHypothesis => exact inductionHypothesis _

/-- The expressions of chains of which the first is joined in a given way. -/
def joinedBy (join : List Expr → Joined) : List (List Expr) → List Expr
  | [] => []
  | first :: rest => (rest.foldl Joined.add (join first)).exprs

/-- Chains that are joined one by one become what they become all at once. -/
theorem joinedBy_eq_joinChains (chains : List (List Expr)) :
    joinedBy (fun first => ⟨first, none⟩) chains = joinChains chains := by
  match chains with
  | [] | [_] => rfl
  | first :: second :: rest =>
      rw [joinedBy, List.foldl_cons]
      exact congrArg Joined.exprs (foldl_add_left _ _ rest)

theorem joinedBy_cons {chains : List (List Expr)} (nonempty : chains ≠ [])
    (join : List Expr → Joined) (chain : List Expr) :
    joinedBy join (chain :: chains) = joinedBy (join chain).add chains := by
  cases chains with
  | nil => exact absurd rfl nonempty
  | cons next others => rfl

theorem chainsFrom_ne_nil {failure : Option Failure} {chain : List Expr} {items : List Item}
    {chains : List (List Expr)} (found : chainsFrom failure chain items = .ok chains) :
    chains ≠ [] := by
  cases failure with
  | some failure => exact absurd found (chainsFrom_failed failure chain items chains)
  | none =>
      rcases chainsFrom_eq_ok.mp found with ⟨first, rest, rfl, -⟩
      exact List.cons_ne_nil _ rest

/-- What the reader by bytes makes of the end of a text. -/
def finished (input : String) : Except Failure (List Expr) → Except Stop (List Expr × Nat)
  | .ok expressions => .ok (expressions, input.utf8ByteSize)
  | .error failure => .error (.failed (failure.toError input))

/-- An expression follows where the text neither ends nor goes on with the keyword. -/
theorem exprFollows_scanWithin {budget : Nat} {start : List Char} (enough : start.length < budget)
    (ends : start = [] ∨ BeginsSolid start) :
    exprFollows (scanWithin budget start).items (scanWithin budget start).failure =
      !(start.isEmpty || startsWithOr start) := by
  obtain ⟨budget, rfl⟩ := Nat.exists_eq_succ_of_ne_zero (Nat.ne_zero_of_lt enough)
  rcases ends with rfl | solid
  · rfl
  · rw [List.isEmpty_eq_false_iff.mpr solid.ne_nil, Bool.false_or]
    cases starts : startsWithOr start with
    | true =>
        rcases startsWithOr_eq_true_iff.mp starts with ⟨rest, rfl, alone⟩
        rw [scanWithin_keyword budget alone]
        rfl
    | false =>
        rw [scanWithin_solid budget solid starts]
        cases readExpr start with
        | error failure => rfl
        | ok found => rfl

namespace Cursor

theorem skipBlanks_gap {gap start : List Char} (suffix : gap ++ start <:+ input.toList)
    (isGap : IsGap gap) (ends : start = [] ∨ BeginsSolid start) :
    skipBlanks input (offsetOf input (gap ++ start)) = .ok (offsetOf input start) := by
  rw [skipBlanks_offsetOf suffix, List.dropWhile_append_of_pos isGap]
  rcases ends with rfl | solid
  · rfl
  · rw [solid.dropWhile_eq]

theorem endsChain_offsetOf (suffix : rest <:+ input.toList) :
    endsChain input (offsetOf input rest) = .ok (rest.isEmpty || startsWithOr rest) := by
  rw [endsChain, isAtEnd_offsetOf suffix, isAtKeyword_offsetOf suffix]
  cases rest.isEmpty <;> rfl

theorem chains_atEnd (budget : Nat) (joined : Joined) :
    chains input (budget + 1) joined (offsetOf input []) =
      .ok (joined.exprs, input.utf8ByteSize) := by
  have suffix : [] <:+ input.toList := List.nil_suffix
  rw [chains, skipBlanks_offsetOf suffix, ok_bind, List.dropWhile_nil, isAtEnd_offsetOf suffix]
  rfl

/-- At the keyword, a chain ends and another begins, unless the text ends or the keyword comes
again. -/
theorem chains_atKeyword {budget : Nat} {gap start : List Char} (joined : Joined)
    (suffix : 'O' :: 'R' :: (gap ++ start) <:+ input.toList)
    (alone : BeginsBlank (gap ++ start)) (isGap : IsGap gap)
    (ends : start = [] ∨ BeginsSolid start) :
    chains input (budget + 1) joined (offsetOf input ('O' :: 'R' :: (gap ++ start))) =
      if start.isEmpty || startsWithOr start then
        .error (.failed (Failure.toError input ⟨.nothingAfterOr, 'O' :: 'R' :: (gap ++ start)⟩))
      else
        chain input (budgetOf input) [] (offsetOf input start) >>= fun found =>
          chains input budget (joined.add found.1) found.2 := by
  have later : gap ++ start <:+ input.toList :=
    ((List.suffix_cons _ _).trans (List.suffix_cons _ _)).trans suffix
  have solid : BeginsSolid ('O' :: 'R' :: (gap ++ start)) := ⟨'O', _, rfl, by decide⟩
  rw [chains, skipBlanks_offsetOf suffix, solid.dropWhile_eq, ok_bind, isAtEnd_offsetOf suffix,
    skipTwo_offsetOf suffix alone]
  rw [List.isEmpty_cons, if_neg Bool.false_ne_true, ok_bind, skipBlanks_gap later isGap ends,
    ok_bind, endsChain_offsetOf (suffix_of_append later), ok_bind]
  split
  · exact fail_offsetOf suffix _
  · rfl

/-- The loops over the expressions of a chain and over the chains do what the scan and the chains of
its items do. -/
theorem chain_bind_chains {budget inner outer : Nat} (suffix : rest <:+ input.toList)
    (enough : rest.length < budget) (innerEnough : rest.length < inner)
    (outerEnough : rest.length < outer) (join : List Expr → Joined) (expressions : List Expr) :
    (chain input inner expressions (offsetOf input rest) >>= fun found =>
        chains input outer (join found.1) found.2) =
      finished input ((chainsFrom (scanWithin budget rest).failure expressions
        (scanWithin budget rest).items).map (joinedBy join)) := by
  induction budget generalizing rest inner outer join expressions with
  | zero => exact absurd enough (Nat.not_lt_zero _)
  | succ budget inductionHypothesis =>
      obtain ⟨inner, rfl⟩ := Nat.exists_eq_succ_of_ne_zero (Nat.ne_zero_of_lt innerEnough)
      obtain ⟨outer, rfl⟩ := Nat.exists_eq_succ_of_ne_zero (Nat.ne_zero_of_lt outerEnough)
      rcases exists_gap rest with ⟨gap, start, rfl, isGap, ends⟩
      have isSuffix := suffix_of_append suffix
      rw [List.length_append] at enough innerEnough outerEnough
      rw [chain, skipBlanks_gap suffix isGap ends, ok_bind, endsChain_offsetOf isSuffix, ok_bind,
        scanWithin_gap _ isGap]
      rcases ends with rfl | solid
      · exact chains_atEnd outer (join expressions)
      · rw [List.isEmpty_eq_false_iff.mpr solid.ne_nil, Bool.false_or]
        cases starts : startsWithOr start with
        | true =>
            rcases startsWithOr_eq_true_iff.mp starts with ⟨rest, rfl, alone⟩
            rcases exists_gap rest with ⟨between, next, rfl, isBetween, nextEnds⟩
            have nextSuffix := suffix_of_append ((List.suffix_cons 'R' _).trans
              ((List.suffix_cons 'O' _).trans isSuffix))
            simp only [List.length_cons, List.length_append] at enough outerEnough
            have less : next.length < budget := by omega
            rw [scanWithin_keyword budget alone, if_pos rfl]
            change chains input (outer + 1) (join expressions) _ = _
            rw [chains_atKeyword (join expressions) isSuffix alone isBetween nextEnds,
              scanWithin_gap _ isBetween, chainsFrom, exprFollows_scanWithin less nextEnds]
            cases next.isEmpty || startsWithOr next with
            | true => rfl
            | false =>
                have later := inductionHypothesis nextSuffix less (length_lt_budgetOf nextSuffix)
                  (by omega : next.length < outer) (join expressions).add []
                rw [if_neg Bool.false_ne_true, later, Bool.not_false, if_pos rfl]
                cases found : chainsFrom (scanWithin budget next).failure []
                    (scanWithin budget next).items with
                | error failure => rfl
                | ok chains =>
                    have joined := joinedBy_cons (chainsFrom_ne_nil found) join expressions
                    exact congrArg (fun read => finished input (.ok read)) joined.symm
        | false =>
            rw [if_neg Bool.false_ne_true, expression_offsetOf isSuffix,
              scanWithin_solid budget solid starts]
            cases read : readExpr start with
            | error failure => rfl
            | ok found =>
                rcases found with ⟨expression, after⟩
                have stays := staysIn_readExpr start
                rw [read] at stays
                have shorter := ((readExpr_eq_ok solid).mp read).length_lt
                exact inductionHypothesis (stays.trans isSuffix) (by omega) (by omega)
                  (by omega) join (expressions ++ [expression])

/-- The chains and the loop after the first of them read a text that begins with an expression. -/
theorem first_bind_chains {start : List Char} (suffix : start <:+ input.toList)
    (solid : BeginsSolid start) (noKeyword : startsWithOr start = false) :
    (chain input (budgetOf input) [] (offsetOf input start) >>= fun found =>
        chains input (budgetOf input) ⟨found.1, none⟩ found.2) =
      finished input ((scanWithin (budgetOf input) start).chains.map joinChains) := by
  have enough := length_lt_budgetOf suffix
  have joins : joinedBy (fun first => ⟨first, none⟩) = joinChains := funext joinedBy_eq_joinChains
  have isChains : (scanWithin (budgetOf input) start).chains =
      chainsFrom (scanWithin (budgetOf input) start).failure []
        (scanWithin (budgetOf input) start).items := by
    rw [budgetOf, scanWithin_solid _ solid noKeyword]
    cases readExpr start with
    | error failure => rfl
    | ok found => rfl
  rw [isChains, ← joins]
  exact chain_bind_chains suffix enough enough enough (fun first => ⟨first, none⟩) []

/-- The reader by bytes reads what the reader by characters reads, to the end of the text, and fails
with the same errors. -/
theorem query_eq (input : String) : query input =
    match parse input with
    | .ok found => .ok (found, input.utf8ByteSize)
    | .error error => .error (.failed error) := by
  have atStart : 0 = offsetOf input input.toList := (offsetOf_eq (List.nil_append _).symm).symm
  have scanned : scan input.toList = scanWithin (budgetOf input) input.toList := rfl
  rcases exists_gap input.toList with ⟨gap, start, isWhole, isGap, ends⟩
  have suffix : start <:+ input.toList := ⟨gap, isWhole.symm⟩
  have whole : gap ++ start <:+ input.toList := isWhole ▸ List.suffix_rfl
  rw [query, parse, readExprs, scanned, atStart, isWhole, skipBlanks_gap whole isGap ends, ok_bind,
    isAtEnd_offsetOf suffix, scanWithin_gap _ isGap]
  rcases ends with rfl | solid
  · rfl
  · rw [List.isEmpty_eq_false_iff.mpr solid.ne_nil, if_neg Bool.false_ne_true,
      isAtKeyword_offsetOf suffix, ok_bind]
    cases starts : startsWithOr start with
    | true =>
        rcases startsWithOr_eq_true_iff.mp starts with ⟨rest, rfl, alone⟩
        rw [budgetOf, scanWithin_keyword _ alone, if_pos rfl]
        exact fail_offsetOf suffix _
    | false =>
        have loops := first_bind_chains suffix solid starts
        rw [if_neg Bool.false_ne_true]
        cases first : chain input (budgetOf input) [] (offsetOf input start) with
        | error stop =>
            rw [first, error_bind] at loops
            cases read : (scanWithin (budgetOf input) start).chains with
            | error failure =>
                rw [read] at loops
                cases loops
                rfl
            | ok chains =>
                rw [read] at loops
                cases loops
        | ok found =>
            rw [first, ok_bind] at loops
            rw [ok_bind]
            dsimp only
            rw [loops]
            cases (scanWithin (budgetOf input) start).chains with
            | error failure => rfl
            | ok chains => rfl

end Cursor

/-! ## Places -/

/-- What a text holds from the start of a line on; the first line has the number zero. -/
def fromLine : Nat → List Char → Option (List Char)
  | 0, characters => some characters
  | _ + 1, [] => none
  | number + 1, character :: rest =>
      if character == '\n' then fromLine number rest else fromLine (number + 1) rest

/-- What follows some characters of a line. -/
def alongLine : Nat → List Char → Option (List Char)
  | 0, characters => some characters
  | _ + 1, [] => none
  | count + 1, character :: rest => if character == '\n' then none else alongLine count rest

/-- What a text holds from a character of a line on, both counted from one. -/
def textAt (characters : List Char) (line column : Nat) : Option (List Char) :=
  (fromLine (line - 1) characters).bind (alongLine (column - 1))

theorem fromLine_append (before after : List Char) :
    fromLine (before.count '\n' + 1) (before ++ '\n' :: after) = some after := by
  induction before with
  | nil => simp [fromLine]
  | cons character rest inductionHypothesis =>
      rw [List.cons_append, fromLine, List.count_cons]
      by_cases isFeed : character == '\n'
      · rw [if_pos isFeed, if_pos isFeed]
        exact inductionHypothesis
      · rw [if_neg isFeed, if_neg isFeed]
        exact inductionHypothesis

theorem alongLine_append {before : List Char} (noFeed : '\n' ∉ before) (after : List Char) :
    alongLine before.length (before ++ after) = some after := by
  induction before with
  | nil => rfl
  | cons character rest inductionHypothesis =>
      rw [List.mem_cons, not_or] at noFeed
      have isOther : (character == '\n') = false := beq_eq_false_iff_ne.mpr (Ne.symm noFeed.1)
      rw [List.length_cons, List.cons_append, alongLine, isOther, if_neg Bool.false_ne_true]
      exact inductionHypothesis noFeed.2

/-- The line and the column of the place after some characters lead to this place. -/
theorem textAt_after (before after : List Char) :
    textAt (before ++ after) (Place.after before).line (Place.after before).column =
      some after := by
  have noFeed {line : List Char} (free : '\n' ∉ line) :
      ∀ character ∈ line, (character != '\n') = true := fun character member =>
    bne_iff_ne.mpr fun isFeed => free (isFeed ▸ member)
  rw [textAt, Place.after, Nat.add_sub_cancel, Nat.add_sub_cancel]
  by_cases several : '\n' ∈ before.reverse
  · -- The line is what follows the last line feed.
    rcases List.eq_append_cons_of_mem several with ⟨reversed, earlier, isReversed, free⟩
    have isBefore : before = earlier.reverse ++ '\n' :: reversed.reverse := by
      rw [← List.reverse_reverse before, isReversed, List.reverse_append, List.reverse_cons,
        List.append_assoc, List.singleton_append]
    have column : (before.reverse.takeWhile fun character => character != '\n') = reversed := by
      rw [isReversed, List.takeWhile_append_of_pos (noFeed free),
        List.takeWhile_cons_of_neg (by decide), List.append_nil]
    have line : before.count '\n' = earlier.reverse.count '\n' + 1 := by
      rw [isBefore, List.count_append, List.count_cons_self,
        List.count_eq_zero.mpr fun member => free (List.mem_reverse.mp member)]
    rw [column, line, isBefore, List.append_assoc, List.cons_append, fromLine_append,
      Option.bind_some, ← List.length_reverse]
    exact alongLine_append (fun member => free (List.mem_reverse.mp member)) after
  · have column : (before.reverse.takeWhile fun character => character != '\n') = before.reverse :=
      List.takeWhile_eq_self_iff.mpr (noFeed several)
    have free : '\n' ∉ before := fun member => several (List.mem_reverse.mpr member)
    rw [column, List.count_eq_zero.mpr free, fromLine, Option.bind_some, List.length_reverse]
    exact alongLine_append free after

example : textAt "tag:é\ntag:".toList 2 4 = some [':'] := by decide

/-- A place of a text: a byte where a character begins, or the end of the text, with the line and
the column that lead to it. -/
structure PointsInto (text : String) (place : Place) : Prop where
  isBoundary : String.Pos.Raw.IsValid text ⟨place.offset⟩
  notPastEnd : place.offset ≤ text.utf8ByteSize
  fromOne : 1 ≤ place.line ∧ 1 ≤ place.column
  leads : ∃ before after, text.toList = before ++ after ∧ place.offset = byteSize before ∧
    textAt text.toList place.line place.column = some after

theorem pointsInto_after {text : String} {before after : List Char}
    (whole : text.toList = before ++ after) : PointsInto text (Place.after before) where
  isBoundary := by
    rw [String.Pos.Raw.isValid_iff_exists_append]
    refine ⟨String.ofList before, String.ofList after, ?_, rfl⟩
    rw [← String.ofList_append, ← whole, String.ofList_toList]
  notPastEnd := by
    rw [← byteSize_toList, whole, byteSize_append]
    exact Nat.le_add_right _ _
  fromOne := ⟨Nat.le_add_left _ _, Nat.le_add_left _ _⟩
  leads := ⟨before, after, whole, rfl, whole ▸ textAt_after before after⟩

/-! ## Errors -/

/-- What a scan found is in the text that it went through. -/
structure Scan.StaysIn (text : List Char) (scan : Scan) : Prop where
  keywords : ∀ unread, Item.or unread ∈ scan.items → unread <:+ text
  failure : ∀ failure ∈ scan.failure, failure.unread <:+ text

theorem Scan.StaysIn.trans {first second : List Char} {scan : Scan} (stays : scan.StaysIn first)
    (suffix : first <:+ second) : scan.StaysIn second :=
  ⟨fun unread member => (stays.keywords unread member).trans suffix,
    fun failure member => (stays.failure failure member).trans suffix⟩

theorem Scan.staysIn_empty (text : List Char) : Scan.StaysIn text ⟨[], none⟩ :=
  ⟨nofun, nofun⟩

theorem staysIn_scanWithin (budget : Nat) (text : List Char) :
    (scanWithin budget text).StaysIn text := by
  induction budget generalizing text with
  | zero => exact Scan.staysIn_empty text
  | succ budget inductionHypothesis =>
      rcases exists_gap text with ⟨gap, start, rfl, isGap, ends⟩
      rw [scanWithin_gap _ isGap]
      refine Scan.StaysIn.trans ?_ (List.suffix_append gap start)
      rcases ends with rfl | solid
      · exact Scan.staysIn_empty []
      · cases starts : startsWithOr start with
        | true =>
            rcases startsWithOr_eq_true_iff.mp starts with ⟨rest, rfl, alone⟩
            have later := (inductionHypothesis rest).trans
              ((List.suffix_cons 'R' rest).trans (List.suffix_cons 'O' _))
            rw [scanWithin_keyword budget alone]
            refine ⟨fun unread member => ?_, later.failure⟩
            rcases List.mem_cons.mp member with same | member
            · cases same
              exact List.suffix_rfl
            · exact later.keywords unread member
        | false =>
            have stays := staysIn_readExpr start
            rw [scanWithin_solid budget solid starts]
            cases read : readExpr start with
            | error failure =>
                rw [read] at stays
                refine ⟨nofun, ?_⟩
                rintro _ ⟨⟩
                exact stays
            | ok found =>
                rw [read] at stays
                have later := (inductionHypothesis found.2).trans stays
                refine ⟨fun unread member => ?_, later.failure⟩
                rcases List.mem_cons.mp member with same | member
                · cases same
                · exact later.keywords unread member

/-- A failure of chains is that of the scan, or is at a keyword. -/
theorem unread_of_chainsFrom {failure : Option Failure} {chain : List Expr} {items : List Item}
    {found : Failure} (failed : chainsFrom failure chain items = .error found) :
    failure = some found ∨ Item.or found.unread ∈ items := by
  induction items generalizing chain with
  | nil =>
      cases failure with
      | none => cases failed
      | some failure =>
          cases failed
          exact .inl rfl
  | cons item rest inductionHypothesis =>
      cases item with
      | expr expression =>
          exact (inductionHypothesis failed).imp id (List.mem_cons_of_mem _)
      | or unread =>
          rw [chainsFrom] at failed
          split at failed
          · cases later : chainsFrom failure [] rest with
            | ok chains =>
                rw [later] at failed
                cases failed
            | error stop =>
                rw [later] at failed
                cases failed
                exact (inductionHypothesis later).imp id (List.mem_cons_of_mem _)
          · cases failed
            exact .inr List.mem_cons_self

theorem suffix_of_readExprs {text : List Char} {failure : Failure}
    (failed : readExprs text = .error failure) : failure.unread <:+ text := by
  have stays : (scan text).StaysIn text := staysIn_scanWithin _ text
  rw [readExprs] at failed
  cases found : (scan text).chains with
  | ok chains =>
      rw [found] at failed
      cases failed
  | error other =>
      rw [found] at failed
      cases failed
      rw [Scan.chains] at found
      split at found
      · rename_i unread rest isItems
        cases found
        exact stays.keywords unread (isItems ▸ List.mem_cons_self)
      · rcases unread_of_chainsFrom found with isFailure | isKeyword
        · exact stays.failure _ isFailure
        · exact stays.keywords _ isKeyword

/-- An error is at a place of the text that could not be read, to which its line and its column
lead.  The reader by bytes fails with the same errors and with no others: it never cuts a character,
strays from the keyword or goes round forever.  Where it succeeds, it has come to the end of the
text. -/
theorem parse_errors_point_into_text (input : String) :
    (∀ error, parse input = .error error → error.input = input ∧ PointsInto input error.place) ∧
    Cursor.query input =
      match parse input with
      | .ok found => .ok (found, input.utf8ByteSize)
      | .error error => .error (.failed error) := by
  refine ⟨fun error failed => ?_, Cursor.query_eq input⟩
  rw [parse] at failed
  cases read : readExprs input.toList with
  | ok expressions =>
      rw [read] at failed
      cases failed
  | error failure =>
      rw [read] at failed
      cases failed
      rcases suffix_of_readExprs read with ⟨before, whole⟩
      have isBefore : input.toList.take (input.toList.length - failure.unread.length) = before := by
        rw [← whole, List.length_append, Nat.add_sub_cancel, List.take_left]
      refine ⟨rfl, ?_⟩
      rw [Failure.toError, isBefore]
      exact pointsInto_after whole.symm

/-- The second colon of a field on the second line. -/
theorem doubled_colon_is_pointed_at : ∃ error, parse "meeting\n  tag::x" = .error error ∧
    error.place = ⟨14, 2, 7⟩ ∧ PointsInto "meeting\n  tag::x" error.place := by
  have isPlace : (match parse "meeting\n  tag::x" with
      | .error error => some error.place
      | .ok _ => none) = some ⟨14, 2, 7⟩ := by decide
  cases failed : parse "meeting\n  tag::x" with
  | ok query =>
      rw [failed] at isPlace
      cases isPlace
  | error error =>
      rw [failed] at isPlace
      exact ⟨error, rfl, Option.some.inj isPlace,
        ((parse_errors_point_into_text _).1 error failed).2⟩

end QueryLanguage
end Commonplace
