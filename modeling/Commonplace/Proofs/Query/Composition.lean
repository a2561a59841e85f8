import Commonplace.Proofs.Query.Chains

namespace Commonplace
namespace QueryLanguage

/-!
# Texts side by side

Texts that are put side by side are read as the chains of both: with a keyword between them one
after another, and with blanks alone so that the last chain of the first and the first chain of the
second become one.  Blanks around a text change nothing.
-/

theorem IsGap.begins {gap : List Char} (isGap : IsGap gap) : BeginsBlank gap :=
  fun head first => isGap head (List.mem_of_mem_head? first)

theorem IsGap.spells {gap : List Char} (isGap : IsGap gap) : Spells gap [] := by
  have spells := Spells.done.gap isGap
  rw [List.append_nil] at spells
  exact spells

/-- A gap that is not empty begins with a blank whatever follows. -/
theorem IsGap.beginsBlank_append {gap : List Char} (isGap : IsGap gap) (notEmpty : gap ≠ [])
    (rest : List Char) : BeginsBlank (gap ++ rest) := by
  cases gap with
  | nil => exact absurd rfl notEmpty
  | cons head tail => exact isGap.begins

namespace ReadsChains

variable {first second gap other : List Char} {chains others : List (List Expr)}

/-- Blanks around a text do not matter. -/
theorem surround (reads : ReadsChains first chains) (isGap : IsGap gap) (isOther : IsGap other) :
    ReadsChains (gap ++ first ++ other) chains where
  spells := by
    have spells := (reads.spells.gap isGap).append isOther.begins isOther.spells
    rw [List.append_nil] at spells
    exact spells
  proper := reads.proper

/-- A keyword between two texts joins their chains. -/
theorem keyword (readsFirst : ReadsChains first chains) (readsSecond : ReadsChains second others)
    (firstSome : chains ≠ [[]]) (secondSome : others ≠ [[]]) (isGap : IsGap gap)
    (gapSome : gap ≠ []) (isOther : IsGap other) (otherSome : other ≠ []) :
    ReadsChains (first ++ (gap ++ ('O' :: 'R' :: (other ++ second)))) (chains ++ others) where
  spells := by
    have later := readsSecond.spells.gap isOther
    have alone := isOther.beginsBlank_append otherSome second
    rw [marksOf_append readsFirst.proper.ne_nil readsSecond.proper.ne_nil]
    exact readsFirst.spells.append (isGap.beginsBlank_append gapSome _)
      ((later.keyword alone).gap isGap)
  proper := by
    have firstProper := readsFirst.proper.resolve_left firstSome
    have secondProper := readsSecond.proper.resolve_left secondSome
    exact .inr ⟨List.append_ne_nil_of_left_ne_nil firstProper.1 _,
      List.forall_mem_append.mpr ⟨firstProper.2, secondProper.2⟩⟩

end ReadsChains

/-- A gap between two texts makes one of the last chain of the first and the first chain of the
second. -/
theorem ReadsChains.weld {first second gap : List Char} {before after : List (List Expr)}
    {last next : List Expr} (readsFirst : ReadsChains first (before ++ [last]))
    (readsSecond : ReadsChains second (next :: after)) (isGap : IsGap gap) (gapSome : gap ≠ []) :
    ReadsChains (first ++ (gap ++ second)) (before ++ (last ++ next) :: after) where
  spells := by
    rw [← marksOf_weld]
    exact readsFirst.spells.append (isGap.beginsBlank_append gapSome _)
      (readsSecond.spells.gap isGap)
  proper := by
    rcases readsFirst.proper with nothing | ⟨_, firstFull⟩
    · rcases List.append_eq_singleton_iff.mp nothing with ⟨rfl, same⟩ | ⟨_, impossible⟩
      · rw [List.head_eq_of_cons_eq same]
        exact readsSecond.proper
      · exact absurd impossible (List.cons_ne_nil _ _)
    · have parts := List.forall_mem_append.mp firstFull
      have full : ∀ chain ∈ after, chain ≠ [] := by
        rcases readsSecond.proper with nothing | ⟨_, secondFull⟩
        · rw [List.tail_eq_of_cons_eq nothing]
          exact fun _ member => nomatch member
        · exact (List.forall_mem_cons.mp secondFull).2
      have lastSome := parts.2 last List.mem_cons_self
      exact .inr ⟨List.append_ne_nil_of_right_ne_nil _ (List.cons_ne_nil _ _),
        List.forall_mem_append.mpr ⟨parts.1, List.forall_mem_cons.mpr
          ⟨List.append_ne_nil_of_left_ne_nil lastSome _, full⟩⟩⟩

theorem chains_ne_of_parse {input : String} {query : Query} (parsed : parse input = .ok query)
    (notEmpty : query.isEmpty = false) : query.chains ≠ [[]] := by
  have joins := congrArg Query.expressions (parse_eq_ok_iff_chains.mp parsed).2
  intro empty
  rw [empty] at joins
  rw [Query.isEmpty, joins] at notEmpty
  cases notEmpty

theorem isGap_of_isBlankText {text : String} (blank : Text.isBlankText text = true) :
    IsGap text.toList :=
  List.all_eq_true.mp blank

/-- Parsing is compositional.  The expressions of a query are its chains, joined from the left.
Blanks around a text change nothing.  Between two texts, the keyword joins the chains of both, and
blanks alone make one chain of the last of the first and the first of the second. -/
theorem parse_composes {first second : String} {one two : Query}
    (firstParses : parse first = .ok one) (secondParses : parse second = .ok two) :
    one.expressions = joinChains one.chains ∧
    (∀ before after : String, Text.isBlankText before = true → Text.isBlankText after = true →
      parse (before ++ first ++ after) = .ok ⟨one.expressions, before ++ first ++ after⟩) ∧
    (one.isEmpty = false → two.isEmpty = false →
      ∀ gap other : String, gap ≠ "" → other ≠ "" →
        Text.isBlankText gap = true → Text.isBlankText other = true →
        (∃ joined, parse (first ++ gap ++ "OR" ++ other ++ second) = .ok joined ∧
          joined.chains = one.chains ++ two.chains) ∧
        ∃ before last next after joined,
          one.chains = before ++ [last] ∧ two.chains = next :: after ∧
          parse (first ++ gap ++ second) = .ok joined ∧
          joined.chains = before ++ (last ++ next) :: after) := by
  rcases parse_eq_ok_iff_chains.mp firstParses with ⟨readsFirst, joinsFirst⟩
  have readsSecond := (parse_eq_ok_iff_chains.mp secondParses).1
  have expressions := congrArg Query.expressions joinsFirst
  refine ⟨expressions, ?_, ?_⟩
  · intro before after blankBefore blankAfter
    have reads := readsFirst.surround (isGap_of_isBlankText blankBefore)
      (isGap_of_isBlankText blankAfter)
    rw [← String.toList_append, ← String.toList_append] at reads
    rw [reads.parse.1, expressions]
  · intro firstSome secondSome gap other gapSome otherSome blankGap blankOther
    have isGap := isGap_of_isBlankText blankGap
    have isOther := isGap_of_isBlankText blankOther
    constructor
    · have reads := readsFirst.keyword readsSecond (chains_ne_of_parse firstParses firstSome)
        (chains_ne_of_parse secondParses secondSome) isGap (toList_ne_nil gapSome) isOther
        (toList_ne_nil otherSome)
      have whole : (first ++ gap ++ "OR" ++ other ++ second).toList =
          first.toList ++ (gap.toList ++ 'O' :: 'R' :: (other.toList ++ second.toList)) := by
        simp
      rw [← whole] at reads
      exact ⟨_, reads.parse⟩
    · rcases List.eq_nil_or_concat' one.chains with none | ⟨before, last, endsFirst⟩
      · exact absurd none readsFirst.proper.ne_nil
      · cases beginsSecond : two.chains with
        | nil => exact absurd beginsSecond readsSecond.proper.ne_nil
        | cons next after =>
            rw [endsFirst] at readsFirst
            rw [beginsSecond] at readsSecond
            have reads := readsFirst.weld readsSecond isGap (toList_ne_nil gapSome)
            rw [← String.toList_append, ← String.toList_append, ← String.append_assoc] at reads
            exact ⟨before, last, next, after, _, endsFirst, rfl, reads.parse⟩

theorem disjunctions_compose :
    parse "a OR b" = .ok ⟨[.or (.term "a") (.term "b")], "a OR b"⟩ ∧
    (∃ joined, parse "a OR b OR  -c d" = .ok joined ∧
      joined.chains = [[.term "a"], [.term "b"], [.not (.term "c"), .term "d"]]) ∧
    ∃ joined, parse "a OR b -c d" = .ok joined ∧
      joined.chains = [[.term "a"], [.term "b", .not (.term "c"), .term "d"]] := by
  have first : parse "a OR b" = .ok ⟨[.or (.term "a") (.term "b")], "a OR b"⟩ := by rfl
  have second : parse "-c d" = .ok ⟨[.not (.term "c"), .term "d"], "-c d"⟩ := by rfl
  have both := (parse_composes first second).2.2 rfl rfl " " "  " (by decide) (by decide) rfl rfl
  rcases both with ⟨keyword, before, last, next, after, joined, endsFirst, beginsSecond, welds⟩
  have ends : [[Expr.term "a"]] ++ [[.term "b"]] = before ++ [last] := endsFirst
  have begins : [.not (.term "c"), .term "d"] :: [] = next :: after := beginsSecond
  rcases List.append_inj' ends rfl with ⟨rfl, same⟩
  cases same
  cases begins
  exact ⟨first, keyword, joined, welds⟩

end QueryLanguage
end Commonplace
