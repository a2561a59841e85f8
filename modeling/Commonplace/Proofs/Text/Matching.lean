import Commonplace.Text.Ends
import Mathlib.Data.List.Basic

namespace Commonplace
namespace Text

/-!
# Matching by rests

A pattern is matched part by part, and every part leaves some rests of the text.  The matchers keep
all rests at once and drop the repeated ones by their length.  Nothing is lost by this: a pattern
matches when one can choose a rest for each of its parts and ends up with nothing.
-/

section Matching

variable {item part : Type}

/-- Whether some choice of rests, one for each part, uses up a text. -/
def Matched (rests : part -> List item -> List (List item)) : List part -> List item -> Prop
  | [], text => text = []
  | first :: parts, text => ∃ rest ∈ rests first text, Matched rests parts rest

/-- Two ends of one list with the same length are the same end. -/
theorem eq_of_suffix_of_length {whole first second : List item} (firstEnd : first <:+ whole)
    (secondEnd : second <:+ whole) (sameLength : first.length = second.length) :
    first = second := by
  rw [List.suffix_iff_eq_drop.mp firstEnd, List.suffix_iff_eq_drop.mp secondEnd, sameLength]

/-- Dropping repeated ends of one list drops no end. -/
theorem mem_distinctEnds {whole : List item} {texts : List (List item)}
    (suffixes : ∀ text ∈ texts, text <:+ whole) (text : List item) :
    text ∈ distinctEnds texts ↔ text ∈ texts := by
  induction texts generalizing text with
  | nil => exact Iff.rfl
  | cons head tail inductionHypothesis =>
      have tailSuffixes : ∀ other ∈ tail, other <:+ whole :=
        fun other member => suffixes other (List.mem_cons_of_mem _ member)
      have kept := inductionHypothesis tailSuffixes text
      have split : distinctEnds (head :: tail) =
          if (distinctEnds tail).any fun other => other.length == head.length then distinctEnds tail
          else head :: distinctEnds tail := rfl
      rw [split]
      by_cases known : (distinctEnds tail).any fun other => other.length == head.length
      · rw [if_pos known, kept, List.mem_cons]
        constructor
        · exact .inr
        · rintro (rfl | later)
          · -- The end that stands for this one has the same length, so it is the same end.
            rcases List.any_eq_true.mp known with ⟨other, member, sameLength⟩
            have inTail := (inductionHypothesis tailSuffixes other).mp member
            have same := eq_of_suffix_of_length (tailSuffixes other inTail)
              (suffixes text List.mem_cons_self) (beq_iff_eq.mp sameLength)
            rw [← same]
            exact inTail
          · exact later
      · rw [if_neg known, List.mem_cons, List.mem_cons, kept]

/-- A matcher that keeps all distinct rests finds a pattern just when some choice of rests uses up
one of the texts. -/
theorem any_isEmpty_iff_matched {rests : part -> List item -> List (List item)}
    {all : List (List item) -> List part -> List (List item)}
    (allNil : ∀ texts, all texts [] = texts)
    (allCons : ∀ texts first parts, all texts (first :: parts) =
      all (distinctEnds (texts.flatMap fun text => rests first text)) parts)
    (parts : List part)
    (suffix : ∀ first ∈ parts, ∀ text rest, rest ∈ rests first text → rest <:+ text)
    {whole : List item} {texts : List (List item)} (suffixes : ∀ text ∈ texts, text <:+ whole) :
    (all texts parts).any List.isEmpty = true ↔ ∃ text ∈ texts, Matched rests parts text := by
  induction parts generalizing texts with
  | nil =>
      rw [allNil, List.any_eq_true]
      simp only [List.isEmpty_iff, Matched]
  | cons first parts inductionHypothesis =>
      have nextSuffixes : ∀ rest ∈ texts.flatMap fun text => rests first text, rest <:+ whole := by
        intro rest member
        rcases List.mem_flatMap.mp member with ⟨text, textMember, restMember⟩
        have below := suffix first List.mem_cons_self text rest restMember
        exact below.trans (suffixes text textMember)
      have laterSuffix : ∀ later ∈ parts, ∀ text rest, rest ∈ rests later text → rest <:+ text :=
        fun later member => suffix later (List.mem_cons_of_mem _ member)
      rw [allCons, inductionHypothesis laterSuffix]
      · simp only [mem_distinctEnds nextSuffixes, List.mem_flatMap, Matched]
        constructor
        · rintro ⟨rest, ⟨text, textMember, restMember⟩, matched⟩
          exact ⟨text, textMember, rest, restMember, matched⟩
        · rintro ⟨text, textMember, rest, restMember, matched⟩
          exact ⟨rest, ⟨text, textMember, restMember⟩, matched⟩
      · intro rest member
        exact nextSuffixes rest ((mem_distinctEnds nextSuffixes rest).mp member)

/-- Parts at the end of a pattern can be exchanged for others that match the same texts. -/
theorem matched_append_congr {rests : part -> List item -> List (List item)}
    {second third : List part}
    (alike : ∀ text, Matched rests second text ↔ Matched rests third text) (first : List part)
    (text : List item) :
    Matched rests (first ++ second) text ↔ Matched rests (first ++ third) text := by
  induction first generalizing text with
  | nil => exact alike text
  | cons head tail inductionHypothesis =>
      exact exists_congr fun rest => and_congr_right fun _ => inductionHypothesis rest

/-- Two patterns match alike when their parts leave the same rests, up to a change of the items
that holds for all ends of the text. -/
theorem matched_map {other otherPart : Type} {rests : part -> List item -> List (List item)}
    {otherRests : otherPart -> List other -> List (List other)} {change : item -> other}
    {changePart : part -> otherPart} {holds : List item -> Prop} {allowed : part -> Prop}
    (kept : ∀ first text rest, holds text → rest ∈ rests first text → holds rest)
    (agree : ∀ first text, allowed first → holds text →
      otherRests (changePart first) (text.map change) =
        (rests first text).map (List.map change)) :
    ∀ (parts : List part) (text : List item), (∀ first ∈ parts, allowed first) → holds text →
      (Matched otherRests (parts.map changePart) (text.map change) ↔ Matched rests parts text) := by
  intro parts
  induction parts with
  | nil =>
      intro text _ _
      simp only [List.map_nil, Matched, List.map_eq_nil_iff]
  | cons first parts inductionHypothesis =>
      intro text allowedAll holdsText
      have restAllowed : ∀ later ∈ parts, allowed later :=
        fun later member => allowedAll later (List.mem_cons_of_mem _ member)
      have here := agree first text (allowedAll first List.mem_cons_self) holdsText
      have later := fun rest member =>
        inductionHypothesis rest restAllowed (kept first text rest holdsText member)
      simp only [List.map_cons, Matched, here, List.mem_map]
      constructor
      · rintro ⟨_, ⟨rest, member, rfl⟩, matched⟩
        exact ⟨rest, member, (later rest member).mp matched⟩
      · rintro ⟨rest, member, matched⟩
        exact ⟨_, ⟨rest, member, rfl⟩, (later rest member).mpr matched⟩

end Matching

/-! ## Ends -/

section Ends

variable {item : Type}

theorem mem_ends (text rest : List item) : rest ∈ ends text ↔ rest <:+ text := by
  induction text with
  | nil => simp [ends]
  | cons head tail inductionHypothesis =>
      rw [ends, List.mem_cons, inductionHypothesis, List.suffix_cons_iff]

theorem mem_endAfter (test : item -> Bool) (text rest : List item) :
    rest ∈ endAfter test text ↔ ∃ head, test head = true ∧ text = head :: rest := by
  cases text with
  | nil => simp [endAfter]
  | cons head tail =>
      by_cases passes : test head = true
      · rw [endAfter, if_pos passes, List.mem_singleton]
        constructor
        · rintro rfl
          exact ⟨head, passes, rfl⟩
        · rintro ⟨other, _, same⟩
          exact (List.cons.inj same).2.symm
      · rw [endAfter, if_neg passes]
        constructor
        · intro member
          cases member
        · rintro ⟨other, otherPasses, same⟩
          rw [← (List.cons.inj same).1] at otherPasses
          exact absurd otherPasses passes

theorem suffix_of_mem_endAfter {test : item -> Bool} {text rest : List item}
    (member : rest ∈ endAfter test text) : rest <:+ text := by
  rcases (mem_endAfter test text rest).mp member with ⟨head, _, rfl⟩
  exact List.suffix_cons head rest

theorem suffix_of_mem_endsWhile {test : item -> Bool} {text rest : List item}
    (member : rest ∈ endsWhile test text) : rest <:+ text := by
  induction text with
  | nil =>
      rw [endsWhile, List.mem_singleton] at member
      rcases member with rfl
      exact List.suffix_refl _
  | cons head tail inductionHypothesis =>
      rw [endsWhile, List.mem_cons] at member
      rcases member with rfl | later
      · exact List.suffix_refl _
      · by_cases passes : test head = true
        · rw [if_pos passes] at later
          exact (inductionHypothesis later).trans (List.suffix_cons head tail)
        · rw [if_neg passes] at later
          cases later

/-- All ends are reached by items that satisfy a test when all items do. -/
theorem endsWhile_of_all {test : item -> Bool} {text : List item}
    (passes : ∀ head ∈ text, test head = true) : endsWhile test text = ends text := by
  induction text with
  | nil => rfl
  | cons head tail inductionHypothesis =>
      rw [endsWhile, ends, if_pos (passes head List.mem_cons_self),
        inductionHypothesis fun other member => passes other (List.mem_cons_of_mem head member)]

theorem ends_map {other : Type} (change : item -> other) (text : List item) :
    ends (text.map change) = (ends text).map (List.map change) := by
  induction text with
  | nil => rfl
  | cons head tail inductionHypothesis => simp [ends, inductionHypothesis]

theorem endAfter_map {other : Type} {change : item -> other} {test : other -> Bool}
    {otherTest : item -> Bool} {text : List item}
    (agree : ∀ head ∈ text, test (change head) = otherTest head) :
    endAfter test (text.map change) = (endAfter otherTest text).map (List.map change) := by
  cases text with
  | nil => rfl
  | cons head tail =>
      simp only [List.map_cons, endAfter, agree head List.mem_cons_self]
      split <;> rfl

end Ends

end Text
end Commonplace
