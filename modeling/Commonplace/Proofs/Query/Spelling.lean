import Commonplace.Query.Parser
import Mathlib.Data.List.Infix
import Mathlib.Order.Bounds.Basic
import Mathlib.Order.MinMax

namespace Commonplace

/-!
# Suggestions are nearest names

The distance that is computed row by row is the least number of edits that turn one word into
another.  Edits may happen anywhere and in any order, and they may undo each other, so they are
first brought into the form of an alignment: two words side by side, letter by letter, each letter
kept, replaced, inserted or deleted.  An edit in front of an alignment costs at most one more.
-/

namespace Spelling

/-! ## Edits and alignments -/

/-- One edit of a word: a letter is inserted, deleted or replaced somewhere. -/
inductive Edit : List Char -> List Char -> Prop where
  | insert (before after : List Char) (letter : Char) :
      Edit (before ++ after) (before ++ letter :: after)
  | delete (before after : List Char) (letter : Char) :
      Edit (before ++ letter :: after) (before ++ after)
  | replace (before after : List Char) (letter other : Char) :
      Edit (before ++ letter :: after) (before ++ other :: after)

/-- A number of edits that turn one word into another. -/
inductive Edits : Nat -> List Char -> List Char -> Prop where
  | none (word : List Char) : Edits 0 word word
  | more {count : Nat} {word next other : List Char} (first : Edit word next)
      (rest : Edits count next other) : Edits (count + 1) word other

/-- Two words side by side, and the number of letters that are not kept. -/
inductive Aligned : Nat -> List Char -> List Char -> Prop where
  | empty : Aligned 0 [] []
  | keep {count : Nat} {word other : List Char} (letter : Char) (rest : Aligned count word other) :
      Aligned count (letter :: word) (letter :: other)
  | replace {count : Nat} {word other : List Char} (letter new : Char)
      (rest : Aligned count word other) : Aligned (count + 1) (letter :: word) (new :: other)
  | insert {count : Nat} {word other : List Char} (new : Char) (rest : Aligned count word other) :
      Aligned (count + 1) word (new :: other)
  | delete {count : Nat} {word other : List Char} (letter : Char)
      (rest : Aligned count word other) : Aligned (count + 1) (letter :: word) other

theorem Edit.cons {word other : List Char} (letter : Char) (edit : Edit word other) :
    Edit (letter :: word) (letter :: other) := by
  cases edit with
  | insert before after new => exact .insert (letter :: before) after new
  | delete before after old => exact .delete (letter :: before) after old
  | replace before after old new => exact .replace (letter :: before) after old new

theorem Edits.cons {count : Nat} {word other : List Char} (letter : Char)
    (edits : Edits count word other) : Edits count (letter :: word) (letter :: other) := by
  induction edits with
  | none word => exact .none _
  | more first _ inductionHypothesis => exact .more (first.cons letter) inductionHypothesis

/-- An alignment is carried out from left to right. -/
theorem Aligned.edits {count : Nat} {word other : List Char} (aligned : Aligned count word other) :
    Edits count word other := by
  induction aligned with
  | empty => exact .none []
  | keep letter _ inductionHypothesis => exact inductionHypothesis.cons letter
  | @replace count word other letter new _ inductionHypothesis =>
      exact .more (.replace [] word letter new) (inductionHypothesis.cons new)
  | @insert count word other new _ inductionHypothesis =>
      exact .more (.insert [] word new) (inductionHypothesis.cons new)
  | @delete count word other letter _ inductionHypothesis =>
      exact .more (.delete [] word letter) inductionHypothesis

namespace Aligned

theorem refl (word : List Char) : Aligned 0 word word := by
  induction word with
  | nil => exact .empty
  | cons letter rest inductionHypothesis => exact .keep letter inductionHypothesis

/-- Whether everything that can be aligned with one word can be aligned with another one, at the
price of one more letter that is not kept. -/
def Costs (next word : List Char) : Prop :=
  ∀ (count : Nat) (other : List Char), Aligned count next other ->
    ∃ less, less ≤ count + 1 ∧ Aligned less word other

/-- A letter in front that is inserted. -/
theorem costs_insert (letter : Char) (rest : List Char) : Costs (letter :: rest) rest := by
  intro count other aligned
  generalize whole : letter :: rest = next at aligned
  induction aligned with
  | empty => cases whole
  | keep new aligned =>
      cases whole
      exact ⟨_, le_refl _, .insert _ aligned⟩
  | replace old new aligned =>
      cases whole
      exact ⟨_, Nat.le_succ _, .insert new aligned⟩
  | insert new _ inductionHypothesis =>
      rcases inductionHypothesis whole with ⟨less, atMost, aligned⟩
      exact ⟨less + 1, Nat.succ_le_succ atMost, .insert new aligned⟩
  | delete old aligned =>
      cases whole
      exact ⟨_, by omega, aligned⟩

/-- A letter in front that is deleted. -/
theorem costs_delete (letter : Char) (rest : List Char) : Costs rest (letter :: rest) :=
  fun _ _ aligned => ⟨_, le_refl _, .delete letter aligned⟩

/-- A letter in front that is replaced. -/
theorem costs_replace (letter new : Char) (rest : List Char) :
    Costs (new :: rest) (letter :: rest) := by
  intro count other aligned
  generalize whole : new :: rest = next at aligned
  induction aligned with
  | empty => cases whole
  | keep kept aligned =>
      cases whole
      exact ⟨_, le_refl _, .replace letter _ aligned⟩
  | replace old newer aligned =>
      cases whole
      exact ⟨_, Nat.le_succ _, .replace letter newer aligned⟩
  | insert newer _ inductionHypothesis =>
      rcases inductionHypothesis whole with ⟨less, atMost, aligned⟩
      exact ⟨less + 1, Nat.succ_le_succ atMost, .insert newer aligned⟩
  | delete old aligned =>
      cases whole
      exact ⟨_, Nat.le_succ _, .delete letter aligned⟩

/-- An edit behind a common letter. -/
theorem Costs.cons {next word : List Char} (letter : Char) (costs : Costs next word) :
    Costs (letter :: next) (letter :: word) := by
  intro count other aligned
  generalize whole : letter :: next = longer at aligned
  induction aligned with
  | empty => cases whole
  | keep kept aligned =>
      cases whole
      rcases costs _ _ aligned with ⟨less, atMost, aligned⟩
      exact ⟨less, atMost, .keep letter aligned⟩
  | replace old new aligned =>
      cases whole
      rcases costs _ _ aligned with ⟨less, atMost, aligned⟩
      exact ⟨less + 1, Nat.succ_le_succ atMost, .replace letter new aligned⟩
  | insert new _ inductionHypothesis =>
      rcases inductionHypothesis whole with ⟨less, atMost, aligned⟩
      exact ⟨less + 1, Nat.succ_le_succ atMost, .insert new aligned⟩
  | delete old aligned =>
      cases whole
      rcases costs _ _ aligned with ⟨less, atMost, aligned⟩
      exact ⟨less + 1, Nat.succ_le_succ atMost, .delete letter aligned⟩

theorem Costs.under {next word : List Char} (costs : Costs next word) (before : List Char) :
    Costs (before ++ next) (before ++ word) := by
  induction before with
  | nil => exact costs
  | cons letter rest inductionHypothesis => exact inductionHypothesis.cons letter

/-- An edit costs at most one letter. -/
theorem costs_of_edit {word next : List Char} (edit : Edit word next) : Costs next word := by
  cases edit with
  | insert before after letter => exact (costs_insert letter after).under before
  | delete before after letter => exact (costs_delete letter after).under before
  | replace before after letter other => exact (costs_replace letter other after).under before

end Aligned

/-- Edits can be put into an alignment that needs no more of them. -/
theorem Edits.exists_aligned {count : Nat} {word other : List Char}
    (edits : Edits count word other) : ∃ less, less ≤ count ∧ Aligned less word other := by
  induction edits with
  | none word => exact ⟨0, le_refl 0, .refl word⟩
  | more first _ inductionHypothesis =>
      rcases inductionHypothesis with ⟨less, atMost, aligned⟩
      rcases Aligned.costs_of_edit first _ _ aligned with ⟨least, atMostOneMore, aligned⟩
      exact ⟨least, by omega, aligned⟩

/-! ## The distance -/

/-- The distance by the letters in front, which are kept or replaced, deleted or inserted. -/
def apart : List Char -> List Char -> Nat
  | [], other => other.length
  | letter :: word, [] => (letter :: word).length
  | letter :: word, head :: tail =>
      min (min (apart word tail + if letter == head then 0 else 1) (apart word (head :: tail) + 1))
        (apart (letter :: word) tail + 1)
  termination_by word other => word.length + other.length

theorem apart_nil_left (other : List Char) : apart [] other = other.length := by
  rw [apart]

theorem apart_nil_right (word : List Char) : apart word [] = word.length := by
  cases word <;> rw [apart]

theorem apart_cons_cons (letter head : Char) (word tail : List Char) :
    apart (letter :: word) (head :: tail) =
      min (min (apart word tail + if letter == head then 0 else 1)
        (apart word (head :: tail) + 1)) (apart (letter :: word) tail + 1) := by
  rw [apart]

theorem apart_le_insert (word : List Char) (head : Char) (tail : List Char) :
    apart word (head :: tail) ≤ apart word tail + 1 := by
  cases word with
  | nil => rw [apart_nil_left, apart_nil_left, List.length_cons]
  | cons letter rest =>
      rw [apart_cons_cons]
      exact min_le_right _ _

theorem apart_le_delete (letter : Char) (word other : List Char) :
    apart (letter :: word) other ≤ apart word other + 1 := by
  cases other with
  | nil => rw [apart_nil_right, apart_nil_right, List.length_cons]
  | cons head tail =>
      rw [apart_cons_cons]
      exact (min_le_left _ _).trans (min_le_right _ _)

theorem apart_le_replace (letter head : Char) (word tail : List Char) :
    apart (letter :: word) (head :: tail) ≤ apart word tail + if letter == head then 0 else 1 := by
  rw [apart_cons_cons]
  exact (min_le_left _ _).trans (min_le_left _ _)

theorem aligned_nil_left (other : List Char) : Aligned other.length [] other := by
  induction other with
  | nil => exact .empty
  | cons head tail inductionHypothesis => exact .insert head inductionHypothesis

theorem aligned_nil_right (word : List Char) : Aligned word.length word [] := by
  induction word with
  | nil => exact .empty
  | cons letter rest inductionHypothesis => exact .delete letter inductionHypothesis

/-- Two words can be aligned with as many changes as their distance says. -/
theorem aligned_apart (word other : List Char) : Aligned (apart word other) word other := by
  induction word generalizing other with
  | nil =>
      rw [apart_nil_left]
      exact aligned_nil_left other
  | cons letter rest afterLetter =>
      induction other with
      | nil =>
          rw [apart_nil_right]
          exact aligned_nil_right (letter :: rest)
      | cons head tail afterHead =>
          rw [apart_cons_cons]
          rcases min_choice (min (apart rest tail + if letter == head then 0 else 1)
            (apart rest (head :: tail) + 1)) (apart (letter :: rest) tail + 1) with
            isEarlier | isInsert
          · rw [isEarlier]
            rcases min_choice (apart rest tail + if letter == head then 0 else 1)
              (apart rest (head :: tail) + 1) with isPair | isDelete
            · rw [isPair]
              by_cases same : letter = head
              · rw [same, beq_self_eq_true, if_pos rfl]
                exact .keep head (afterLetter tail)
              · rw [beq_eq_false_iff_ne.mpr same, if_neg Bool.false_ne_true]
                exact .replace letter head (afterLetter tail)
            · rw [isDelete]
              exact .delete letter (afterLetter (head :: tail))
          · rw [isInsert]
            exact .insert head afterHead

/-- No alignment needs fewer changes than the distance says. -/
theorem apart_le_of_aligned {count : Nat} {word other : List Char}
    (aligned : Aligned count word other) : apart word other ≤ count := by
  induction aligned with
  | empty => exact (apart_nil_left []).le
  | @keep count word other letter _ inductionHypothesis =>
      have atMost := apart_le_replace letter letter word other
      rw [beq_self_eq_true, if_pos rfl] at atMost
      exact atMost.trans inductionHypothesis
  | @replace count word other letter new _ inductionHypothesis =>
      have atMost := apart_le_replace letter new word other
      split at atMost <;> omega
  | @insert count word other new _ inductionHypothesis =>
      exact (apart_le_insert word new other).trans (Nat.succ_le_succ inductionHypothesis)
  | @delete count word other letter _ inductionHypothesis =>
      exact (apart_le_delete letter word other).trans (Nat.succ_le_succ inductionHypothesis)

theorem isLeast_apart (word other : List Char) :
    IsLeast {count | Edits count word other} (apart word other) := by
  constructor
  · exact (aligned_apart word other).edits
  · intro count edits
    rcases edits.exists_aligned with ⟨less, atMost, aligned⟩
    exact (apart_le_of_aligned aligned).trans atMost

/-! ## The distance row by row

The rows count from the front and meet the last letters first.  So what was read stands in reverse
here, and in the end both words do, which changes nothing: an edit of a word is an edit of the
reversed word. -/

/-- The distances of what was read of a word to a beginning of the other one and to all that are
longer, with the letters of both in reverse. -/
def entries (read before : List Char) : List Char -> List Nat
  | [] => [apart read before]
  | head :: tail => apart read before :: entries read (head :: before) tail

theorem entries_nil_left (before rest : List Char) :
    entries [] before rest = List.range' before.length (rest.length + 1) := by
  induction rest generalizing before with
  | nil =>
      rw [entries, apart_nil_left]
      rfl
  | cons head tail inductionHypothesis =>
      rw [entries, apart_nil_left, inductionHypothesis, List.length_cons, List.length_cons]
      rfl

theorem getD_entries (read before rest : List Char) :
    (entries read before rest).getD rest.length 0 = apart read (rest.reverse ++ before) := by
  induction rest generalizing before with
  | nil => rfl
  | cons head tail inductionHypothesis =>
      rw [entries, List.length_cons, List.getD_cons_succ, inductionHypothesis, List.reverse_cons,
        List.append_assoc]
      rfl

/-- One more letter gives the entries for what was read then. -/
theorem nextRow_entries (letter : Char) (read before rest : List Char) :
    nextRow letter (apart (letter :: read) before) (entries read before rest) rest =
      entries (letter :: read) before rest := by
  induction rest generalizing before with
  | nil => rfl
  | cons head tail inductionHypothesis =>
      have right : ∃ previous, entries read (head :: before) tail =
          apart read (head :: before) :: previous := by
        cases tail <;> exact ⟨_, rfl⟩
      rcases right with ⟨previous, isRight⟩
      rw [entries, entries, ← inductionHypothesis, isRight, nextRow, ← apart_cons_cons]

/-- The rows that follow hold the distances of all that was read. -/
theorem foldl_nextRow (word read other : List Char) :
    (word.zipIdx read.length).foldl
        (fun row (letter, index) => nextRow letter (index + 1) row other) (entries read [] other) =
      entries (word.reverse ++ read) [] other := by
  induction word generalizing read with
  | nil => rfl
  | cons letter rest inductionHypothesis =>
      have start : read.length + 1 = apart (letter :: read) [] := by
        rw [apart_nil_right, List.length_cons]
      simp only [List.zipIdx_cons, List.foldl_cons]
      rw [start, nextRow_entries, ← start]
      exact (inductionHypothesis (letter :: read)).trans (by rw [List.reverse_cons,
        List.append_assoc, List.singleton_append])

theorem lastRow_eq (word other : List Char) :
    lastRow word other = entries word.reverse [] other := by
  have first : List.range (other.length + 1) = entries [] [] other := by
    rw [entries_nil_left, List.range_eq_range']
    rfl
  rw [lastRow, first]
  exact (foldl_nextRow word [] other).trans (by rw [List.append_nil])

/-- What the rows compute is the distance of the reversed words. -/
theorem distance_eq (word other : List Char) :
    distance word other = apart word.reverse other.reverse := by
  rw [distance, lastRow_eq, getD_entries, List.append_nil]

theorem Edit.reverse {word other : List Char} (edit : Edit word other) :
    Edit word.reverse other.reverse := by
  cases edit with
  | insert before after letter =>
      simp only [List.reverse_append, List.reverse_cons, List.append_assoc]
      exact .insert after.reverse before.reverse letter
  | delete before after letter =>
      simp only [List.reverse_append, List.reverse_cons, List.append_assoc]
      exact .delete after.reverse before.reverse letter
  | replace before after letter other =>
      simp only [List.reverse_append, List.reverse_cons, List.append_assoc]
      exact .replace after.reverse before.reverse letter other

theorem Edits.reverse {count : Nat} {word other : List Char} (edits : Edits count word other) :
    Edits count word.reverse other.reverse := by
  induction edits with
  | none word => exact .none _
  | more first _ inductionHypothesis => exact .more first.reverse inductionHypothesis

/-- The distance is the least number of edits. -/
theorem isLeast_distance (word other : List Char) :
    IsLeast {count | Edits count word other} (distance word other) := by
  have least := isLeast_apart word.reverse other.reverse
  rw [distance_eq]
  constructor
  · have edits := least.1.reverse
    rwa [List.reverse_reverse, List.reverse_reverse] at edits
  · exact fun count edits => least.2 edits.reverse

example : distance "kitten".toList "sitting".toList = 3 := by
  decide +kernel

/-! ## The nearest name -/

/-- Whether a candidate is the first of those that are nearest to a word. -/
def IsFirstNearest (word : String) (candidates : List String) (candidate : String) : Prop :=
  ∃ before after, candidates = before ++ candidate :: after ∧
    (∀ other ∈ before,
      distance word.toList candidate.toList < distance word.toList other.toList) ∧
    ∀ other ∈ after, distance word.toList candidate.toList ≤ distance word.toList other.toList

theorem IsFirstNearest.mem {word candidate : String} {candidates : List String}
    (first : IsFirstNearest word candidates candidate) : candidate ∈ candidates := by
  rcases first with ⟨before, after, rfl, _⟩
  exact List.mem_append_right before List.mem_cons_self

theorem IsFirstNearest.le {word candidate other : String} {candidates : List String}
    (first : IsFirstNearest word candidates candidate) (member : other ∈ candidates) :
    distance word.toList candidate.toList ≤ distance word.toList other.toList := by
  rcases first with ⟨before, after, rfl, nearer, near⟩
  rcases List.mem_append.mp member with inBefore | inRest
  · exact (nearer other inBefore).le
  · rcases List.mem_cons.mp inRest with rfl | inAfter
    · exact le_refl _
    · exact near other inAfter

/-- It stays the first when another candidate comes after all others and is not nearer. -/
theorem IsFirstNearest.concat {word candidate last : String} {candidates : List String}
    (first : IsFirstNearest word candidates candidate)
    (notNearer : distance word.toList candidate.toList ≤ distance word.toList last.toList) :
    IsFirstNearest word (candidates ++ [last]) candidate := by
  rcases first with ⟨before, after, rfl, nearer, near⟩
  refine ⟨before, after ++ [last], by rw [List.append_assoc, List.cons_append], nearer, ?_⟩
  intro other member
  rcases List.mem_append.mp member with early | late
  · exact near other early
  · rw [List.mem_singleton.mp late]
    exact notNearer

/-- There is only one first of the nearest candidates. -/
theorem IsFirstNearest.unique {word first second : String} {candidates : List String}
    (isFirst : IsFirstNearest word candidates first)
    (isSecond : IsFirstNearest word candidates second) : first = second := by
  have firstNear : ∀ other ∈ candidates,
      distance word.toList first.toList ≤ distance word.toList other.toList :=
    fun _ member => isFirst.le member
  have secondNear : ∀ other ∈ candidates,
      distance word.toList second.toList ≤ distance word.toList other.toList :=
    fun _ member => isSecond.le member
  have firstMember := isFirst.mem
  have secondMember := isSecond.mem
  rcases isFirst with ⟨before, after, rfl, nearer, _⟩
  rcases isSecond with ⟨others, rest, same, nearerThan, _⟩
  -- Neither stands before the other, which would have to be nearer then.
  have notBefore : second ∉ before := fun member =>
    absurd (nearer second member) (Nat.not_lt.mpr (secondNear first firstMember))
  have notAmong : first ∉ others := fun member =>
    absurd (nearerThan first member) (Nat.not_lt.mpr (firstNear second secondMember))
  rcases List.append_eq_append_iff.mp same with ⟨between, rfl, split⟩ | ⟨between, rfl, split⟩
  · cases between with
    | nil => exact (List.cons.inj split).1
    | cons head tail =>
        rw [← (List.cons.inj split).1] at notAmong
        exact absurd (List.mem_append_right before List.mem_cons_self) notAmong
  · cases between with
    | nil => exact ((List.cons.inj split).1).symm
    | cons head tail =>
        rw [← (List.cons.inj split).1] at notBefore
        exact absurd (List.mem_append_right others List.mem_cons_self) notBefore

/-- The nearest candidate so far and its distance, after one more. -/
def nearer (best : Option (Nat × String)) (candidate : Nat × String) : Option (Nat × String) :=
  match best with
  | some found => if candidate.1 < found.1 then some candidate else some found
  | none => some candidate

/-- The nearest candidate within a limit and its distance. -/
def nearest (limit : Nat) (word : String) (candidates : List String) : Option (Nat × String) :=
  ((candidates.map fun candidate => (distance word.toList candidate.toList, candidate)).filter
    fun candidate => candidate.1 ≤ limit).foldl nearer none

theorem closest_eq (limit : Nat) (word : String) (candidates : List String) :
    closest limit word candidates = (nearest limit word candidates).map Prod.snd :=
  rfl

/-- One more candidate counts if it is within the limit. -/
theorem nearest_concat (limit : Nat) (word : String) (candidates : List String) (last : String) :
    nearest limit word (candidates ++ [last]) =
      if distance word.toList last.toList ≤ limit then
        nearer (nearest limit word candidates) (distance word.toList last.toList, last)
      else nearest limit word candidates := by
  rw [nearest, List.map_append, List.filter_append, List.foldl_append, List.map_singleton]
  by_cases within : distance word.toList last.toList ≤ limit
  · rw [if_pos within, List.filter_cons_of_pos (by exact decide_eq_true within), List.filter_nil]
    rfl
  · rw [if_neg within, List.filter_cons_of_neg (by exact decide_eq_true_iff.not.mpr within),
      List.filter_nil]
    rfl

/-- What was found is the first of the nearest, and within the limit; nothing is found only when
all candidates are beyond the limit. -/
theorem nearest_spec (limit : Nat) (word : String) (candidates : List String) :
    match nearest limit word candidates with
    | some found =>
        found.1 = distance word.toList found.2.toList ∧ found.1 ≤ limit ∧
          IsFirstNearest word candidates found.2
    | none => ∀ candidate ∈ candidates, limit < distance word.toList candidate.toList := by
  induction candidates using List.reverseRecOn with
  | nil => exact fun _ member => nomatch member
  | append_singleton candidates last inductionHypothesis =>
      rw [nearest_concat]
      cases found : nearest limit word candidates with
      | none =>
          rw [found] at inductionHypothesis
          by_cases within : distance word.toList last.toList ≤ limit
          · rw [if_pos within]
            refine ⟨rfl, within, candidates, [], rfl, ?_, fun _ member => nomatch member⟩
            exact fun other member => within.trans_lt (inductionHypothesis other member)
          · rw [if_neg within]
            intro candidate member
            rcases List.mem_append.mp member with early | late
            · exact inductionHypothesis candidate early
            · rw [List.mem_singleton.mp late]
              exact Nat.lt_of_not_le within
      | some best =>
          rw [found] at inductionHypothesis
          rcases inductionHypothesis with ⟨measured, within, first⟩
          by_cases lastWithin : distance word.toList last.toList ≤ limit
          · rw [if_pos lastWithin]
            by_cases isNearer : distance word.toList last.toList < best.1
            · rw [nearer, if_pos isNearer]
              refine ⟨rfl, lastWithin, candidates, [], rfl, ?_, fun _ member => nomatch member⟩
              intro other member
              rw [measured] at isNearer
              exact isNearer.trans_le (first.le member)
            · rw [nearer, if_neg isNearer]
              refine ⟨measured, within, first.concat ?_⟩
              rw [← measured]
              exact Nat.le_of_not_lt isNearer
          · rw [if_neg lastWithin]
            refine ⟨measured, within, first.concat ?_⟩
            rw [← measured]
            exact within.trans (Nat.le_of_not_le lastWithin)

theorem closest_eq_some_iff {limit : Nat} {word found : String} {candidates : List String} :
    closest limit word candidates = some found ↔
      distance word.toList found.toList ≤ limit ∧ IsFirstNearest word candidates found := by
  have spec := nearest_spec limit word candidates
  rw [closest_eq]
  cases best : nearest limit word candidates with
  | none =>
      rw [best] at spec
      constructor
      · exact fun same => nomatch same
      · exact fun ⟨within, first⟩ => absurd (spec found first.mem) (Nat.not_lt.mpr within)
  | some measured =>
      rw [best] at spec
      rcases spec with ⟨isDistance, within, first⟩
      rw [Option.map_some, Option.some.injEq]
      constructor
      · rintro rfl
        exact ⟨isDistance ▸ within, first⟩
      · exact fun ⟨_, isFirst⟩ => first.unique isFirst

theorem closest_isSome_iff {limit : Nat} {word : String} {candidates : List String} :
    (closest limit word candidates).isSome = true ↔
      ∃ candidate ∈ candidates, distance word.toList candidate.toList ≤ limit := by
  have spec := nearest_spec limit word candidates
  rw [closest_eq, Option.isSome_map]
  cases best : nearest limit word candidates with
  | none =>
      rw [best] at spec
      constructor
      · exact fun same => nomatch same
      · rintro ⟨candidate, member, within⟩
        exact absurd (spec candidate member) (Nat.not_lt.mpr within)
  | some measured =>
      rw [best] at spec
      rcases spec with ⟨isDistance, within, first⟩
      exact ⟨fun _ => ⟨measured.2, first.mem, isDistance ▸ within⟩, fun _ => rfl⟩

/-- Some number of edits that is within a limit leads from one word to another just when their
distance is. -/
theorem exists_edits_iff {limit : Nat} {word other : List Char} :
    (∃ count ≤ limit, Edits count word other) ↔ distance word other ≤ limit := by
  constructor
  · rintro ⟨count, within, edits⟩
    exact ((isLeast_distance word other).2 edits).trans within
  · exact fun within => ⟨_, within, (isLeast_distance word other).1⟩

end Spelling

namespace QueryLanguage

open Spelling

/-- The names that may stand before a colon. -/
def knownNames : List String :=
  fieldNames ++ presenceWords

/-- The distance of two words is the least number of letters to insert, delete or replace.  A name
is suggested just when one of the known names is at most two edits away, and it is then the first
of those that are nearest. -/
theorem suggestion_is_nearest :
    (∀ word other : String,
      IsLeast {count | Edits count word.toList other.toList}
        (distance word.toList other.toList)) ∧
      ∀ name : String,
        ((closestName name).isSome = true ↔
          ∃ known ∈ knownNames, ∃ count ≤ 2, Edits count name.toList known.toList) ∧
          ∀ found, closestName name = some found ↔
            (∃ count ≤ 2, Edits count name.toList found.toList) ∧
              IsFirstNearest name knownNames found := by
  refine ⟨fun word other => isLeast_distance word.toList other.toList, fun name => ⟨?_, ?_⟩⟩
  · simp only [exists_edits_iff]
    exact closest_isSome_iff
  · intro found
    rw [exists_edits_iff]
    exact closest_eq_some_iff

end QueryLanguage

end Commonplace
