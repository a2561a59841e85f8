import Commonplace.Proofs.Search.Fusion
import Mathlib.Algebra.Order.BigOperators.Group.List
import Mathlib.Algebra.Order.Field.Basic
import Mathlib.Algebra.Order.Field.Rat

namespace Commonplace
namespace Fusion

/-!
# Where results stand in the fused list

Three laws about the order of the fused list.  One list alone keeps its order as long as no path
that occurs in it again gains on the paths before it.  A note that is ahead of another one in every
list that has the other is ahead of it in the fused list.  And the two lists may change places: the
same paths stand in the same order, with the same scores.

The first and the last law hold in every totally ordered arithmetic.
-/

variable {score : Type}

/-- The paths of a list, in its order. -/
def paths (entries : List Scored) : List String :=
  entries.map fun entry => key entry.note

/-- The paths of fused results, in their order. -/
def fusedPaths (results : List (Fused score)) : List String :=
  results.map fun result => key result.note

/-! ## Places in a list of distinct paths -/

theorem rank_pos_of_mem_places {path : String} {entries : List Scored} {spot : Scored × Nat}
    (member : spot ∈ places path entries) : 0 < spot.2 :=
  (List.mem_zipIdx (List.mem_filter.mp member).1).1

theorem length_places (path : String) (entries : List Scored) :
    (places path entries).length = (paths entries).count path := by
  rw [← List.length_map (f := Prod.fst), map_fst_places, paths, List.count, List.countP_map,
    List.countP_eq_length_filter]
  rfl

/-- A path has at most one place in a list of distinct paths. -/
theorem places_eq_singleton {path : String} {entries : List Scored} {spot : Scored × Nat}
    (distinct : (paths entries).Nodup) (member : spot ∈ places path entries) :
    places path entries = [spot] := by
  have atMostOne : (places path entries).length ≤ 1 := by
    rw [length_places]
    exact List.nodup_iff_count_le_one.mp distinct path
  cases spots : places path entries with
  | nil =>
      rw [spots] at member
      cases member
  | cons first rest =>
      rw [spots] at atMostOne member
      have alone : rest = [] := List.length_eq_zero_iff.mp (by simpa using atMostOne)
      subst alone
      rw [List.mem_singleton.mp member]

/-- The place of an entry of a list of distinct paths. -/
theorem places_getElem {entries : List Scored} (distinct : (paths entries).Nodup) {index : Nat}
    (bound : index < entries.length) :
    places (key entries[index].note) entries = [(entries[index], index + 1)] := by
  apply places_eq_singleton distinct
  refine List.mem_filter.mpr ⟨?_, beq_self_eq_true _⟩
  exact List.mem_zipIdx_iff_le_and_getElem?_sub.mpr
    ⟨Nat.le_add_left 1 index, by simp [bound]⟩

/-! ## What the places of a path count -/

/-- What the places of a path in both lists count together. -/
def total (arithmetic : ScoreArithmetic score) (constant : Nat) (keyword semantic : List Scored)
    (path : String) : score :=
  addedTo arithmetic (smoothing constant) arithmetic.zero
    (places path keyword ++ places path semantic)

section Results

variable {arithmetic : ScoreArithmetic score} {constant : Nat} {keyword semantic : List Scored}
  {path : String} {result : Fused score}

theorem score_of_mem_merge (member : result ∈ merge arithmetic constant keyword semantic) :
    result.score = total arithmetic constant keyword semantic (key result.note) := by
  rcases Option.map_eq_some_iff.mp (mem_merge_iff.mp member) with ⟨spot, _, same⟩
  exact (congrArg Fused.score same).symm

theorem ranks_of_mem_merge (member : result ∈ merge arithmetic constant keyword semantic) :
    result.keyword = firstRank (places (key result.note) keyword) ∧
      result.semantic = firstRank (places (key result.note) semantic) := by
  rcases Option.map_eq_some_iff.mp (mem_merge_iff.mp member) with ⟨spot, _, same⟩
  exact ⟨(congrArg Fused.keyword same).symm, (congrArg Fused.semantic same).symm⟩

theorem occurs_of_mem_merge (member : result ∈ merge arithmetic constant keyword semantic) :
    Occurs (key result.note) (keyword ++ semantic) :=
  isSome_resultFor.mp (Option.isSome_of_eq_some (mem_merge_iff.mp member))

theorem fusedPaths_nodup : (fusedPaths (merge arithmetic constant keyword semantic)).Nodup :=
  keys_merge_nodup arithmetic constant keyword semantic

/-- The fused list has the paths of both lists, each once. -/
theorem fusedPaths_perm : (fusedPaths (merge arithmetic constant keyword semantic)).Perm
    (paths (keyword ++ semantic)).eraseDups := by
  have collectedPaths := keys_merge_perm arithmetic constant keyword semantic
  rw [map_fst_collected] at collectedPaths
  exact collectedPaths

theorem exists_result (arithmetic : ScoreArithmetic score) (constant : Nat)
    (listed : path ∈ paths (keyword ++ semantic)) :
    ∃ result ∈ merge arithmetic constant keyword semantic, key result.note = path :=
  List.mem_map.mp (fusedPaths_perm.mem_iff.mpr (List.mem_eraseDups.mpr listed))

end Results

theorem pair_sublist {item : Type} {first second : item} {items : List item}
    (firstMember : first ∈ items) (secondMember : second ∈ items) (apart : first ≠ second) :
    [first, second].Sublist items ∨ [second, first].Sublist items := by
  rcases List.append_of_mem firstMember with ⟨before, after, rfl⟩
  rcases List.mem_append.mp secondMember with early | late
  · right
    exact (List.singleton_sublist.mpr early).append
      (List.singleton_sublist.mpr List.mem_cons_self)
  · left
    have later := (List.mem_cons.mp late).resolve_left (Ne.symm apart)
    exact ((List.singleton_sublist.mpr later).cons_cons first).trans
      (List.sublist_append_right before _)

/-- Where the higher score goes first, no two results are each before the other, if that is so of
what decides ties. -/
theorem not_ahead_of_ahead {byScore : score -> score -> Ordering} [Std.OrientedCmp byScore]
    {first second : score} {before after : Prop} (excluded : before → ¬ after)
    (ahead : byScore second first = .lt ∨ byScore second first = .eq ∧ before) :
    ¬ (byScore first second = .lt ∨ byScore first second = .eq ∧ after) := by
  have swapped : byScore first second = (byScore second first).swap := Std.OrientedCmp.eq_swap
  rw [swapped]
  rcases ahead with more | ⟨asMuch, decided⟩
  · simp [more]
  · simp [asMuch, excluded decided]

/-! ## One list alone -/

/-- Fuses a list with an empty one. -/
def alone (arithmetic : ScoreArithmetic score) (constant : Nat) (source : Source)
    (entries : List Scored) : List (Fused score) :=
  match source with
  | .keyword => merge arithmetic constant entries []
  | .semantic => merge arithmetic constant [] entries

/-- The match type of what one list alone has. -/
def Source.matchType : Source -> MatchType
  | keyword => .exact
  | semantic => .semantic

/-- What the places of a path in one list count. -/
def weight (arithmetic : ScoreArithmetic score) (constant : Nat) (entries : List Scored)
    (path : String) : score :=
  addedTo arithmetic (smoothing constant) arithmetic.zero (places path entries)

/-- Whether a path counts more than another one in a list, or as much and it is the smaller one. -/
def Outweighs (arithmetic : ScoreArithmetic score) (constant : Nat) (entries : List Scored)
    (first second : String) : Prop :=
  arithmetic.order (weight arithmetic constant entries second)
      (weight arithmetic constant entries first) = .lt ∨
    arithmetic.order (weight arithmetic constant entries second)
      (weight arithmetic constant entries first) = .eq ∧ first < second

/-- What a note counts whose only place has a rank. -/
def worth (arithmetic : ScoreArithmetic score) (constant rank : Nat) : score :=
  arithmetic.add arithmetic.zero (arithmetic.reciprocal (smoothing constant + rank))

section Alone

variable {arithmetic : ScoreArithmetic score} {constant : Nat} {source : Source}
  {entries : List Scored}

theorem score_of_mem_alone {result : Fused score}
    (member : result ∈ alone arithmetic constant source entries) :
    result.score = weight arithmetic constant entries (key result.note) := by
  cases source with
  | keyword =>
      rw [score_of_mem_merge member, total]
      exact congrArg (addedTo _ _ _) (List.append_nil _)
  | semantic => exact score_of_mem_merge member

theorem coverage_of_mem_alone {result : Fused score}
    (member : result ∈ alone arithmetic constant source entries) :
    result.coverage = 1 ∧ result.matchType = source.matchType := by
  cases source with
  | keyword =>
      have occurs := occurs_of_mem_merge member
      rw [List.append_nil, ← isSome_firstRank, ← (ranks_of_mem_merge member).1] at occurs
      have notInSemantic : result.semantic = none := (ranks_of_mem_merge member).2
      rcases Option.isSome_iff_exists.mp occurs with ⟨first, inKeyword⟩
      simp [Fused.coverage, Fused.matchType, Source.matchType, inKeyword, notInSemantic]
  | semantic =>
      have occurs := occurs_of_mem_merge member
      rw [List.nil_append, ← isSome_firstRank, ← (ranks_of_mem_merge member).2] at occurs
      have notInKeyword : result.keyword = none := (ranks_of_mem_merge member).1
      rcases Option.isSome_iff_exists.mp occurs with ⟨first, inSemantic⟩
      simp [Fused.coverage, Fused.matchType, Source.matchType, notInKeyword, inSemantic]

theorem fusedPaths_alone_perm :
    (fusedPaths (alone arithmetic constant source entries)).Perm (paths entries).eraseDups := by
  cases source with
  | keyword =>
      have both := @fusedPaths_perm _ arithmetic constant entries []
      rw [List.append_nil] at both
      exact both
  | semantic => exact fusedPaths_perm

variable [Std.TransCmp arithmetic.order]

theorem pairwise_alone :
    (alone arithmetic constant source entries).Pairwise (Precedes arithmetic) := by
  cases source with
  | keyword => exact pairwise_merge
  | semantic => exact pairwise_merge

/-- The paths of one list stand in the order of what they count. -/
theorem pairwise_fusedPaths_alone :
    (fusedPaths (alone arithmetic constant source entries)).Pairwise
      (Outweighs arithmetic constant entries) := by
  rw [fusedPaths, List.pairwise_map]
  refine pairwise_alone.imp_of_mem fun {first second} firstMember secondMember precedes => ?_
  rw [Precedes, score_of_mem_alone firstMember, score_of_mem_alone secondMember,
    (coverage_of_mem_alone firstMember).1, (coverage_of_mem_alone secondMember).1] at precedes
  rcases precedes with more | ⟨asMuch, fewer | ⟨_, smaller⟩⟩
  · exact .inl more
  · exact absurd fewer (Nat.lt_irrefl 1)
  · exact .inr ⟨asMuch, smaller⟩

theorem not_outweighs_of_outweighs {first second : String}
    (before : Outweighs arithmetic constant entries first second) :
    ¬ Outweighs arithmetic constant entries second first :=
  not_ahead_of_ahead String.lt_asymm before

/-- Two orders of the same paths in which each counts more than those after it are equal. -/
theorem fusedPaths_alone_eq {listed : List String}
    (perm : (paths entries).eraseDups.Perm listed)
    (descending : listed.Pairwise (Outweighs arithmetic constant entries)) :
    fusedPaths (alone arithmetic constant source entries) = listed := by
  refine List.Perm.eq_of_pairwise ?_ pairwise_fusedPaths_alone descending
    (fusedPaths_alone_perm.trans perm)
  intro first second _ _ before after
  exact absurd after (not_outweighs_of_outweighs before)

theorem eraseDups_of_nodup {listed : List String} (distinct : listed.Nodup) :
    listed.eraseDups = listed := by
  induction listed with
  | nil => rfl
  | cons head tail inductionHypothesis =>
      have parts := List.nodup_cons.mp distinct
      have others : (tail.filter fun path => !path == head) = tail := by
        rw [List.filter_eq_self]
        intro path member
        have apart : path ≠ head := fun same => parts.1 (same ▸ member)
        simpa using apart
      rw [List.eraseDups_cons, others, inductionHypothesis parts.2]

/-- Ranks that count less from each one to the next count less from each one to all later ones. -/
theorem worth_descends {count : Nat}
    (descends : ∀ rank, 0 < rank → rank < count →
      arithmetic.order (worth arithmetic constant (rank + 1)) (worth arithmetic constant rank) =
        .lt)
    {early late : Nat} (positive : 0 < early) (before : early < late) (bound : late ≤ count) :
    arithmetic.order (worth arithmetic constant late) (worth arithmetic constant early) = .lt := by
  induction late, before using Nat.le_induction with
  | base => exact descends early positive bound
  | succ late before inductionHypothesis =>
      exact Std.TransCmp.lt_trans (descends late (by omega) bound)
        (inductionHypothesis (Nat.le_of_succ_le bound))

/-- In a list of distinct paths each path counts what its rank does. -/
theorem pairwise_outweighs (distinct : (paths entries).Nodup)
    (descends : ∀ rank, 0 < rank → rank < entries.length →
      arithmetic.order (worth arithmetic constant (rank + 1)) (worth arithmetic constant rank) =
        .lt) :
    (paths entries).Pairwise (Outweighs arithmetic constant entries) := by
  rw [paths, List.pairwise_map, List.pairwise_iff_getElem]
  intro early late earlyBound lateBound before
  have weights : ∀ index (bound : index < entries.length),
      weight arithmetic constant entries (key entries[index].note) =
        worth arithmetic constant (index + 1) := by
    intro index bound
    rw [weight, places_getElem distinct bound]
    rfl
  left
  rw [weights early earlyBound, weights late lateBound]
  exact worth_descends descends (Nat.succ_pos early) (by omega) (by omega)

end Alone

instance (first second : String) (arithmetic : ScoreArithmetic score) (constant : Nat)
    (entries : List Scored) : Decidable (Outweighs arithmetic constant entries first second) :=
  inferInstanceAs (Decidable (_ ∨ _ ∧ _))

/-- What fusion makes of one list alone, for any totally ordered scores.  All results have the match
type of the list, and they are its paths, each once.  The paths stand in the order of their first
places just when each of them counts more than those after it, or as much and it is smaller.  So
they do when the paths are distinct and every rank counts more than the next. -/
theorem single_list_order (arithmetic : ScoreArithmetic score) [Std.TransCmp arithmetic.order]
    (constant : Nat) (source : Source) (entries : List Scored) :
    (∀ result ∈ alone arithmetic constant source entries,
        result.matchType = source.matchType) ∧
      (fusedPaths (alone arithmetic constant source entries)).Perm (paths entries).eraseDups ∧
      (fusedPaths (alone arithmetic constant source entries) = (paths entries).eraseDups ↔
        (paths entries).eraseDups.Pairwise (Outweighs arithmetic constant entries)) ∧
      ((∀ rank, 0 < rank → rank < entries.length →
          arithmetic.order (worth arithmetic constant (rank + 1))
            (worth arithmetic constant rank) = .lt) →
        (paths entries).Nodup →
        fusedPaths (alone arithmetic constant source entries) = paths entries) := by
  refine ⟨fun result member => (coverage_of_mem_alone member).2, fusedPaths_alone_perm,
    ⟨?kept, fusedPaths_alone_eq (List.Perm.refl _)⟩, ?distinct⟩
  case kept =>
    intro same
    rw [← same]
    exact pairwise_fusedPaths_alone
  case distinct =>
    intro descends distinct
    apply fusedPaths_alone_eq _ (pairwise_outweighs distinct descends)
    rw [eraseDups_of_nodup distinct]

/-- A list in which only the first path occurs again. -/
def firstRepeatedList : List Scored :=
  [⟨Note.ofPath "A.md", 3⟩, ⟨Note.ofPath " a.md", 2⟩, ⟨Note.ofPath "b.md", 1⟩]

/-- A list in which a later path occurs again. -/
def laterRepeatedList : List Scored :=
  [⟨Note.ofPath "a.md", 3⟩, ⟨Note.ofPath "b.md", 2⟩, ⟨Note.ofPath "B.md", 1⟩]

/-- A path that occurs first and again stays the first one. -/
theorem first_path_stays_first :
    (paths firstRepeatedList).eraseDups.Pairwise
        (Outweighs exactArithmetic 60 firstRepeatedList) ∧
      fusedPaths (alone exactArithmetic 60 .keyword firstRepeatedList) = ["a.md", "b.md"] := by
  have descending : (paths firstRepeatedList).eraseDups.Pairwise
      (Outweighs exactArithmetic 60 firstRepeatedList) := by decide +kernel
  have order := single_list_order exactArithmetic 60 .keyword firstRepeatedList
  have listed : (paths firstRepeatedList).eraseDups = ["a.md", "b.md"] := by decide +kernel
  exact ⟨descending, (order.2.2.1.mpr descending).trans listed⟩

/-- A path that occurs again gains on those before it: here it overtakes the first one, although
every rank counts more than the next. -/
theorem repeated_path_overtakes :
    (∀ rank < 3, exactArithmetic.order (worth exactArithmetic 60 (rank + 1))
        (worth exactArithmetic 60 rank) = .lt) ∧
      (paths laterRepeatedList).eraseDups = ["a.md", "b.md"] ∧
      ∀ source, fusedPaths (alone exactArithmetic 60 source laterRepeatedList) =
        ["b.md", "a.md"] := by
  refine ⟨by decide +kernel, by decide +kernel, ?_⟩
  intro source
  exact fusedPaths_alone_eq (by decide +kernel) (by decide +kernel)

/-! ## Dominance -/

/-- Whether a list that has a path has another one at an earlier rank. -/
def Leads (first second : String) (entries : List Scored) : Prop :=
  ∀ late ∈ places second entries, ∃ early ∈ places first entries, early.2 < late.2

instance (first second : String) (entries : List Scored) : Decidable (Leads first second entries) :=
  inferInstanceAs
    (Decidable (∀ late ∈ places second entries, ∃ early ∈ places first entries, early.2 < late.2))

/-- What the places of a path in one list count in exact fractions. -/
def share (constant : Nat) (entries : List Scored) (path : String) : ℚ :=
  ((places path entries).map fun spot =>
    exactArithmetic.reciprocal (constant + spot.2)).sum

theorem addedTo_exact (constant : Nat) (start : ℚ) (spots : List (Scored × Nat)) :
    addedTo exactArithmetic constant start spots =
      start + (spots.map fun spot =>
        exactArithmetic.reciprocal (constant + spot.2)).sum := by
  induction spots generalizing start with
  | nil => simp
  | cons spot rest inductionHypothesis =>
      rw [addedTo_cons, inductionHypothesis, List.map_cons, List.sum_cons, ← add_assoc]
      rfl

theorem total_exact (constant : Nat) (keyword semantic : List Scored) (path : String) :
    total exactArithmetic constant keyword semantic path =
      share (smoothing constant) keyword path + share (smoothing constant) semantic path := by
  rw [total, addedTo_exact, List.map_append, List.sum_append]
  exact zero_add _

theorem reciprocal_nonneg (count : Nat) : 0 ≤ exactArithmetic.reciprocal count :=
  one_div_nonneg.mpr (Nat.cast_nonneg _)

theorem reciprocal_lt {early late : Nat} (positive : 0 < early) (before : early < late) :
    exactArithmetic.reciprocal late < exactArithmetic.reciprocal early :=
  one_div_lt_one_div_of_lt (Nat.cast_pos.mpr positive) (Nat.cast_lt.mpr before)

section Share

variable {constant : Nat} {entries : List Scored} {first second : String}

theorem share_nonneg (constant : Nat) (entries : List Scored) (path : String) :
    0 ≤ share constant entries path := by
  apply List.sum_nonneg
  intro value member
  rcases List.mem_map.mp member with ⟨spot, _, rfl⟩
  exact reciprocal_nonneg _

theorem share_of_mem (distinct : (paths entries).Nodup) {spot : Scored × Nat}
    (member : spot ∈ places first entries) :
    share constant entries first =
      exactArithmetic.reciprocal (constant + spot.2) := by
  rw [share, places_eq_singleton distinct member, List.map_singleton, List.sum_singleton]

variable (distinct : (paths entries).Nodup) (leads : Leads first second entries)

include distinct leads

/-- A path that leads another one in a list that has it counts more there. -/
theorem share_lt (occurs : Occurs second entries) :
    share constant entries second < share constant entries first := by
  rcases List.exists_mem_of_ne_nil _ (fun none => places_eq_nil_iff.mp none occurs) with
    ⟨late, lateMember⟩
  rcases leads late lateMember with ⟨early, earlyMember, before⟩
  rw [share_of_mem distinct lateMember, share_of_mem distinct earlyMember]
  have positive := rank_pos_of_mem_places earlyMember
  exact reciprocal_lt (by omega) (by omega)

theorem share_le : share constant entries second ≤ share constant entries first := by
  by_cases occurs : Occurs second entries
  · exact (share_lt distinct leads occurs).le
  · rw [share, places_eq_nil_iff.mpr occurs]
    exact share_nonneg constant entries first

end Share

/-- A note that is ahead of another one in every list that has the other is ahead of it in the fused
list, in exact fractions. -/
theorem leading_note_comes_first (constant : Nat) (keyword semantic : List Scored)
    (keywordDistinct : (paths keyword).Nodup) (semanticDistinct : (paths semantic).Nodup)
    {first second : Fused ℚ} (firstMember : first ∈ merge exactArithmetic constant keyword semantic)
    (secondMember : second ∈ merge exactArithmetic constant keyword semantic)
    (inKeyword : Leads (key first.note) (key second.note) keyword)
    (inSemantic : Leads (key first.note) (key second.note) semantic) :
    [first, second].Sublist (merge exactArithmetic constant keyword semantic) := by
  have more : second.score < first.score := by
    rw [score_of_mem_merge firstMember, score_of_mem_merge secondMember, total_exact, total_exact]
    rcases occurs_append.mp (occurs_of_mem_merge secondMember) with occurs | occurs
    · exact add_lt_add_of_lt_of_le (share_lt keywordDistinct inKeyword occurs)
        (share_le semanticDistinct inSemantic)
    · exact add_lt_add_of_le_of_lt (share_le keywordDistinct inKeyword)
        (share_lt semanticDistinct inSemantic occurs)
  have apart : first ≠ second := by
    rintro rfl
    exact lt_irrefl _ more
  refine (pair_sublist firstMember secondMember apart).resolve_right fun reversed => ?_
  have precedes : Precedes exactArithmetic second first :=
    List.pairwise_iff_forall_sublist.mp pairwise_merge reversed
  rcases precedes with less | ⟨same, _⟩
  · exact lt_asymm more (compare_lt_iff_lt.mp less)
  · exact more.ne' (compare_eq_iff_eq.mp same)

/-- A note that is second in one list and first in the other comes before one that it leads in
both. -/
theorem leading_note_of_two_lists :
    let keyword : List Scored := [⟨Note.ofPath "x", 3⟩, ⟨Note.ofPath "A", 2⟩, ⟨Note.ofPath "b", 1⟩]
    let semantic : List Scored := [⟨Note.ofPath "a", 2⟩, ⟨Note.ofPath "B", 1⟩]
    (paths keyword).Nodup ∧ (paths semantic).Nodup ∧ Leads "a" "b" keyword ∧
      Leads "a" "b" semantic ∧
      ∃ first second, key first.note = "a" ∧ key second.note = "b" ∧
        [first, second].Sublist (merge exactArithmetic 0 keyword semantic) := by
  intro keyword semantic
  have keywordDistinct : (paths keyword).Nodup := by decide +kernel
  have semanticDistinct : (paths semantic).Nodup := by decide +kernel
  have inKeyword : Leads "a" "b" keyword := by decide +kernel
  have inSemantic : Leads "a" "b" semantic := by decide +kernel
  refine ⟨keywordDistinct, semanticDistinct, inKeyword, inSemantic, ?_⟩
  have firstListed : "a" ∈ paths (keyword ++ semantic) := by decide +kernel
  have secondListed : "b" ∈ paths (keyword ++ semantic) := by decide +kernel
  rcases exists_result exactArithmetic 0 firstListed with ⟨first, firstMember, firstPath⟩
  rcases exists_result exactArithmetic 0 secondListed with ⟨second, secondMember, secondPath⟩
  refine ⟨first, second, firstPath, secondPath, ?_⟩
  rw [← firstPath, ← secondPath] at inKeyword inSemantic
  exact leading_note_comes_first 0 keyword semantic keywordDistinct semanticDistinct firstMember
    secondMember inKeyword inSemantic

/-! ## Exchanging the lists -/

/-- The match type when the lists have changed places. -/
def exchangedType : MatchType -> MatchType
  | .exact => .semantic
  | .semantic => .exact
  | .hybrid => .hybrid

/-- What the fused list says of a path, whichever note it shows for it. -/
structure Standing (score : Type) where
  path : String
  score : score
  coverage : Nat
  matchType : MatchType
  keyword : Option (Nat × Float32)
  semantic : Option (Nat × Float32)

/-- What a result says of its path. -/
def standing (result : Fused score) : Standing score :=
  ⟨key result.note, result.score, result.coverage, result.matchType, result.keyword,
    result.semantic⟩

/-- The same with the lists in each other's place. -/
def Standing.exchanged (other : Standing score) : Standing score :=
  { other with
    matchType := exchangedType other.matchType
    keyword := other.semantic
    semantic := other.keyword }

/-- The order of the fused list does not look at which list is which. -/
def StandsBefore (arithmetic : ScoreArithmetic score) (first second : Standing score) : Prop :=
  arithmetic.order second.score first.score = .lt ∨
    arithmetic.order second.score first.score = .eq ∧
      (second.coverage < first.coverage ∨
        second.coverage = first.coverage ∧ first.path < second.path)

theorem not_standsBefore_of_standsBefore {arithmetic : ScoreArithmetic score}
    [Std.OrientedCmp arithmetic.order] {first second : Standing score}
    (before : StandsBefore arithmetic first second) :
    ¬ StandsBefore arithmetic second first := by
  refine not_ahead_of_ahead ?_ before
  rintro (wider | ⟨asWide, smaller⟩)
  · simp [wider.asymm, wider.ne']
  · simp [asWide, smaller.asymm]

section Exchange

variable {arithmetic : ScoreArithmetic score} {constant : Nat} {keyword semantic : List Scored}
  (keywordDistinct : (paths keyword).Nodup) (semanticDistinct : (paths semantic).Nodup)
  (commutes : ∀ first second, arithmetic.add (arithmetic.add arithmetic.zero first) second =
    arithmetic.add (arithmetic.add arithmetic.zero second) first)

include keywordDistinct semanticDistinct commutes

theorem total_exchanged (path : String) :
    total arithmetic constant keyword semantic path =
      total arithmetic constant semantic keyword path := by
  unfold total
  cases inKeyword : places path keyword with
  | nil => rw [List.nil_append, List.append_nil]
  | cons first rest =>
      cases inSemantic : places path semantic with
      | nil => rw [List.nil_append, List.append_nil]
      | cons second others =>
          have only : ∀ {entries : List Scored} {spot : Scored × Nat} {more : List (Scored × Nat)},
              (paths entries).Nodup → places path entries = spot :: more →
              spot :: more = [spot] := by
            intro entries spot more distinct found
            rw [← found]
            exact places_eq_singleton distinct (found ▸ List.mem_cons_self)
          rw [only keywordDistinct inKeyword, only semanticDistinct inSemantic]
          exact commutes _ _

theorem standing_exchanged {result other : Fused score}
    (member : result ∈ merge arithmetic constant keyword semantic)
    (otherMember : other ∈ merge arithmetic constant semantic keyword)
    (same : key other.note = key result.note) :
    standing result = (standing other).exchanged := by
  have ranks := ranks_of_mem_merge member
  have otherRanks := ranks_of_mem_merge otherMember
  have scores : result.score = other.score := by
    rw [score_of_mem_merge member, score_of_mem_merge otherMember, same]
    exact total_exchanged keywordDistinct semanticDistinct commutes _
  rw [same] at otherRanks
  have inKeyword : result.keyword = other.semantic := ranks.1.trans otherRanks.2.symm
  have inSemantic : result.semantic = other.keyword := ranks.2.trans otherRanks.1.symm
  have types : result.matchType = exchangedType other.matchType := by
    unfold Fused.matchType
    rw [inKeyword, inSemantic]
    have occurs := isSome_resultFor.mp (Option.isSome_of_eq_some (mem_merge_iff.mp member))
    rw [occurs_append, ← isSome_firstRank, ← isSome_firstRank, ← ranks.1, ← ranks.2, inKeyword,
      inSemantic] at occurs
    cases inOther : other.keyword <;> cases inOtherSemantic : other.semantic <;>
      simp [inOther, inOtherSemantic, exchangedType] at occurs ⊢
  have coverages : result.coverage = other.coverage := by
    rw [Fused.coverage, Fused.coverage, inKeyword, inSemantic, Nat.add_comm]
  simp only [standing, Standing.exchanged, same, scores, inKeyword, inSemantic, types, coverages]

theorem mem_exchanged {what : Standing score}
    (member : what ∈ (merge arithmetic constant keyword semantic).map standing) :
    what ∈ ((merge arithmetic constant semantic keyword).map standing).map Standing.exchanged := by
  rcases List.mem_map.mp member with ⟨result, resultMember, rfl⟩
  have listed : key result.note ∈ paths (semantic ++ keyword) := by
    rcases occurs_of_mem_merge resultMember with ⟨entry, entryMember, same⟩
    exact List.mem_map.mpr ⟨entry, List.mem_append.mpr (List.mem_append.mp entryMember).symm, same⟩
  rcases exists_result arithmetic constant listed with ⟨other, otherMember, same⟩
  rw [standing_exchanged keywordDistinct semanticDistinct commutes resultMember otherMember same]
  exact List.mem_map_of_mem (List.mem_map_of_mem otherMember)

end Exchange

@[simp] theorem exchanged_exchanged (what : Standing score) : what.exchanged.exchanged = what := by
  cases what with
  | mk path score coverage matchType keyword semantic =>
      cases matchType <;> rfl

theorem standings_nodup (arithmetic : ScoreArithmetic score) (constant : Nat)
    (keyword semantic : List Scored) :
    ((merge arithmetic constant keyword semantic).map standing).Nodup := by
  apply List.Nodup.of_map Standing.path
  rw [List.map_map]
  exact fusedPaths_nodup

/-- The lists may change places, if each has distinct paths, for any totally ordered scores of which
two may be added in either order.  The fused list then has the same paths in the same order, with
the same scores and coverages, and the match types, ranks and scores of the two lists change
places. -/
theorem merge_exchanged (arithmetic : ScoreArithmetic score) [Std.TransCmp arithmetic.order]
    (commutes : ∀ first second, arithmetic.add (arithmetic.add arithmetic.zero first) second =
      arithmetic.add (arithmetic.add arithmetic.zero second) first)
    (constant : Nat) (keyword semantic : List Scored)
    (keywordDistinct : (paths keyword).Nodup) (semanticDistinct : (paths semantic).Nodup) :
    (merge arithmetic constant keyword semantic).map standing =
      ((merge arithmetic constant semantic keyword).map standing).map Standing.exchanged := by
  have ordered : ∀ first second : List Scored,
      ((merge arithmetic constant first second).map standing).Pairwise
        (StandsBefore arithmetic) := by
    intro first second
    rw [List.pairwise_map]
    exact pairwise_merge
  refine List.Perm.eq_of_pairwise ?antisymmetric (ordered keyword semantic)
    (List.pairwise_map.mpr (ordered semantic keyword)) ?same
  case antisymmetric =>
    intro first second _ _ before after
    exact absurd after (not_standsBefore_of_standsBefore before)
  case same =>
    have injective : Function.Injective fun what : Standing score => what.exchanged :=
      Function.LeftInverse.injective exchanged_exchanged
    rw [List.perm_ext_iff_of_nodup (standings_nodup arithmetic constant keyword semantic)
      ((standings_nodup arithmetic constant semantic keyword).map injective)]
    intro what
    constructor
    · exact mem_exchanged keywordDistinct semanticDistinct commutes
    · intro member
      rcases List.mem_map.mp member with ⟨other, otherMember, rfl⟩
      have back := mem_exchanged semanticDistinct keywordDistinct commutes otherMember
      rcases List.mem_map.mp back with ⟨what, whatMember, rfl⟩
      rw [exchanged_exchanged]
      exact whatMember

/-- Exact fractions may be added in either order, so two lists that share a note may change
places. -/
theorem shared_note_exchanged :
    let keyword : List Scored := [⟨Note.ofPath "x", 3⟩, ⟨Note.ofPath "A", 2⟩, ⟨Note.ofPath "b", 1⟩]
    let semantic : List Scored := [⟨Note.ofPath "a", 2⟩, ⟨Note.ofPath "y", 1⟩]
    (∀ first second, exactArithmetic.add (exactArithmetic.add exactArithmetic.zero first) second =
        exactArithmetic.add (exactArithmetic.add exactArithmetic.zero second) first) ∧
      (paths keyword).Nodup ∧ (paths semantic).Nodup ∧
      (merge exactArithmetic 0 keyword semantic).map standing =
        ((merge exactArithmetic 0 semantic keyword).map standing).map Standing.exchanged := by
  intro keyword semantic
  have commutes : ∀ first second,
      exactArithmetic.add (exactArithmetic.add exactArithmetic.zero first) second =
        exactArithmetic.add (exactArithmetic.add exactArithmetic.zero second) first := by
    intro first second
    exact add_right_comm 0 first second
  have keywordDistinct : (paths keyword).Nodup := by decide +kernel
  have semanticDistinct : (paths semantic).Nodup := by decide +kernel
  exact ⟨commutes, keywordDistinct, semanticDistinct,
    merge_exchanged exactArithmetic commutes 0 keyword semantic keywordDistinct semanticDistinct⟩

end Fusion
end Commonplace
