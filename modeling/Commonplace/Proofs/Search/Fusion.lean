import Commonplace.Proofs.Note.Values
import Commonplace.Search.Fusion
import Mathlib.Algebra.Order.Ring.Unbundled.Rat
import Mathlib.Data.List.Nodup
import Mathlib.Data.String.Basic
import Mathlib.Order.Compare

namespace Commonplace
namespace Fusion

/-!
# What fusion makes of two lists

Fusion gives one result for each path that occurs in one of the lists.  The result has the note of
the first place of the path, the keyword list before the semantic one, the first rank and score in
each list, and the sum of what all places of the path count.  When the scores are totally ordered,
the order of the results is the only one in which each precedes those after it, so it does not
depend on the order in which the results were collected.
-/

variable {score : Type}

/-! ## Places -/

/-- The places of a path in a list that is counted from a rank on: the entries with this path, each
with its rank. -/
def placesFrom (path : String) (rank : Nat) (entries : List Scored) : List (Scored × Nat) :=
  (entries.zipIdx rank).filter fun spot => key spot.1.note == path

/-- The places of a path in a list. -/
def places (path : String) (entries : List Scored) : List (Scored × Nat) :=
  placesFrom path 1 entries

theorem placesFrom_cons_of_eq (rank : Nat) (entry : Scored) (rest : List Scored) :
    placesFrom (key entry.note) rank (entry :: rest) =
      (entry, rank) :: placesFrom (key entry.note) (rank + 1) rest := by
  unfold placesFrom
  rw [List.zipIdx_cons, List.filter_cons_of_pos]
  exact beq_self_eq_true (key entry.note)

theorem placesFrom_cons_of_ne {path : String} {entry : Scored} (different : key entry.note ≠ path)
    (rank : Nat) (rest : List Scored) :
    placesFrom path rank (entry :: rest) = placesFrom path (rank + 1) rest := by
  unfold placesFrom
  rw [List.zipIdx_cons, List.filter_cons_of_neg]
  simpa using different

/-- The entries at the places of a path are those with the path. -/
theorem map_fst_places (path : String) (entries : List Scored) :
    (places path entries).map Prod.fst = entries.filter fun entry => key entry.note == path := by
  have whole := congrArg (List.filter fun entry => key entry.note == path)
    (List.zipIdx_map_fst 1 entries)
  rw [List.filter_map] at whole
  exact whole

/-- Whether a path occurs in a list. -/
def Occurs (path : String) (entries : List Scored) : Prop :=
  ∃ entry ∈ entries, key entry.note = path

theorem occurs_append {path : String} {first second : List Scored} :
    Occurs path (first ++ second) ↔ Occurs path first ∨ Occurs path second := by
  simp [Occurs, or_and_right, exists_or]

theorem places_eq_nil_iff {path : String} {entries : List Scored} :
    places path entries = [] ↔ ¬Occurs path entries := by
  rw [← List.map_eq_nil_iff (f := Prod.fst), map_fst_places, List.filter_eq_nil_iff, Occurs]
  simp

/-! ## The results that are collected -/

/-- The first rank in a list, and the score there. -/
def firstRank (spots : List (Scored × Nat)) : Option (Nat × Float32) :=
  spots.head?.map fun spot => (spot.2, spot.1.score)

/-- What some places count, added to a score from the first to the last. -/
def addedTo (arithmetic : ScoreArithmetic score) (constant : Nat) (start : score)
    (spots : List (Scored × Nat)) : score :=
  spots.foldl (fun sum spot => arithmetic.add sum (arithmetic.reciprocal (constant + spot.2))) start

@[simp] theorem addedTo_nil (arithmetic : ScoreArithmetic score) (constant : Nat) (start : score) :
    addedTo arithmetic constant start [] = start := rfl

theorem addedTo_cons (arithmetic : ScoreArithmetic score) (constant : Nat) (start : score)
    (spot : Scored × Nat) (rest : List (Scored × Nat)) :
    addedTo arithmetic constant start (spot :: rest) =
      addedTo arithmetic constant
        (arithmetic.add start (arithmetic.reciprocal (constant + spot.2))) rest := rfl

/-- The result for a path: the note of its first place, what its places count, and its first rank
and score in each list. -/
def resultFor (arithmetic : ScoreArithmetic score) (constant : Nat) (keyword semantic : List Scored)
    (path : String) : Option (Fused score) :=
  let spots := places path keyword ++ places path semantic
  spots.head?.map fun first =>
    ⟨first.1.note, addedTo arithmetic constant arithmetic.zero spots,
      firstRank (places path keyword), firstRank (places path semantic)⟩

/-- The results of both lists by their paths, as they are collected. -/
def collected (arithmetic : ScoreArithmetic score) (constant : Nat)
    (keyword semantic : List Scored) : List (String × Fused score) :=
  addFrom arithmetic constant .semantic 1 (addFrom arithmetic constant .keyword 1 [] keyword)
    semantic

/-! ### One place -/

theorem findEntry_upsert (path other : String) (fresh : Fused score)
    (change : Fused score -> Fused score) (results : List (String × Fused score)) :
    findEntry other (upsert path fresh change results) =
      if other = path then some (change ((findEntry path results).getD fresh))
      else findEntry other results := by
  induction results with
  | nil =>
      by_cases same : other = path
      · simp [upsert, findEntry, same]
      · simp [upsert, findEntry, same, Ne.symm same]
  | cons head tail inductionHypothesis =>
      unfold upsert
      by_cases found : head.1 = path
      · subst found
        by_cases same : other = head.1
        · simp [findEntry, same]
        · simp [findEntry, same, Ne.symm same]
      · rw [if_neg (by simpa using found)]
        by_cases first : head.1 = other
        · subst first
          simp [findEntry, found]
        · have later : ∀ results : List (String × Fused score),
              findEntry other (head :: results) = findEntry other results := by
            intro results
            simp [findEntry, first]
          rw [later, later, inductionHypothesis]
          simp [findEntry, found]

theorem map_fst_upsert (path : String) (fresh : Fused score) (change : Fused score -> Fused score)
    (results : List (String × Fused score)) :
    (upsert path fresh change results).map Prod.fst =
      if path ∈ results.map Prod.fst then results.map Prod.fst
      else results.map Prod.fst ++ [path] := by
  induction results with
  | nil => rfl
  | cons head tail inductionHypothesis =>
      unfold upsert
      by_cases found : head.1 = path
      · simp [found]
      · rw [if_neg (by simpa using found), List.map_cons, inductionHypothesis]
        by_cases later : path ∈ tail.map Prod.fst
        · simp [later]
        · simp [later, Ne.symm found]

/-- What a place of a path makes of the result for it. -/
def withPlace (arithmetic : ScoreArithmetic score) (constant : Nat) (source : Source)
    (result : Option (Fused score)) (spot : Scored × Nat) : Option (Fused score) :=
  let placed := place source spot.2 spot.1.score
    (result.getD ⟨spot.1.note, arithmetic.zero, none, none⟩)
  some { placed with
    score := arithmetic.add placed.score
      (arithmetic.reciprocal (constant + spot.2)) }

/-! ### One list -/

/-- Adding a list changes the result for a path by the places of this path, one after another. -/
theorem findEntry_addFrom (arithmetic : ScoreArithmetic score) (constant : Nat) (source : Source)
    (path : String) (rank : Nat) (results : List (String × Fused score)) (entries : List Scored) :
    findEntry path (addFrom arithmetic constant source rank results entries) =
      (placesFrom path rank entries).foldl (withPlace arithmetic constant source)
        (findEntry path results) := by
  induction entries generalizing rank results with
  | nil => rfl
  | cons entry rest inductionHypothesis =>
      rw [addFrom, inductionHypothesis, findEntry_upsert]
      by_cases same : key entry.note = path
      · subst same
        rw [if_pos rfl, placesFrom_cons_of_eq, List.foldl_cons]
        rfl
      · rw [if_neg (Ne.symm same), placesFrom_cons_of_ne same]

theorem nodup_addFrom (arithmetic : ScoreArithmetic score) (constant : Nat) (source : Source)
    (rank : Nat) {results : List (String × Fused score)}
    (distinct : (results.map Prod.fst).Nodup) (entries : List Scored) :
    ((addFrom arithmetic constant source rank results entries).map Prod.fst).Nodup := by
  induction entries generalizing rank results with
  | nil => exact distinct
  | cons entry rest inductionHypothesis =>
      apply inductionHypothesis
      rw [map_fst_upsert]
      split
      · exact distinct
      · rename_i absent
        exact List.nodup_append.mpr ⟨distinct, List.nodup_singleton _, by
          intro path member other last same
          rw [List.mem_singleton.mp last] at same
          exact absent (same ▸ member)⟩

/-- Results are collected in the order in which their paths occur first. -/
theorem map_fst_addFrom (arithmetic : ScoreArithmetic score) (constant : Nat) (source : Source)
    (rank : Nat) (results : List (String × Fused score)) (entries : List Scored) :
    (addFrom arithmetic constant source rank results entries).map Prod.fst =
      results.map Prod.fst ++
        ((entries.map fun entry => key entry.note).removeAll
          (results.map Prod.fst)).eraseDups := by
  induction entries generalizing rank results with
  | nil => simp [addFrom, List.removeAll]
  | cons entry rest inductionHypothesis =>
      rw [addFrom, inductionHypothesis, map_fst_upsert, List.map_cons]
      generalize results.map Prod.fst = earlier
      by_cases known : key entry.note ∈ earlier
      · simp only [if_pos known, List.removeAll]
        rw [List.filter_cons_of_neg (by simpa using known)]
      · simp only [if_neg known, List.removeAll]
        have unlike : ∀ path, (!(earlier ++ [key entry.note]).elem path) =
            (!path == key entry.note && !earlier.elem path) := by
          intro path
          simp only [List.elem_eq_contains, List.contains_append, List.contains_cons,
            List.contains_nil, Bool.or_false, Bool.not_or]
          exact Bool.and_comm _ _
        rw [List.filter_cons_of_pos (by simpa using known), List.eraseDups_cons,
          List.filter_filter, List.append_assoc, funext unlike]
        rfl

theorem mem_upsert {path : String} {fresh : Fused score} {change : Fused score -> Fused score}
    {results : List (String × Fused score)} {entry : String × Fused score}
    (member : entry ∈ upsert path fresh change results) :
    entry = (path, change fresh) ∨ entry ∈ results ∨
      ∃ old, (path, old) ∈ results ∧ entry = (path, change old) := by
  induction results with
  | nil => exact Or.inl (List.mem_singleton.mp member)
  | cons head tail inductionHypothesis =>
      unfold upsert at member
      split at member
      · rename_i found
        rcases List.mem_cons.mp member with rfl | later
        · rw [← beq_iff_eq.mp found]
          exact Or.inr (Or.inr ⟨head.2, List.mem_cons_self, rfl⟩)
        · exact Or.inr (Or.inl (List.mem_cons_of_mem head later))
      · rcases List.mem_cons.mp member with rfl | later
        · exact Or.inr (Or.inl List.mem_cons_self)
        · rcases inductionHypothesis later with made | kept | ⟨old, oldMember, changed⟩
          · exact Or.inl made
          · exact Or.inr (Or.inl (List.mem_cons_of_mem head kept))
          · exact Or.inr (Or.inr ⟨old, List.mem_cons_of_mem head oldMember, changed⟩)

/-- Whether a collected result has the note of some entry, and the path of its note. -/
def IsFrom (entries : List Scored) (result : String × Fused score) : Prop :=
  result.1 = key result.2.note ∧ ∃ entry ∈ entries, entry.note = result.2.note

theorem isFrom_upsert {whole : List Scored} {results : List (String × Fused score)}
    (known : ∀ result ∈ results, IsFrom whole result) {entry : Scored} (listed : entry ∈ whole)
    {fresh : Fused score} (freshNote : fresh.note = entry.note)
    {change : Fused score -> Fused score} (keeps : ∀ result, (change result).note = result.note) :
    ∀ result ∈ upsert (key entry.note) fresh change results, IsFrom whole result := by
  intro result member
  rcases mem_upsert member with rfl | old | ⟨old, oldMember, rfl⟩
  · have note := (keeps fresh).trans freshNote
    exact ⟨congrArg key note.symm, entry, listed, note.symm⟩
  · exact known result old
  · rcases known _ oldMember with ⟨path, origin, originListed, note⟩
    exact ⟨path.trans (congrArg key (keeps old).symm), origin, originListed,
      note.trans (keeps old).symm⟩

/-- Results keep the notes that they are made with, and a note is collected under its path. -/
theorem isFrom_addFrom (arithmetic : ScoreArithmetic score) (constant : Nat) (source : Source)
    (rank : Nat) {whole : List Scored} {results : List (String × Fused score)}
    (known : ∀ result ∈ results, IsFrom whole result) {entries : List Scored}
    (listed : ∀ entry ∈ entries, entry ∈ whole) :
    ∀ result ∈ addFrom arithmetic constant source rank results entries, IsFrom whole result := by
  induction entries generalizing rank results with
  | nil => exact known
  | cons entry rest inductionHypothesis =>
      have parts := List.forall_mem_cons.mp listed
      rw [addFrom]
      refine inductionHypothesis (rank + 1) (isFrom_upsert known parts.1 rfl ?_) parts.2
      intro result
      cases source <;> rfl

/-- A result with the first rank and score in a list noted, unless it has them. -/
def withFirst (source : Source) (first : Option (Nat × Float32)) (result : Fused score) :
    Fused score :=
  match source with
  | .keyword => { result with keyword := result.keyword.or first }
  | .semantic => { result with semantic := result.semantic.or first }

section Places

variable (arithmetic : ScoreArithmetic score) (constant : Nat)

/-- What some places make of a result: the first one gives rank and score, and all are added. -/
theorem foldl_withPlace_some (source : Source) (result : Fused score)
    (spots : List (Scored × Nat)) :
    spots.foldl (withPlace arithmetic constant source) (some result) =
      some { withFirst source (firstRank spots) result with
        score := addedTo arithmetic constant result.score spots } := by
  induction spots generalizing result with
  | nil => cases source <;> simp [withFirst, firstRank, addedTo]
  | cons spot rest inductionHypothesis =>
      rw [List.foldl_cons, withPlace, inductionHypothesis]
      cases source <;> simp [withFirst, firstRank, addedTo, place]

/-- Places without a result yet make one with the note of the first place. -/
theorem foldl_withPlace_none (source : Source) (spots : List (Scored × Nat)) :
    spots.foldl (withPlace arithmetic constant source) none =
      spots.head?.map fun first =>
        { withFirst source (firstRank spots) ⟨first.1.note, arithmetic.zero, none, none⟩ with
          score := addedTo arithmetic constant arithmetic.zero spots } := by
  cases spots with
  | nil => rfl
  | cons spot rest => exact foldl_withPlace_some arithmetic constant source _ (spot :: rest)

end Places

/-! ### Both lists -/

section Collected

variable {arithmetic : ScoreArithmetic score} {constant : Nat} {keyword semantic : List Scored}

theorem nodup_collected (arithmetic : ScoreArithmetic score) (constant : Nat)
    (keyword semantic : List Scored) :
    ((collected arithmetic constant keyword semantic).map Prod.fst).Nodup := by
  have none : (([] : List (String × Fused score)).map Prod.fst).Nodup := List.nodup_nil
  exact nodup_addFrom arithmetic constant .semantic 1
    (nodup_addFrom arithmetic constant .keyword 1 none keyword) semantic

theorem map_fst_collected (arithmetic : ScoreArithmetic score) (constant : Nat)
    (keyword semantic : List Scored) :
    (collected arithmetic constant keyword semantic).map Prod.fst =
      ((keyword ++ semantic).map fun entry => key entry.note).eraseDups := by
  rw [collected, map_fst_addFrom, map_fst_addFrom, List.map_nil, List.removeAll_nil,
    List.nil_append, List.map_append, List.eraseDups_append]
  congr 2
  apply List.filter_congr
  intro path _
  rw [List.elem_eq_mem, List.elem_eq_mem]
  simp only [List.mem_eraseDups]

theorem isFrom_of_mem_collected {result : String × Fused score}
    (member : result ∈ collected arithmetic constant keyword semantic) :
    IsFrom (keyword ++ semantic) result := by
  have fromKeyword : ∀ result ∈ addFrom arithmetic constant .keyword 1 [] keyword,
      IsFrom (keyword ++ semantic) result :=
    isFrom_addFrom arithmetic constant .keyword 1 (List.forall_mem_nil _)
      fun entry listed => List.mem_append_left semantic listed
  exact isFrom_addFrom arithmetic constant .semantic 1 fromKeyword
    (fun entry listed => List.mem_append_right keyword listed) result member

/-- The result that is collected for a path is the one that the places of the path make up. -/
theorem findEntry_collected (path : String) :
    findEntry path (collected arithmetic constant keyword semantic) =
      resultFor arithmetic constant keyword semantic path := by
  rw [collected, findEntry_addFrom, findEntry_addFrom]
  change (places path semantic).foldl _ ((places path keyword).foldl _ none) = _
  rw [foldl_withPlace_none, resultFor]
  cases occurrences : places path keyword with
  | nil =>
      rw [List.head?_nil, Option.map_none, foldl_withPlace_none, List.nil_append]
      rfl
  | cons spot rest =>
      rw [List.head?_cons, Option.map_some, foldl_withPlace_some]
      simp [withFirst, firstRank, addedTo]

theorem mem_collected_iff (path : String) (result : Fused score) :
    (path, result) ∈ collected arithmetic constant keyword semantic ↔
      resultFor arithmetic constant keyword semantic path = some result := by
  rw [← findEntry_collected,
    findEntry_eq_some_iff (nodup_collected arithmetic constant keyword semantic)]

end Collected

/-! ## The result for a path -/

section Result

variable {arithmetic : ScoreArithmetic score} {constant : Nat} {keyword semantic : List Scored}
  {path : String} {result : Fused score}

/-- There is a result for the paths that occur in one of the lists. -/
theorem isSome_resultFor :
    (resultFor arithmetic constant keyword semantic path).isSome = true ↔
      Occurs path (keyword ++ semantic) := by
  rw [occurs_append, ← not_iff_not, not_or, ← places_eq_nil_iff, ← places_eq_nil_iff,
    ← List.append_eq_nil_iff, ← List.head?_eq_none_iff, resultFor]
  simp

theorem isSome_firstRank (entries : List Scored) :
    (firstRank (places path entries)).isSome = true ↔ Occurs path entries := by
  rw [← not_iff_not, ← places_eq_nil_iff, ← List.head?_eq_none_iff, firstRank]
  simp

/-- The match type tells in which of the lists the path occurs. -/
theorem matchType_of_resultFor
    (found : resultFor arithmetic constant keyword semantic path = some result) :
    (result.matchType = .hybrid ↔ Occurs path keyword ∧ Occurs path semantic) ∧
      (result.matchType = .exact ↔ Occurs path keyword ∧ ¬Occurs path semantic) ∧
      (result.matchType = .semantic ↔ ¬Occurs path keyword ∧ Occurs path semantic) := by
  have occurs := isSome_resultFor.mp (Option.isSome_of_eq_some found)
  rw [occurs_append] at occurs
  rcases Option.map_eq_some_iff.mp found with ⟨spot, _, rfl⟩
  rw [← isSome_firstRank, ← isSome_firstRank] at occurs ⊢
  unfold Fused.matchType
  generalize firstRank (places path keyword) = inKeyword at occurs ⊢
  generalize firstRank (places path semantic) = inSemantic at occurs ⊢
  cases inKeyword <;> cases inSemantic <;> simp at occurs ⊢

end Result

/-! ## The order of the results -/

/-- Whether a result comes before another one: it has the higher score, or the same score and it
came from more lists, or both are equal and it has the smaller path. -/
def Precedes (arithmetic : ScoreArithmetic score) (first second : Fused score) : Prop :=
  arithmetic.order second.score first.score = .lt ∨
    arithmetic.order second.score first.score = .eq ∧
      (second.coverage < first.coverage ∨
        second.coverage = first.coverage ∧ key first.note < key second.note)

/-- Collected results are put in order. -/
def sorted (arithmetic : ScoreArithmetic score) (results : List (String × Fused score)) :
    List (Fused score) :=
  (results.mergeSort fun first second => (order arithmetic first second).isLE).map Prod.snd

theorem merge_eq_sorted (arithmetic : ScoreArithmetic score) (constant : Nat)
    (keyword semantic : List Scored) :
    merge arithmetic constant keyword semantic =
      sorted arithmetic (collected arithmetic (smoothing constant) keyword semantic) :=
  rfl

theorem sorted_perm (arithmetic : ScoreArithmetic score) (results : List (String × Fused score)) :
    (sorted arithmetic results).Perm (results.map Prod.snd) :=
  (List.mergeSort_perm results _).map Prod.snd

theorem order_eq_lt {arithmetic : ScoreArithmetic score} {first second : String × Fused score}
    (firstKey : first.1 = key first.2.note) (secondKey : second.1 = key second.2.note) :
    order arithmetic first second = .lt ↔ Precedes arithmetic first.2 second.2 := by
  have paths : compare first.1 second.1 = .lt ↔ first.1 < second.1 := compare_lt_iff_lt
  rw [order, Ordering.then_eq_lt, Ordering.then_eq_lt, compare_lt_iff_lt, compare_eq_iff_eq,
    paths, firstKey, secondKey, Precedes]

/-- Results with different paths are never equal in the order. -/
theorem fst_eq_of_order_eq {arithmetic : ScoreArithmetic score}
    {first second : String × Fused score}
    (same : order arithmetic first second = .eq) : first.1 = second.1 := by
  rw [order, Ordering.then_eq_eq, Ordering.then_eq_eq] at same
  exact compare_eq_iff_eq.mp same.2.2

section Order

variable (arithmetic : ScoreArithmetic score) [Std.TransCmp arithmetic.order]

/-- The order is that of the scores from the highest on, then that of the coverages, then that of
the paths. -/
instance transCmp_order : Std.TransCmp (order arithmetic) := by
  have scores : Std.TransCmp fun first second : String × Fused score =>
      arithmetic.order second.2.score first.2.score :=
    { eq_swap := Std.OrientedCmp.eq_swap
      isLE_trans := fun before after => Std.TransCmp.isLE_trans after before }
  have coverages : Std.TransCmp fun first second : String × Fused score =>
      compare second.2.coverage first.2.coverage :=
    { eq_swap := Std.OrientedCmp.eq_swap
      isLE_trans := fun before after => Std.TransCmp.isLE_trans after before }
  have paths : Std.TransCmp fun first second : String × Fused score =>
      compare first.1 second.1 :=
    { eq_swap := Std.OrientedCmp.eq_swap
      isLE_trans := fun before after => Std.TransCmp.isLE_trans before after }
  have both : Std.TransCmp (compareLex
      (fun first second : String × Fused score => compare second.2.coverage first.2.coverage)
      (fun first second => compare first.1 second.1)) := inferInstance
  exact inferInstanceAs (Std.TransCmp (compareLex
    (fun first second : String × Fused score =>
      arithmetic.order second.2.score first.2.score) (compareLex _ _)))

variable {results : List (String × Fused score)}

/-- Each sorted result is before those after it. -/
theorem pairwise_mergeSort_order (apart : (results.map Prod.fst).Nodup) :
    (results.mergeSort fun first second => (order arithmetic first second).isLE).Pairwise
      fun first second => order arithmetic first second = .lt := by
  have ascending : (results.mergeSort fun first second =>
      (order arithmetic first second).isLE).Pairwise
        fun first second => (order arithmetic first second).isLE = true := by
    apply List.pairwise_mergeSort
    · exact fun _ _ _ => Std.TransCmp.isLE_trans
    · intro first second
      have swapped : order arithmetic second first = (order arithmetic first second).swap :=
        Std.OrientedCmp.eq_swap
      rw [swapped]
      cases order arithmetic first second <;> rfl
  have distinct : ((results.mergeSort fun first second =>
      (order arithmetic first second).isLE).map Prod.fst).Nodup :=
    ((List.mergeSort_perm results _).map Prod.fst).nodup_iff.mpr apart
  refine (ascending.and (List.pairwise_map.mp distinct)).imp fun {first second} both => ?_
  exact (Ordering.isLE_iff_eq_lt_or_eq_eq.mp both.1).resolve_right
    fun same => both.2 (fst_eq_of_order_eq same)

/-- Every result precedes those after it. -/
theorem pairwise_precedes_sorted (apart : (results.map Prod.fst).Nodup)
    (keyed : ∀ entry ∈ results, entry.1 = key entry.2.note) :
    (sorted arithmetic results).Pairwise (Precedes arithmetic) := by
  rw [sorted, List.pairwise_map]
  refine (pairwise_mergeSort_order arithmetic apart).imp_of_mem
    fun {first second} firstMember secondMember before => ?_
  exact (order_eq_lt (keyed first (List.mem_mergeSort.mp firstMember))
    (keyed second (List.mem_mergeSort.mp secondMember))).mp before

/-- The order in which results were collected makes no difference. -/
theorem sorted_eq_of_perm {other : List (String × Fused score)}
    (apart : (results.map Prod.fst).Nodup) (same : other.Perm results) :
    sorted arithmetic other = sorted arithmetic results := by
  have otherApart := (same.map Prod.fst).nodup_iff.mpr apart
  refine congrArg (List.map Prod.snd) (List.Perm.eq_of_pairwise ?_
    (pairwise_mergeSort_order arithmetic otherApart) (pairwise_mergeSort_order arithmetic apart)
    ((List.mergeSort_perm other _).trans (same.trans (List.mergeSort_perm results _).symm)))
  intro first second _ _ before after
  exact absurd ((Std.OrientedCmp.gt_of_lt before).symm.trans after) (by decide)

end Order

/-! ## The fused list -/

section Merge

variable (arithmetic : ScoreArithmetic score) (constant : Nat) (keyword semantic : List Scored)

/-- The paths of the fused list are those under which results were collected. -/
theorem keys_merge_perm :
    ((merge arithmetic constant keyword semantic).map fun result => key result.note).Perm
      ((collected arithmetic (smoothing constant) keyword semantic).map Prod.fst) := by
  have keyed : (collected arithmetic (smoothing constant) keyword semantic).map Prod.fst =
      ((collected arithmetic (smoothing constant) keyword semantic).map Prod.snd).map
        fun result => key result.note := by
    rw [List.map_map]
    exact List.map_congr_left fun result member => (isFrom_of_mem_collected member).1
  rw [keyed, merge_eq_sorted]
  exact (sorted_perm arithmetic _).map _

theorem keys_merge_nodup :
    ((merge arithmetic constant keyword semantic).map fun result => key result.note).Nodup :=
  (keys_merge_perm arithmetic constant keyword semantic).nodup_iff.mpr
    (nodup_collected arithmetic (smoothing constant) keyword semantic)

variable {arithmetic constant keyword semantic}

theorem mem_collected_of_mem_merge {result : Fused score}
    (member : result ∈ merge arithmetic constant keyword semantic) :
    (key result.note, result) ∈
      collected arithmetic (smoothing constant) keyword semantic := by
  rw [merge_eq_sorted, (sorted_perm arithmetic _).mem_iff] at member
  rcases List.mem_map.mp member with ⟨entry, listed, rfl⟩
  rw [← (isFrom_of_mem_collected listed).1]
  exact listed

/-- The fused list has the results that the places of the paths make up. -/
theorem mem_merge_iff {result : Fused score} :
    result ∈ merge arithmetic constant keyword semantic ↔
      resultFor arithmetic (smoothing constant) keyword semantic (key result.note) =
        some result := by
  rw [← mem_collected_iff]
  constructor
  · exact mem_collected_of_mem_merge
  · intro listed
    rw [merge_eq_sorted, (sorted_perm arithmetic _).mem_iff]
    exact List.mem_map_of_mem listed

theorem pairwise_merge [Std.TransCmp arithmetic.order] :
    (merge arithmetic constant keyword semantic).Pairwise (Precedes arithmetic) :=
  pairwise_precedes_sorted arithmetic
    (nodup_collected arithmetic (smoothing constant) keyword semantic)
    fun _ member => (isFrom_of_mem_collected member).1

/-- The notes of the fused list are notes of the two lists. -/
theorem exists_note_of_mem_merge {result : Fused score}
    (member : result ∈ merge arithmetic constant keyword semantic) :
    ∃ entry ∈ keyword ++ semantic, entry.note = result.note :=
  (isFrom_of_mem_collected (mem_collected_of_mem_merge member)).2

end Merge

/-- Fusing gives the fused list just when the constant can be added to all ranks. -/
theorem fuse_eq_ok {arithmetic : ScoreArithmetic score} {constant : Nat}
    {keyword semantic : List Scored} {merged : List (Fused score)} :
    fuse arithmetic constant keyword semantic = .ok merged ↔
      fits constant keyword semantic = true ∧
        merge arithmetic constant keyword semantic = merged := by
  unfold fuse
  cases fits constant keyword semantic <;> simp

theorem fits_iff {constant : Nat} {keyword semantic : List Scored} :
    fits constant keyword semantic = true ↔
      smoothing constant + keyword.length < sumLimit ∧
        smoothing constant + semantic.length < sumLimit := by
  rw [fits, decide_eq_true_eq]
  omega

/-- What the fused list is, for any totally ordered scores.  There is one when the smoothing
constant can be added to all ranks.  It has one result for each path that occurs in one of the
lists.  Each result is the one that the places of its path make up: the note of
the first place, the keyword list before the semantic one, the first rank and score in each list,
and the sum of what the places count.  The match type tells in which lists the path occurs.  Every
result precedes those after it, whatever the order was in which the results were collected.  A
smoothing constant of zero stands for 60. -/
theorem merge_is_canonical (arithmetic : ScoreArithmetic score) [Std.TransCmp arithmetic.order]
    (constant : Nat) (keyword semantic : List Scored) :
    (smoothing constant + keyword.length < sumLimit ∧
        smoothing constant + semantic.length < sumLimit →
      fuse arithmetic constant keyword semantic =
        .ok (merge arithmetic constant keyword semantic)) ∧
      ((merge arithmetic constant keyword semantic).map fun result => key result.note).Nodup ∧
      (∀ path, path ∈ (merge arithmetic constant keyword semantic).map (fun result =>
        key result.note) ↔ Occurs path (keyword ++ semantic)) ∧
      (∀ result ∈ merge arithmetic constant keyword semantic,
        resultFor arithmetic (smoothing constant) keyword semantic (key result.note) =
            some result ∧
          (result.matchType = .hybrid ↔
            Occurs (key result.note) keyword ∧ Occurs (key result.note) semantic) ∧
          (result.matchType = .exact ↔
            Occurs (key result.note) keyword ∧ ¬Occurs (key result.note) semantic) ∧
          (result.matchType = .semantic ↔
            ¬Occurs (key result.note) keyword ∧ Occurs (key result.note) semantic)) ∧
      (merge arithmetic constant keyword semantic).Pairwise (Precedes arithmetic) ∧
      (∀ results : List (String × Fused score),
        results.Perm (collected arithmetic (smoothing constant) keyword semantic) →
          sorted arithmetic results = merge arithmetic constant keyword semantic) ∧
      merge arithmetic 0 keyword semantic = merge arithmetic 60 keyword semantic := by
  have apart := nodup_collected arithmetic (smoothing constant) keyword semantic
  have listed := @mem_collected_iff _ arithmetic (smoothing constant) keyword semantic
  refine ⟨?answer, keys_merge_nodup arithmetic constant keyword semantic, ?paths, ?results, ?order,
    ?collection, rfl⟩
  case answer => exact fun bounds => fuse_eq_ok.mpr ⟨fits_iff.mpr bounds, rfl⟩
  case paths =>
    intro path
    rw [(keys_merge_perm arithmetic constant keyword semantic).mem_iff,
      ← @isSome_resultFor _ arithmetic (smoothing constant), Option.isSome_iff_exists]
    simp only [List.mem_map, Prod.exists, exists_and_right, exists_eq_right]
    exact exists_congr (listed path)
  case results =>
    intro result member
    have found := (listed _ _).mp (mem_collected_of_mem_merge member)
    exact ⟨found, matchType_of_resultFor found⟩
  case order =>
    exact pairwise_precedes_sorted arithmetic apart
      fun entry member => (isFrom_of_mem_collected member).1
  case collection =>
    intro results same
    exact sorted_eq_of_perm arithmetic apart same

/-- Scores as exact fractions. -/
def exactArithmetic : ScoreArithmetic ℚ :=
  ⟨0, fun first second => first + second, fun count => 1 / count, compare⟩

instance transCmp_exactArithmetic : Std.TransCmp exactArithmetic.order :=
  inferInstanceAs (Std.TransCmp (compare : ℚ -> ℚ -> Ordering))

/-- A keyword list in which one note occurs under two spellings of its path. -/
def keywordList : List Scored :=
  [⟨Note.ofPath "A.md", 3⟩, ⟨Note.ofPath "b.md", 2⟩, ⟨Note.ofPath " a.md", 1⟩]

/-- A semantic list that shares a note with the keyword list. -/
def semanticList : List Scored :=
  [⟨Note.ofPath "B.md", 1⟩, ⟨Note.ofPath "c.md", 1⟩]

/-- A note that occurs twice in one list has one result.  It has the spelling, rank and score of
the first place, and both places count. -/
theorem repeated_note_has_one_result :
    ∃ merged, fuse exactArithmetic 0 keywordList semanticList = .ok merged ∧
      ∃ result ∈ merged, result.note = Note.ofPath "A.md" ∧ result.score = 1 / 61 + 1 / 63 ∧
        result.keyword = some (1, 3) ∧ result.semantic = none ∧ result.matchType = .exact := by
  have canonical := merge_is_canonical exactArithmetic 0 keywordList semanticList
  have occurs : Occurs "a.md" (keywordList ++ semanticList) :=
    ⟨⟨Note.ofPath "A.md", 3⟩, List.mem_cons_self, by decide +kernel⟩
  rcases List.mem_map.mp ((canonical.2.2.1 "a.md").mpr occurs) with ⟨result, member, path⟩
  have found := (canonical.2.2.2.1 result member).1
  have made : resultFor exactArithmetic (smoothing 0) keywordList semanticList "a.md" =
      some ⟨Note.ofPath "A.md", 0 + 1 / (61 : Nat) + 1 / (63 : Nat), some (1, 3), none⟩ := by rfl
  rw [path, made] at found
  cases found
  have score : (0 + 1 / (61 : Nat) + 1 / (63 : Nat) : ℚ) = 1 / 61 + 1 / 63 := by
    rw [zero_add, Nat.cast_ofNat, Nat.cast_ofNat]
  exact ⟨_, canonical.1 (by decide), _, member, rfl, score, rfl, rfl, rfl⟩

end Fusion
end Commonplace
