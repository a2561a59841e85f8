import Commonplace.Proofs.Glob.Stars
import Mathlib.Data.List.Infix

namespace Commonplace
namespace Glob

/-!
# Patterns with stars side by side

Two stars stand for directories only where slashes or the ends of the pattern enclose them.  In
every other place, and behind a last slash, they mean no more than one star does.  A pattern without
groups, in which no two stars stand for directories up to a slash, is matched character by character
whatever its characters are, as far as the text is ASCII.
-/

/-! ## Parts of a character -/

theorem no_mark_of_not_ascii {character : Char} (notAscii : ¬character.toNat < 128) :
    ¬(character == '*') = true ∧ ¬(character == '?') = true := by
  constructor
  all_goals
    rw [beq_iff_eq]
    rintro rfl
    exact notAscii (by decide)

/-- The parts that a character outside of groups stands for. -/
def partsOf (character : Char) : List Part :=
  if character == '*' then [.anyBytes]
  else if character == '?' then [.anyByte]
  else (bytesOf character).map .byte

theorem partsOf_of_ascii {character : Char} (ascii : character.toNat < 128) :
    partsOf character = [partOf character] := by
  unfold partsOf partOf
  split
  · rfl
  · split
    · rfl
    · rw [bytesOf_of_ascii ascii, List.map_singleton]

theorem partsOf_of_not_ascii {character : Char} (notAscii : ¬character.toNat < 128) :
    partsOf character = (bytesOf character).map .byte := by
  rcases no_mark_of_not_ascii notAscii with ⟨notStar, notQuestion⟩
  rw [partsOf, if_neg notStar, if_neg notQuestion]

theorem bytesOf_eq (character : Char) : bytesOf character = String.utf8EncodeChar character := by
  rw [bytesOf, Text.toList_eq_data, String.toUTF8_eq_toByteArray, ← String.utf8Encode_toList,
    List.utf8Encode, List.toList_data_toByteArray, String.toList_singleton, List.flatMap_singleton]

/-- The first byte of a character beyond ASCII is beyond ASCII too. -/
theorem exists_bytesOf {character : Char} (notAscii : ¬character.toNat < 128) :
    ∃ first rest, bytesOf character = first :: rest ∧ ¬first.toNat < 128 := by
  rw [bytesOf_eq, String.utf8EncodeChar]
  change ¬character.val.toNat < 128 at notAscii
  rw [if_neg (by omega)]
  split
  · refine ⟨_, _, rfl, ?_⟩
    rw [UInt8.toNat_ofNat']
    omega
  · split
    all_goals
      refine ⟨_, _, rfl, ?_⟩
      rw [UInt8.toNat_ofNat']
      omega

theorem lowerByte_byte : ∀ number < 256,
    ((lowerByte (UInt8.ofNat number)).toNat < 128 ↔ number < 128) ∧
      (lowerByte (UInt8.ofNat number) = slash ↔ UInt8.ofNat number = slash) := by
  decide +kernel

theorem lowerByte_lt_iff (value : UInt8) : (lowerByte value).toNat < 128 ↔ value.toNat < 128 := by
  have known := lowerByte_byte value.toNat value.toNat_lt
  rw [UInt8.ofNat_toNat] at known
  exact known.1

theorem lowerByte_eq_slash_iff (value : UInt8) : lowerByte value = slash ↔ value = slash := by
  have known := lowerByte_byte value.toNat value.toNat_lt
  rw [UInt8.ofNat_toNat] at known
  exact known.2

/-- A byte beyond ASCII matches no beginning of an ASCII text. -/
theorem rests_byte_of_not_ascii {value : UInt8} (notAscii : ¬value.toNat < 128) {text : List Char}
    (asciiText : Text.IsAscii text) : (Part.byte value).rests (text.map Text.byteOf) = [] := by
  rw [Part.rests, List.eq_nil_iff_forall_not_mem]
  intro rest member
  rcases (Text.mem_endAfter _ _ _).mp member with ⟨head, same, split⟩
  rcases List.map_eq_cons_iff.mp split with ⟨character, tail, rfl, rfl, rfl⟩
  have small := asciiText character List.mem_cons_self
  apply notAscii
  rw [← lowerByte_lt_iff, ← beq_iff_eq.mp same, lowerByte_lt_iff, Text.byteOf,
    UInt32.toNat_toUInt8, Char.toNat_val]
  omega

theorem starRests_of_not_ascii {character : Char} (notAscii : ¬character.toNat < 128)
    {text : List Char} (asciiText : Text.IsAscii text) : starRests character text = [] := by
  rcases no_mark_of_not_ascii notAscii with ⟨notStar, notQuestion⟩
  rw [starRests, if_neg notStar, if_neg notQuestion, List.eq_nil_iff_forall_not_mem]
  intro rest member
  rcases (Text.mem_endAfter _ _ _).mp member with ⟨head, same, rfl⟩
  have small := Text.toLower_ascii (asciiText head List.mem_cons_self)
  rw [beq_iff_eq.mp same, Text.toLower_of_not_ascii notAscii] at small
  exact notAscii small

/-- On ASCII texts, the parts of a pattern match just when its characters do. -/
theorem matched_partsOf_iff (pattern : List Char) {text : List Char}
    (asciiText : Text.IsAscii text) :
    Text.Matched (fun part text => Part.rests text part) (pattern.flatMap partsOf)
        (text.map Text.byteOf) ↔
      Text.Matched starRests pattern text := by
  induction pattern generalizing text with
  | nil => simp [Text.Matched]
  | cons head tail inductionHypothesis =>
      rw [List.flatMap_cons]
      by_cases ascii : head.toNat < 128
      · rw [partsOf_of_ascii ascii, List.singleton_append, Text.Matched, Text.Matched,
          rests_partOf ascii asciiText]
        simp only [List.mem_map]
        constructor
        · rintro ⟨_, ⟨rest, member, rfl⟩, matched⟩
          have asciiRest := asciiText.of_suffix (suffix_of_mem_starRests member)
          exact ⟨rest, member, (inductionHypothesis asciiRest).mp matched⟩
        · rintro ⟨rest, member, matched⟩
          have asciiRest := asciiText.of_suffix (suffix_of_mem_starRests member)
          exact ⟨_, ⟨rest, member, rfl⟩, (inductionHypothesis asciiRest).mpr matched⟩
      · rcases exists_bytesOf ascii with ⟨first, others, bytes, firstNotAscii⟩
        rw [partsOf_of_not_ascii ascii, bytes, List.map_cons, List.cons_append, Text.Matched,
          Text.Matched, rests_byte_of_not_ascii firstNotAscii asciiText,
          starRests_of_not_ascii ascii asciiText]
        simp

/-- A pattern with a character beyond ASCII matches no ASCII text. -/
theorem not_matched_of_not_ascii {pattern : List Char} {character : Char}
    (member : character ∈ pattern) (notAscii : ¬character.toNat < 128) {text : List Char}
    (asciiText : Text.IsAscii text) : ¬Text.Matched starRests pattern text := by
  induction pattern generalizing text with
  | nil => cases member
  | cons head tail inductionHypothesis =>
      rintro ⟨rest, inRests, matched⟩
      rcases List.mem_cons.mp member with rfl | later
      · rw [starRests_of_not_ascii notAscii asciiText] at inRests
        cases inRests
      · exact inductionHypothesis later (asciiText.of_suffix (suffix_of_mem_starRests inRests))
          matched

/-! ## Reading -/

/-- The parts that patterns without groups are read as. -/
def Part.IsBare : Part -> Prop
  | byte _ | anyByte | anyBytes | everythingBelow => True
  | _ => False

theorem mem_rests_everythingBelow (text rest : List UInt8) :
    rest ∈ Part.everythingBelow.rests text ↔ ∃ tail, text = slash :: tail ∧ rest <:+ tail := by
  cases text with
  | nil => exact iff_of_false (fun member => nomatch member) fun ⟨_, same, _⟩ => nomatch same
  | cons head tail =>
      have split : Part.everythingBelow.rests (head :: tail) =
          if head == slash then Text.ends tail else [] := rfl
      rw [split]
      by_cases isSlash : head = slash
      · rw [if_pos (beq_iff_eq.mpr isSlash), Text.mem_ends, isSlash]
        simp
      · rw [if_neg (by simpa using isSlash)]
        simp [isSlash]

theorem Part.IsBare.suffix {part : Part} (bare : part.IsBare) (text rest : List UInt8)
    (member : rest ∈ part.rests text) : rest <:+ text := by
  cases part with
  | byte | anyByte => exact Text.suffix_of_mem_endAfter member
  | anyBytes => exact (Text.mem_ends text rest).mp member
  | everythingBelow =>
      rcases (mem_rests_everythingBelow text rest).mp member with ⟨tail, rfl, below⟩
      exact below.trans (List.suffix_cons slash tail)
  | leadingDirectories | innerDirectories | oneOf | alternatives => cases bare

/-- Whether nothing in the rest of a pattern, read on from a state, stands for directories up to a
slash. -/
structure ReadsBare (state : ReadState) (pattern : List Char) : Prop where
  noBraces : state.braces = []
  bare : ∀ part ∈ state.current, part.IsBare
  separator : state.previous = some '/' → ∃ before, state.current = .byte slash :: before
  /-- Two stars alone are read as directories. -/
  notAlone : state.current = [] → pattern ≠ ['*', '*']
  apart : state.current = [] ∨ state.previous = some '/' → ¬ ['*', '*', '/'] <+: pattern
  within : ¬ ['/', '*', '*', '/'] <:+: pattern
  noMarks : ∀ character ∈ pattern, character ∉ groupMarks

theorem current_pushChar_ne_nil (state : ReadState) (character : Char) :
    (state.pushChar character).current ≠ [] := by
  rw [ReadState.pushChar]
  apply List.append_ne_nil_of_left_ne_nil
  by_cases ascii : character.toNat < 128
  · rw [bytesOf_of_ascii ascii]
    exact List.cons_ne_nil _ _
  · rcases exists_bytesOf ascii with ⟨first, rest, bytes, _⟩
    simp [bytes]

namespace ReadsBare

variable {state : ReadState} {pattern : List Char}

/-- Adding a part of marks that do not end in a slash. -/
theorem push {marks : List Char} (reads : ReadsBare state (marks ++ pattern)) (part : Part)
    (bare : part.IsBare) (last : Char) (noSlash : last ≠ '/') :
    ReadsBare (state.push part last) pattern where
  noBraces := reads.noBraces
  bare := List.forall_mem_cons.mpr ⟨bare, reads.bare⟩
  separator := fun slashed => absurd (Option.some.inj slashed) noSlash
  notAlone := fun empty => nomatch empty
  apart := by
    rintro (empty | slashed)
    · cases empty
    · exact absurd (Option.some.inj slashed) noSlash
  within := fun inside => reads.within (inside.trans (List.suffix_append marks pattern).isInfix)
  noMarks := fun character member => reads.noMarks character (List.mem_append_right marks member)

theorem pushTwoStars (reads : ReadsBare state ('*' :: '*' :: pattern)) :
    ReadsBare state.pushTwoStars pattern := by
  have both : ReadsBare state (['*'] ++ (['*'] ++ pattern)) := reads
  exact (both.push .anyBytes trivial '*' (by decide)).push .anyBytes trivial '*' (by decide)

/-- Adding the bytes of a character. -/
theorem pushChar {character : Char} (reads : ReadsBare state (character :: pattern)) :
    ReadsBare (state.pushChar character) pattern where
  noBraces := reads.noBraces
  bare := by
    intro part member
    rcases List.mem_append.mp member with added | earlier
    · rcases List.mem_map.mp added with ⟨value, _, rfl⟩
      trivial
    · exact reads.bare part earlier
  separator := by
    intro slashed
    rw [Option.some.inj slashed]
    exact ⟨state.current, by rw [ReadState.pushChar, bytesOf_of_ascii (by decide)]; rfl⟩
  notAlone := fun empty => absurd empty (current_pushChar_ne_nil state character)
  apart := by
    rintro (empty | slashed) stars
    · exact current_pushChar_ne_nil state character empty
    · rw [Option.some.inj slashed] at reads
      exact reads.within (List.prefix_cons_inj '/' |>.mpr stars).isInfix
  within := fun inside => reads.within (inside.trans (List.suffix_cons character pattern).isInfix)
  noMarks := fun other member => reads.noMarks other (List.mem_cons_of_mem character member)

/-- Two stars stand for any bytes, and at the end behind a slash for everything below it. -/
theorem twoStars_cases (reads : ReadsBare state ('*' :: '*' :: pattern)) :
    state.twoStars pattern = (state.pushTwoStars, pattern) ∨
      pattern = [] ∧ ∃ before, state.current = .byte slash :: before ∧
        state.twoStars pattern =
          ({ state with current := .everythingBelow :: before, previous := some '*' }, []) := by
  have noSlash : (state.current = [] ∨ state.previous = some '/') →
      ∀ rest, pattern ≠ '/' :: rest := by
    rintro opens rest rfl
    exact reads.apart opens ⟨rest, rfl⟩
  unfold ReadState.twoStars
  by_cases fresh : state.current = []
  · rw [if_pos (List.isEmpty_iff.mpr fresh)]
    left
    cases pattern with
    | nil => exact absurd rfl (reads.notAlone fresh)
    | cons next rest =>
        split
        · contradiction
        · exact absurd ‹_› (noSlash (.inl fresh) _)
        · rfl
  · rw [if_neg (by simpa using fresh), ReadState.opensDirectories, reads.noBraces]
    by_cases slashed : state.previous = some '/'
    · rw [slashed]
      rcases reads.separator slashed with ⟨before, current⟩
      cases pattern with
      | nil =>
          right
          refine ⟨rfl, before, current, ?_⟩
          simp [ReadState.replaceSeparator, current, reads.noBraces]
      | cons next rest =>
          left
          -- No slash follows, so the stars are not those of inner directories.
          have notSlash : next ≠ '/' := fun same => noSlash (.inr slashed) rest (by rw [same])
          simp
    · left
      simp [slashed]

end ReadsBare

/-- Whether parts match the same texts as others. -/
def MatchAlike (parts others : List Part) : Prop :=
  ∀ text, Text.Matched (fun part text => Part.rests text part) parts text ↔
    Text.Matched (fun part text => Part.rests text part) others text

/-- Everything below a slash is a slash and any bytes. -/
theorem matchAlike_everythingBelow (before : List Part) :
    MatchAlike (.everythingBelow :: before).reverse
      ((.byte slash :: before).reverse ++ [.anyBytes, .anyBytes]) := by
  intro text
  rw [List.reverse_cons, List.reverse_cons, List.append_assoc]
  apply Text.matched_append_congr
  intro bytes
  constructor
  · rintro ⟨rest, member, rfl⟩
    rcases (mem_rests_everythingBelow bytes _).mp member with ⟨tail, rfl, _⟩
    refine ⟨tail, ?_, tail, ?_, [], ?_, rfl⟩
    · exact (Text.mem_endAfter _ _ _).mpr ⟨slash, beq_self_eq_true _, rfl⟩
    · exact (Text.mem_ends tail tail).mpr (List.suffix_refl tail)
    · exact (Text.mem_ends tail []).mpr List.nil_suffix
  · rintro ⟨tail, member, _⟩
    rcases (Text.mem_endAfter _ _ _).mp member with ⟨head, isSlash, rfl⟩
    refine ⟨[], (mem_rests_everythingBelow _ _).mpr ⟨tail, ?_, List.nil_suffix⟩, rfl⟩
    rw [(lowerByte_eq_slash_iff head).mp (beq_iff_eq.mp isSlash)]

/-- Whether reading on from a state gives parts that match what was read before and then what the
characters of the rest do. -/
def Yields (state : ReadState) (pattern : List Char) (result : Except GlobFault (List Part)) :
    Prop :=
  ∃ parts, result = .ok parts ∧ (∀ part ∈ parts, part.IsBare) ∧
    MatchAlike parts (state.current.reverse ++ pattern.flatMap partsOf)

theorem readParts_nil {budget : Nat} (enough : 0 < budget) (state : ReadState)
    (noBraces : state.braces = []) : readParts budget state [] = .ok state.current.reverse := by
  cases budget with
  | zero => cases enough
  | succ budget =>
      rw [readParts, noBraces]
      rfl

/-- A star is read alone or together with a star after it. -/
theorem yields_star {budget : Nat} {state : ReadState} {pattern : List Char}
    (readsOn : ∀ {state : ReadState} {pattern : List Char}, ReadsBare state pattern →
      pattern.length < budget → Yields state pattern (readParts budget state pattern))
    (reads : ReadsBare state ('*' :: pattern)) (enough : pattern.length < budget) :
    Yields state ('*' :: pattern) (readParts (budget + 1) state ('*' :: pattern)) := by
  by_cases two : ∃ rest, pattern = '*' :: rest
  · rcases two with ⟨rest, rfl⟩
    have shorter : rest.length < budget := Nat.lt_of_succ_lt enough
    change Yields state ('*' :: '*' :: rest)
      (readParts budget (state.twoStars rest).1 (state.twoStars rest).2)
    rcases reads.twoStars_cases with apart | ⟨rfl, before, current, below⟩
    · rw [apart]
      have added := readsOn reads.pushTwoStars shorter
      simpa [Yields, ReadState.pushTwoStars, ReadState.push, partsOf] using added
    · have bare := reads.bare
      rw [current] at bare
      have parts := List.forall_mem_cons.mp bare
      rw [below]
      dsimp only
      rw [readParts_nil shorter _ (by exact reads.noBraces)]
      refine ⟨_, rfl, ?_, ?_⟩
      · intro part member
        rcases List.mem_cons.mp (List.mem_reverse.mp member) with rfl | earlier
        · trivial
        · exact parts.2 part earlier
      · rw [current]
        exact matchAlike_everythingBelow before
  · have alone : readParts (budget + 1) state ('*' :: pattern) =
        readParts budget (state.push .anyBytes '*') pattern := by
      rw [readParts]
      exact fun rest same => two ⟨rest, same⟩
    rw [← List.singleton_append] at reads
    have added := readsOn (reads.push .anyBytes trivial '*' (by decide)) enough
    rw [alone]
    simpa [Yields, ReadState.push, partsOf] using added

/-- A pattern in which nothing stands for directories up to a slash is read as parts that match what
its characters do. -/
theorem readParts_of_readsBare (budget : Nat) {state : ReadState} {pattern : List Char}
    (reads : ReadsBare state pattern) (enough : pattern.length < budget) :
    Yields state pattern (readParts budget state pattern) := by
  induction budget generalizing state pattern with
  | zero => cases enough
  | succ budget inductionHypothesis =>
      cases pattern with
      | nil =>
          refine ⟨state.current.reverse, readParts_nil enough state reads.noBraces, ?_, ?_⟩
          · exact fun part member => reads.bare part (List.mem_reverse.mp member)
          · intro text
            rw [List.flatMap_nil, List.append_nil]
      | cons head tail =>
          have shorter : tail.length < budget := Nat.lt_of_succ_lt_succ enough
          by_cases isQuestion : head = '?'
          · subst isQuestion
            rw [← List.singleton_append] at reads
            have added := inductionHypothesis (reads.push .anyByte trivial '?' (by decide)) shorter
            have single : readParts (budget + 1) state ('?' :: tail) =
                readParts budget (state.push .anyByte '?') tail := rfl
            rw [single]
            simpa [Yields, ReadState.push, partsOf] using added
          · by_cases isStar : head = '*'
            · subst isStar
              exact yields_star inductionHypothesis reads shorter
            · have noMark := reads.noMarks head List.mem_cons_self
              rw [readParts_literal budget reads.noBraces noMark isStar isQuestion]
              have added := inductionHypothesis reads.pushChar shorter
              simpa [Yields, ReadState.pushChar, partsOf, isStar, isQuestion] using added

/-! ## Matching -/

/-- Whether a pattern has no groups, and no two stars in it stand for directories up to a slash. -/
structure IsLevel (pattern : List Char) : Prop where
  noMarks : ∀ character ∈ pattern, character ∉ groupMarks
  noLeading : ¬ ['*', '*', '/'] <+: pattern
  noInner : ¬ ['/', '*', '*', '/'] <:+: pattern

instance (pattern : List Char) : Decidable (IsLevel pattern) :=
  have : Decidable (∀ character ∈ pattern, character ∉ groupMarks) := List.decidableBAll _ pattern
  decidable_of_iff (_ ∧ _ ∧ _) ⟨fun parts => ⟨parts.1, parts.2.1, parts.2.2⟩, fun level =>
    ⟨level.noMarks, level.noLeading, level.noInner⟩⟩

theorem matchesBytes_of_bare {parts : List Part} (bare : ∀ part ∈ parts, part.IsBare)
    (text : List UInt8) :
    matchesBytes parts text = true ↔
      Text.Matched (fun part text => Part.rests text part) parts text := by
  have whole : ∀ bytes ∈ [text], bytes <:+ text := by
    intro bytes member
    rcases List.mem_singleton.mp member with rfl
    exact List.suffix_refl _
  have plainly : matchesBytes parts text = (patternRests [text] parts).any List.isEmpty := by
    unfold matchesBytes
    split
    · exact absurd (bare _ (List.mem_singleton_self _)) id
    · rfl
  rw [plainly, Text.any_isEmpty_iff_matched (fun _ => rfl) (fun _ _ _ => rfl) parts
    (fun part member => (bare part member).suffix) whole]
  simp only [List.mem_singleton, exists_eq_left]

/-- A level pattern is read, and on ASCII texts it matches just when its characters do. -/
theorem exists_parts_of_isLevel {pattern : List Char} (level : IsLevel pattern) :
    ∃ parts, read (String.ofList pattern) = .ok parts ∧
      ∀ text : String, Text.IsAscii text.toList →
        (matchesText parts text = true ↔ Text.Matched starRests pattern text.toList) := by
  by_cases alone : pattern = ['*', '*']
  · subst alone
    refine ⟨[.leadingDirectories], rfl, fun text _ => iff_of_true rfl ?_⟩
    exact ⟨text.toList, (Text.mem_ends _ _).mpr (List.suffix_refl _), [],
      (Text.mem_ends _ _).mpr List.nil_suffix, rfl⟩
  · have reads : ReadsBare ⟨[], [], none⟩ pattern :=
      { noBraces := rfl
        bare := fun part member => nomatch member
        separator := fun slashed => nomatch slashed
        notAlone := fun _ => alone
        apart := fun _ => level.noLeading
        within := level.noInner
        noMarks := level.noMarks }
    rcases readParts_of_readsBare (pattern.length + 1) reads (Nat.lt_succ_self _) with
      ⟨parts, isRead, bare, alike⟩
    refine ⟨parts, ?_, fun text asciiText => ?_⟩
    · rw [read, String.toList_ofList, isRead]
    · rw [matchesText, Text.bytes_of_ascii asciiText, matchesBytes_of_bare bare,
        alike]
      exact matched_partsOf_iff pattern asciiText

end Glob
end Commonplace
