namespace Commonplace
namespace Text
namespace Stem

/-!
# Stems of English words

Words that differ only in an ending are compared by their stem.  Endings are taken off or replaced
in five steps, and most rules apply only where the ending lies in one of two regions of the word, so
that short words keep theirs.

A word is in lower case and has no apostrophes.  While it is worked on, a capital `Y` stands for a
`y` that is a consonant.
-/

def isVowel (letter : Char) : Bool :=
  letter == 'a' || letter == 'e' || letter == 'i' || letter == 'o' || letter == 'u' || letter == 'y'

/-- Marks every `y` that is a consonant: one that starts the word or follows a vowel. -/
def markConsonants (follows : Bool) : List Char -> List Char
  | [] => []
  | letter :: rest =>
      let marked := if letter == 'y' && follows then 'Y' else letter
      marked :: markConsonants (isVowel marked) rest

/-- Takes the marks off. -/
def unmark (letter : Char) : Char :=
  if letter == 'Y' then 'y' else letter

/-- What follows the first consonant after the first vowel. -/
def afterSyllable (word : List Char) : List Char :=
  ((word.dropWhile fun letter => !isVowel letter).dropWhile isVowel).drop 1

/-- Beginnings of words after which the first region starts. -/
def fixedBeginnings : List String :=
  ["gener", "commun", "arsen"]

def firstRegion (word : List Char) : List Char :=
  match fixedBeginnings.find? fun beginning => beginning.toList.isPrefixOf word with
  | some beginning => word.drop beginning.length
  | none => afterSyllable word

/-- Where the two regions of a word start. -/
structure Regions where
  first : Nat
  second : Nat

def Regions.ofWord (word : List Char) : Regions :=
  let first := firstRegion word
  ⟨word.length - first.length, word.length - (afterSyllable first).length⟩

/-- Whether a word ends in a short syllable: a vowel between two consonants, the last of which is
none of `w`, `x` and `Y`, or a vowel and a consonant that are the whole word. -/
def endsShort (word : List Char) : Bool :=
  match word.reverse with
  | [last, vowel] => !isVowel last && isVowel vowel
  | last :: vowel :: before :: _ =>
      !isVowel last && last != 'w' && last != 'x' && last != 'Y' && isVowel vowel &&
        !isVowel before
  | _ => false

/-- A rule for an ending: what comes in its place, where the ending has to start, and what has to
hold of the part before it. -/
structure Rule where
  ending : String
  replacement : String
  start : Nat
  allows : List Char -> Bool

/-- The part of a word before an ending, if the word ends so. -/
def before? (ending : String) (word : List Char) : Option (List Char) :=
  if ending.toList.isSuffixOf word then some (word.take (word.length - ending.length)) else none

/-- Applies the first rule whose ending the word has.  If that rule does not allow a change, no
other one is tried. -/
def applyFirst : List Rule -> List Char -> List Char
  | [], word => word
  | rule :: rules, word =>
      match before? rule.ending word with
      | none => applyFirst rules word
      | some before =>
          if rule.start ≤ before.length && rule.allows before then
            before ++ rule.replacement.toList
          else word

/-- Rules for endings from one place on that allow any change. -/
def rules (start : Nat) (endings : List (String × String)) : List Rule :=
  endings.map fun ending => ⟨ending.1, ending.2, start, fun _ => true⟩

/-- Takes plural endings off. -/
def withoutPlural (word : List Char) : List Char :=
  match ["ied", "ies"].findSome? fun ending => before? ending word with
  | some before => before ++ if before.length < 2 then ['i', 'e'] else ['i']
  | none =>
      applyFirst (rules 0 [("sses", "ss"), ("us", "us"), ("ss", "ss")] ++
        [⟨"s", "", 0, fun before => before.dropLast.any isVowel⟩]) word

/-- Mends a word whose ending `ed` or `ing` was taken off. -/
def mended (regions : Regions) (word : List Char) : List Char :=
  let doubled := ["bb", "dd", "ff", "gg", "mm", "nn", "pp", "rr", "tt"]
  if ["at", "bl", "iz"].any fun ending => (before? ending word).isSome then word ++ ['e']
  else if doubled.any fun ending => (before? ending word).isSome then word.dropLast
  else if word.length ≤ regions.first && endsShort word then word ++ ['e']
  else word

/-- Takes the endings of verbs off. -/
def withoutVerbEnding (regions : Regions) (word : List Char) : List Char :=
  match ["eedly", "eed"].findSome? fun ending => before? ending word with
  | some before => if regions.first ≤ before.length then before ++ ['e', 'e'] else word
  | none =>
      match ["ingly", "edly", "ing", "ed"].findSome? fun ending => before? ending word with
      | some before => if before.any isVowel then mended regions before else word
      | none => word

/-- Replaces a `y` at the end by an `i` when it follows a consonant that is not the first
letter. -/
def withSoftEnd (word : List Char) : List Char :=
  match word.reverse with
  | last :: before :: first :: rest =>
      if (last == 'y' || last == 'Y') && !isVowel before then
        ('i' :: before :: first :: rest).reverse
      else word
  | _ => word

/-- Whether an `li` may be taken off after some letters. -/
def allowsLi (before : List Char) : Bool :=
  before.getLast?.any fun letter => "cdeghkmnrt".toList.contains letter

/-- Shortens double endings, longest first. -/
def shortenedEnding (regions : Regions) : List Char -> List Char :=
  let start := regions.first
  applyFirst (rules start [("ational", "ate"), ("fulness", "ful"), ("iveness", "ive"),
      ("ization", "ize"), ("ousness", "ous"), ("biliti", "ble"), ("lessli", "less"),
      ("tional", "tion"), ("alism", "al"), ("aliti", "al"), ("ation", "ate"), ("entli", "ent"),
      ("fulli", "ful"), ("iviti", "ive"), ("ousli", "ous"), ("abli", "able"), ("alli", "al"),
      ("anci", "ance"), ("ator", "ate"), ("enci", "ence"), ("izer", "ize"), ("bli", "ble")] ++
    [⟨"ogi", "og", start, fun before => before.getLast? == some 'l'⟩,
      ⟨"li", "", start, allowsLi⟩])

/-- Takes off endings that make nouns and adjectives, longest first. -/
def withoutNounEnding (regions : Regions) : List Char -> List Char :=
  applyFirst (rules regions.first [("ational", "ate"), ("tional", "tion"), ("alize", "al"),
      ("icate", "ic"), ("iciti", "ic")] ++
    [⟨"ative", "", max regions.first regions.second, fun _ => true⟩] ++
    rules regions.first [("ical", "ic"), ("ness", ""), ("ful", "")])

/-- Takes off endings in the second region, longest first. -/
def withoutLateEnding (regions : Regions) : List Char -> List Char :=
  let whole := ["ement", "able", "ance", "ence", "ible", "ment", "ant", "ate", "ent", "ism", "iti",
    "ive", "ize", "ous"]
  let removed := fun (endings : List String) =>
    rules regions.second (endings.map fun ending => (ending, ""))
  applyFirst (removed whole ++
    [⟨"ion", "", regions.second, fun before =>
      before.getLast? == some 's' || before.getLast? == some 't'⟩] ++
    removed ["al", "er", "ic"])

/-- Takes off an `e` or one of two `l` at the end. -/
def withoutLastLetter (regions : Regions) (word : List Char) : List Char :=
  match before? "e" word, before? "l" word with
  | some before, _ =>
      if regions.second ≤ before.length || (regions.first ≤ before.length && !endsShort before) then
        before
      else word
  | none, some before =>
      if regions.second ≤ before.length && before.getLast? == some 'l' then before else word
  | none, none => word

/-- Words whose stem does not follow the rules. -/
def exceptions : List (String × String) :=
  [("skis", "ski"), ("skies", "sky"), ("dying", "die"), ("lying", "lie"), ("tying", "tie"),
    ("idly", "idl"), ("gently", "gentl"), ("ugly", "ugli"), ("early", "earli"), ("only", "onli"),
    ("singly", "singl"), ("sky", "sky"), ("news", "news"), ("howe", "howe"), ("atlas", "atlas"),
    ("cosmos", "cosmos"), ("bias", "bias"), ("andes", "andes")]

/-- Words that lose no more than a plural ending. -/
def complete : List String :=
  ["inning", "outing", "canning", "herring", "earring", "proceed", "exceed", "succeed"]

/-- The stem of a word by the rules. -/
def byRules (word : List Char) : List Char :=
  let word := markConsonants true word
  let regions := Regions.ofWord word
  let word := withoutPlural word
  let word :=
    if complete.any fun other => other.toList == word then word
    else
      withoutLastLetter regions (withoutLateEnding regions (withoutNounEnding regions
        (shortenedEnding regions (withSoftEnd (withoutVerbEnding regions word)))))
  word.map unmark

end Stem

/-- The stem of an English word in lower case. -/
def stem (word : List Char) : List Char :=
  match Stem.exceptions.find? fun entry => entry.1.toList == word with
  | some entry => entry.2.toList
  | none => if word.length < 3 then word else Stem.byRules word

end Text
end Commonplace
