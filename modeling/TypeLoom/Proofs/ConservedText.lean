import Mathlib.Data.List.Perm.Basic
import TypeLoom.Proofs.NamePlaces

/-! Reading an identifier loses no text. Separators, brackets and blanks are marks of the notation
and may go; all other characters come to stand in the bases, ranks and arguments of the words, each
as often as in the identifier. Only the text behind an argument list changes its place: it goes to
the base, before the arguments. -/
namespace TypeLoom.Name
open Text (isBlank)

def isMark (c : Char) : Bool :=
  ['_', ',', '<', '>'].contains c || isBlank c

/-- What a text holds besides marks. -/
def content (text : List Char) : List Char :=
  text.filter fun c => !isMark c

theorem content_append (front back : List Char) :
    content (front ++ back) = content front ++ content back :=
  List.filter_append front back

theorem content_cons_mark {c : Char} (mark : isMark c = true) (text : List Char) :
    content (c :: text) = content text :=
  List.filter_cons_of_neg (by simp [mark])

theorem content_flatten (texts : List (List Char)) :
    content texts.flatten = texts.flatMap content := by
  rw [content, List.filter_flatten]
  rfl

mutual

def Word.chars : Word → List Char
  | .mk base rank arguments =>
    base.toList ++ ((rank.getD "").toList ++ charsOfArguments arguments)

def charsOfArguments : List (List Word) → List Char
  | [] => []
  | words :: rest => charsOfAll words ++ charsOfArguments rest

def charsOfAll : List Word → List Char
  | [] => []
  | word :: rest => word.chars ++ charsOfAll rest

end

theorem charsOfAll_eq (words : List Word) : charsOfAll words = words.flatMap Word.chars := by
  induction words with
  | nil => rw [charsOfAll, List.flatMap_nil]
  | cons word rest ih => rw [charsOfAll, ih, List.flatMap_cons]

theorem charsOfArguments_eq (arguments : List (List Word)) :
    charsOfArguments arguments = arguments.flatMap charsOfAll := by
  induction arguments with
  | nil => rw [charsOfArguments, List.flatMap_nil]
  | cons words rest ih => rw [charsOfArguments, ih, List.flatMap_cons]

theorem content_dropWhile (text : List Char) : content (text.dropWhile isBlank) = content text := by
  induction text with
  | nil => rfl
  | cons c text ih =>
    by_cases blank : isBlank c = true
    · rw [List.dropWhile_cons_of_pos blank, ih, content_cons_mark (by simp [isMark, blank])]
    · rw [List.dropWhile_cons_of_neg blank]

theorem content_trim (text : List Char) : content (Text.trim text) = content text := by
  have reversed (text : List Char) : content text.reverse = (content text).reverse :=
    List.filter_reverse
  rw [Text.trim, Text.trimEnd, reversed, content_dropWhile, reversed, List.reverse_reverse,
    Text.trimStart, content_dropWhile]

theorem content_splitOutside {separator : Char} (mark : isMark separator = true) (depth : Nat)
    (text : List Char) : (splitOutside separator depth text).flatMap content = content text := by
  rw [← content_flatten]
  fun_induction splitOutside separator depth text with
  | case1 => rfl
  | case2 depth rest ih | case3 depth rest _ ih =>
    rw [flatten_consHead, content_cons_mark (by decide), ih, content_cons_mark (by decide)]
  | case4 depth c rest _ _ cuts ih =>
    rw [List.flatten_cons, List.nil_append, ih, cuts.1, content_cons_mark mark]
  | case5 depth c rest _ _ _ ih =>
    rw [flatten_consHead, ← List.singleton_append, content_append, ih, ← content_append]
    rfl

theorem flatMap_content_filter (texts : List (List Char)) :
    (texts.filter (· ≠ [])).flatMap content = texts.flatMap content := by
  rw [← content_flatten, ← content_flatten, List.flatten_filter_ne_nil]

theorem content_argumentTexts (text : List Char) :
    (argumentTexts text).flatMap content = content text := by
  rw [argumentTexts, flatMap_content_filter, List.flatMap_map]
  simp only [content_trim]
  exact content_splitOutside (by decide) 0 text

theorem content_parseWord {parse : List Char → List Word} {word : List Char}
    (each : ∀ parts ∈ splitArguments (splitRank word).1, ∀ text ∈ argumentTexts parts.2.1,
      (content (charsOfAll (parse text))).Perm (content text)) :
    (content (parseWord parse word).chars).Perm (content word) := by
  obtain ⟨whole, -⟩ := splitRank_parts word
  have rank : (((splitRank word).2.map String.ofList).getD "").toList =
      (splitRank word).2.getD [] := by
    cases (splitRank word).2 with
    | none => rfl
    | some text => exact String.toList_ofList
  rw [parseWord]
  dsimp only
  cases found : splitArguments (splitRank word).1 with
  | none =>
    dsimp only
    rw [Word.chars, charsOfArguments, String.toList_ofList, rank, List.append_nil, ← whole]
  | some parts =>
    obtain ⟨before, inner, behind⟩ := parts
    have arguments : (content (charsOfArguments ((argumentTexts inner).map parse))).Perm
        (content inner) := by
      rw [← content_argumentTexts inner, charsOfArguments_eq, content, List.filter_flatMap,
        List.flatMap_map]
      exact List.Perm.flatMap_left _ (each _ found)
    have total : content word = content before ++ (content inner ++ content behind) ++
        content ((splitRank word).2.getD []) := by
      have head := splitArguments_parts found
      conv_lhs => rw [whole, content_append, head, content_append, content_cons_mark (by decide),
        content_append, content_cons_mark (by decide)]
    rw [argumentTexts] at arguments
    dsimp only
    rw [Word.chars, String.toList_ofList, rank, total, content_append, content_append,
      content_append]
    -- The text behind the brackets and the rank come before the arguments.
    rw [List.perm_iff_count] at arguments ⊢
    intro c
    have same := arguments c
    simp only [List.count_append]
    omega

theorem content_parseWithin {size : Nat} {text : List Char} (within : text.length ≤ size) :
    (content (charsOfAll (parseWithin size text))).Perm (content text) := by
  induction size generalizing text with
  | zero =>
    rw [List.length_eq_zero_iff.mp (Nat.le_zero.mp within)]
    exact .refl []
  | succ size ih =>
    have words : content (charsOfAll (parseWithin (size + 1) text)) =
        ((splitOutside '_' 0 text).filter (· ≠ [])).flatMap
          fun word => content (parseWord (parseWithin size) word).chars := by
      rw [charsOfAll_eq, content, List.filter_flatMap, parseWithin, List.flatMap_map]
      rfl
    have separator : isMark '_' = true := by decide
    rw [words, ← content_splitOutside separator 0 text, ← flatMap_content_filter]
    refine List.Perm.flatMap_left _ fun word member => content_parseWord ?_
    intro parts found argument inside
    have shorter := length_argument_lt found inside
    have short := length_piece_le (List.mem_filter.mp member).1
    exact ih (by omega)

/-- Every identifier is read to the end, however its brackets stand: by places, with more steps than
it has characters, no number falls below zero and no cut is outside of the text. And apart from
marks the words hold the characters of the identifier, each as often as it does. -/
theorem parse_conserves (normal : String) :
    (∀ steps, normal.toList.length < steps →
      parseAtPlaces steps normal.toList = .ok (parse normal)) ∧
    (content (charsOfAll (parse normal))).Perm (content normal.toList) :=
  ⟨fun _ enough => parseAtPlaces_eq enough le_rfl, content_parseWithin le_rfl⟩

end TypeLoom.Name
