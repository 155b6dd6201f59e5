import CanonicalSql.Proofs.Lexing.Spelling

/-!
# Letters of either case

Two characters are the same letter if ASCII knows them as its capital and its small form, or if
they are one character. No scanner tells two such characters apart outside of quotes: a keyword
is looked up in capitals, and a name is kept in small letters, which the case of a letter does
not enter even where it decides the form of a sigma after it.
-/
namespace CanonicalSql

/-- The two characters are one letter, be it a capital or a small one. -/
def SameLetter (c d : Char) : Prop := c.toLower = d.toLower

namespace SameLetter

theorem refl (c : Char) : SameLetter c c := rfl

theorem symm {c d : Char} (same : SameLetter c d) : SameLetter d c := Eq.symm same

/-- The letters of ASCII, a capital and its small letter at each place of the alphabet. -/
theorem alphabet : ∀ n < 26,
    (Char.ofNat (65 + n)).toLower = Char.ofNat (97 + n) ∧ (Char.ofNat (97 + n)).toNat = 97 + n ∧
      (Char.ofNat (65 + n)).isAlpha = true ∧ (Char.ofNat (97 + n)).isAlpha = true := by
  decide +kernel

/-- A character is its own small letter, or a capital of ASCII. -/
theorem toLower_eq (c : Char) :
    c.toLower = c ∨ ∃ n < 26, c = Char.ofNat (65 + n) ∧ c.toLower = Char.ofNat (97 + n) := by
  by_cases capital : 'A'.val ≤ c.val ∧ c.val ≤ 'Z'.val
  · have low : 65 ≤ c.toNat := capital.1
    have high : c.toNat ≤ 90 := capital.2
    have isNat : c = Char.ofNat (65 + (c.toNat - 65)) := by
      rw [Nat.add_sub_cancel' low, Char.ofNat_toNat]
    refine .inr ⟨c.toNat - 65, by omega, isNat, ?_⟩
    exact (congrArg Char.toLower isNat).trans (alphabet _ (by omega)).1
  · exact .inl (dif_neg capital)

/-- Two characters that are one letter are one character, or a capital and its small letter. -/
theorem cases {c d : Char} (same : SameLetter c d) :
    c = d ∨ ∃ n < 26, (c = Char.ofNat (65 + n) ∧ d = Char.ofNat (97 + n)) ∨
      (c = Char.ofNat (97 + n) ∧ d = Char.ofNat (65 + n)) := by
  rcases toLower_eq c with small | ⟨m, bounded, isCapital, lower⟩ <;>
    rcases toLower_eq d with small' | ⟨n, bounded', isCapital', lower'⟩
  · exact .inl (small.symm.trans (Eq.trans same small'))
  · exact .inr ⟨n, bounded', .inr ⟨small.symm.trans (Eq.trans same lower'), isCapital'⟩⟩
  · exact .inr ⟨m, bounded, .inl ⟨isCapital, small'.symm.trans (Eq.trans (Eq.symm same) lower)⟩⟩
  · have places := congrArg Char.toNat (lower.symm.trans (Eq.trans same lower'))
    rw [(alphabet m bounded).2.1, (alphabet n bounded').2.1] at places
    obtain rfl : m = n := by omega
    exact .inl (isCapital.trans isCapital'.symm)

/-- What is alike for each capital and its small letter is alike for all that are one letter. -/
theorem apply {α : Type} {c d : Char} (same : SameLetter c d) {f : Char → α}
    (all : ∀ n < 26, f (Char.ofNat (65 + n)) = f (Char.ofNat (97 + n))) : f c = f d := by
  rcases same.cases with rfl | ⟨n, bounded, ⟨rfl, rfl⟩ | ⟨rfl, rfl⟩⟩
  · rfl
  · exact all n bounded
  · exact (all n bounded).symm

/-- All that scanners and names ask of a character. -/
structure Traits where
  isDigit : Bool
  isWordStart : Bool
  isWordRest : Bool
  isBlank : Bool
  stringLetter : Option (StringKind × Bool)
  isCaseIgnorable : Bool
  isCased : Bool
  isSigma : Bool
  isExponent : Bool
  lower : List Char
  capital : Char
deriving DecidableEq

/-- The traits of a character. -/
def traits (c : Char) : Traits where
  isDigit := c.isDigit
  isWordStart := Scan.isWordStart c
  isWordRest := Scan.isWordRest c
  isBlank := Unicode.isBlank c
  stringLetter := Scan.stringLetter? c
  isCaseIgnorable := Unicode.isCaseIgnorable c
  isCased := Unicode.isCased c
  isSigma := c = 'Σ'
  isExponent := c = 'e' ∨ c = 'E'
  lower := Unicode.lowerChar c
  capital := c.toUpper

variable {c d : Char}

/-- The case of a letter is none of its traits. -/
theorem traits_eq (same : SameLetter c d) : traits c = traits d :=
  same.apply (by decide +kernel)

theorem isDigit_eq (same : SameLetter c d) : c.isDigit = d.isDigit :=
  congrArg Traits.isDigit same.traits_eq

theorem isWordStart_eq (same : SameLetter c d) : Scan.isWordStart c = Scan.isWordStart d :=
  congrArg Traits.isWordStart same.traits_eq

theorem isWordRest_eq (same : SameLetter c d) : Scan.isWordRest c = Scan.isWordRest d :=
  congrArg Traits.isWordRest same.traits_eq

theorem isBlank_eq (same : SameLetter c d) : Unicode.isBlank c = Unicode.isBlank d :=
  congrArg Traits.isBlank same.traits_eq

theorem stringLetter?_eq (same : SameLetter c d) : Scan.stringLetter? c = Scan.stringLetter? d :=
  congrArg Traits.stringLetter same.traits_eq

/-- What is no letter of ASCII has no other case. -/
theorem eq_of_noLetter (same : SameLetter c d) (noLetter : c.isAlpha = false) : d = c := by
  rcases same.cases with rfl | ⟨n, bounded, ⟨rfl, -⟩ | ⟨rfl, -⟩⟩
  · rfl
  · rw [(alphabet n bounded).2.2.1] at noLetter
    cases noLetter
  · rw [(alphabet n bounded).2.2.2] at noLetter
    cases noLetter

end SameLetter

/-- The two texts are the same, but for the case of letters. -/
abbrev SameLetters (text other : List Char) : Prop := List.Forall₂ SameLetter text other

namespace SameLetters

variable {text other : List Char}

theorem refl (text : List Char) : SameLetters text text := List.forall₂_same.mpr fun c _ => .refl c

theorem symm (same : SameLetters text other) : SameLetters other text :=
  (List.Forall₂.imp (fun _ _ letter => SameLetter.symm letter) same).flip

/-- What is the same as two texts in a row is two such texts itself. -/
theorem exists_append {first rest : List Char} (same : SameLetters (first ++ rest) other) :
    ∃ first' rest', other = first' ++ rest' ∧ SameLetters first first' ∧
      SameLetters rest rest' := by
  induction first generalizing other with
  | nil => exact ⟨[], other, rfl, .nil, same⟩
  | cons c first ih =>
    cases same with
    | cons letter others =>
      obtain ⟨first', rest', rfl, sameFirst, sameRest⟩ := ih others
      exact ⟨_ :: first', rest', rfl, .cons letter sameFirst, sameRest⟩

/-- A property that no case enters holds of all characters of both texts or of neither. -/
theorem all {p : Char → Bool} (same : SameLetters text other)
    (letters : ∀ c d, SameLetter c d → p c = p d) (all : ∀ c ∈ text, p c = true) :
    ∀ c ∈ other, p c = true := by
  induction same with
  | nil => exact all
  | cons letter _ ih =>
    obtain ⟨first, others⟩ := List.forall_mem_cons.mp all
    exact List.forall_mem_cons.mpr ⟨(letters _ _ letter).symm.trans first, ih others⟩

/-! ## Words -/

theorem casedFirst_eq (same : SameLetters text other) :
    Unicode.casedFirst text = Unicode.casedFirst other := by
  induction same with
  | nil => rfl
  | @cons c d text other letter same ih =>
    have ignorable : Unicode.isCaseIgnorable c = Unicode.isCaseIgnorable d :=
      congrArg SameLetter.Traits.isCaseIgnorable letter.traits_eq
    have cased : Unicode.isCased c = Unicode.isCased d :=
      congrArg SameLetter.Traits.isCased letter.traits_eq
    unfold Unicode.casedFirst at ih ⊢
    rw [List.dropWhile_cons, List.dropWhile_cons, ignorable]
    cases Unicode.isCaseIgnorable d with
    | true => exact ih
    | false => exact cased

theorem lowerAfter_eq {before before' : List Char} (same : SameLetters text other)
    (sameBefore : SameLetters before before') :
    Unicode.lowerAfter before text = Unicode.lowerAfter before' other := by
  induction same generalizing before before' with
  | nil => rfl
  | @cons c d text other letter same ih =>
    have lower : Unicode.lowerChar c = Unicode.lowerChar d :=
      congrArg SameLetter.Traits.lower letter.traits_eq
    have isSigma : (c = 'Σ') = (d = 'Σ') := by
      simpa [SameLetter.traits] using congrArg SameLetter.Traits.isSigma letter.traits_eq
    simp only [Unicode.lowerAfter, ih (.cons letter sameBefore), lower, isSigma,
      casedFirst_eq same, casedFirst_eq sameBefore]

/-- The case of the letters of a word does not matter to its token. -/
theorem wordKind_eq (same : SameLetters text other) :
    Scan.wordKind (String.ofList text) = Scan.wordKind (String.ofList other) := by
  have capitals : text.map Char.toUpper = other.map Char.toUpper := by
    induction same with
    | nil => rfl
    | cons letter _ ih =>
      have capital := congrArg SameLetter.Traits.capital letter.traits_eq
      rw [List.map_cons, List.map_cons, ih, show Char.toUpper _ = Char.toUpper _ from capital]
  have keyword : Keyword.ofWord? (String.ofList text) = Keyword.ofWord? (String.ofList other) := by
    simp only [Keyword.ofWord?, Keyword.capitals, String.toList_ofList, capitals]
  simp only [Scan.wordKind, keyword, Unicode.lowerCase, String.toList_ofList,
    lowerAfter_eq same .nil]

/-! ## Digits -/

theorem noLetter_of_isDigit {c : Char} (digit : c.isDigit = true) : c.isAlpha = false := by
  simp only [Char.isDigit, Bool.and_eq_true, decide_eq_true_eq] at digit
  have low : 48 ≤ c.toNat := digit.1
  have high : c.toNat ≤ 57 := digit.2
  cases letter : c.isAlpha with
  | false => rfl
  | true =>
    simp only [Char.isAlpha, Char.isUpper, Char.isLower, Bool.or_eq_true, Bool.and_eq_true,
      decide_eq_true_eq] at letter
    rcases letter with capital | small
    · have : 65 ≤ c.toNat := capital.1
      omega
    · have : 97 ≤ c.toNat := small.1
      omega

/-- A text without letters has no case. -/
theorem eq_of_noLetters (same : SameLetters text other)
    (noLetters : ∀ c ∈ text, c.isAlpha = false) : other = text := by
  induction same with
  | nil => rfl
  | cons letter same ih =>
    obtain ⟨first, others⟩ := List.forall_mem_cons.mp noLetters
    rw [letter.eq_of_noLetter first, ih others]

end SameLetters

end CanonicalSql
