import CanonicalSql.Proofs.Lexing.Casing
import CanonicalSql.Proofs.Lexing.Escapes

/-!
# Tokens found again

A scanner looks beyond its token, up to three characters far, to tell where the token ends. If
another text stands behind the token that has the same characters there, or a blank before them
(`Tracks`), then the scanner ends at the same place, since no token goes on with a blank. The
letters of the token may change their case, but for what stands between quotes (`Steady`).
-/
namespace CanonicalSql.Scan

/-! ## What stands behind a token -/

/-- Whether the character is a blank or a parenthesis that closes, with which no token goes on. -/
def isClose (c : Char) : Bool := Unicode.isBlank c || c == ')'

theorem isClose_of_isBlank {c : Char} (isBlank : Unicode.isBlank c = true) : isClose c = true := by
  rw [isClose, isBlank]
  rfl

/-- A blank ends every token before it. -/
theorem isStop_of_isBlank {c : Char} (isBlank : Unicode.isBlank c = true) : isStop c = true := by
  have all : ∀ range ∈ Unicode.blankRanges,
      ∀ n ∈ List.range' range.1 (range.2 + 1 - range.1), isStop (Char.ofNat n) = true := by
    decide +kernel
  obtain ⟨range, member, low, high⟩ := Unicode.Ranges.exists_of_has isBlank
  have stop := all range member c.toNat (List.mem_range'_1.mpr ⟨low, by omega⟩)
  rwa [Char.ofNat_toNat] at stop

theorem isStop_of_isClose {c : Char} (closes : isClose c = true) : isStop c = true := by
  rcases (Bool.or_eq_true ..).mp closes with isBlank | isParen
  · exact isStop_of_isBlank isBlank
  · rw [beq_iff_eq.mp isParen]
    decide

/-- The second text has, letter by letter, what the first one has, until it has a blank or a
parenthesis that closes, or ends. -/
inductive Tracks : List Char → List Char → Prop
  | cut {text other : List Char} (closes : ∀ c ∈ other.head?, isClose c = true) :
    Tracks text other
  | letter {c d : Char} {text other : List Char} (same : SameLetter c d)
    (others : Tracks text other) : Tracks (c :: text) (d :: other)

namespace Tracks

variable {text other : List Char}

theorem append {first first' : List Char} (same : SameLetters first first')
    (tracks : Tracks text other) : Tracks (first ++ text) (first' ++ other) := by
  induction same with
  | nil => exact tracks
  | cons letter _ ih => exact .letter letter ih

/-- What the second text has before a blank or a closing parenthesis, the first one has. -/
theorem exists_first {first rest : List Char} (tracks : Tracks text (first ++ rest))
    (solid : ∀ c ∈ first, isClose c = false) :
    ∃ first' rest', text = first' ++ rest' ∧ SameLetters first' first := by
  induction first generalizing text with
  | nil => exact ⟨[], text, rfl, .nil⟩
  | cons c first ih =>
    cases tracks with
    | cut closes =>
      have isClose := closes c rfl
      rw [solid c List.mem_cons_self] at isClose
      cases isClose
    | letter same others =>
      obtain ⟨first', rest', rfl, sames⟩ := ih others fun d member =>
        solid d (List.mem_cons_of_mem _ member)
      exact ⟨_ :: first', rest', rfl, .cons same sames⟩

/-- A property of letters that nothing has that ends a token is not met in the second text if it is not met in the
first. -/
theorem head {p : Char → Bool} (tracks : Tracks text other)
    (letters : ∀ c d, SameLetter c d → p c = p d) (noStop : ∀ c, isStop c = true → p c = false)
    (no : ∀ c ∈ text.head?, p c = false) : ∀ c ∈ other.head?, p c = false := by
  intro d member
  cases tracks with
  | cut closes => exact noStop d (isStop_of_isClose (closes d member))
  | @letter c _ text other same others =>
    cases member
    rw [← letters c d same]
    exact no c rfl

theorem noDigit (tracks : Tracks text other) (no : ∀ c ∈ text.head?, c.isDigit = false) :
    ∀ c ∈ other.head?, c.isDigit = false :=
  tracks.head (fun _ _ same => same.isDigit_eq) (fun _ stop => noDigit_of_isStop stop) no

theorem noWord (tracks : Tracks text other) (no : ∀ c ∈ text.head?, isWordRest c = false) :
    ∀ c ∈ other.head?, isWordRest c = false :=
  tracks.head (fun _ _ same => same.isWordRest_eq) (fun _ stop => noWord_of_isStop stop) no

/-- A sign that goes on with a token is not met in the second text if it is not met in the
first. -/
theorem noSign {sign : Char} (tracks : Tracks text other) (noLetter : sign.isAlpha = false)
    (visible : isClose sign = false) (no : text.head? ≠ some sign) :
    other.head? ≠ some sign := by
  intro isSign
  obtain ⟨rest, rfl⟩ := List.head?_eq_some_iff.mp isSign
  obtain ⟨first, rest', rfl, same⟩ := exists_first tracks (List.forall_mem_singleton.mpr visible)
  cases same with
  | cons letter same =>
    cases same
    exact no (congrArg some (letter.symm.eq_of_noLetter noLetter))

end Tracks

/-! ## Scanners -/

/-- The scanner finds a token again that is changed no more than allowed, if the text tracks
what stood behind it. -/
def Steady (change : List Char → List Char → Prop) (scan : List Char → Lexeme) : Prop :=
  ∀ text kind rest, scan text = ⟨.ok kind, rest⟩ →
    ∃ lexeme, text = lexeme ++ rest ∧ ∀ lexeme' rest', change lexeme lexeme' →
      Tracks rest rest' → scan (lexeme' ++ rest') = ⟨.ok kind, rest'⟩

theorem read_again {quote : Char} {text value rest : List Char}
    (isRead : Quoted.read quote text = some (value, rest)) :
    ∃ inside, text = inside ++ rest ∧ rest.head? ≠ some quote ∧ ∀ rest', rest'.head? ≠ some quote →
      Quoted.read quote (inside ++ rest') = some (value, rest') := by
  -- the lone quote that ends the text is the only place where the scanner looks at what stands
  -- behind
  induction text using Quoted.read.induct quote generalizing value rest with
  | case1 => cases isRead
  | case2 =>
    rw [Quoted.read_end _ _ (by simp)] at isRead
    cases isRead
    exact ⟨[quote], rfl, by simp, fun rest' clear => Quoted.read_end _ _ clear⟩
  | case3 text ih =>
    rw [Quoted.read_pair] at isRead
    obtain ⟨⟨value, after⟩, given, same⟩ := Option.map_eq_some_iff.mp isRead
    cases same
    obtain ⟨inside, rfl, clear, again⟩ := ih given
    refine ⟨quote :: quote :: inside, rfl, clear, fun rest' clear' => ?_⟩
    rw [List.cons_append, List.cons_append, Quoted.read_pair, again rest' clear']
    rfl
  | case4 c text other =>
    have clear : (c :: text).head? ≠ some quote := by simpa using other
    rw [Quoted.read_end _ _ clear] at isRead
    cases isRead
    exact ⟨[quote], rfl, clear, fun rest' clear' => Quoted.read_end _ _ clear'⟩
  | case5 c text other ih =>
    rw [Quoted.read_of_ne other] at isRead
    obtain ⟨⟨value, after⟩, given, same⟩ := Option.map_eq_some_iff.mp isRead
    cases same
    obtain ⟨inside, rfl, clear, again⟩ := ih given
    refine ⟨c :: inside, rfl, clear, fun rest' clear' => ?_⟩
    rw [List.cons_append, Quoted.read_of_ne other, again rest' clear']
    rfl

theorem readEscaped_again {text value rest : List Char}
    (isRead : readEscaped text = .ok (value, rest)) :
    ∃ inside, text = inside ++ rest ∧ rest.head? ≠ some '\'' ∧ ∀ rest', rest'.head? ≠ some '\'' →
      readEscaped (inside ++ rest') = .ok (value, rest') := by
  obtain ⟨written, spells, rfl, clear⟩ := readEscaped_eq_ok_iff.mp isRead
  refine ⟨written ++ ['\''], (List.append_cons ..), clear, ?_⟩
  intro rest' clear'
  rw [← List.append_cons]
  exact readEscaped_of_spells spells clear'

/-- What stands between quotes is found again as it is. -/
theorem string_steady (kind : StringKind) (escapes : Bool) : Steady Eq (string kind escapes) := by
  intro text found rest scanned
  unfold string at scanned
  cases escapes with
  | true =>
    simp only [↓reduceIte] at scanned
    split at scanned
    · cases scanned
    · next value after isRead =>
      obtain ⟨isString, rfl⟩ := Lexeme.mk.inj scanned
      obtain ⟨inside, rfl, clear, again⟩ := readEscaped_again isRead
      refine ⟨inside, rfl, ?_⟩
      rintro _ rest' rfl tracks
      simp only [string, again rest' (tracks.noSign rfl (by decide) clear), isString, ↓reduceIte]
  | false =>
    simp only [Bool.false_eq_true, ↓reduceIte] at scanned
    split at scanned
    · cases scanned
    · next value after isRead =>
      obtain ⟨isString, rfl⟩ := Lexeme.mk.inj scanned
      obtain ⟨inside, rfl, clear, again⟩ := read_again isRead
      refine ⟨inside, rfl, ?_⟩
      rintro _ rest' rfl tracks
      simp only [string, again rest' (tracks.noSign rfl (by decide) clear), isString,
        Bool.false_eq_true, ↓reduceIte]

theorem quotedName_steady : Steady Eq quotedName := by
  intro text found rest scanned
  unfold quotedName at scanned
  split at scanned
  · cases scanned
  · next name after isRead =>
    split at scanned
    · cases scanned
    · next some =>
      obtain ⟨isName, rfl⟩ := Lexeme.mk.inj scanned
      obtain ⟨inside, rfl, clear, again⟩ := read_again isRead
      refine ⟨inside, rfl, ?_⟩
      rintro _ rest' rfl tracks
      simp only [quotedName, again rest' (tracks.noSign rfl (by decide) clear), some,
        Bool.false_eq_true, ↓reduceIte, isName]

theorem head_dropWhile (p : Char → Bool) (text : List Char) :
    ∀ c ∈ (text.dropWhile p).head?, p c = false := by
  intro c member
  have stops := List.head?_dropWhile_not p text
  rw [Option.mem_def.mp member] at stops
  exact stops

/-- A word is found again in letters of any case. -/
theorem word_steady : Steady SameLetters word := by
  intro text found rest scanned
  obtain ⟨isWord, rfl⟩ := Lexeme.mk.inj scanned
  refine ⟨text.takeWhile isWordRest, List.takeWhile_append_dropWhile.symm,
    fun lexeme' rest' same tracks => ?_⟩
  have all' := same.all (fun _ _ same => same.isWordRest_eq)
    (List.all_eq_true.mp (List.all_takeWhile (p := isWordRest)))
  have stops' := tracks.noWord (head_dropWhile isWordRest text)
  rw [word, takeWhile_append all' stops', dropWhile_append all' stops', ← same.wordKind_eq]
  exact congrArg (Lexeme.mk · rest') isWord

/-! ## Numerals -/

/-- A text begins with its fraction, and what follows a fraction is no digit. -/
theorem exists_fraction (text : List Char) :
    ∃ rest, text = fractionPart text ++ rest ∧ IsFraction (fractionPart text) ∧
      (fractionPart text ≠ [] → ∀ c ∈ rest.head?, c.isDigit = false) := by
  unfold fractionPart
  split
  · next text =>
    dsimp only
    split
    · exact ⟨_, rfl, .none, fun some => absurd rfl some⟩
    · next some =>
      refine ⟨text.dropWhile Char.isDigit, ?_, .point (by simpa using some) ?_, fun _ =>
        head_dropWhile Char.isDigit text⟩
      · rw [List.cons_append, List.takeWhile_append_dropWhile]
      · exact List.all_eq_true.mp List.all_takeWhile
  · exact ⟨_, rfl, .none, fun some => absurd rfl some⟩

/-- A text begins with its sign, if it has one. -/
theorem exists_sign (text : List Char) :
    ∃ sign, (text.takeWhile fun c => c == '+' || c == '-').take 1 = sign ∧
      (sign = [] ∨ sign = ['+'] ∨ sign = ['-']) ∧ text = sign ++ text.drop sign.length := by
  refine ⟨_, rfl, ?_⟩
  cases text with
  | nil => exact ⟨.inl rfl, rfl⟩
  | cons c text =>
    rw [List.takeWhile_cons]
    split
    · next isSign =>
      simp only [Bool.or_eq_true, beq_iff_eq] at isSign
      rcases isSign with rfl | rfl
      · exact ⟨.inr (.inl rfl), rfl⟩
      · exact ⟨.inr (.inr rfl), rfl⟩
    · exact ⟨.inl rfl, rfl⟩

/-- A text begins with its exponent, and what follows an exponent is no digit. -/
theorem exists_exponent (text : List Char) :
    ∃ rest, text = exponentPart text ++ rest ∧ IsExponent (exponentPart text) ∧
      (exponentPart text ≠ [] → ∀ c ∈ rest.head?, c.isDigit = false) := by
  unfold exponentPart
  split
  · exact ⟨_, rfl, .none, nofun⟩
  · next e text =>
    split
    · next isE =>
      obtain ⟨sign, taken, isSign, whole⟩ := exists_sign text
      rw [taken]
      dsimp only
      split
      · exact ⟨_, rfl, .none, fun some => absurd rfl some⟩
      · next some =>
        refine ⟨(text.drop sign.length).dropWhile Char.isDigit, ?_,
          .letter isE isSign (by simpa using some) (List.all_eq_true.mp List.all_takeWhile),
          fun _ => head_dropWhile Char.isDigit _⟩
        rw [List.cons_append, List.append_assoc, List.takeWhile_append_dropWhile, ← whole]
    · exact ⟨_, rfl, .none, fun some => absurd rfl some⟩

section

variable {digits fraction exponent : List Char}

theorem AreDigits.noLetters (all : AreDigits digits) : ∀ c ∈ digits, c.isAlpha = false :=
  fun c member => SameLetters.noLetter_of_isDigit (all c member)

theorem AreDigits.visible (all : AreDigits digits) : ∀ c ∈ digits, isClose c = false := by
  intro c member
  have noParen : c ≠ ')' := ne_of_isDigit (all c member) (by decide)
  simp [isClose, (visible_of_isDigit (all c member)).noBlank, noParen]

theorem IsFraction.noLetters (isFraction : IsFraction fraction) :
    ∀ c ∈ fraction, c.isAlpha = false := by
  cases isFraction with
  | none => nofun
  | point nonempty all => exact List.forall_mem_cons.mpr ⟨by decide, all.noLetters⟩

theorem IsFraction.visible (isFraction : IsFraction fraction) :
    ∀ c ∈ fraction, isClose c = false := by
  cases isFraction with
  | none => nofun
  | point nonempty all => exact List.forall_mem_cons.mpr ⟨by decide, all.visible⟩

theorem IsExponent.visible (isExponent : IsExponent exponent) :
    ∀ c ∈ exponent, isClose c = false := by
  cases isExponent with
  | none => nofun
  | letter isE isSign nonempty all =>
    refine List.forall_mem_cons.mpr ⟨?_, List.forall_mem_append.mpr ⟨?_, all.visible⟩⟩
    · rcases isE with rfl | rfl <;> decide
    · rcases isSign with rfl | rfl | rfl
      · nofun
      · exact List.forall_mem_singleton.mpr (by decide)
      · exact List.forall_mem_singleton.mpr (by decide)

/-- An exponent is one in either case of its letter, which is its first character. -/
theorem IsExponent.recased {exponent' : List Char} (isExponent : IsExponent exponent)
    (same : SameLetters exponent exponent') :
    IsExponent exponent' ∧ exponent'.tail = exponent.tail := by
  cases isExponent with
  | none =>
    cases same
    exact ⟨.none, rfl⟩
  | @letter e sign digits isE isSign nonempty all =>
    cases same with
    | @cons _ e' _ power letter others =>
      have isE' : e' = 'e' ∨ e' = 'E' := by
        have either : decide (e = 'e' ∨ e = 'E') = decide (e' = 'e' ∨ e' = 'E') :=
          congrArg SameLetter.Traits.isExponent letter.traits_eq
        exact (decide_eq_decide.mp either).mp isE
      have noLetters : ∀ c ∈ sign ++ digits, c.isAlpha = false := by
        refine List.forall_mem_append.mpr ⟨?_, all.noLetters⟩
        rcases isSign with rfl | rfl | rfl
        · nofun
        · exact List.forall_mem_singleton.mpr (by decide)
        · exact List.forall_mem_singleton.mpr (by decide)
      rw [SameLetters.eq_of_noLetters others noLetters]
      exact ⟨.letter isE' isSign nonempty all, rfl⟩

theorem AreDigits.takeWhile_append_ne_nil (all : AreDigits digits) (nonempty : digits ≠ [])
    (rest : List Char) : (digits ++ rest).takeWhile Char.isDigit ≠ [] := by
  rw [List.takeWhile_append_of_pos all]
  exact List.append_ne_nil_of_left_ne_nil nonempty _

/-- Where no fraction stands, none is found in what tracks the text. -/
theorem Tracks.fractionPart_nil {text other : List Char} (tracks : Tracks text other)
    (noFraction : fractionPart text = []) : fractionPart other = [] := by
  obtain ⟨rest, whole, isFraction, -⟩ := exists_fraction other
  generalize fractionPart other = fraction at whole isFraction ⊢
  subst whole
  obtain ⟨first, rest', rfl, same⟩ := tracks.exists_first isFraction.visible
  rw [same.symm.eq_of_noLetters isFraction.noLetters] at noFraction
  cases isFraction with
  | none => rfl
  | point nonempty all => simp [fractionPart, all.takeWhile_append_ne_nil nonempty] at noFraction

/-- Where no exponent stands, none is found in what tracks the text. -/
theorem Tracks.exponentPart_nil {text other : List Char} (tracks : Tracks text other)
    (noExponent : exponentPart text = []) : exponentPart other = [] := by
  obtain ⟨rest, whole, isExponent, -⟩ := exists_exponent other
  generalize exponentPart other = exponent at whole isExponent ⊢
  subst whole
  obtain ⟨first, rest', rfl, same⟩ := tracks.exists_first isExponent.visible
  cases (isExponent.recased same.symm).1 with
  | none =>
    cases same
    rfl
  | letter isE isSign nonempty all =>
    simp [exponentPart, isE, takeSign_append isSign nonempty all,
      all.takeWhile_append_ne_nil nonempty] at noExponent

/-- The case of its letter does not matter to the number that a numeral writes. -/
theorem floatKind_recased {whole exponent' : List Char} {kind : Kind} (all : AreDigits whole)
    (isFraction : IsFraction fraction) (isExponent : IsExponent exponent)
    (same : SameLetters exponent exponent')
    (isKind : floatKind (whole ++ fraction ++ exponent) = .ok kind) :
    floatKind (whole ++ fraction ++ exponent') = .ok kind := by
  obtain ⟨isExponent', tails⟩ := isExponent.recased same
  have value : Binary64.ofNumeral? false (whole ++ fraction ++ exponent') =
      Binary64.ofNumeral? false (whole ++ fraction ++ exponent) := by
    cases isExponent with
    | none =>
      cases same
      rfl
    | letter isE =>
      cases isExponent' with
      | none => cases same
      | letter isE' =>
        rw [List.tail_cons, List.tail_cons] at tails
        rw [List.append_assoc, List.append_assoc, ofNumeral?_letter isE all isFraction,
          ofNumeral?_letter isE' all isFraction, tails]
  unfold floatKind at isKind ⊢
  rw [value]
  cases isFloat : Binary64.ofNumeral? false (whole ++ fraction ++ exponent) with
  | none =>
    rw [isFloat] at isKind
    cases isKind
  | some number =>
    rw [isFloat] at isKind
    cases finite : number.isFinite with
    | false => simp [finite] at isKind
    | true => simpa [finite] using isKind

/-- Each text begins with a numeral, be it an empty one, and goes on otherwise. -/
theorem exists_numeral (text : List Char) :
    ∃ whole fraction exponent rest, text = whole ++ (fraction ++ (exponent ++ rest)) ∧
      AreDigits whole ∧ IsFraction fraction ∧ IsExponent exponent ∧
      EndsNumeral fraction exponent rest := by
  obtain ⟨afterFraction, isText, isFraction, endsFraction⟩ :=
    exists_fraction (text.dropWhile Char.isDigit)
  obtain ⟨rest, isAfter, isExponent, endsExponent⟩ := exists_exponent afterFraction
  refine ⟨text.takeWhile Char.isDigit, _, _, rest, ?_, List.all_eq_true.mp List.all_takeWhile,
    isFraction, isExponent, ?_, fun noFraction noExponent => ?_, fun noExponent => ?_⟩
  · rw [← isAfter, ← isText, List.takeWhile_append_dropWhile]
  · intro c member
    by_cases noExponent : exponentPart afterFraction = []
    · rw [noExponent, List.nil_append] at isAfter
      by_cases noFraction : fractionPart (text.dropWhile Char.isDigit) = []
      · rw [noFraction, List.nil_append, isAfter] at isText
        exact head_dropWhile Char.isDigit text c (by rwa [isText])
      · exact endsFraction noFraction c (by rwa [isAfter])
    · exact endsExponent noExponent c member
  · rw [noExponent, List.nil_append] at isAfter
    rw [noFraction, List.nil_append, isAfter] at isText
    rwa [isText] at noFraction
  · rw [noExponent, List.nil_append] at isAfter
    rwa [isAfter] at noExponent

/-- A numeral is found again with its exponent in either case. -/
theorem number_steady : Steady SameLetters number := by
  intro text kind rest scanned
  obtain ⟨whole, fraction, exponent, after, rfl, all, isFraction, isExponent, ends⟩ :=
    exists_numeral text
  rw [number_numeral all isFraction isExponent ends] at scanned
  obtain ⟨isKind, rfl⟩ := Lexeme.mk.inj scanned
  refine ⟨whole ++ (fraction ++ exponent), by simp, fun lexeme' rest' same tracks => ?_⟩
  obtain ⟨whole', parts, rfl, sameWhole, sameParts⟩ := same.exists_append
  obtain ⟨fraction', exponent', rfl, sameFraction, sameExponent⟩ := sameParts.exists_append
  obtain rfl := sameWhole.eq_of_noLetters all.noLetters
  obtain rfl := sameFraction.eq_of_noLetters isFraction.noLetters
  have isNil : exponent' = [] ↔ exponent = [] := by
    rw [← List.length_eq_zero_iff, ← sameExponent.length_eq, List.length_eq_zero_iff]
  have ends' : EndsNumeral fraction' exponent' rest' := {
    noDigit := tracks.noDigit ends.noDigit
    noFraction := fun noFraction noExponent =>
      tracks.fractionPart_nil (ends.noFraction noFraction (isNil.mp noExponent))
    noExponent := fun noExponent => tracks.exponentPart_nil (ends.noExponent (isNil.mp noExponent)) }
  have isEmpty : exponent'.isEmpty = exponent.isEmpty := by
    rw [Bool.eq_iff_iff, List.isEmpty_iff, List.isEmpty_iff, isNil]
  rw [List.append_assoc, List.append_assoc,
    number_numeral all isFraction (isExponent.recased sameExponent).1 ends', isEmpty]
  refine congrArg (Lexeme.mk · rest') ?_
  split at isKind
  · next integer => rw [if_pos integer, isKind]
  · next float =>
    rw [if_neg float, floatKind_recased all isFraction isExponent sameExponent isKind]

/-- No digit stands behind a numeral. -/
theorem number_rest {text : List Char} {kind : Kind} {rest : List Char}
    (scanned : number text = ⟨.ok kind, rest⟩) : ∀ c ∈ rest.head?, c.isDigit = false := by
  obtain ⟨whole, fraction, exponent, after, rfl, all, isFraction, isExponent, ends⟩ :=
    exists_numeral text
  rw [number_numeral all isFraction isExponent ends] at scanned
  obtain ⟨-, rfl⟩ := Lexeme.mk.inj scanned
  exact ends.noDigit

end

/-! ## Signs -/

section

variable {c : Char} {next : Option Char} {found : Symbol}

/-- A sign begins with no letter. -/
theorem noLetter_of_sign? {longer : Bool} (isSign : sign? c next = some (found, longer)) :
    c.isAlpha = false := by
  unfold sign? at isSign
  split at isSign
  case h_17 => cases isSign
  all_goals rfl

/-- A sign of two characters ends with no letter. -/
theorem exists_of_longer (isSign : sign? c next = some (found, true)) :
    ∃ d, next = some d ∧ d.isAlpha = false := by
  unfold sign? at isSign
  split at isSign
  case h_13 | h_14 | h_15 | h_16 =>
    split at isSign
    · next isNext => exact ⟨_, isNext, rfl⟩
    · first
      | cases isSign
      | (split at isSign
         · next isNext => exact ⟨_, isNext, rfl⟩
         · cases isSign)
  all_goals cases isSign

/-- Three characters can make a sign longer. A sign of one character stays one before a
text that begins with none of them but where it did before. -/
theorem sign?_of_short {next' : Option Char} (isSign : sign? c next = some (found, false))
    (same : ∀ d ∈ ['=', '>', '|'], next' = some d → next = some d) :
    sign? c next' = some (found, false) := by
  have other (d : Char) (member : d ∈ ['=', '>', '|']) (noNext : next ≠ some d) :
      next' ≠ some d := fun isNext => noNext (same d member isNext)
  unfold sign? at isSign
  split at isSign
  case h_13 =>
    split at isSign
    · cases isSign
    · next noEqual =>
      split at isSign
      · cases isSign
      · next noGreater =>
        simpa [sign?, other '=' (by simp) noEqual, other '>' (by simp) noGreater] using isSign
  case h_14 =>
    split at isSign
    · cases isSign
    · next noEqual => simpa [sign?, other '=' (by simp) noEqual] using isSign
  case h_15 | h_16 => split at isSign <;> cases isSign
  case h_17 => cases isSign
  all_goals exact isSign

end

/-- A sign is found again if no character behind it makes it longer. -/
theorem sign_steady (c : Char) : Steady SameLetters (sign c) := by
  intro text kind rest scanned
  unfold sign at scanned
  split at scanned
  · next found longer isSign =>
    obtain ⟨isKind, isRest⟩ := Lexeme.mk.inj scanned
    cases longer with
    | false =>
      obtain rfl : text = rest := isRest
      refine ⟨[], rfl, ?_⟩
      rintro _ rest' ⟨⟩ tracks
      have again : sign? c rest'.head? = some (found, false) := by
        refine sign?_of_short isSign fun d member isNext => ?_
        by_contra noNext
        refine tracks.noSign ?_ ?_ noNext isNext <;>
        · simp only [List.mem_cons, List.not_mem_nil, or_false] at member
          rcases member with rfl | rfl | rfl <;> decide
      rw [List.nil_append, sign, again]
      exact congrArg (Lexeme.mk · rest') isKind
    | true =>
      obtain ⟨d, isNext, noLetter⟩ := exists_of_longer isSign
      obtain ⟨after, rfl⟩ := List.head?_eq_some_iff.mp isNext
      obtain rfl : after = rest := isRest
      refine ⟨[d], rfl, fun lexeme' rest' same _ => ?_⟩
      rw [same.eq_of_noLetters (List.forall_mem_singleton.mpr noLetter)]
      have again : sign? c (d :: rest').head? = some (found, true) := isSign
      rw [List.singleton_append, sign, again]
      exact congrArg (Lexeme.mk · rest') isKind
  · cases scanned

/-! ## Tokens -/

/-- Letters outside of quotes have their case changed. -/
inductive Recased : List Char → List Char → Prop
  | done : Recased [] []
  | quoted {quote : Char} (isQuote : quote = '\'' ∨ quote = '"') (text : List Char) :
    Recased (quote :: text) (quote :: text)
  | letter {c d : Char} {text other : List Char} (same : SameLetter c d)
    (noQuote : c ≠ '\'' ∧ c ≠ '"') (others : Recased text other) : Recased (c :: text) (d :: other)

theorem Recased.refl (text : List Char) : Recased text text := by
  induction text with
  | nil => exact .done
  | cons c text ih =>
    by_cases isQuote : c = '\'' ∨ c = '"'
    · exact .quoted isQuote text
    · exact .letter (.refl c) (not_or.mp isQuote) ih

theorem Recased.sameLetters {text other : List Char} (recased : Recased text other) :
    SameLetters text other := by
  induction recased with
  | done => exact .nil
  | quoted _ text => exact .refl _
  | letter same _ _ ih => exact .cons same ih

/-- What begins with a quote is not changed. -/
theorem Recased.eq_of_quote {quote : Char} {text other : List Char}
    (isQuote : quote = '\'' ∨ quote = '"') (recased : Recased (quote :: text) other) :
    other = quote :: text := by
  cases recased with
  | quoted => rfl
  | letter _ noQuote _ =>
    rcases isQuote with rfl | rfl
    · exact absurd rfl noQuote.1
    · exact absurd rfl noQuote.2

theorem stringLetter?_of_noLetter {c : Char} (noLetter : c.isAlpha = false) :
    stringLetter? c = none := by
  have other {letter : Char} (isLetter : letter.isAlpha = true) : c ≠ letter := by
    rintro rfl
    rw [isLetter] at noLetter
    cases noLetter
  unfold stringLetter?
  rw [if_neg (by simp [other]), if_neg (by simp [other]), if_neg (by simp [other]),
    if_neg (by simp [other])]

/-- A letter and a quote begin a string. -/
theorem token_letter {c : Char} {kind : StringKind} {escapes : Bool}
    (isLetter : stringLetter? c = some (kind, escapes)) (text : List Char) :
    token c ('\'' :: text) = string kind escapes text := by
  have other {quote : Char} (noLetter : stringLetter? quote = none) : c ≠ quote := by
    rintro rfl
    rw [isLetter] at noLetter
    cases noLetter
  unfold token
  simp only
  rw [if_neg (other (by decide)), if_neg (other (by decide)), isLetter]
  rfl

/-- A point and a digit begin a numeral. -/
theorem token_point {text : List Char} (digit : text.head?.any Char.isDigit = true) :
    token '.' text = number ('.' :: text) := by
  unfold token
  simp [stringLetter?, digit]

/-- What begins no longer token is scanned as a sign. -/
theorem token_sign {c : Char} {text : List Char} (noQuote : c ≠ '\'' ∧ c ≠ '"')
    (noLetter : c.isAlpha = false) (noDigit : c.isDigit = false)
    (noPoint : ¬ (c = '.' ∧ text.head?.any Char.isDigit = true)) (noStart : ¬ isWordStart c = true) :
    token c text = sign c text := by
  unfold token
  simp only [stringLetter?_of_noLetter noLetter]
  rw [if_neg noQuote.1, if_neg noQuote.2, noDigit, if_neg (by decide), if_neg noPoint,
    if_neg noStart]

/-- The token that begins with `c` is found again in letters of any case, if the text behind it
tracks the old one. -/
def Again (c : Char) (text : List Char) (kind : Kind) (rest : List Char) : Prop :=
  ∃ lexeme, text = lexeme ++ rest ∧ ∀ c' lexeme' rest', Recased (c :: lexeme) (c' :: lexeme') →
    Tracks rest rest' → token c' (lexeme' ++ rest') = ⟨.ok kind, rest'⟩

section

variable {c : Char} {text rest : List Char} {kind : Kind}

/-- It is enough to look at letters, and to find the token by the same scanner. -/
theorem Again.of_steady {scan : List Char → Lexeme} (steady : Steady SameLetters scan)
    (scanned : scan (c :: text) = ⟨.ok kind, rest⟩) (shorter : rest <:+ text)
    (found : ∀ c' lexeme lexeme' rest', text = lexeme ++ rest → SameLetter c c' →
      SameLetters lexeme lexeme' → Tracks rest rest' →
      token c' (lexeme' ++ rest') = scan (c' :: (lexeme' ++ rest'))) : Again c text kind rest := by
  obtain ⟨taken, whole, again⟩ := steady (c :: text) kind rest scanned
  cases taken with
  | nil =>
    have length := shorter.length_le
    rw [← List.nil_append rest, ← whole, List.length_cons] at length
    omega
  | cons d lexeme =>
    obtain ⟨rfl, rfl⟩ := List.cons.inj whole
    refine ⟨lexeme, rfl, fun c' lexeme' rest' recased tracks => ?_⟩
    have same := recased.sameLetters
    obtain ⟨letter, others⟩ := List.forall₂_cons.mp same
    rw [found c' lexeme lexeme' rest' rfl letter others tracks]
    exact again (c' :: lexeme') rest' same tracks

theorem string_again {quote : Char} {scan : List Char → Lexeme} (steady : Steady Eq scan)
    (isQuote : quote = '\'' ∨ quote = '"') (scanned : scan text = ⟨.ok kind, rest⟩)
    (found : ∀ text, token quote text = scan text) : Again quote text kind rest := by
  obtain ⟨lexeme, rfl, again⟩ := steady text kind rest scanned
  refine ⟨lexeme, rfl, fun c' lexeme' rest' recased tracks => ?_⟩
  obtain ⟨rfl, rfl⟩ := List.cons.inj (recased.eq_of_quote isQuote)
  rw [found]
  exact again _ rest' rfl tracks

theorem letter_again {stringKind : StringKind} {escapes : Bool} {inside : List Char}
    (isLetter : stringLetter? c = some (stringKind, escapes))
    (scanned : string stringKind escapes inside = ⟨.ok kind, rest⟩) :
    Again c ('\'' :: inside) kind rest := by
  obtain ⟨lexeme, rfl, again⟩ := string_steady _ _ inside kind rest scanned
  refine ⟨'\'' :: lexeme, rfl, fun c' lexeme' rest' recased tracks => ?_⟩
  cases recased with
  | quoted isQuote => rcases isQuote with rfl | rfl <;> cases isLetter
  | letter same _ others =>
    rw [others.eq_of_quote (.inl rfl), List.cons_append, token_letter (by rwa [← same.stringLetter?_eq])]
    exact again lexeme rest' rfl tracks

theorem digit_again (digit : c.isDigit = true) (scanned : number (c :: text) = ⟨.ok kind, rest⟩) :
    Again c text kind rest := by
  have shorter : (number (c :: text)).rest <:+ text := number_suffix (.inl digit)
  rw [scanned] at shorter
  refine .of_steady number_steady scanned shorter fun c' lexeme lexeme' rest' _ letter _ _ => ?_
  rw [token_digit (by rwa [← letter.isDigit_eq])]

theorem point_again (digit : text.head?.any Char.isDigit = true)
    (scanned : number ('.' :: text) = ⟨.ok kind, rest⟩) : Again '.' text kind rest := by
  have shorter : (number ('.' :: text)).rest <:+ text := number_suffix (.inr ⟨rfl, digit⟩)
  rw [scanned] at shorter
  refine .of_steady number_steady scanned shorter fun c' lexeme lexeme' rest' whole letter same _ => ?_
  obtain rfl := letter.eq_of_noLetter (by decide)
  refine token_point ?_
  -- the digit behind the point belongs to the numeral
  cases same with
  | nil =>
    obtain ⟨d, isNext, isDigit⟩ := (Option.any_eq_true ..).mp digit
    rw [whole] at isNext
    rw [number_rest scanned d isNext] at isDigit
    cases isDigit
  | @cons d d' _ _ same _ =>
    rw [whole] at digit
    rw [List.cons_append, List.head?_cons, Option.any_some] at digit ⊢
    rwa [← SameLetter.isDigit_eq same]

theorem word_again (start : isWordStart c = true)
    (noString : stringLetter? c = none ∨ text.head? ≠ some '\'')
    (scanned : word (c :: text) = ⟨.ok kind, rest⟩) : Again c text kind rest := by
  have shorter := word_suffix start text
  rw [scanned] at shorter
  refine .of_steady word_steady scanned shorter
    fun c' lexeme lexeme' rest' whole letter same tracks => ?_
  refine token_start (by rwa [← letter.isWordStart_eq]) ?_
  rw [← letter.stringLetter?_eq]
  rw [whole] at noString
  exact noString.imp_right ((tracks.append same).noSign (by decide) (by decide))

theorem sign_again (noQuote : c ≠ '\'' ∧ c ≠ '"') (noDigit : c.isDigit = false)
    (noPoint : ¬ (c = '.' ∧ text.head?.any Char.isDigit = true)) (noStart : ¬ isWordStart c = true)
    (scanned : sign c text = ⟨.ok kind, rest⟩) : Again c text kind rest := by
  obtain ⟨lexeme, rfl, again⟩ := sign_steady c text kind rest scanned
  have noLetter : c.isAlpha = false := by
    unfold sign at scanned
    split at scanned
    · next isSign => exact noLetter_of_sign? isSign
    · cases scanned
  refine ⟨lexeme, rfl, fun c' lexeme' rest' recased tracks => ?_⟩
  obtain ⟨letter, others⟩ := List.forall₂_cons.mp recased.sameLetters
  obtain rfl := letter.eq_of_noLetter noLetter
  rw [token_sign noQuote noLetter noDigit ?_ noStart]
  · exact again lexeme' rest' others tracks
  · rintro ⟨rfl, digit⟩
    obtain ⟨d, isNext, isDigit⟩ := (Option.any_eq_true ..).mp digit
    have stops : ∀ e ∈ (lexeme ++ rest).head?, e.isDigit = false := fun e member =>
      Bool.eq_false_iff.mpr fun isDigit =>
        noPoint ⟨rfl, (Option.any_eq_true ..).mpr ⟨e, member, isDigit⟩⟩
    rw [(tracks.append others).noDigit stops d isNext] at isDigit
    cases isDigit

/-- A token is found again in letters of any case, if the text behind it tracks the old one. -/
theorem token_again (scanned : token c text = ⟨.ok kind, rest⟩) : Again c text kind rest := by
  unfold token at scanned
  simp only at scanned
  split at scanned
  · next isQuote =>
    subst isQuote
    exact string_again (string_steady .char false) (.inl rfl) scanned fun _ => rfl
  next noQuote =>
  split at scanned
  · next isQuote =>
    subst isQuote
    exact string_again quotedName_steady (.inr rfl) scanned fun _ => rfl
  next noQuotes =>
  split at scanned
  · next isString =>
    obtain ⟨isLetter, isQuote⟩ := Prod.mk.inj isString
    obtain ⟨inside, rfl⟩ := List.head?_eq_some_iff.mp isQuote
    exact letter_again isLetter scanned
  next noString =>
  split at scanned
  · next digit => exact digit_again digit scanned
  next noDigit =>
  split at scanned
  · next point =>
    obtain ⟨rfl, digit⟩ := point
    exact point_again digit scanned
  next noPoint =>
  split at scanned
  · next start =>
    refine word_again start ?_ scanned
    cases isLetter : stringLetter? c with
    | none => exact .inl rfl
    | some announced =>
      exact .inr fun isQuote => noString announced.1 announced.2 (by rw [isLetter, isQuote])
  · next noStart =>
    exact sign_again ⟨noQuote, noQuotes⟩ (by simpa using noDigit) noPoint noStart scanned

end

end CanonicalSql.Scan
