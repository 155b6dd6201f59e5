import CanonicalSql.Proofs.Lexing.Numerals

/-!
# Spelled tokens read back

The canonical spelling of a token is scanned as the token, as long as what follows does not
go on with it. Parentheses, brackets and commas end whatever stands before them and are
ended by anything; all other tokens need such a sign or a blank behind them, but for the
dots of a qualified name (`Kind.scans`).
-/
namespace CanonicalSql

/-! ## Visible characters -/

/-- The character is one of ASCII and no blank. -/
def IsVisible (c : Char) : Prop := 33 ≤ c.toNat ∧ c.toNat ≤ 126

instance (c : Char) : Decidable (IsVisible c) := inferInstanceAs (Decidable (_ ∧ _))

theorem IsVisible.noBlank {c : Char} (visible : IsVisible c) : Unicode.isBlank c = false := by
  obtain ⟨low, high⟩ := visible
  unfold Unicode.isBlank Unicode.blankRanges
  rw [Unicode.Ranges.has, if_neg (by omega), if_neg (by omega), Unicode.Ranges.has,
    if_neg (by omega), if_neg (by omega), Unicode.Ranges.has, if_pos (by omega)]

namespace Scan

/-- Nothing is skipped before a visible character that begins no comment. -/
theorem skip_visible {c : Char} {text : List Char} (visible : IsVisible c)
    (noLine : c = '-' → text.head? ≠ some '-') (noBlock : c = '/' → text.head? ≠ some '*') :
    skip (c :: text) = .ok (c :: text) := by
  rw [skip, skipFrom]
  · rw [visible.noBlank]
    rfl
  · rintro rest rfl rfl
    exact noLine rfl rfl
  · rintro rest rfl rfl
    exact noBlock rfl rfl

theorem Stopped.noQuote {rest : List Char} {quote : Char} (stopped : Stopped rest)
    (goesOn : isStop quote = false) : rest.head? ≠ some quote := by
  intro isQuote
  rw [stopped quote isQuote] at goesOn
  cases goesOn

/-! ## Words -/

theorem noDigit_of_isWordStart {c : Char} (start : isWordStart c = true) :
    c.isDigit = false := by
  cases digit : c.isDigit with
  | false => rfl
  | true =>
    simp only [Char.isDigit, Bool.and_eq_true, decide_eq_true_eq] at digit
    have low : 48 ≤ c.toNat := digit.1
    have high : c.toNat ≤ 57 := digit.2
    have noLetter : Unicode.isAlphabetic c = false := by
      unfold Unicode.isAlphabetic Unicode.alphabeticRanges
      rw [Unicode.Ranges.has, if_pos (by omega)]
    have noUnderscore : (c == '_') = false := by
      rw [beq_eq_false_iff_ne]
      rintro rfl
      exact absurd high (by decide)
    rw [isWordStart, noLetter, noUnderscore] at start
    cases start

theorem ne_of_isWordStart {c other : Char} (start : isWordStart c = true)
    (noStart : isWordStart other = false) : c ≠ other := by
  rintro rfl
  rw [start] at noStart
  cases noStart

/-- What begins as a word is scanned as one, but for a letter that announces a string. -/
theorem token_start {c : Char} {text : List Char} (start : isWordStart c = true)
    (noString : stringLetter? c = none ∨ text.head? ≠ some '\'') :
    token c text = word (c :: text) := by
  unfold token
  simp only
  rw [if_neg (ne_of_isWordStart start (by decide)), if_neg (ne_of_isWordStart start (by decide))]
  split
  · next isString =>
    obtain ⟨isLetter, isQuote⟩ := Prod.mk.inj isString
    rcases noString with noLetter | noQuote
    · rw [noLetter] at isLetter
      cases isLetter
    · exact absurd isQuote noQuote
  · rw [noDigit_of_isWordStart start, if_neg (by decide),
      if_neg fun isPoint => ne_of_isWordStart start (by decide) isPoint.1, if_pos start]

/-- A word that no quote stands behind is scanned as a word. -/
theorem token_word {c : Char} {more rest : List Char} (start : isWordStart c = true)
    (all : ∀ d ∈ more, isWordRest d = true) (stops : ∀ d ∈ rest.head?, isWordRest d = false)
    (noQuote : rest.head? ≠ some '\'') :
    token c (more ++ rest) = ⟨.ok (wordKind (String.ofList (c :: more))), rest⟩ := by
  have allWord : ∀ d ∈ c :: more, isWordRest d = true :=
    List.forall_mem_cons.mpr ⟨isWordRest_of_isWordStart start, all⟩
  have next : (more ++ rest).head? ≠ some '\'' := by
    cases more with
    | nil => exact noQuote
    | cons d more =>
      intro isQuote
      have isWord := all d List.mem_cons_self
      rw [Option.some.inj isQuote] at isWord
      exact absurd isWord (by decide)
  have taken := takeWhile_append allWord stops
  have left := dropWhile_append allWord stops
  rw [List.cons_append] at taken left
  rw [token_start start (.inr next), word, taken, left]

/-! ## Numerals -/

theorem visible_of_isDigit {c : Char} (digit : c.isDigit = true) : IsVisible c := by
  simp only [Char.isDigit, Bool.and_eq_true, decide_eq_true_eq] at digit
  have low : 48 ≤ c.toNat := digit.1
  have high : c.toNat ≤ 57 := digit.2
  exact ⟨by omega, by omega⟩

theorem ne_of_isDigit {c other : Char} (digit : c.isDigit = true)
    (noDigit : other.isDigit = false) : c ≠ other := by
  rintro rfl
  rw [digit] at noDigit
  cases noDigit

theorem stringLetter?_of_isDigit {c : Char} (digit : c.isDigit = true) :
    stringLetter? c = none := by
  have other {letter : Char} (noDigit : letter.isDigit = false) : c ≠ letter :=
    ne_of_isDigit digit noDigit
  unfold stringLetter?
  rw [if_neg (by simp [other]), if_neg (by simp [other]), if_neg (by simp [other]),
    if_neg (by simp [other])]

/-- What begins with a digit is scanned as a numeral. -/
theorem token_digit {c : Char} (digit : c.isDigit = true) (text : List Char) :
    token c text = number (c :: text) := by
  unfold token
  simp only [stringLetter?_of_isDigit digit]
  rw [if_neg (ne_of_isDigit digit (by decide)), if_neg (ne_of_isDigit digit (by decide)),
    if_pos digit]

end Scan

/-! ## Keywords and names -/

theorem Keyword.mem_all (word : Keyword) : word ∈ reserved ++ unreserved :=
  List.mem_append.mpr word.mem_reserved_or_mem_unreserved

/-- A keyword is what its spelling spells. -/
theorem Keyword.ofWord?_spelling (word : Keyword) : ofWord? word.spelling = some word := by
  have all : ∀ word ∈ reserved ++ unreserved, ofWord? word.spelling = some word := by
    decide +kernel
  exact all word word.mem_all

/-- Keywords are spelled with capitals and underscores, and begin with a capital. -/
theorem Keyword.spelling_eq_cons (word : Keyword) :
    ∃ c more, word.spelling.toList = c :: more ∧ c.isUpper = true ∧
      ∀ d ∈ more, (d.isUpper || d == '_') = true := by
  have all : ∀ word ∈ reserved ++ unreserved, word.spelling.toList.head?.any Char.isUpper ∧
      word.spelling.toList.all fun d => d.isUpper || d == '_' := by
    decide +kernel
  obtain ⟨first, others⟩ := all word word.mem_all
  cases isSpelled : word.spelling.toList with
  | nil =>
    rw [isSpelled] at first
    cases first
  | cons c more =>
    rw [isSpelled] at first others
    refine ⟨c, more, rfl, by simpa using first, fun d member => ?_⟩
    exact List.all_eq_true.mp others d (List.mem_cons_of_mem _ member)

namespace Scan

theorem isWordStart_of_isUpper {c : Char} (upper : c.isUpper = true) :
    isWordStart c = true := by
  simp only [Char.isUpper, decide_eq_true_eq] at upper
  have low : 65 ≤ c.toNat := upper.1
  have high : c.toNat ≤ 90 := upper.2
  have letter : Unicode.isAlphabetic c = true := by
    unfold Unicode.isAlphabetic Unicode.alphabeticRanges
    rw [Unicode.Ranges.has, if_neg (by omega), if_pos (by omega)]
  simp [isWordStart, letter]

theorem isWordStart_of_isLower {c : Char} (lower : c.isLower = true) :
    isWordStart c = true := by
  simp only [Char.isLower, Bool.and_eq_true, decide_eq_true_eq] at lower
  have low : 97 ≤ c.toNat := lower.1
  have high : c.toNat ≤ 122 := lower.2
  have letter : Unicode.isAlphabetic c = true := by
    unfold Unicode.isAlphabetic Unicode.alphabeticRanges
    rw [Unicode.Ranges.has, if_neg (by omega), if_neg (by omega), Unicode.Ranges.has,
      if_neg (by omega), if_pos (by omega)]
  simp [isWordStart, letter]

end Scan

/-! ## Plain names -/

namespace Name

variable {c : Char}

/-- The characters of plain names are visible ones, and no capitals. -/
theorem bounds_of_isPlainRest (plain : isPlainRest c = true) :
    IsVisible c ∧ (c.toNat < 65 ∨ 90 < c.toNat) := by
  simp only [isPlainRest, Char.isLower, Char.isDigit, Bool.or_eq_true, Bool.and_eq_true,
    decide_eq_true_eq, beq_iff_eq] at plain
  rcases plain with ((⟨low, high⟩ | ⟨low, high⟩) | rfl) | rfl
  · have low : 97 ≤ c.toNat := low
    have high : c.toNat ≤ 122 := high
    exact ⟨⟨by omega, by omega⟩, .inr (by omega)⟩
  · have low : 48 ≤ c.toNat := low
    have high : c.toNat ≤ 57 := high
    exact ⟨⟨by omega, by omega⟩, .inl (by omega)⟩
  · exact ⟨by decide, .inr (by decide)⟩
  · exact ⟨by decide, .inl (by decide)⟩

theorem isWordStart_of_isPlainStart (plain : isPlainStart c = true) :
    Scan.isWordStart c = true := by
  simp only [isPlainStart, Bool.or_eq_true] at plain
  rcases plain with lower | underscore
  · exact Scan.isWordStart_of_isLower lower
  · simp [Scan.isWordStart, underscore]

theorem isPlainRest_of_isPlainStart (plain : isPlainStart c = true) : isPlainRest c = true := by
  simp only [isPlainStart, Bool.or_eq_true] at plain
  rcases plain with lower | underscore
  · simp [isPlainRest, lower]
  · simp [isPlainRest, underscore]

theorem isWordRest_of_isPlainRest (plain : isPlainRest c = true) :
    Scan.isWordRest c = true := by
  simp only [isPlainRest, Bool.or_eq_true] at plain
  rcases plain with ((lower | digit) | underscore) | dollar
  · exact Scan.isWordRest_of_isWordStart (Scan.isWordStart_of_isLower lower)
  · exact Scan.isWordRest_of_isDigit digit
  · simp [Scan.isWordRest, underscore]
  · simp [Scan.isWordRest, dollar]

/-- A plain character is its own lower case. -/
theorem lowerChar_of_isPlainRest (plain : isPlainRest c = true) :
    Unicode.lowerChar c = [c] := by
  obtain ⟨⟨low, high⟩, noCapital⟩ := bounds_of_isPlainRest plain
  have same : Unicode.smallLetter Unicode.lowerCaseRuns c.toNat = c.toNat := by
    unfold Unicode.lowerCaseRuns
    rw [Unicode.smallLetter]
    split
    · rfl
    · next above =>
      dsimp only at above
      rw [if_neg (by dsimp only; omega), Unicode.smallLetter, if_pos (by dsimp only; omega)]
  have noDot : c ≠ '\u0130' := by
    rintro rfl
    exact absurd high (by decide)
  rw [Unicode.lowerChar, if_neg noDot, same, Char.ofNat_toNat]

theorem lowerAfter_of_isPlainRest (before : List Char) {text : List Char}
    (plain : ∀ c ∈ text, isPlainRest c = true) : Unicode.lowerAfter before text = text := by
  induction text generalizing before with
  | nil => rfl
  | cons c text ih =>
    have isPlain := plain c List.mem_cons_self
    have noSigma : c ≠ 'Σ' := by
      rintro rfl
      exact absurd (bounds_of_isPlainRest isPlain).1.2 (by decide)
    rw [Unicode.lowerAfter, if_neg noSigma, lowerChar_of_isPlainRest isPlain,
      ih _ fun d member => plain d (List.mem_cons_of_mem _ member)]
    rfl

/-- A plain name begins as a word, goes on as one, and is no keyword. -/
theorem exists_of_isPlain {name : Name} (plain : name.isPlain = true) :
    ∃ c more, name.toList = c :: more ∧ isPlainStart c = true ∧
      (∀ d ∈ more, isPlainRest d = true) ∧ Keyword.ofWord? name = none := by
  unfold isPlain at plain
  split at plain
  · cases plain
  · next c more isName =>
    simp only [Bool.and_eq_true, List.all_eq_true, Option.isNone_iff_eq_none] at plain
    exact ⟨c, more, isName, plain.1.1, plain.1.2, plain.2⟩

/-- A plain name is read as a word that stands for the name. -/
theorem wordKind_of_isPlain {name : Name} (plain : name.isPlain = true) :
    Scan.wordKind name = .identifier name := by
  obtain ⟨c, more, isName, start, all, noKeyword⟩ := exists_of_isPlain plain
  have allPlain : ∀ d ∈ name.toList, isPlainRest d = true := by
    rw [isName]
    exact List.forall_mem_cons.mpr ⟨isPlainRest_of_isPlainStart start, all⟩
  rw [Scan.wordKind, noKeyword, Unicode.lowerCase, lowerAfter_of_isPlainRest [] allPlain,
    String.ofList_toList]

end Name

/-! ## All tokens -/

namespace Kind

/-- Whether the token is a parenthesis, a bracket or a comma. -/
def isBracket : Kind → Bool
  | .symbol .leftParen | .symbol .rightParen | .symbol .leftBracket | .symbol .rightBracket
  | .symbol .comma => true
  | _ => false

/-- The text begins with no digit. -/
def NoDigit (rest : List Char) : Prop := ∀ c ∈ rest.head?, c.isDigit = false

/-- What may follow the token without a blank, so that the token is read back. -/
def ReadBefore (rest : List Char) : Kind → Prop
  | .symbol .leftParen | .symbol .rightParen | .symbol .leftBracket | .symbol .rightBracket
  | .symbol .comma => True
  | .symbol .dot => NoDigit rest
  | .identifier _ => Scan.Stopped rest ∨ rest.head? = some '.'
  | _ => Scan.Stopped rest

/-- The text begins with the token, nothing is skipped before it, and the rest is left. -/
def Begins (text rest : List Char) (kind : Kind) : Prop :=
  ∃ c more, text = c :: more ∧ Scan.skip text = .ok (c :: more) ∧
    Scan.token c more = ⟨.ok kind, rest⟩

theorem Begins.of_visible {c : Char} {more rest : List Char} {kind : Kind}
    (visible : IsVisible c) (noLine : c ≠ '-') (noBlock : c ≠ '/')
    (scanned : Scan.token c more = ⟨.ok kind, rest⟩) : kind.Begins (c :: more) rest :=
  ⟨c, more, rfl, Scan.skip_visible visible (fun isLine => absurd isLine noLine)
    fun isBlock => absurd isBlock noBlock, scanned⟩

variable {rest : List Char}

theorem keyword_begins (word : Keyword) (stopped : Scan.Stopped rest) :
    (Kind.keyword word).Begins ((Kind.keyword word).spelling.toList ++ rest) rest := by
  obtain ⟨c, more, isSpelled, upper, others⟩ := word.spelling_eq_cons
  have isWord (d : Char) (either : (d.isUpper || d == '_') = true) : Scan.isWordRest d = true := by
    simp only [Bool.or_eq_true] at either
    rcases either with upper | underscore
    · exact Scan.isWordRest_of_isWordStart (Scan.isWordStart_of_isUpper upper)
    · simp [Scan.isWordRest, underscore]
  have visible : IsVisible c := by
    simp only [Char.isUpper, decide_eq_true_eq] at upper
    have low : 65 ≤ c.toNat := upper.1
    have high : c.toNat ≤ 90 := upper.2
    exact ⟨by omega, by omega⟩
  have start := Scan.isWordStart_of_isUpper upper
  have scanned := Scan.token_word start (fun d member => isWord d (others d member))
    stopped.noWord (stopped.noQuote (by decide))
  have same : Scan.wordKind (String.ofList (c :: more)) = .keyword word := by
    rw [← isSpelled, String.ofList_toList, Scan.wordKind, word.ofWord?_spelling]
  rw [same] at scanned
  rw [Kind.spelling, isSpelled]
  exact .of_visible visible (Scan.ne_of_isWordStart start (by decide))
    (Scan.ne_of_isWordStart start (by decide)) scanned

theorem identifier_begins {name : Name} (proper : name.Proper)
    (before : Scan.Stopped rest ∨ rest.head? = some '.') :
    (Kind.identifier name).Begins ((Kind.identifier name).spelling.toList ++ rest) rest := by
  have noQuote {quote : Char} (goesOn : Scan.isStop quote = false) (noDot : quote ≠ '.') :
      rest.head? ≠ some quote := by
    rcases before with stopped | isDot
    · exact stopped.noQuote goesOn
    · rw [isDot]
      simpa using noDot.symm
  rw [Kind.spelling, Name.sql]
  split
  · next plain =>
    obtain ⟨c, more, isName, start, all, -⟩ := Name.exists_of_isPlain plain
    have noWord : ∀ d ∈ rest.head?, Scan.isWordRest d = false := by
      rcases before with stopped | isDot
      · exact stopped.noWord
      · rw [isDot]
        rintro d ⟨⟩
        decide
    have isStart := Name.isWordStart_of_isPlainStart start
    have scanned := Scan.token_word isStart
      (fun d member => Name.isWordRest_of_isPlainRest (all d member)) noWord
      (noQuote (by decide) (by decide))
    rw [← isName, String.ofList_toList, Name.wordKind_of_isPlain plain] at scanned
    have visible := (Name.bounds_of_isPlainRest (Name.isPlainRest_of_isPlainStart start)).1
    rw [isName]
    exact .of_visible visible (Scan.ne_of_isWordStart isStart (by decide))
      (Scan.ne_of_isWordStart isStart (by decide)) scanned
  · have isRead := Quoted.read_doubled '"' name.toList rest (noQuote (by decide) (by decide))
    have text : (String.ofList (Quoted.enclose '"' name.toList)).toList ++ rest =
        '"' :: (Quoted.doubled '"' name.toList ++ '"' :: rest) := by
      simp [Quoted.enclose]
    have scanned : Scan.quotedName (Quoted.doubled '"' name.toList ++ '"' :: rest) =
        ⟨.ok (.identifier name), rest⟩ := by
      rw [Scan.quotedName, isRead]
      simp [show name ≠ "" from proper]
    rw [text]
    exact .of_visible (by decide) (by decide) (by decide) (by simpa [Scan.token] using scanned)

theorem number_begins {kind : Kind} {text : List Char} (some : text ≠ [])
    (digit : ∀ c ∈ text.head?, c.isDigit = true)
    (isNumber : Scan.number (text ++ rest) = ⟨.ok kind, rest⟩) :
    kind.Begins (text ++ rest) rest := by
  obtain ⟨c, more, rfl⟩ := List.exists_cons_of_ne_nil some
  have isDigit := digit c rfl
  refine .of_visible (Scan.visible_of_isDigit isDigit) (Scan.ne_of_isDigit isDigit (by decide))
    (Scan.ne_of_isDigit isDigit (by decide)) ?_
  rw [Scan.token_digit isDigit]
  exact isNumber

theorem string_begins {value : String} {kind : StringKind} (holds : kind.Holds value)
    (noQuote : rest.head? ≠ some '\'') :
    (Kind.string value kind).Begins ((Kind.string value kind).spelling.toList ++ rest) rest := by
  have isRead := Quoted.read_doubled '\'' value.toList rest noQuote
  have found : Scan.stringKind kind value.toList = .ok (.string value kind) := by
    cases kind with
    | char | national => simp [Scan.stringKind]
    | bit =>
      have bits : (value.toList.all fun c => c == '0' || c == '1') = true := by
        simpa [StringKind.Holds] using holds
      simp [Scan.stringKind, bits]
    | hex =>
      have digits : value.toList.all Scan.isHexDigit = true := List.all_eq_true.mpr holds
      simp [Scan.stringKind, digits]
  have scanned : Scan.string kind false (Quoted.doubled '\'' value.toList ++ '\'' :: rest) =
      ⟨.ok (.string value kind), rest⟩ := by
    simp [Scan.string, isRead, found]
  -- the letter in front of the quote, if there is one, is told from a word by the quote
  have text : (Kind.string value kind).spelling.toList ++ rest =
      kind.letter.toList ++ '\'' :: (Quoted.doubled '\'' value.toList ++ '\'' :: rest) := by
    simp [Kind.spelling, Quoted.enclose]
  rw [text]
  cases kind <;> exact .of_visible (by decide) (by decide) (by decide) scanned

/-- A sign that goes on with no character after it. -/
theorem sign_begins {c : Char} {sign : Symbol} (visible : IsVisible c)
    (noLine : c = '-' → rest.head? ≠ some '-') (noBlock : c = '/' → rest.head? ≠ some '*')
    (scanned : Scan.token c rest = Scan.sign c rest)
    (isSign : Scan.sign? c rest.head? = some (sign, false)) :
    (Kind.symbol sign).Begins (c :: rest) rest := by
  refine ⟨c, rest, rfl, Scan.skip_visible visible noLine noBlock, ?_⟩
  rw [scanned, Scan.sign, isSign]
  rfl

theorem symbol_begins (sign : Symbol) (before : (Kind.symbol sign).ReadBefore rest) :
    (Kind.symbol sign).Begins ((Kind.symbol sign).spelling.toList ++ rest) rest := by
  cases sign with
  | leftParen | rightParen | leftBracket | rightBracket | comma | semicolon | plus | star | equal =>
    exact .of_visible (by decide) (by decide) (by decide) rfl
  | notEqual | lessEqual | greaterEqual | concat =>
    exact .of_visible (by decide) (by decide) (by decide) rfl
  | dot =>
    have noDigit : rest.head?.any Char.isDigit = false := by
      cases rest with
      | nil => rfl
      | cons c rest => simpa using before c rfl
    show (Kind.symbol .dot).Begins ('.' :: rest) rest
    refine sign_begins (by decide) nofun nofun ?_ rfl
    have noNumber : ¬ ('.' = '.' ∧ rest.head?.any Char.isDigit = true) := by
      rw [noDigit]
      exact fun isDigit => nomatch isDigit.2
    show (if '.' = '.' ∧ rest.head?.any Char.isDigit = true then _ else Scan.sign '.' rest) = _
    rw [if_neg noNumber]
  | minus =>
    show (Kind.symbol .minus).Begins ('-' :: rest) rest
    exact sign_begins (by decide) (fun _ => before.noQuote (by decide)) nofun rfl rfl
  | slash =>
    show (Kind.symbol .slash).Begins ('/' :: rest) rest
    exact sign_begins (by decide) nofun (fun _ => before.noQuote (by decide)) rfl rfl
  | less =>
    have noEqual : rest.head? ≠ some '=' := before.noQuote (by decide)
    have noGreater : rest.head? ≠ some '>' := before.noQuote (by decide)
    show (Kind.symbol .less).Begins ('<' :: rest) rest
    refine sign_begins (by decide) nofun nofun rfl ?_
    simp [Scan.sign?, noEqual, noGreater]
  | greater =>
    have noEqual : rest.head? ≠ some '=' := before.noQuote (by decide)
    show (Kind.symbol .greater).Begins ('>' :: rest) rest
    refine sign_begins (by decide) nofun nofun rfl ?_
    simp [Scan.sign?, noEqual]

/-- The canonical spelling of a token is scanned as the token, and no more than it. -/
theorem begins_spelling {kind : Kind} (lexical : kind.Lexical) (notEnd : kind ≠ .endOfInput)
    (before : kind.ReadBefore rest) : kind.Begins (kind.spelling.toList ++ rest) rest := by
  cases lexical with
  | @integer value nonnegative bounded =>
    obtain ⟨count, rfl⟩ := Int.eq_ofNat_of_zero_le nonnegative
    refine number_begins ?_ ?_ (Scan.number_toString bounded before)
    · rw [Kind.spelling, Scan.toString_natCast]
      exact Nat.toDigits_ne_nil
    · rw [Kind.spelling, Scan.toString_natCast]
      exact fun c member => Binary64.toDigits_digits count c (List.mem_of_mem_head? member)
  | @float value finite unsigned =>
    obtain ⟨whole, fraction, exponent, some, all, -, -, -, isText⟩ :=
      (Binary64.sqlFormat_writes finite unsigned).parts
    refine number_begins ?_ ?_ (Scan.number_sqlFormat finite unsigned before)
    · rw [Kind.spelling, isText]
      simp [some]
    · obtain ⟨c, more, rfl⟩ := List.exists_cons_of_ne_nil some
      rw [Kind.spelling, isText]
      rintro d ⟨⟩
      exact all c List.mem_cons_self
  | string holds => exact string_begins holds (before.noQuote (by decide))
  | identifier proper => exact identifier_begins proper before
  | keyword word => exact keyword_begins word before
  | symbol sign => exact symbol_begins sign before
  | endOfInput => exact absurd rfl notEnd

end Kind

end CanonicalSql
