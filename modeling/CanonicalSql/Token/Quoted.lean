/-!
# Quoted text

Between two quotes stands any text, a quote within it written twice. Reading takes the
longest such text: a quote that is followed by another one stands for itself, any other
quote ends the text. Reading undoes writing whenever what follows is not a quote
(`read_enclose`).
-/
namespace CanonicalSql.Quoted

/-- The text with each of its quotes written twice. -/
def doubled (quote : Char) : List Char → List Char
  | [] => []
  | c :: rest => if c = quote then quote :: quote :: doubled quote rest
                 else c :: doubled quote rest

/-- The text between two quotes. -/
def enclose (quote : Char) (text : List Char) : List Char :=
  quote :: (doubled quote text ++ [quote])

/-- Reads on after an opening quote: the text, and what follows the closing quote. There
is no result if the closing quote is missing. -/
def read (quote : Char) : List Char → Option (List Char × List Char)
  | [] => none
  | c :: rest =>
    if c = quote then
      match rest with
      | [] => some ([], [])
      | d :: after =>
        if d = quote then (read quote after).map fun (text, rest) => (quote :: text, rest)
        else some ([], d :: after)
    else (read quote rest).map fun (text, rest) => (c :: text, rest)

theorem read_of_ne {quote c : Char} (other : c ≠ quote) (rest : List Char) :
    read quote (c :: rest) = (read quote rest).map fun (text, after) => (c :: text, after) := by
  rw [read.eq_def]
  simp [other]

theorem read_pair (quote : Char) (rest : List Char) :
    read quote (quote :: quote :: rest) =
      (read quote rest).map fun (text, after) => (quote :: text, after) := by
  simp [read]

theorem read_end (quote : Char) (rest : List Char) (clear : rest.head? ≠ some quote) :
    read quote (quote :: rest) = some ([], rest) := by
  cases rest with
  | nil => simp [read]
  | cons d after =>
    have : d ≠ quote := by simpa using clear
    simp [read, this]

theorem read_doubled (quote : Char) (text rest : List Char) (clear : rest.head? ≠ some quote) :
    read quote (doubled quote text ++ quote :: rest) = some (text, rest) := by
  induction text with
  | nil => exact read_end quote rest clear
  | cons c text ih =>
    by_cases same : c = quote
    · subst same
      simp [doubled, read_pair, ih]
    · simp [doubled, same, read_of_ne same, ih]

/-- After its opening quote an enclosed text is read back, and with it no more. -/
theorem read_enclose (quote : Char) (text rest : List Char)
    (clear : rest.head? ≠ some quote) :
    read quote ((enclose quote text).drop 1 ++ rest) = some (text, rest) := by
  simpa [enclose] using read_doubled quote text rest clear

end CanonicalSql.Quoted
