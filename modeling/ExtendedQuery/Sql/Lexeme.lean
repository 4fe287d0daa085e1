import ExtendedQuery.Text.Keyword

/-!
# Lexemes of SQL text

A placeholder `?` and a terminator `;` count only outside of the constructs that enclose text. The text
is therefore read as a sequence of lexemes, from left to right, each as long as its construct:

* a literal `'..'`, in which `''` stands for a quote and, where escapes are active, a backslash takes
  the next character with it;
* a quoted identifier `".."`;
* a line comment `--..`, through the first line feed or carriage return;
* a block comment, which nests;
* a dollar quote `$tag$..$tag$`;
* the escaped mark `??`, the mark `?`, and any other single character.

Main statement: `Lexeme.read_append`, a lexeme is a nonempty beginning of the text it was read from.
-/

namespace ExtendedQuery.Sql

inductive Construct where
  | literal
  | identifier
  | comment
  | dollarQuote (tag : Text)
  deriving DecidableEq, Repr

structure Unterminated where
  construct : Construct
  offset : Nat
  deriving DecidableEq, Repr

namespace Unterminated

def message (e : Unterminated) : String :=
  match e.construct with
  | .literal => "unterminated string literal started at offset " ++ toString e.offset
  | .identifier => "unterminated quoted identifier started at offset " ++ toString e.offset
  | .comment => "unterminated block comment started at offset " ++ toString e.offset
  | .dollarQuote tag =>
    "unterminated dollar quote \x60" ++ String.ofList tag ++ "\x60 started at offset " ++ toString e.offset

end Unterminated

/-- A lexeme that encloses text keeps all of its characters, delimiters included. -/
inductive Lexeme where
  | literal (escapes : Bool) (text : Text)
  | identifier (text : Text)
  | lineComment (text : Text)
  | blockComment (text : Text)
  | dollarQuote (text : Text)
  | escapedMark
  | mark
  | plain (c : Char)
  deriving DecidableEq, Repr

namespace Lexeme

def text : Lexeme → Text
  | .literal _ text | .identifier text | .lineComment text | .blockComment text
  | .dollarQuote text => text
  | .escapedMark => ['?', '?']
  | .mark => ['?']
  | .plain c => [c]

/-! ## Where each construct closes

Each function takes the characters already seen, last first, and returns the construct with all of its
characters and the text after it, or nothing when the text ends before the construct does. -/

abbrev Closing := Option (Text × Text)

def closeLiteral (escapes : Bool) : (seen : Text) → Text → Closing
  | _, [] => none
  | seen, [c] => if c = '\x27' then some ((c :: seen).reverse, []) else none
  | seen, c :: d :: rest =>
    if c = '\x5c' ∧ escapes then closeLiteral escapes (d :: c :: seen) rest
    else if c = '\x27' then
      if d = '\x27' then closeLiteral escapes (d :: c :: seen) rest
      else some ((c :: seen).reverse, d :: rest)
    else closeLiteral escapes (c :: seen) (d :: rest)

def closeIdentifier : (seen : Text) → Text → Closing
  | _, [] => none
  | seen, c :: rest =>
    if c = '"' then some ((c :: seen).reverse, rest) else closeIdentifier (c :: seen) rest

def closeLine : (seen : Text) → Text → Text × Text
  | seen, [] => (seen.reverse, [])
  | seen, c :: rest =>
    if c = '\n' ∨ c = '\r' then ((c :: seen).reverse, rest) else closeLine (c :: seen) rest

def closeComment : (depth : Nat) → (seen : Text) → Text → Closing
  | _, _, [] => none
  | _, _, [_] => none
  | depth, seen, c :: d :: rest =>
    if c = '/' ∧ d = '*' then closeComment (depth + 1) (d :: c :: seen) rest
    else if c = '*' ∧ d = '/' then
      match depth with
      | 0 => some ((d :: c :: seen).reverse, rest)
      | outer + 1 => closeComment outer (d :: c :: seen) rest
    else closeComment depth (c :: seen) (d :: rest)

def closeDollar (tag : Text) : (seen : Text) → Text → Closing
  | _, [] => none
  | seen, c :: rest =>
    if tag.isPrefixOf (c :: rest) then
      some (seen.reverse ++ tag, (c :: rest).drop tag.length)
    else closeDollar tag (c :: seen) rest

/-- A literal opened after this text, last character first, is `E'..'`: the letter is there and is not
the end of an identifier. -/
def opensEscapes : (before : Text) → Bool
  | [] => false
  | e :: before => (e == 'e' || e == 'E') && !before.head?.any Text.isIdentifierChar

def dollarTag? (before rest : Text) : Option Text :=
  if before.head?.any Text.isIdentifierChar || rest.head?.any Char.isDigit then none
  else
    let isTagChar := fun c => Text.isIdentifierChar c && c != '$'
    match rest.dropWhile isTagChar with
    | '$' :: _ => some ('$' :: rest.takeWhile isTagChar ++ ['$'])
    | _ => none

/-- The lexeme that starts with `c`, and the text after it; `before` is the text already read, last
character first, and `standard` says that plain literals have no escapes. -/
def read (standard : Bool) (before : Text) (c : Char) (rest : Text) :
    Except Construct (Lexeme × Text) :=
  if c = '\x27' then
    let escapes := !standard || opensEscapes before
    match closeLiteral escapes [c] rest with
    | some (text, rest) => .ok (.literal escapes text, rest)
    | none => .error .literal
  else if c = '"' then
    match closeIdentifier [c] rest with
    | some (text, rest) => .ok (.identifier text, rest)
    | none => .error .identifier
  else if c = '-' ∧ rest.head? = some '-' then
    let (text, rest) := closeLine [c] rest
    .ok (.lineComment text, rest)
  else if c = '/' ∧ rest.head? = some '*' then
    match closeComment 0 ['*', c] rest.tail with
    | some (text, rest) => .ok (.blockComment text, rest)
    | none => .error .comment
  else if c = '$' then
    match dollarTag? before rest with
    | none => .ok (.plain c, rest)
    | some tag =>
      match closeDollar tag tag.reverse (rest.drop (tag.length - 1)) with
      | some (text, rest) => .ok (.dollarQuote text, rest)
      | none => .error (.dollarQuote tag)
  else if c = '?' then
    if rest.head? = some '?' then .ok (.escapedMark, rest.tail) else .ok (.mark, rest)
  else .ok (.plain c, rest)

abbrev Closes (seen text : Text) (closing : Text × Text) : Prop :=
  ∃ taken, closing.1 = seen.reverse ++ taken ∧ text = taken ++ closing.2

theorem closeLiteral_closes {escapes : Bool} {seen text : Text} {closing : Text × Text}
    (h : closeLiteral escapes seen text = some closing) : Closes seen text closing := by
  fun_induction closeLiteral escapes seen text with
  | case1 => cases h
  | case2 seen => cases h; exact ⟨['\x27'], by simp⟩
  | case3 => cases h
  | case4 seen c d rest _ ih =>
    obtain ⟨taken, first, second⟩ := ih h
    exact ⟨c :: d :: taken, by simp [first], by simp [second]⟩
  | case5 seen rest _ ih =>
    obtain ⟨taken, first, second⟩ := ih h
    exact ⟨'\x27' :: '\x27' :: taken, by simp [first], by simp [second]⟩
  | case6 seen d rest => cases h; exact ⟨['\x27'], by simp⟩
  | case7 seen c d rest _ _ ih =>
    obtain ⟨taken, first, second⟩ := ih h
    exact ⟨c :: taken, by simp [first], by simp [second]⟩

theorem closeIdentifier_closes {seen text : Text} {closing : Text × Text}
    (h : closeIdentifier seen text = some closing) : Closes seen text closing := by
  fun_induction closeIdentifier seen text with
  | case1 => cases h
  | case2 seen rest => cases h; exact ⟨['"'], by simp⟩
  | case3 seen c rest _ ih =>
    obtain ⟨taken, first, second⟩ := ih h
    exact ⟨c :: taken, by simp [first], by simp [second]⟩

theorem closeLine_closes (seen text : Text) : Closes seen text (closeLine seen text) := by
  fun_induction closeLine seen text with
  | case1 seen => exact ⟨[], by simp⟩
  | case2 seen c rest => exact ⟨[c], by simp⟩
  | case3 seen c rest _ ih =>
    obtain ⟨taken, first, second⟩ := ih
    exact ⟨c :: taken, by simp [first], by rw [List.cons_append, ← second]⟩

theorem closeComment_closes {depth : Nat} {seen text : Text} {closing : Text × Text}
    (h : closeComment depth seen text = some closing) : Closes seen text closing := by
  fun_induction closeComment depth seen text with
  | case1 => cases h
  | case2 => cases h
  | case3 depth seen c d rest _ ih =>
    obtain ⟨taken, first, second⟩ := ih h
    exact ⟨c :: d :: taken, by simp [first], by simp [second]⟩
  | case4 seen c d rest => cases h; exact ⟨[c, d], by simp⟩
  | case5 seen c d rest _ _ outer ih =>
    obtain ⟨taken, first, second⟩ := ih h
    exact ⟨c :: d :: taken, by simp [first], by simp [second]⟩
  | case6 depth seen c d rest _ _ ih =>
    obtain ⟨taken, first, second⟩ := ih h
    exact ⟨c :: taken, by simp [first], by simp [second]⟩

theorem closeDollar_closes {tag seen text : Text} {closing : Text × Text}
    (h : closeDollar tag seen text = some closing) : Closes seen text closing := by
  fun_induction closeDollar tag seen text with
  | case1 => cases h
  | case2 seen c rest starts =>
    cases h
    refine ⟨tag, rfl, ?_⟩
    obtain ⟨later, split⟩ := List.isPrefixOf_iff_prefix.1 starts
    simp [← split]
  | case3 seen c rest _ ih =>
    obtain ⟨taken, first, second⟩ := ih h
    exact ⟨c :: taken, by simp [first], by simp [second]⟩

theorem dollarTag?_eq_some {before rest tag : Text} (h : dollarTag? before rest = some tag) :
    ∃ name later, tag = '$' :: name ++ ['$'] ∧ rest = name ++ '$' :: later := by
  unfold dollarTag? at h
  split at h
  · cases h
  · dsimp only at h
    split at h
    · rename_i later split
      cases h
      exact ⟨_, later, rfl, by rw [← split, List.takeWhile_append_dropWhile]⟩
    · cases h

theorem read_append {standard : Bool} {before : Text} {c : Char} {rest : Text} {lexeme : Lexeme}
    {later : Text} (h : read standard before c rest = .ok (lexeme, later)) :
    ∃ taken, lexeme.text = c :: taken ∧ rest = taken ++ later := by
  unfold read at h
  split at h
  · dsimp only at h
    split at h
    · rename_i closed
      cases h
      obtain ⟨taken, first, second⟩ := closeLiteral_closes closed
      exact ⟨taken, first, second⟩
    · cases h
  split at h
  · split at h
    · rename_i closed
      cases h
      obtain ⟨taken, first, second⟩ := closeIdentifier_closes closed
      exact ⟨taken, first, second⟩
    · cases h
  split at h
  · cases h
    obtain ⟨taken, first, second⟩ := closeLine_closes [c] rest
    exact ⟨taken, first, second⟩
  split at h
  · rename_i opened
    split at h
    · rename_i closed
      cases h
      obtain ⟨taken, first, second⟩ := closeComment_closes closed
      cases rest with
      | nil => simp at opened
      | cons d rest =>
        obtain ⟨-, next⟩ := opened
        cases next
        exact ⟨'*' :: taken, first, by rw [List.cons_append, ← second]; rfl⟩
    · cases h
  split at h
  · rename_i dollar
    split at h
    · cases h; exact ⟨[], rfl, rfl⟩
    · rename_i tag found
      split at h
      · rename_i closed
        cases h
        obtain ⟨name, after, rfl, rfl⟩ := dollarTag?_eq_some found
        obtain ⟨taken, first, second⟩ := closeDollar_closes closed
        have drop : (name ++ '$' :: after).drop (('$' :: name ++ ['$']).length - 1) = after := by
          simp [List.drop_append]
        rw [drop] at second
        exact ⟨name ++ '$' :: taken, by rw [dollar]; simpa [text] using first, by simp [second]⟩
      · cases h
  split at h
  · rename_i mark
    split at h
    · rename_i doubled
      cases h
      cases rest with
      | nil => simp at doubled
      | cons d rest =>
        cases doubled
        exact ⟨['?'], by rw [mark]; rfl, rfl⟩
    · cases h; exact ⟨[], by rw [mark]; rfl, rfl⟩
  · cases h; exact ⟨[], rfl, rfl⟩

theorem length_le_of_read {standard : Bool} {before : Text} {c : Char} {rest : Text}
    {lexeme : Lexeme} {later : Text} (h : read standard before c rest = .ok (lexeme, later)) :
    later.length ≤ rest.length := by
  obtain ⟨taken, -, split⟩ := read_append h
  simp [split]

def scanAfter (standard : Bool) (before : Text) (done : List Lexeme) :
    (rest : Text) → Except Unterminated (List Lexeme)
  | [] => .ok done.reverse
  | c :: rest =>
    match _taken : read standard before c rest with
    | .error construct => .error ⟨construct, Text.byteLength before⟩
    | .ok (lexeme, later) =>
      scanAfter standard (lexeme.text.reverse ++ before) (lexeme :: done) later
termination_by rest => rest.length
decreasing_by exact Nat.lt_succ_of_le (length_le_of_read _taken)

def scan (standard : Bool) (text : Text) : Except Unterminated (List Lexeme) :=
  scanAfter standard [] [] text

end Lexeme

end ExtendedQuery.Sql
