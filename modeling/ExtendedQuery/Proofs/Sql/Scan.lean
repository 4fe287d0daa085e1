import ExtendedQuery.Proofs.Sql.Grammar

/-!
# Reading lexemes by the grammar

Reading lexemes character by character finds the segments of the grammar: `read_ok`, `read_error` for
one lexeme, `scanAfter_ok`, `scanAfter_error` for a whole text. Main statement: `split_segmentation`,
the fragments of a text are those of its segmentation, and splitting fails where the segmentation breaks
off.
-/

namespace ExtendedQuery.Sql.Grammar

open Text Lexeme

@[simp] theorem utf8Char_quote : utf8Char '\x27' = [quote] := rfl
@[simp] theorem utf8Char_backslash : utf8Char '\x5c' = [backslash] := rfl
@[simp] theorem utf8Char_doubleQuote : utf8Char '"' = [doubleQuote] := rfl
@[simp] theorem utf8Char_dash : utf8Char '-' = [dash] := rfl
@[simp] theorem utf8Char_slash : utf8Char '/' = [slash] := rfl
@[simp] theorem utf8Char_star : utf8Char '*' = [star] := rfl
@[simp] theorem utf8Char_dollar : utf8Char '$' = [dollar] := rfl
@[simp] theorem utf8Char_questionMark : utf8Char '?' = [questionMark] := rfl

theorem utf8_quote (text : Text) : utf8 ('\x27' :: text) = quote :: utf8 text := by simp
theorem utf8_backslash (text : Text) : utf8 ('\x5c' :: text) = backslash :: utf8 text := by simp
theorem utf8_doubleQuote (text : Text) : utf8 ('"' :: text) = doubleQuote :: utf8 text := by simp
theorem utf8_dash (text : Text) : utf8 ('-' :: text) = dash :: utf8 text := by simp
theorem utf8_slash (text : Text) : utf8 ('/' :: text) = slash :: utf8 text := by simp
theorem utf8_star (text : Text) : utf8 ('*' :: text) = star :: utf8 text := by simp
theorem utf8_dollar (text : Text) : utf8 ('$' :: text) = dollar :: utf8 text := by simp

/-! ## Literals -/

abbrev PlainInLiteral (escapes : Bool) (b : UInt8) : Prop := b ≠ quote ∧ (b = backslash → escapes = false)

theorem LiteralTail.ne_nil {escapes : Bool} {tail : Bytes} (h : LiteralTail escapes tail) : tail ≠ [] := by
  cases h <;> simp

theorem LiteralTail.append {escapes : Bool} {bytes tail : Bytes}
    (plain : ∀ b ∈ bytes, PlainInLiteral escapes b) (h : LiteralTail escapes tail) :
    LiteralTail escapes (bytes ++ tail) := by
  induction bytes with
  | nil => exact h
  | cons b bytes ih =>
    have first := plain b (by simp)
    exact .other first.1 first.2 (ih fun c member => plain c (by simp [member]))

theorem LiteralTail.of_append {escapes : Bool} {bytes x tail later : Bytes}
    (plain : ∀ b ∈ bytes, PlainInLiteral escapes b) (h : LiteralTail escapes tail)
    (same : bytes ++ x = tail ++ later) : ∃ tail', LiteralTail escapes tail' ∧ x = tail' ++ later := by
  induction bytes generalizing tail with
  | nil => exact ⟨tail, h, same⟩
  | cons b bytes ih =>
    have first := plain b (by simp)
    have others := fun c member => plain c (List.mem_cons_of_mem b member)
    cases h with
    | close => simp at same; exact absurd same.1 first.1
    | doubled => simp at same; exact absurd same.1 first.1
    | escaped on => simp at same; simp [first.2 same.1] at on
    | other _ _ h => exact ih others h (List.cons.inj same).2

theorem plain_of_wide {escapes : Bool} {bytes : Bytes} (wide : Wide bytes) :
    ∀ b ∈ bytes, PlainInLiteral escapes b := by
  intro b member
  exact ⟨wide.ne_ascii (c := '\x27') (by decide) b member,
    fun same => absurd same (wide.ne_ascii (c := '\x5c') (by decide) b member)⟩

theorem plain_utf8Char {escapes : Bool} {c : Char} (notQuote : c ≠ '\x27')
    (notEscape : ¬(c = '\x5c' ∧ escapes = true)) : ∀ b ∈ utf8Char c, PlainInLiteral escapes b := by
  intro b member
  constructor
  · rintro rfl
    exact notQuote ((mem_utf8Char (a := '\x27') (by decide)).1 member).symm
  · rintro rfl
    have same := (mem_utf8Char (a := '\x5c') (by decide)).1 member
    simpa [← same] using notEscape

theorem closeLiteral_some {escapes : Bool} {seen text t later : Text}
    (h : closeLiteral escapes seen text = some (t, later)) :
    ∃ taken, t = seen.reverse ++ taken ∧ text = taken ++ later ∧ LiteralTail escapes (utf8 taken) ∧
      (utf8 later).head? ≠ some quote := by
  fun_induction closeLiteral escapes seen text with
  | case1 => cases h
  | case2 seen => cases h; exact ⟨['\x27'], by simp, rfl, .close, by simp⟩
  | case3 => cases h
  | case4 seen c d rest escape ih =>
    obtain ⟨taken, rfl, rfl, tail, next⟩ := ih h
    obtain ⟨b, bytes, first, wide⟩ := utf8Char_eq_cons d
    refine ⟨c :: d :: taken, by simp, by simp, ?_, next⟩
    rw [escape.1, utf8_backslash, utf8_cons, first]
    exact .escaped escape.2 (.append (plain_of_wide wide) tail)
  | case5 seen rest _ ih =>
    obtain ⟨taken, rfl, rfl, tail, next⟩ := ih h
    refine ⟨'\x27' :: '\x27' :: taken, by simp, by simp, ?_, next⟩
    rw [utf8_quote, utf8_quote]
    exact .doubled tail
  | case6 seen d rest single _ =>
    cases h
    refine ⟨['\x27'], by simp, by simp, .close, ?_⟩
    intro head
    exact single (Option.some.inj (head?_utf8 (a := '\x27') (by decide) head))
  | case7 seen c d rest notEscape notQuote ih =>
    obtain ⟨taken, rfl, same, tail, next⟩ := ih h
    refine ⟨c :: taken, by simp, by simp [same], ?_, next⟩
    rw [utf8_cons]
    exact .append (plain_utf8Char notQuote notEscape) tail

theorem closeLiteral_none {escapes : Bool} {seen text : Text} (h : closeLiteral escapes seen text = none)
    {tail later : Bytes} (ends : LiteralTail escapes tail) (same : utf8 text = tail ++ later) :
    later.head? = some quote := by
  fun_induction closeLiteral escapes seen text generalizing tail with
  | case1 => simp at same; exact absurd same.1 ends.ne_nil
  | case2 => cases h
  | case3 seen c notQuote =>
    by_cases escape : c = '\x5c' ∧ escapes = true
    · obtain ⟨rfl, on⟩ := escape
      rw [utf8_backslash] at same
      cases ends <;> simp_all
    · rw [utf8_cons] at same
      obtain ⟨tail', ends', nothing⟩ := ends.of_append (plain_utf8Char notQuote escape) same
      exact absurd (List.append_eq_nil_iff.1 nothing.symm).1 ends'.ne_nil
  | case4 seen c d rest escape ih =>
    obtain ⟨b, bytes, first, wide⟩ := utf8Char_eq_cons d
    rw [escape.1, utf8_backslash, utf8_cons, first, List.cons_append] at same
    cases ends with
    | close => simp at same
    | doubled => simp at same
    | escaped _ ends =>
      simp only [List.cons_append, List.cons.injEq, true_and] at same
      obtain ⟨tail', ends', same'⟩ := ends.of_append (plain_of_wide wide) same.2
      exact ih h ends' same'
    | other _ off =>
      simp only [List.cons_append, List.cons.injEq] at same
      simp [off same.1.symm] at escape
  | case5 seen rest _ ih =>
    rw [utf8_quote, utf8_quote] at same
    cases ends with
    | close => simp at same; simp [← same]
    | doubled ends => simp at same; exact ih h ends same
    | escaped => simp at same
    | other plain => simp at same; exact absurd same.1.symm plain
  | case6 => cases h
  | case7 seen c d rest notEscape notQuote ih =>
    rw [utf8_cons] at same
    obtain ⟨tail', ends', same'⟩ := ends.of_append (plain_utf8Char notQuote notEscape) same
    exact ih h ends' same'

/-! ## Quoted identifiers and line comments -/

theorem closeIdentifier_some {seen text t later : Text}
    (h : closeIdentifier seen text = some (t, later)) :
    ∃ name, t = seen.reverse ++ name ++ ['"'] ∧ text = name ++ '"' :: later ∧ '"' ∉ name := by
  fun_induction closeIdentifier seen text with
  | case1 => cases h
  | case2 seen rest => cases h; exact ⟨[], by simp, rfl, by simp⟩
  | case3 seen c rest other ih =>
    obtain ⟨name, rfl, rfl, absent⟩ := ih h
    exact ⟨c :: name, by simp, rfl, by simp [absent, Ne.symm other]⟩

theorem closeIdentifier_none {seen text : Text} (h : closeIdentifier seen text = none) :
    '"' ∉ text := by
  fun_induction closeIdentifier seen text with
  | case1 => simp
  | case2 => cases h
  | case3 seen c rest other ih => simp [ih h, Ne.symm other]

theorem closeLine_content (seen text : Text) :
    ∃ content ending, (closeLine seen text).1 = seen.reverse ++ content ++ ending ∧
      text = content ++ ending ++ (closeLine seen text).2 ∧ (∀ c ∈ content, c ≠ '\n' ∧ c ≠ '\r') ∧
      (ending = [] ∧ (closeLine seen text).2 = [] ∨ ending = ['\n'] ∨ ending = ['\r']) := by
  fun_induction closeLine seen text with
  | case1 seen => exact ⟨[], [], by simp, rfl, by simp, .inl ⟨rfl, rfl⟩⟩
  | case2 seen c rest isEnd =>
    refine ⟨[], [c], by simp, rfl, by simp, .inr ?_⟩
    rcases isEnd with rfl | rfl
    · exact .inl rfl
    · exact .inr rfl
  | case3 seen c rest inner ih =>
    obtain ⟨content, ending, first, second, others, ends⟩ := ih
    rw [not_or] at inner
    refine ⟨c :: content, ending, by simp [first], ?_, ?_, ends⟩
    · simpa using second
    · simpa using ⟨inner, others⟩

theorem isLineEnd_utf8 {text : Text} (inner : ∀ c ∈ text, c ≠ '\n' ∧ c ≠ '\r') :
    ∀ b ∈ utf8 text, ¬ isLineEnd b := by
  rintro b member (rfl | rfl)
  · exact (inner '\n' ((mem_utf8 (by decide)).1 member)).1 rfl
  · exact (inner '\r' ((mem_utf8 (by decide)).1 member)).2 rfl

/-! ## Comments

A comment that is `depth` levels deep ends after as many tails and one more. -/

theorem CommentTail.append {bytes tail : Bytes} (wide : Wide bytes) (h : CommentTail tail) :
    CommentTail (bytes ++ tail) := by
  induction bytes with
  | nil => exact h
  | cons b bytes ih =>
    have notSlash := wide.ne_ascii (c := '/') (by decide) b (by simp)
    have notStar := wide.ne_ascii (c := '*') (by decide) b (by simp)
    refine .other ?_ ?_ (ih fun c member => wide c (by simp [member]))
    · rw [List.cons_prefix_cons]
      exact fun same => notSlash same.1.symm
    · rw [List.cons_prefix_cons]
      exact fun same => notStar same.1.symm

theorem CommentTail.of_append {bytes x tail later : Bytes} (wide : Wide bytes) (h : CommentTail tail)
    (same : bytes ++ x = tail ++ later) : ∃ tail', CommentTail tail' ∧ x = tail' ++ later := by
  induction bytes generalizing tail with
  | nil => exact ⟨tail, h, same⟩
  | cons b bytes ih =>
    have notSlash : b ≠ slash := wide.ne_ascii (c := '/') (by decide) b (by simp)
    have notStar : b ≠ star := wide.ne_ascii (c := '*') (by decide) b (by simp)
    cases h with
    | close => simp at same; exact absurd same.1 notStar
    | nested => simp at same; exact absurd same.1 notSlash
    | other _ _ h => exact ih (fun c member => wide c (by simp [member])) h (List.cons.inj same).2

theorem pair_not_isPrefix {a b c d : Char} {rest : Text} (h : ¬(c = a ∧ d = b)) :
    ¬ utf8 [a, b] <+: utf8 (c :: d :: rest) := by
  rw [utf8_isPrefix, List.cons_prefix_cons, List.cons_prefix_cons]
  rintro ⟨rfl, rfl, -⟩
  exact h ⟨rfl, rfl⟩

theorem closeComment_some {depth : Nat} {seen text t later : Text}
    (h : closeComment depth seen text = some (t, later)) :
    ∃ (taken : Text) (tails : List Bytes), t = seen.reverse ++ taken ∧ text = taken ++ later ∧
      tails.length = depth + 1 ∧ (∀ tail ∈ tails, CommentTail tail) ∧ utf8 taken = tails.flatten := by
  fun_induction closeComment depth seen text with
  | case1 => cases h
  | case2 => cases h
  | case3 depth seen c d rest opens ih =>
    -- The innermost tail belongs to the comment that is opened here, which is a part of the next one.
    obtain ⟨taken, tails, rfl, rfl, count, each, bytes⟩ := ih h
    obtain ⟨rfl, rfl⟩ := opens
    obtain ⟨inner, tails, rfl⟩ := List.exists_cons_of_length_eq_add_one count
    obtain ⟨tail, tails, rfl⟩ := List.exists_cons_of_length_eq_add_one (Nat.succ.inj count)
    refine ⟨'/' :: '*' :: taken, (slash :: star :: (inner ++ tail)) :: tails, by simp, by simp,
      by simpa using count, ?_, ?_⟩
    · simp only [List.mem_cons, forall_eq_or_imp] at each ⊢
      exact ⟨.nested each.1 each.2.1, each.2.2⟩
    · rw [utf8_slash, utf8_star, bytes]
      simp
  | case4 seen c d rest _ shut =>
    cases h
    obtain ⟨rfl, rfl⟩ := shut
    refine ⟨['*', '/'], [[star, slash]], by simp, rfl, rfl, ?_, ?_⟩
    · simpa using CommentTail.close
    · rw [utf8_star, utf8_slash]
      simp
  | case5 seen c d rest _ shut outer ih =>
    obtain ⟨taken, tails, rfl, rfl, count, each, bytes⟩ := ih h
    obtain ⟨rfl, rfl⟩ := shut
    refine ⟨'*' :: '/' :: taken, [star, slash] :: tails, by simp, by simp, by simpa using count, ?_, ?_⟩
    · simpa using ⟨CommentTail.close, each⟩
    · rw [utf8_star, utf8_slash, bytes]
      simp
  | case6 depth seen c d rest notOpen notShut ih =>
    obtain ⟨taken, tails, rfl, same, count, each, bytes⟩ := ih h
    obtain ⟨tail, tails, rfl⟩ := List.exists_cons_of_length_eq_add_one count
    have first : CommentTail tail := each tail (by simp)
    refine ⟨c :: taken, (utf8Char c ++ tail) :: tails, by simp, by simp [same],
      by simpa using count, ?_, by simp [bytes]⟩
    simp only [List.mem_cons, forall_eq_or_imp] at each ⊢
    refine ⟨?_, each.2⟩
    rcases utf8Char_cases c with ⟨below, one⟩ | ⟨-, wide⟩
    · have text : utf8 (c :: d :: rest) = ascii c :: (tail ++ (tails.flatten ++ utf8 later)) := by
        rw [utf8_cons, one, same, utf8_append, bytes]
        simp
      rw [one, List.singleton_append]
      refine .other ?_ ?_ first
      · rw [← first.pair_isPrefix (x := tails.flatten ++ utf8 later), ← text]
        exact fun starts => pair_not_isPrefix notOpen (by rwa [utf8_slash, utf8_star, utf8_nil])
      · rw [← first.pair_isPrefix (x := tails.flatten ++ utf8 later), ← text]
        exact fun starts => pair_not_isPrefix notShut (by rwa [utf8_star, utf8_slash, utf8_nil])
    · exact first.append wide

theorem CommentTail.of_opening {tail x y : Bytes} (h : CommentTail tail)
    (same : slash :: star :: x = tail ++ y) :
    ∃ inner later, CommentTail inner ∧ CommentTail later ∧ x = inner ++ later ++ y := by
  cases h with
  | close => simp at same
  | @nested inner later hInner hLater => exact ⟨inner, later, hInner, hLater, by simpa using same⟩
  | @other b later opens _ h =>
    simp only [List.cons_append, List.cons.injEq] at same
    obtain ⟨rfl, rest⟩ := same
    rw [← h.pair_isPrefix (x := y), ← rest] at opens
    simp at opens

theorem CommentTail.of_end {tail x y : Bytes} (h : CommentTail tail)
    (same : star :: slash :: x = tail ++ y) : x = y := by
  cases h with
  | close => simpa using same
  | nested => simp at same
  | @other b later _ shuts h =>
    simp only [List.cons_append, List.cons.injEq] at same
    obtain ⟨rfl, rest⟩ := same
    rw [← h.pair_isPrefix (x := y), ← rest] at shuts
    simp at shuts

theorem CommentTail.of_char {c : Char} {rest : Text} {tail y : Bytes} (h : CommentTail tail)
    (notOpen : ¬ utf8 ['/', '*'] <+: utf8 (c :: rest)) (notShut : ¬ utf8 ['*', '/'] <+: utf8 (c :: rest))
    (same : utf8 (c :: rest) = tail ++ y) : ∃ later, CommentTail later ∧ utf8 rest = later ++ y := by
  rw [utf8_cons] at same
  rcases utf8Char_cases c with ⟨below, one⟩ | ⟨-, wide⟩
  · cases h with
    | close => exact absurd ⟨y, by rw [utf8_star, utf8_slash, utf8_nil, utf8_cons c, same]⟩ notShut
    | @nested inner tail =>
      refine absurd ⟨inner ++ tail ++ y, ?_⟩ notOpen
      rw [utf8_slash, utf8_star, utf8_nil, utf8_cons c, same]
      simp
    | other _ _ h =>
      rw [one, List.singleton_append, List.cons_append, List.cons.injEq] at same
      exact ⟨_, h, same.2⟩
  · exact h.of_append wide same

theorem closeComment_none {depth : Nat} {seen text : Text} (h : closeComment depth seen text = none)
    {tails : List Bytes} {later : Bytes} (count : tails.length = depth + 1)
    (each : ∀ tail ∈ tails, CommentTail tail) : utf8 text ≠ tails.flatten ++ later := by
  intro same
  fun_induction closeComment depth seen text generalizing tails with
  | case1 =>
    obtain ⟨tail, tails, rfl⟩ := List.exists_cons_of_length_eq_add_one count
    simp at same
    exact (each tail (by simp)).ne_nil same.1
  | case2 depth seen c =>
    obtain ⟨tail, tails, rfl⟩ := List.exists_cons_of_length_eq_add_one count
    rw [List.flatten_cons, List.append_assoc] at same
    have alone {a b : Char} : ¬ utf8 [a, b] <+: utf8 [c] := by
      rw [utf8_isPrefix]
      exact fun starts => absurd starts.length_le (by simp)
    obtain ⟨tail', ends, nothing⟩ := (each tail (by simp)).of_char alone alone same
    simp at nothing
    exact ends.ne_nil nothing.1
  | case3 depth seen c d rest opens ih =>
    obtain ⟨rfl, rfl⟩ := opens
    obtain ⟨tail, tails, rfl⟩ := List.exists_cons_of_length_eq_add_one count
    rw [utf8_slash, utf8_star, List.flatten_cons, List.append_assoc] at same
    obtain ⟨inner, outer, hInner, hOuter, same⟩ := (each tail (by simp)).of_opening same
    refine @ih h (inner :: outer :: tails) (by simpa using count) ?_ (by simpa using same)
    simp only [List.mem_cons, forall_eq_or_imp] at each ⊢
    exact ⟨hInner, hOuter, each.2⟩
  | case4 => cases h
  | case5 seen c d rest _ shuts outer ih =>
    obtain ⟨rfl, rfl⟩ := shuts
    obtain ⟨tail, tails, rfl⟩ := List.exists_cons_of_length_eq_add_one count
    rw [utf8_star, utf8_slash, List.flatten_cons, List.append_assoc] at same
    have same := (each tail (by simp)).of_end same
    exact ih h (by simpa using count) (fun tail member => each tail (by simp [member])) same
  | case6 depth seen c d rest notOpen notShut ih =>
    obtain ⟨tail, tails, rfl⟩ := List.exists_cons_of_length_eq_add_one count
    rw [List.flatten_cons, List.append_assoc] at same
    obtain ⟨tail', ends, same⟩ := (each tail (by simp)).of_char (pair_not_isPrefix notOpen)
      (pair_not_isPrefix notShut) same
    refine @ih h (tail' :: tails) (by simpa using count) ?_ (by simpa using same)
    simp only [List.mem_cons, forall_eq_or_imp] at each ⊢
    exact ⟨ends, each.2⟩

/-! ## Dollar quotes -/

theorem closeDollar_some {name seen text t later : Text}
    (h : closeDollar ('$' :: name) seen text = some (t, later)) :
    ∃ content, t = seen.reverse ++ content ++ '$' :: name ∧ text = content ++ '$' :: name ++ later ∧
      ∀ x y, utf8 text = x ++ utf8 ('$' :: name) ++ y → (utf8 content).length ≤ x.length := by
  fun_induction closeDollar ('$' :: name) seen text with
  | case1 => cases h
  | case2 seen c rest starts =>
    cases h
    obtain ⟨later, split⟩ := List.isPrefixOf_iff_prefix.1 starts
    exact ⟨[], by simp, by rw [← split]; simp, by simp⟩
  | case3 seen c rest starts ih =>
    obtain ⟨content, rfl, rfl, first⟩ := ih h
    refine ⟨c :: content, by simp, by simp, ?_⟩
    intro x y same
    -- The tag starts with `$`, so in the bytes as well it can only stand where a character starts.
    by_cases empty : x = []
    · subst empty
      rw [List.isPrefixOf_iff_prefix, ← utf8_isPrefix] at starts
      exact absurd ⟨y, by rw [same]; simp⟩ starts
    · rw [utf8_cons, utf8_dollar, List.append_assoc x, List.cons_append] at same
      obtain ⟨x', rfl, same'⟩ := utf8Char_eq_append (a := '$') (by decide) empty same
      have bound := first x' y (by rw [same', utf8_dollar, List.append_assoc, List.cons_append]; rfl)
      rw [utf8_cons, List.length_append, List.length_append]
      omega

theorem closeDollar_none {name seen text : Text} (h : closeDollar ('$' :: name) seen text = none)
    (x y : Bytes) : utf8 text ≠ x ++ utf8 ('$' :: name) ++ y := by
  intro same
  fun_induction closeDollar ('$' :: name) seen text generalizing x with
  | case1 =>
    rw [utf8_dollar] at same
    simp at same
  | case2 => cases h
  | case3 seen c rest starts ih =>
    by_cases empty : x = []
    · subst empty
      rw [List.isPrefixOf_iff_prefix, ← utf8_isPrefix] at starts
      exact starts ⟨y, by rw [same]; simp⟩
    · rw [utf8_cons, utf8_dollar, List.append_assoc x, List.cons_append] at same
      obtain ⟨x', rfl, same'⟩ := utf8Char_eq_append (a := '$') (by decide) empty same
      exact ih h x' (by rw [same', utf8_dollar, List.append_assoc, List.cons_append]; rfl)

/-! ## What stands before

The text before a lexeme is known last character first. -/

theorem endsIdentifier_iff (before : Text) :
    EndsIdentifier (utf8 before.reverse) ↔ before.head?.any isIdentifierChar = true := by
  cases before with
  | nil => simp [EndsIdentifier]
  | cons c before =>
    have last : (utf8 (c :: before).reverse).getLast? = (utf8Char c).getLast? := by
      rw [List.reverse_cons, utf8_append, utf8_cons, utf8_nil, List.append_nil]
      exact List.getLast?_append_of_ne_nil _ String.utf8EncodeChar_ne_nil
    rw [EndsIdentifier, last]
    obtain ⟨b, found⟩ := Option.ne_none_iff_exists'.1
      (mt List.getLast?_eq_none_iff.1 (String.utf8EncodeChar_ne_nil (c := c)))
    rw [found]
    simpa using isIdentifierByte_iff (List.mem_of_getLast? found)

theorem endsEscapeMark_iff (before : Text) :
    EndsEscapeMark (utf8 before.reverse) ↔ opensEscapes before = true := by
  cases before with
  | nil => simp [EndsEscapeMark, opensEscapes]
  | cons c before =>
    rw [List.reverse_cons, utf8_append, utf8_cons, utf8_nil, List.append_nil]
    have isMark : (utf8Char c = [0x65] ∨ utf8Char c = [0x45]) ↔ c = 'e' ∨ c = 'E' := by
      have lower : utf8Char c = [0x65] ↔ c = 'e' :=
        ⟨fun h => (utf8Char_append_inj (d := 'e') (x := []) (y := []) (by rw [h]; rfl)).1,
          fun h => by rw [h]; rfl⟩
      have upper : utf8Char c = [0x45] ↔ c = 'E' :=
        ⟨fun h => (utf8Char_append_inj (d := 'E') (x := []) (y := []) (by rw [h]; rfl)).1,
          fun h => by rw [h]; rfl⟩
      rw [lower, upper]
    simp only [opensEscapes, Bool.and_eq_true, Bool.or_eq_true, beq_iff_eq, Bool.not_eq_true',
      ← isMark, ← Bool.not_eq_true, ← endsIdentifier_iff]
    constructor
    · rintro ⟨front, e, same, isE, free⟩
      rcases utf8Char_cases c with ⟨-, one⟩ | ⟨-, wide⟩
      · rw [one] at same ⊢
        obtain ⟨rfl, last⟩ := List.append_inj' same rfl
        cases last
        exact ⟨by simpa using isE, free⟩
      · have member : e ∈ utf8Char c := by
          have last := congrArg List.getLast? same
          rw [List.getLast?_append_of_ne_nil _ String.utf8EncodeChar_ne_nil] at last
          exact List.mem_of_getLast? (by simpa using last)
        rcases isE with rfl | rfl
        · exact absurd rfl (wide.ne_ascii (c := 'e') (by decide) _ member)
        · exact absurd rfl (wide.ne_ascii (c := 'E') (by decide) _ member)
    · rintro ⟨isE | isE, free⟩
      · exact ⟨_, 0x65, by rw [isE], .inl rfl, free⟩
      · exact ⟨_, 0x45, by rw [isE], .inr rfl, free⟩

/-! ## Tags -/

theorem isTagName_iff (name : Text) :
    IsTagName (utf8 name) ↔ (∀ c ∈ name, isIdentifierChar c = true ∧ c ≠ '$') ∧
      ∀ c ∈ name.head?, c.isDigit = false := by
  have head : (∀ b ∈ (utf8 name).head?, ¬ isDigitByte b) ↔ ∀ c ∈ name.head?, c.isDigit = false := by
    cases name with
    | nil => simp
    | cons c name =>
      obtain ⟨b, bytes, first, -⟩ := utf8Char_eq_cons c
      have digit : isDigitByte b ↔ c.isDigit = true := isDigitByte_iff (by simp [first])
      simp [first, digit]
  rw [IsTagName, head]
  refine and_congr_left fun _ => ?_
  simp only [utf8_eq_flatMap, List.mem_flatMap]
  constructor
  · intro each c member
    obtain ⟨b, bytes, first, -⟩ := utf8Char_eq_cons c
    refine ⟨(isIdentifierByte_iff (by simp [first])).1 (each b ⟨c, member, by simp [first]⟩).1, ?_⟩
    rintro rfl
    exact (each dollar ⟨'$', member, (mem_utf8Char (by decide)).2 rfl⟩).2 rfl
  · rintro each b ⟨c, member, inside⟩
    refine ⟨(isIdentifierByte_iff inside).2 (each c member).1, ?_⟩
    rintro rfl
    exact (each c member).2 ((mem_utf8Char (a := '$') (by decide)).1 inside).symm

theorem opens_dollarTag {before rest tag : Text} (h : dollarTag? before rest = some tag) :
    ∃ name later, tag = '$' :: name ++ ['$'] ∧ rest = name ++ '$' :: later ∧
      Opens (utf8 before.reverse) (.dollarQuote tag) (utf8 tag) := by
  have found := h
  unfold dollarTag? at h
  split at h
  · cases h
  · rename_i free
    dsimp only at h
    split at h
    · rename_i later stop
      cases h
      refine ⟨_, later, rfl, by rw [← stop, List.takeWhile_append_dropWhile], ?_⟩
      simp only [Bool.or_eq_true, not_or] at free
      rw [List.cons_append, utf8_dollar, utf8_append, utf8_dollar, utf8_nil]
      refine .dollarQuote ?_ ((isTagName_iff _).2 ⟨?_, ?_⟩)
      · rw [endsIdentifier_iff]
        exact free.1
      · intro c member
        have inner := List.all_eq_true.1 (List.all_takeWhile (l := rest)) c member
        simpa using inner
      · intro c member
        have first : rest.head? = some c := by
          rw [← List.takeWhile_append_dropWhile (l := rest)]
          rw [List.head?_append, Option.mem_def.1 member]
          rfl
        simpa [first] using free.2
    · cases h

theorem not_opens_dollarTag {before rest name : Text} (h : dollarTag? before rest = none)
    (free : ¬ EndsIdentifier (utf8 before.reverse)) (isName : IsTagName (utf8 name)) :
    ¬ dollar :: utf8 name ++ [dollar] <+: utf8 ('$' :: rest) := by
  have tag : dollar :: utf8 name ++ [dollar] = utf8 ('$' :: name ++ ['$']) := by
    rw [List.cons_append, List.cons_append, utf8_dollar, utf8_append, utf8_dollar, utf8_nil]
  rw [tag, utf8_isPrefix, List.cons_append, List.cons_prefix_cons]
  -- The characters of the name are those up to the first `$`, which is what was looked for.
  rintro ⟨-, later, rfl⟩
  obtain ⟨inner, first⟩ := (isTagName_iff name).1 isName
  rw [endsIdentifier_iff] at free
  have noDigit : ((name ++ ['$'] ++ later).head?.any Char.isDigit) = false := by
    cases name with
    | nil => rfl
    | cons c name => simpa using first c (by simp)
  have stop : (name ++ ['$'] ++ later).dropWhile (fun c => isIdentifierChar c && c != '$') =
      '$' :: later := by
    rw [List.append_assoc, List.dropWhile_append_of_pos]
    · rfl
    · intro c member
      simpa using inner c member
  unfold dollarTag? at h
  rw [if_neg (by rw [noDigit, Bool.or_false]; exact free)] at h
  dsimp only at h
  rw [stop] at h
  cases h

/-! ## One lexeme -/

theorem Segmentation.single {standard : Bool} {before rest : Bytes} {segment : Segment}
    (h : Reads standard before rest segment) : Segmentation standard before [segment] rest :=
  .cons (by simpa using h) .nil

theorem not_opens_of_head {before rest : Bytes} {b : UInt8} (notQuote : b ≠ quote)
    (notDouble : b ≠ doubleQuote) (notComment : ¬ [slash, star] <+: b :: rest) (notDollar : b ≠ dollar)
    (construct : Construct) (opening : Bytes) (opens : Opens before construct opening) :
    ¬ opening <+: b :: rest := by
  cases opens with
  | literal => simpa [List.cons_prefix_cons] using notQuote.symm
  | identifier => simpa [List.cons_prefix_cons] using notDouble.symm
  | comment => exact notComment
  | dollarQuote =>
    rw [List.cons_append, List.cons_prefix_cons]
    exact fun same => notDollar same.1.symm

def IsSpecial (b : UInt8) : Prop :=
  b = quote ∨ b = doubleQuote ∨ b = dash ∨ b = slash ∨ b = dollar ∨ b = questionMark

theorem segmentation_other {standard : Bool} {before rest bytes : Bytes} (ordinary : ∀ b ∈ bytes, ¬ IsSpecial b) :
    Segmentation standard before (bytes.map .other) rest := by
  induction bytes generalizing before with
  | nil => exact .nil
  | cons b bytes ih =>
    have first := ordinary b (by simp)
    simp only [IsSpecial, not_or] at first
    obtain ⟨notQuote, notDouble, notDash, notSlash, notDollar, notMark⟩ := first
    refine .cons (.other notMark ?_ ?_) (ih fun c member => ordinary c (by simp [member]))
    · rw [List.cons_prefix_cons]
      exact fun same => notDash same.1.symm
    · refine not_opens_of_head notQuote notDouble ?_ notDollar
      rw [List.cons_prefix_cons]
      exact fun same => notSlash same.1.symm

theorem not_isSpecial_of_wide {bytes : Bytes} (wide : Wide bytes) : ∀ b ∈ bytes, ¬ IsSpecial b := by
  intro b member
  have ne {c : Char} (small : c.toNat < 0x80) : b ≠ ascii c := wide.ne_ascii small b member
  simp only [IsSpecial, not_or]
  exact ⟨ne (c := '\x27') (by decide), ne (c := '"') (by decide), ne (c := '-') (by decide),
    ne (c := '/') (by decide), ne (c := '$') (by decide), ne (c := '?') (by decide)⟩

theorem segmentation_plain {standard : Bool} {before rest : Text} {c : Char} (notQuote : c ≠ '\x27')
    (notDouble : c ≠ '"') (notLine : ¬(c = '-' ∧ rest.head? = some '-'))
    (notComment : ¬(c = '/' ∧ rest.head? = some '*')) (noTag : c = '$' → dollarTag? before rest = none)
    (notMark : c ≠ '?') :
    Segmentation standard (utf8 before.reverse) ((utf8Char c).map .other) (utf8 rest) := by
  have pair (a b : Char) (h : ¬(c = a ∧ rest.head? = some b)) : ¬ utf8 [a, b] <+: utf8 (c :: rest) := by
    rw [utf8_isPrefix, List.cons_prefix_cons]
    rintro ⟨rfl, later, rfl⟩
    exact h ⟨rfl, rfl⟩
  rcases utf8Char_cases c with ⟨below, one⟩ | ⟨-, wide⟩
  · have text : utf8 (c :: rest) = ascii c :: utf8 rest := by rw [utf8_cons, one]; rfl
    have ne {d : Char} (small : d.toNat < 0x80) (h : c ≠ d) : ascii c ≠ ascii d :=
      fun same => h (ascii_inj below small same)
    rw [one]
    refine .single (.other (ne (d := '?') (by decide) notMark) ?_ ?_)
    · rw [← text]
      exact fun starts => pair _ _ notLine (by rwa [utf8_dash, utf8_dash, utf8_nil])
    · by_cases isDollar : c = '$'
      · subst isDollar
        intro construct opening opens
        cases opens with
        | dollarQuote free isName =>
          have absent := not_opens_dollarTag (noTag rfl) free isName
          rw [utf8_dollar] at absent
          exact absent
        | _ => simp [List.cons_prefix_cons]
      · refine not_opens_of_head (ne (d := '\x27') (by decide) notQuote)
          (ne (d := '"') (by decide) notDouble) ?_ (ne (d := '$') (by decide) isDollar)
        rw [← text]
        exact fun starts => pair _ _ notComment (by rwa [utf8_slash, utf8_star, utf8_nil])
  · exact segmentation_other (not_isSpecial_of_wide wide)

theorem bytesOf_map_other (bytes : Bytes) : bytesOf (bytes.map .other) = bytes := by
  induction bytes with
  | nil => rfl
  | cons b bytes ih => exact congrArg (b :: ·) ih

theorem kept_map_other (bytes : Bytes) : (bytes.map Segment.other).flatMap Segment.kept = bytes := by
  induction bytes with
  | nil => rfl
  | cons b bytes ih => exact congrArg (b :: ·) ih

/-- The segments of a lexeme: a plain character is one for each of its bytes. -/
inductive Keeps : Lexeme → List Segment → Prop
  | literal (escapes : Bool) (text : Text) : Keeps (.literal escapes text) [.enclosed .literal (utf8 text)]
  | identifier (text : Text) : Keeps (.identifier text) [.enclosed .identifier (utf8 text)]
  | lineComment (text : Text) : Keeps (.lineComment text) [.lineComment (utf8 text)]
  | blockComment (text : Text) : Keeps (.blockComment text) [.enclosed .comment (utf8 text)]
  | dollarQuote (tag text : Text) : Keeps (.dollarQuote text) [.enclosed (.dollarQuote tag) (utf8 text)]
  | escapedMark : Keeps .escapedMark [.escapedMark]
  | mark : Keeps .mark [.mark]
  | plain (c : Char) : Keeps (.plain c) ((utf8Char c).map .other)

theorem Keeps.bytes {lexeme : Lexeme} {segments : List Segment} (keeps : Keeps lexeme segments) :
    bytesOf segments = utf8 lexeme.text := by
  cases keeps with
  | plain c => rw [bytesOf_map_other, Lexeme.text, utf8_cons, utf8_nil, List.append_nil]
  | escapedMark => simp [Segment.bytes, Lexeme.text]
  | mark => simp [Segment.bytes, Lexeme.text]
  | _ => exact List.append_nil _

def Divides (standard : Bool) (before : Text) (lexeme : Lexeme) (later : Text) : Prop :=
  ∃ segments, Segmentation standard (utf8 before.reverse) segments (utf8 later) ∧ Keeps lexeme segments

section

variable {standard : Bool} {before rest text later : Text}

theorem escapes_iff (standard : Bool) (before : Text) :
    (!standard || opensEscapes before) = true ↔
      standard = false ∨ EndsEscapeMark (utf8 before.reverse) := by
  rw [endsEscapeMark_iff]
  cases standard <;> simp

theorem divides_literal
    (closed : closeLiteral (!standard || opensEscapes before) ['\x27'] rest = some (text, later)) :
    Divides standard before (.literal (!standard || opensEscapes before) text) later := by
  obtain ⟨taken, rfl, rfl, ends, next⟩ := closeLiteral_some closed
  have closes : Closes standard (utf8 before.reverse) (utf8 later) .literal (utf8 taken) :=
    .literal (escapes_iff standard before) ends next
  have bytes : utf8 (['\x27'].reverse ++ taken) = [quote] ++ utf8 taken := utf8_quote taken
  refine ⟨_, ?_, .literal _ _⟩
  rw [bytes]
  exact .single (.enclosed .literal closes)

theorem unclosed_literal
    (open' : closeLiteral (!standard || opensEscapes before) ['\x27'] rest = none) :
    Unclosed standard (utf8 before.reverse) .literal (utf8 ('\x27' :: rest)) := by
  refine ⟨_, utf8 rest, .literal, utf8_quote rest, ?_⟩
  rintro closing later same (⟨escapes, ends, next⟩)
  rw [Bool.eq_iff_iff.2 (escapes.trans (escapes_iff standard before).symm)] at ends
  exact next (closeLiteral_none open' ends same)

theorem divides_identifier (closed : closeIdentifier ['"'] rest = some (text, later)) :
    Divides standard before (.identifier text) later := by
  obtain ⟨name, rfl, rfl, absent⟩ := closeIdentifier_some closed
  have absent' : doubleQuote ∉ utf8 name := fun member => absent ((mem_utf8 (by decide)).1 member)
  have bytes : utf8 (['"'].reverse ++ name ++ ['"']) = [doubleQuote] ++ (utf8 name ++ [doubleQuote]) := by simp
  refine ⟨_, ?_, .identifier _⟩
  rw [bytes]
  exact .single (.enclosed .identifier (.identifier absent'))

theorem unclosed_identifier (open' : closeIdentifier ['"'] rest = none) :
    Unclosed standard (utf8 before.reverse) .identifier (utf8 ('"' :: rest)) := by
  refine ⟨_, utf8 rest, .identifier, utf8_doubleQuote rest, ?_⟩
  rintro closing later same ⟨absent⟩
  have found : doubleQuote ∈ utf8 rest := by simp [same]
  exact closeIdentifier_none open' ((mem_utf8 (by decide)).1 found)

theorem divides_lineComment (standard : Bool) (before rest : Text) :
    Divides standard before (.lineComment (closeLine ['-'] ('-' :: rest)).1)
      (closeLine ['-'] ('-' :: rest)).2 := by
  have second : closeLine ['-'] ('-' :: rest) = closeLine ['-', '-'] rest := by simp [closeLine]
  obtain ⟨content, ending, first, same, inner, ends⟩ := closeLine_content ['-', '-'] rest
  have ends' : utf8 ending = [] ∧ utf8 (closeLine ['-', '-'] rest).2 = [] ∨
      ∃ b, isLineEnd b ∧ utf8 ending = [b] := by
    rcases ends with ⟨rfl, nothing⟩ | rfl | rfl
    · exact .inl ⟨utf8_nil, by rw [nothing, utf8_nil]⟩
    · exact .inr ⟨0x0A, .inl rfl, by simp; rfl⟩
    · exact .inr ⟨0x0D, .inr rfl, by simp; rfl⟩
  have bytes : utf8 (closeLine ['-', '-'] rest).1 = dash :: dash :: utf8 content ++ utf8 ending := by simp [first]
  rw [second]
  refine ⟨_, ?_, .lineComment _⟩
  rw [bytes]
  exact .single (.lineComment (isLineEnd_utf8 inner) ends')

theorem divides_blockComment (closed : closeComment 0 ['*', '/'] rest = some (text, later)) :
    Divides standard before (.blockComment text) later := by
  obtain ⟨taken, tails, rfl, same, count, each, bytes⟩ := closeComment_some closed
  obtain ⟨tail, rfl⟩ := List.length_eq_one_iff.1 count
  rw [List.flatten_singleton] at bytes
  have ends : CommentTail (utf8 taken) := by rw [bytes]; exact each tail (by simp)
  have opened : utf8 (['*', '/'].reverse ++ taken) = [slash, star] ++ utf8 taken := by simp
  refine ⟨_, ?_, .blockComment _⟩
  rw [opened]
  exact .single (.enclosed .comment (.comment ends))

theorem unclosed_blockComment (open' : closeComment 0 ['*', '/'] rest = none) :
    Unclosed standard (utf8 before.reverse) .comment (utf8 ('/' :: '*' :: rest)) := by
  refine ⟨_, utf8 rest, .comment, by rw [utf8_slash, utf8_star]; rfl, ?_⟩
  rintro closing later same closes
  cases closes with
  | comment ends =>
    have each : ∀ tail ∈ [closing], CommentTail tail := by simpa using ends
    exact closeComment_none open' rfl each (by simpa using same)

theorem drop_tag (name after : Text) :
    (name ++ '$' :: after).drop (('$' :: name ++ ['$']).length - 1) = after := by
  simp [List.drop_append]

theorem divides_dollarQuote {tag : Text} (found : dollarTag? before rest = some tag)
    (closed : closeDollar tag tag.reverse (rest.drop (tag.length - 1)) = some (text, later)) :
    Divides standard before (.dollarQuote text) later := by
  obtain ⟨name, after, rfl, rfl, opens⟩ := opens_dollarTag found
  obtain ⟨content, rfl, same, first⟩ := closeDollar_some closed
  rw [drop_tag] at same first
  rw [same] at first
  have closes : Closes standard (utf8 before.reverse) (utf8 later) (.dollarQuote ('$' :: name ++ ['$']))
      (utf8 content ++ utf8 ('$' :: name ++ ['$'])) := by
    apply Closes.dollarQuote
    simpa using first
  have bytes : utf8 (('$' :: name ++ ['$']).reverse.reverse ++ content ++ '$' :: name.append ['$']) =
      utf8 ('$' :: name ++ ['$']) ++ (utf8 content ++ utf8 ('$' :: name ++ ['$'])) := by simp
  refine ⟨_, ?_, .dollarQuote ('$' :: name ++ ['$']) _⟩
  rw [bytes]
  exact .single (.enclosed opens closes)

theorem unclosed_dollarQuote {tag : Text} (found : dollarTag? before rest = some tag)
    (open' : closeDollar tag tag.reverse (rest.drop (tag.length - 1)) = none) :
    Unclosed standard (utf8 before.reverse) (.dollarQuote tag) (utf8 ('$' :: rest)) := by
  obtain ⟨name, after, rfl, rfl, opens⟩ := opens_dollarTag found
  rw [drop_tag] at open'
  refine ⟨_, utf8 after, opens, by simp, ?_⟩
  rintro closing later same closes
  cases closes with
  | dollarQuote => exact closeDollar_none open' _ _ same

theorem divides_escapedMark : Divides standard before .escapedMark later :=
  ⟨_, .single .escapedMark, .escapedMark⟩

theorem divides_mark (single : later.head? ≠ some '?') : Divides standard before .mark later := by
  refine ⟨_, .single (.mark ?_), .mark⟩
  exact fun head => single (head?_utf8 (a := '?') (by decide) head)

theorem read_ok {c : Char} {lexeme : Lexeme} (h : read standard before c rest = .ok (lexeme, later)) :
    Divides standard before lexeme later := by
  unfold Lexeme.read at h
  split at h
  · rename_i isQuote
    subst isQuote
    dsimp only at h
    split at h
    · rename_i closed
      cases h
      exact divides_literal closed
    · cases h
  split at h
  · rename_i isDouble
    subst isDouble
    split at h
    · rename_i closed
      cases h
      exact divides_identifier closed
    · cases h
  split at h
  · rename_i opened
    cases h
    obtain ⟨rfl, next⟩ := opened
    obtain ⟨rest, rfl⟩ := List.head?_eq_some_iff.1 next
    exact divides_lineComment standard before rest
  split at h
  · rename_i opened
    obtain ⟨rfl, next⟩ := opened
    obtain ⟨rest, rfl⟩ := List.head?_eq_some_iff.1 next
    split at h
    · rename_i closed
      cases h
      exact divides_blockComment closed
    · cases h
  split at h
  · rename_i isDollar
    subst isDollar
    split at h
    · rename_i noTag
      cases h
      exact ⟨_, segmentation_plain (by decide) (by decide) (by simp) (by simp) (fun _ => noTag)
        (by decide), .plain _⟩
    · rename_i tag found
      split at h
      · rename_i closed
        cases h
        exact divides_dollarQuote found closed
      · cases h
  split at h
  · split at h
    · cases h
      exact divides_escapedMark
    · rename_i single
      cases h
      exact divides_mark single
  · rename_i notQuote notDouble notLine notComment notDollar notMark
    cases h
    exact ⟨_, segmentation_plain notQuote notDouble notLine notComment (absurd · notDollar) notMark,
      .plain c⟩

theorem read_error {c : Char} {construct : Construct} (h : read standard before c rest = .error construct) :
    Unclosed standard (utf8 before.reverse) construct (utf8 (c :: rest)) := by
  unfold Lexeme.read at h
  split at h
  · rename_i isQuote
    subst isQuote
    dsimp only at h
    split at h
    · cases h
    · rename_i open'
      cases h
      exact unclosed_literal open'
  split at h
  · rename_i isDouble
    subst isDouble
    split at h
    · cases h
    · rename_i open'
      cases h
      exact unclosed_identifier open'
  split at h
  · cases h
  split at h
  · rename_i opened
    obtain ⟨rfl, next⟩ := opened
    obtain ⟨rest, rfl⟩ := List.head?_eq_some_iff.1 next
    split at h
    · cases h
    · rename_i open'
      cases h
      exact unclosed_blockComment open'
  split at h
  · rename_i isDollar
    subst isDollar
    split at h
    · cases h
    · rename_i tag found
      split at h
      · cases h
      · rename_i open'
        cases h
        exact unclosed_dollarQuote found open'
  split at h
  · split at h <;> cases h
  · cases h

end

/-! ## A whole text -/

theorem Keeps.bytesOf_append {lexeme : Lexeme} {segments : List Segment} (keeps : Keeps lexeme segments)
    (others : List Segment) : bytesOf (segments ++ others) = utf8 lexeme.text ++ bytesOf others := by
  rw [bytesOf, List.flatMap_append, ← bytesOf, keeps.bytes]

theorem Keeps.segmentation_append {standard : Bool} {before later : Text} {lexeme : Lexeme}
    {segments others : List Segment} {open' : Bytes} (keeps : Keeps lexeme segments)
    (first : Segmentation standard (utf8 before.reverse) segments (utf8 later))
    (bytes : utf8 later = bytesOf others ++ open')
    (segmentation : Segmentation standard (utf8 (lexeme.text.reverse ++ before).reverse) others open') :
    Segmentation standard (utf8 before.reverse) (segments ++ others) open' := by
  refine .append ?_ ?_
  · rw [← bytes]
    exact first
  · rw [keeps.bytes]
    simpa using segmentation

theorem Keeps.parts_prepend {lexeme : Lexeme} {segments others : List Segment} {fragments : Fragments}
    (keeps : Keeps lexeme segments) (later : fragments.parts.map utf8 = fragmentsOf others) :
    (fragments.prepend lexeme).parts.map utf8 = fragmentsOf (segments ++ others) := by
  cases keeps with
  | mark =>
    rw [List.singleton_append, fragmentsOf_mark, ← later]
    simp [Fragments.prepend, Fragments.parts]
  | escapedMark =>
    rw [fragmentsOf_append (by simp), ← later]
    simp [Fragments.prepend, Fragments.parts, Lexeme.kept, Segment.kept]
  | plain c =>
    rw [fragmentsOf_append (by simp), ← later, kept_map_other]
    simp [Fragments.prepend, Fragments.parts, Lexeme.kept, Lexeme.text]
  | _ =>
    rw [fragmentsOf_append (by simp), ← later]
    simp [Fragments.prepend, Fragments.parts, Lexeme.kept, Lexeme.text, Segment.kept, Segment.bytes]

theorem parts_ofLexemes {lexemes : List Lexeme} {parts : List (List Segment)}
    (keeps : List.Forall₂ Keeps lexemes parts) :
    (Fragments.ofLexemes lexemes).parts.map utf8 = fragmentsOf parts.flatten := by
  induction keeps with
  | nil => rfl
  | cons first _ ih => exact first.parts_prepend ih

theorem scanAfter_ok {standard : Bool} {before rest : Text} {done lexemes : List Lexeme}
    (h : scanAfter standard before done rest = .ok lexemes) :
    ∃ later parts, lexemes = done.reverse ++ later ∧ List.Forall₂ Keeps later parts ∧
      Segmentation standard (utf8 before.reverse) parts.flatten [] ∧ bytesOf parts.flatten = utf8 rest := by
  fun_induction scanAfter standard before done rest with
  | case1 before done =>
    cases h
    exact ⟨[], [], by simp, .nil, .nil, by simp⟩
  | case2 => cases h
  | case3 before done c rest lexeme later read ih =>
    obtain ⟨lexemes', parts, rfl, each, segmentation, bytes⟩ := ih h
    obtain ⟨segments, first, keeps⟩ := read_ok read
    obtain ⟨taken, text, rfl⟩ := read_append read
    refine ⟨lexeme :: lexemes', segments :: parts, by simp, .cons keeps each, ?_, ?_⟩
    · exact keeps.segmentation_append first (by rw [bytes, List.append_nil]) segmentation
    · rw [List.flatten_cons, keeps.bytesOf_append, bytes, text, ← utf8_append, List.cons_append]

theorem scan_ok {standard : Bool} {text : Text} {lexemes : List Lexeme} (h : scan standard text = .ok lexemes) :
    ∃ parts, List.Forall₂ Keeps lexemes parts ∧ IsSegmentation standard (utf8 text) parts.flatten := by
  obtain ⟨later, parts, rfl, each, segmentation, bytes⟩ := scanAfter_ok h
  exact ⟨parts, each, by simpa using segmentation, bytes⟩

theorem scanAfter_error {standard : Bool} {before rest : Text} {done : List Lexeme} {e : Unterminated}
    (h : scanAfter standard before done rest = .error e) :
    ∃ segments open', Segmentation standard (utf8 before.reverse) segments open' ∧
      utf8 rest = bytesOf segments ++ open' ∧
      Unclosed standard (utf8 before.reverse ++ bytesOf segments) e.construct open' ∧
      e.offset = byteLength before + (bytesOf segments).length := by
  fun_induction scanAfter standard before done rest with
  | case1 => cases h
  | case2 before done c rest construct read =>
    cases h
    exact ⟨[], utf8 (c :: rest), .nil, by simp, by simpa using read_error read, by simp⟩
  | case3 before done c rest lexeme later read ih =>
    obtain ⟨segments', open', segmentation, bytes, unclosed, offset⟩ := ih h
    obtain ⟨segments, first, keeps⟩ := read_ok read
    obtain ⟨taken, text, rfl⟩ := read_append read
    have inner := keeps.bytesOf_append segments'
    refine ⟨segments ++ segments', open', keeps.segmentation_append first bytes segmentation, ?_, ?_, ?_⟩
    · rw [inner, List.append_assoc, ← bytes, text, ← utf8_append, List.cons_append]
    · rw [inner]
      simpa using unclosed
    · rw [offset, inner, List.length_append, length_utf8, byteLength_append, byteLength_reverse]
      omega

theorem split_ok {standard : Bool} {text : Text} {fragments : Fragments}
    (h : split standard text = .ok fragments) :
    ∃ segments, IsSegmentation standard (utf8 text) segments ∧
      fragments.parts.map utf8 = fragmentsOf segments := by
  unfold Sql.split at h
  cases scanned : scan standard text with
  | error e => rw [scanned] at h; cases h
  | ok lexemes =>
    rw [scanned] at h
    cases h
    obtain ⟨parts, each, isSegmentation⟩ := scan_ok scanned
    exact ⟨parts.flatten, isSegmentation, parts_ofLexemes each⟩

theorem split_error {standard : Bool} {text : Text} {e : Unterminated}
    (h : split standard text = .error e) : ∃ segments, BreaksOff standard (utf8 text) segments e := by
  unfold Sql.split scan at h
  cases scanned : scanAfter standard [] [] text with
  | ok lexemes => rw [scanned] at h; cases h
  | error e =>
    rw [scanned] at h
    cases h
    obtain ⟨segments, open', segmentation, bytes, unclosed, offset⟩ := scanAfter_error scanned
    exact ⟨segments, open', by simpa using segmentation, bytes, by simpa using unclosed,
      by simpa [byteLength] using offset⟩

theorem IsSegmentation.split {standard : Bool} {text : Text} {segments : List Segment}
    (h : IsSegmentation standard (utf8 text) segments) :
    ∃ fragments, Sql.split standard text = .ok fragments ∧ fragments.parts.map utf8 = fragmentsOf segments := by
  cases found : Sql.split standard text with
  | ok fragments =>
    obtain ⟨others, h', parts⟩ := split_ok found
    rw [h'.unique h] at parts
    exact ⟨fragments, rfl, parts⟩
  | error e =>
    obtain ⟨others, breaksOff⟩ := split_error found
    exact absurd breaksOff h.not_breaksOff

/-- The text is divided by its segmentation, and its segmentation is divided at the marks: splitting a
text gives the fragments between the marks of its one segmentation, and fails at the first construct
that does not close. -/
theorem split_segmentation (standard : Bool) (text : Text) :
    ((∃ fragments, split standard text = .ok fragments) ↔
      ∃ segments, IsSegmentation standard (utf8 text) segments) ∧
    (∀ segments, IsSegmentation standard (utf8 text) segments →
      (∀ others, IsSegmentation standard (utf8 text) others → others = segments) ∧
      ∃ fragments, split standard text = .ok fragments ∧
        fragments.parts.length = segments.count .mark + 1 ∧
        fragments.parts.map utf8 = fragmentsOf segments) ∧
    (∀ e, split standard text = .error e ↔ ∃ segments, BreaksOff standard (utf8 text) segments e) := by
  refine ⟨⟨?_, ?_⟩, ?_, fun e => ⟨split_error, ?_⟩⟩
  · rintro ⟨fragments, h⟩
    obtain ⟨segments, isSegmentation, -⟩ := split_ok h
    exact ⟨segments, isSegmentation⟩
  · rintro ⟨segments, isSegmentation⟩
    obtain ⟨fragments, h, -⟩ := isSegmentation.split
    exact ⟨fragments, h⟩
  · intro segments isSegmentation
    refine ⟨fun others h => h.unique isSegmentation, ?_⟩
    obtain ⟨fragments, h, parts⟩ := isSegmentation.split
    refine ⟨fragments, h, ?_, parts⟩
    rw [← length_fragmentsOf, ← parts, List.length_map]
  · rintro ⟨segments, breaksOff⟩
    cases h : split standard text with
    | ok fragments =>
      obtain ⟨others, isSegmentation, -⟩ := split_ok h
      exact absurd breaksOff isSegmentation.not_breaksOff
    | error e' =>
      obtain ⟨others, breaksOff'⟩ := split_error h
      rw [(breaksOff.unique breaksOff').2]

end ExtendedQuery.Sql.Grammar
