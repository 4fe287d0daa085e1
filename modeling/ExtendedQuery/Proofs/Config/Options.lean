import ExtendedQuery.Config
import Mathlib.Data.List.TakeWhile

/-!
# The options of a text

An option is a key, the first `=` and a value. It gives a setting its value if the key is one of the setting's keys
(`Config.Gives`), and it is at fault if it has no value or one that the setting cannot take (`Config.Faulty`). A step
reports the fault of its option or makes the one change that the option asks for (`applyOption_cases`); so a text
reports the first fault in it, and if there is none every setting has the value that it was given last. Main
statement: `Config.parse_settles`.
-/

namespace ExtendedQuery

/-! ## Values -/

namespace Decimal

def IsPositive (text : Text) (n : Nat) : Prop :=
  ∃ digits, (text = digits ∨ text = '+' :: digits) ∧ digits ≠ [] ∧ (∀ c ∈ digits, c.isDigit = true) ∧
    n = Nat.ofDigitChars 10 digits 0 ∧ 0 < n ∧ n < UInt64.size

theorem ofDigits?_eq_some_iff {text : Text} {n : Nat} : ofDigits? text = some n ↔
    text ≠ [] ∧ (∀ c ∈ text, c.isDigit = true) ∧ n = Nat.ofDigitChars 10 text 0 := by
  unfold ofDigits?
  split
  · rename_i numeral
    rw [List.all_eq_true] at numeral
    rw [Option.some.injEq]
    exact ⟨fun value => ⟨numeral.1, numeral.2, value.symm⟩, fun spec => spec.2.2.symm⟩
  · rename_i other
    rw [List.all_eq_true] at other
    exact iff_of_false nofun fun spec => other ⟨spec.1, spec.2.1⟩

theorem readPositive?_eq_some_iff {text : Text} {n : Nat} : readPositive? text = some n ↔ IsPositive text n := by
  simp only [readPositive?, readCount?, readBelow?, Option.filter_eq_some_iff, ofDigits?_eq_some_iff,
    decide_eq_true_iff]
  constructor
  · rintro ⟨⟨⟨full, digits, value⟩, fits⟩, positive⟩
    split at full
    · rename_i signed
      rw [if_pos signed] at digits value
      obtain ⟨digits', rfl⟩ := List.head?_eq_some_iff.1 signed
      exact ⟨digits', .inr rfl, full, digits, value, positive, fits⟩
    · rename_i unsigned
      rw [if_neg unsigned] at digits value
      exact ⟨text, .inl rfl, full, digits, value, positive, fits⟩
  · rintro ⟨digits, rfl | rfl, full, each, value, positive, fits⟩
    · have unsigned : text.head? ≠ some '+' := by
        intro signed
        have digit := each '+' (List.mem_of_head? signed)
        exact absurd digit (by decide)
      rw [if_neg unsigned]
      exact ⟨⟨⟨full, each, value⟩, fits⟩, positive⟩
    · exact ⟨⟨⟨full, each, value⟩, fits⟩, positive⟩

end Decimal

namespace Config

def switchWords (on : Bool) : List String :=
  if on then ["true", "on", "yes", "1"] else ["false", "off", "no", "0"]

def IsSwitch (value : Text) (on : Bool) : Prop := ∃ word ∈ switchWords on, Text.foldCase value = word.toList

theorem switchWords_apart : ∀ yes ∈ switchWords true, ∀ no ∈ switchWords false, yes.toList ≠ no.toList := by decide

theorem readSwitch?_eq_some_iff {value : Text} {on : Bool} : readSwitch? value = some on ↔ IsSwitch value on := by
  unfold readSwitch? IsSwitch
  generalize Text.foldCase value = text
  have among (on : Bool) :
      (switchWords on).any (·.toList = text) = true ↔ ∃ word ∈ switchWords on, text = word.toList := by
    simp only [List.any_eq_true, decide_eq_true_iff, eq_comm (b := text)]
  constructor
  · intro read
    dsimp only at read
    split at read
    · rename_i yes
      cases read
      exact (among true).1 yes
    · split at read
      · rename_i no
        cases read
        exact (among false).1 no
      · cases read
  · intro named
    have listed := (among on).2 named
    cases on with
    | true => exact if_pos listed
    | false =>
      have other : ¬ (switchWords true).any (·.toList = text) = true := by
        rw [among]
        rintro ⟨yes, member, rfl⟩
        obtain ⟨no, member', same⟩ := named
        exact switchWords_apart yes member no member' same
      exact (if_neg other).trans (if_pos listed)

namespace Setting

def Value : Setting → Type
  | .mergeInserts => Bool
  | .statementCacheSize | .maxBatchRows => Nat

def Reads : (setting : Setting) → (text : Text) → setting.Value → Prop
  | .mergeInserts, text, on => IsSwitch text on
  | .statementCacheSize, text, size => Decimal.IsPositive text size
  | .maxBatchRows, text, rows => Decimal.IsPositive text rows

def keys : Setting → List String
  | .mergeInserts => ["rewrite_batched_inserts", "reWriteBatchedInserts"]
  | .statementCacheSize => ["statement_cache_size", "preparedStatementCacheQueries"]
  | .maxBatchRows => ["max_batch_rows"]

theorem ofKey?_eq_some_iff {key : Text} {setting : Setting} :
    ofKey? key = some setting ↔ ∃ name ∈ setting.keys, key = name.toList := by
  unfold ofKey?
  constructor
  · intro found
    split at found
    · cases found
      simpa [keys]
    · split at found
      · cases found
        simpa [keys]
      · split at found
        · cases found
          simpa [keys]
        · cases found
  · rintro ⟨name, member, rfl⟩
    cases setting <;> simp only [keys, List.mem_cons, List.not_mem_nil, or_false] at member
    · rcases member with rfl | rfl <;> decide
    · rcases member with rfl | rfl <;> decide
    · subst member
      decide

theorem Reads.unique {setting : Setting} {text : Text} {v v' : setting.Value}
    (reads : setting.Reads text v) (reads' : setting.Reads text v') : v = v' := by
  cases setting with
  | mergeInserts =>
    exact Option.some.inj ((readSwitch?_eq_some_iff.2 reads).symm.trans (readSwitch?_eq_some_iff.2 reads'))
  | statementCacheSize | maxBatchRows =>
    exact Option.some.inj
      ((Decimal.readPositive?_eq_some_iff.2 reads).symm.trans (Decimal.readPositive?_eq_some_iff.2 reads'))

end Setting

def get (config : Config) : (setting : Setting) → setting.Value
  | .mergeInserts => config.mergeInserts
  | .statementCacheSize => config.statementCacheSize
  | .maxBatchRows => config.maxBatchRows

def put (config : Config) : (setting : Setting) → setting.Value → Config
  | .mergeInserts, on => { config with mergeInserts := on }
  | .statementCacheSize, size => { config with statementCacheSize := size }
  | .maxBatchRows, rows => { config with maxBatchRows := rows }

theorem get_put (config : Config) (setting : Setting) (v : setting.Value) : (config.put setting v).get setting = v := by
  cases setting <;> rfl

theorem get_put_of_ne (config : Config) {setting other : Setting} (ne : other ≠ setting) (v : setting.Value) :
    (config.put setting v).get other = config.get other := by
  cases setting <;> cases other <;> first | rfl | exact absurd rfl ne

theorem ext_get {a b : Config} (same : ∀ setting, a.get setting = b.get setting) : a = b := by
  obtain ⟨_, _, _⟩ := a
  obtain ⟨_, _, _⟩ := b
  obtain rfl := same .mergeInserts
  obtain rfl := same .statementCacheSize
  obtain rfl := same .maxBatchRows
  rfl

theorem set?_eq_some_iff {config config' : Config} {setting : Setting} {value : Text} :
    config.set? setting value = some config' ↔ ∃ v, setting.Reads value v ∧ config' = config.put setting v := by
  cases setting <;>
    simp [set?, Setting.Reads, put, readSwitch?_eq_some_iff, Decimal.readPositive?_eq_some_iff,
      eq_comm (a := config'), Setting.Value]

/-! ## Options -/

/-- The option gives the setting the value, under one of its keys. -/
def Gives (option : Text) (setting : Setting) (value : Text) : Prop :=
  ∃ key, '=' ∉ key ∧ (∃ name ∈ setting.keys, key = name.toList) ∧ option = key ++ '=' :: value

def Names (option : Text) (setting : Setting) : Prop := ∃ value, Gives option setting value

inductive Faulty (option : Text) : OptionError → Prop
  | missingValue : option ≠ [] → '=' ∉ option → Faulty option (.missingValue option)
  | invalid {setting : Setting} {value : Text} : Gives option setting value → (∀ v, ¬ setting.Reads value v) →
      Faulty option (.invalid setting)

theorem takeWhile_cut {key : Text} (free : '=' ∉ key) (value : Text) :
    (key ++ '=' :: value).takeWhile (· != '=') = key ∧
      (key ++ '=' :: value).dropWhile (· != '=') = '=' :: value := by
  have inner : ∀ c ∈ key, (c != '=') = true := by
    intro c member
    rw [bne_iff_ne]
    rintro rfl
    exact free member
  rw [List.takeWhile_append_of_pos inner, List.dropWhile_append_of_pos inner]
  simp

theorem gives_iff {option : Text} {setting : Setting} {value : Text} : Gives option setting value ↔
    option.dropWhile (· != '=') = '=' :: value ∧
      Setting.ofKey? (option.takeWhile (· != '=')) = some setting := by
  constructor
  · rintro ⟨key, free, known, rfl⟩
    rw [(takeWhile_cut free value).1, (takeWhile_cut free value).2]
    exact ⟨rfl, Setting.ofKey?_eq_some_iff.2 known⟩
  · rintro ⟨rest, known⟩
    refine ⟨option.takeWhile (· != '='), ?_, Setting.ofKey?_eq_some_iff.1 known, ?_⟩
    · intro member
      have inner := List.mem_takeWhile_imp member
      simp at inner
    · rw [← rest, List.takeWhile_append_dropWhile]

theorem Gives.unique {option : Text} {setting setting' : Setting} {value value' : Text}
    (gives : Gives option setting value) (gives' : Gives option setting' value') :
    setting = setting' ∧ value = value' := by
  rw [gives_iff] at gives gives'
  have rest := gives.1.symm.trans gives'.1
  have known := gives.2.symm.trans gives'.2
  exact ⟨Option.some.inj known, (List.cons.inj rest).2⟩

theorem names_iff {option : Text} {setting : Setting} : Names option setting ↔
    '=' ∈ option ∧ Setting.ofKey? (option.takeWhile (· != '=')) = some setting := by
  constructor
  · rintro ⟨value, gives⟩
    obtain ⟨key, free, known, rfl⟩ := id gives
    exact ⟨by simp, (gives_iff.1 gives).2⟩
  · rintro ⟨assigned, known⟩
    obtain ⟨key, value, rfl, free⟩ := List.eq_append_cons_of_mem assigned
    exact ⟨value, gives_iff.2 ⟨(takeWhile_cut free value).2, known⟩⟩

instance (option : Text) (setting : Setting) : Decidable (Names option setting) :=
  decidable_of_iff _ names_iff.symm

/-! ## Steps -/

def applyPiece (config : Config) (piece : Text) : Except OptionError Config :=
  if piece ≠ [] then config.applyOption piece else .ok config

inductive Takes (config : Config) (piece : Text) : Except OptionError Config → Prop
  | refused {e : OptionError} : Faulty piece e → Takes config piece (.error e)
  | given {setting : Setting} {value : Text} {v : setting.Value} : Gives piece setting value →
      setting.Reads value v → Takes config piece (.ok (config.put setting v))
  | ignored : (∀ setting, ¬ Names piece setting) → (piece ≠ [] → '=' ∈ piece) → Takes config piece (.ok config)

theorem applyPiece_takes (config : Config) (piece : Text) : Takes config piece (config.applyPiece piece) := by
  unfold applyPiece
  by_cases written : piece ≠ []
  · rw [if_pos written, applyOption]
    by_cases assigned : '=' ∈ piece
    · obtain ⟨key, value, rfl, free⟩ := List.eq_append_cons_of_mem assigned
      rw [(takeWhile_cut free value).1, (takeWhile_cut free value).2]
      dsimp only
      cases known : Setting.ofKey? key with
      | none =>
        refine .ignored ?_ fun _ => assigned
        intro setting names
        have named := (names_iff.1 names).2
        rw [(takeWhile_cut free value).1, known] at named
        cases named
      | some setting =>
        have gives : Gives (key ++ '=' :: value) setting value :=
          ⟨key, free, Setting.ofKey?_eq_some_iff.1 known, rfl⟩
        dsimp only
        cases changed : config.set? setting value with
        | none =>
          refine .refused (.invalid gives ?_)
          intro v reads
          rw [set?_eq_some_iff.2 ⟨v, reads, rfl⟩] at changed
          cases changed
        | some config' =>
          obtain ⟨v, reads, rfl⟩ := set?_eq_some_iff.1 changed
          exact .given gives reads
    · have rest : piece.dropWhile (· != '=') = [] := by
        rw [List.dropWhile_eq_nil_iff]
        intro c member
        rw [bne_iff_ne]
        rintro rfl
        exact assigned member
      rw [rest]
      exact .refused (.missingValue written assigned)
  · rw [if_neg written]
    rw [not_not] at written
    subst written
    refine .ignored ?_ fun some => absurd rfl some
    rintro setting ⟨value, key, -, -, cut⟩
    cases key <;> cases cut

theorem Faulty.unique {option : Text} {e e' : OptionError} (fault : Faulty option e) (fault' : Faulty option e') :
    e = e' := by
  have assigned {setting : Setting} {value : Text} (gives : Gives option setting value) : '=' ∈ option :=
    (names_iff.1 ⟨value, gives⟩).1
  cases fault with
  | missingValue written bare =>
    cases fault' with
    | missingValue => rfl
    | invalid gives => exact absurd (assigned gives) bare
  | invalid gives refused =>
    cases fault' with
    | missingValue written bare => exact absurd (assigned gives) bare
    | invalid gives' => rw [(gives.unique gives').1]

theorem applyPiece_eq_error_iff {config : Config} {piece : Text} {e : OptionError} :
    config.applyPiece piece = .error e ↔ Faulty piece e := by
  have takes := applyPiece_takes config piece
  generalize config.applyPiece piece = result at takes
  cases takes with
  | refused fault =>
    rw [Except.error.injEq]
    exact ⟨fun same => same ▸ fault, fun fault' => fault.unique fault'⟩
  | given gives reads =>
    refine iff_of_false nofun ?_
    intro fault
    cases fault with
    | missingValue written bare => exact bare (names_iff.1 ⟨_, gives⟩).1
    | invalid gives' refused =>
      obtain ⟨rfl, rfl⟩ := gives.unique gives'
      exact refused _ reads
  | ignored unnamed assigned =>
    refine iff_of_false nofun ?_
    intro fault
    cases fault with
    | missingValue written bare => exact bare (assigned written)
    | invalid gives => exact unnamed _ ⟨_, gives⟩

theorem applyPiece_get {start config : Config} {piece : Text} (applied : start.applyPiece piece = .ok config)
    (setting : Setting) :
    (Names piece setting → ∃ value, Gives piece setting value ∧ setting.Reads value (config.get setting)) ∧
      (¬ Names piece setting → config.get setting = start.get setting) := by
  have takes := applyPiece_takes start piece
  rw [applied] at takes
  cases takes with
  | @given named value v gives reads =>
    constructor
    · rintro ⟨value', gives'⟩
      obtain ⟨rfl, rfl⟩ := gives.unique gives'
      exact ⟨value, gives, (get_put start named v).symm ▸ reads⟩
    · intro unnamed
      apply get_put_of_ne
      rintro rfl
      exact unnamed ⟨value, gives⟩
  | ignored unnamed assigned => exact ⟨fun named => absurd named (unnamed setting), fun _ => rfl⟩

/-! ## Runs -/

def FirstFault (pieces : List Text) (e : OptionError) : Prop :=
  ∃ front piece later, pieces = front ++ piece :: later ∧ (∀ before ∈ front, ∀ e', ¬ Faulty before e') ∧ Faulty piece e

/-- The value is the one that the last of the pieces that name the setting gives; if none does, it is the value from
before. -/
def Settles (start : Config) (pieces : List Text) (setting : Setting) (v : setting.Value) : Prop :=
  match (pieces.filter (Names · setting)).getLast? with
  | some piece => ∃ value, Gives piece setting value ∧ setting.Reads value v
  | none => v = start.get setting

theorem filter_names_of_pos {piece : Text} {pieces : List Text} {setting : Setting} (named : Names piece setting) :
    (piece :: pieces).filter (Names · setting) = piece :: pieces.filter (Names · setting) :=
  List.filter_cons_of_pos (by simpa using named)

theorem filter_names_of_neg {piece : Text} {pieces : List Text} {setting : Setting} (unnamed : ¬ Names piece setting) :
    (piece :: pieces).filter (Names · setting) = pieces.filter (Names · setting) :=
  List.filter_cons_of_neg (by simpa using unnamed)

theorem not_firstFault_nil (e : OptionError) : ¬ FirstFault [] e := by
  rintro ⟨front, piece, later, divided, -⟩
  cases front <;> cases divided

theorem firstFault_cons {piece : Text} {pieces : List Text} {e : OptionError} : FirstFault (piece :: pieces) e ↔
    Faulty piece e ∨ (∀ e', ¬ Faulty piece e') ∧ FirstFault pieces e := by
  constructor
  · rintro ⟨front, last, later, divided, sound, fault⟩
    cases front with
    | nil =>
      cases divided
      exact .inl fault
    | cons first front =>
      cases divided
      rw [List.forall_mem_cons] at sound
      exact .inr ⟨sound.1, front, last, later, rfl, sound.2, fault⟩
  · rintro (fault | ⟨good, front, last, later, rfl, sound, fault⟩)
    · exact ⟨[], piece, pieces, rfl, nofun, fault⟩
    · exact ⟨piece :: front, last, later, rfl, List.forall_mem_cons.2 ⟨good, sound⟩, fault⟩

theorem foldlM_eq_error_iff {start : Config} {pieces : List Text} {e : OptionError} :
    pieces.foldlM applyPiece start = .error e ↔ FirstFault pieces e := by
  induction pieces generalizing start with
  | nil => exact iff_of_false nofun (not_firstFault_nil e)
  | cons piece pieces ih =>
    rw [List.foldlM_cons, firstFault_cons]
    cases applied : start.applyPiece piece with
    | error e' =>
      have fault := applyPiece_eq_error_iff.1 applied
      change Except.error e' = Except.error e ↔ _
      rw [Except.error.injEq]
      constructor
      · rintro rfl
        exact .inl fault
      · rintro (fault' | ⟨good, -⟩)
        · exact fault.unique fault'
        · exact absurd fault (good e')
    | ok config =>
      have good : ∀ e', ¬ Faulty piece e' := by
        intro e' fault
        rw [applyPiece_eq_error_iff.2 fault] at applied
        cases applied
      change pieces.foldlM applyPiece config = .error e ↔ _
      rw [ih]
      exact ⟨fun first => .inr ⟨good, first⟩, fun first => (first.resolve_left (good e)).2⟩

theorem settles_cons {start config : Config} {piece : Text} {pieces : List Text} {setting : Setting}
    {v : setting.Value} (applied : start.applyPiece piece = .ok config) (settles : Settles config pieces setting v) :
    Settles start (piece :: pieces) setting v := by
  have changed := applyPiece_get applied setting
  unfold Settles at settles ⊢
  by_cases named : Names piece setting
  · rw [filter_names_of_pos named, List.getLast?_cons]
    cases last : (pieces.filter (Names · setting)).getLast? with
    | some piece' => rwa [last] at settles
    | none =>
      rw [last] at settles
      subst settles
      exact changed.1 named
  · rw [filter_names_of_neg named]
    cases last : (pieces.filter (Names · setting)).getLast? with
    | some piece' => rwa [last] at settles
    | none =>
      rw [last] at settles
      exact settles.trans (changed.2 named)

theorem foldlM_settles {start config : Config} {pieces : List Text}
    (run : pieces.foldlM applyPiece start = .ok config) (setting : Setting) :
    Settles start pieces setting (config.get setting) := by
  induction pieces generalizing start with
  | nil =>
    cases run
    rfl
  | cons piece pieces ih =>
    rw [List.foldlM_cons] at run
    cases applied : start.applyPiece piece with
    | error e =>
      rw [applied] at run
      cases run
    | ok middle =>
      rw [applied] at run
      exact settles_cons applied (ih run)

theorem exists_firstFault {pieces : List Text} {piece : Text} {e : OptionError} (member : piece ∈ pieces)
    (fault : Faulty piece e) : ∃ e', FirstFault pieces e' := by
  induction pieces with
  | nil => cases member
  | cons first pieces ih =>
    by_cases good : ∀ e', ¬ Faulty first e'
    · rcases List.mem_cons.1 member with rfl | inside
      · exact absurd fault (good e)
      · obtain ⟨e', later⟩ := ih inside
        exact ⟨e', firstFault_cons.2 (.inr ⟨good, later⟩)⟩
    · rw [not_forall_not] at good
      obtain ⟨e', fault'⟩ := good
      exact ⟨e', firstFault_cons.2 (.inl fault')⟩

theorem Settles.unique {start : Config} {pieces : List Text} {setting : Setting} {v v' : setting.Value}
    (settles : Settles start pieces setting v) (settles' : Settles start pieces setting v') : v = v' := by
  unfold Settles at settles settles'
  cases last : (pieces.filter (Names · setting)).getLast? with
  | some piece =>
    rw [last] at settles settles'
    obtain ⟨value, gives, reads⟩ := settles
    obtain ⟨value', gives', reads'⟩ := settles'
    obtain ⟨-, rfl⟩ := gives.unique gives'
    exact reads.unique reads'
  | none =>
    rw [last] at settles settles'
    exact settles.trans settles'.symm

theorem foldlM_eq_ok_iff {start config : Config} {pieces : List Text} :
    pieces.foldlM applyPiece start = .ok config ↔
      (∀ piece ∈ pieces, ∀ e, ¬ Faulty piece e) ∧ ∀ setting, Settles start pieces setting (config.get setting) := by
  constructor
  · intro run
    refine ⟨?_, foldlM_settles run⟩
    intro piece member e fault
    obtain ⟨e', first⟩ := exists_firstFault member fault
    rw [foldlM_eq_error_iff.2 first] at run
    cases run
  · rintro ⟨sound, settled⟩
    cases run : pieces.foldlM applyPiece start with
    | error e =>
      obtain ⟨front, piece, later, rfl, -, fault⟩ := foldlM_eq_error_iff.1 run
      exact absurd fault (sound piece (by simp) e)
    | ok config' =>
      have same : config' = config := ext_get fun setting => (foldlM_settles run setting).unique (settled setting)
      rw [same]

/-! ## Texts -/

/-- The text consists of the pieces, with `&` between them and perhaps a question mark in front. -/
structure Separates (text : Text) (pieces : List Text) : Prop where
  free : ∀ piece ∈ pieces, '&' ∉ piece
  whole : text = '?' :: ['&'].intercalate pieces ∨ text.head? ≠ some '?' ∧ text = ['&'].intercalate pieces

theorem exists_separated (text : Text) :
    ∃ pieces : List Text, pieces ≠ [] ∧ (∀ piece ∈ pieces, '&' ∉ piece) ∧ text = ['&'].intercalate pieces := by
  -- Cut at the first `&`; what follows it is shorter.
  by_cases several : '&' ∈ text
  · obtain ⟨first, later, rfl, free⟩ := List.eq_append_cons_of_mem several
    obtain ⟨pieces, some, each, whole⟩ := exists_separated later
    obtain ⟨second, pieces, rfl⟩ := List.exists_cons_of_ne_nil some
    refine ⟨first :: second :: pieces, nofun, List.forall_mem_cons.2 ⟨free, each⟩, ?_⟩
    rw [List.intercalate_cons_cons, ← whole]
    simp
  · exact ⟨[text], nofun, by simpa using several, by simp⟩
termination_by text.length

theorem exists_separates (text : Text) : ∃ pieces, Separates text pieces := by
  by_cases marked : text.head? = some '?'
  · obtain ⟨rest, rfl⟩ := List.head?_eq_some_iff.1 marked
    obtain ⟨pieces, -, each, rfl⟩ := exists_separated rest
    exact ⟨pieces, each, .inl rfl⟩
  · obtain ⟨pieces, -, each, whole⟩ := exists_separated text
    exact ⟨pieces, each, .inr ⟨marked, whole⟩⟩

theorem Separates.optionsOf {text : Text} {pieces : List Text} (separates : Separates text pieces) :
    optionsOf text = pieces.filter (· ≠ []) := by
  have inner : (['&'].intercalate pieces).splitOn '&' = pieces ∨ pieces = [] := by
    by_cases some : pieces = []
    · exact .inr some
    · exact .inl (List.splitOn_intercalate '&' separates.free some)
  have split : ((['&'].intercalate pieces).splitOn '&').filter (· ≠ []) = pieces.filter (· ≠ []) := by
    rcases inner with same | rfl
    · rw [same]
    · rfl
  rcases separates.whole with rfl | ⟨unmarked, whole⟩
  · exact split
  · rw [Config.optionsOf, if_neg unmarked, whole, split]

theorem Separates.parse {text : Text} {pieces : List Text} (separates : Separates text pieces) :
    parse text = pieces.foldlM applyPiece default := by
  rw [Config.parse, separates.optionsOf, List.foldlM_filter]
  congr 1
  funext config piece
  simp only [applyPiece, decide_eq_true_iff]
  rfl

/-! ## Changes of a text -/

/-- Ways to write the same settings: the pieces in another order, but the ones of each setting in the same; a piece
once more; or a piece that gives nothing a value. -/
inductive Rewritten : List Text → List Text → Prop
  | permuted {pieces others : List Text} : pieces.Perm others →
      (∀ setting, pieces.filter (Names · setting) = others.filter (Names · setting)) → Rewritten pieces others
  | again (front : List Text) (piece : Text) (later : List Text) :
      Rewritten (front ++ piece :: later) (front ++ piece :: piece :: later)
  | added (front : List Text) {piece : Text} (later : List Text) :
      piece = [] ∨ '=' ∈ piece ∧ (∀ setting, ¬ Names piece setting) →
      Rewritten (front ++ later) (front ++ piece :: later)

theorem Settles.congr {start : Config} {pieces others : List Text} {setting : Setting} {v : setting.Value}
    (last : (pieces.filter (Names · setting)).getLast? = (others.filter (Names · setting)).getLast?) :
    Settles start pieces setting v ↔ Settles start others setting v := by
  rw [Settles, Settles, last]

theorem Rewritten.foldlM {pieces others : List Text} (rewritten : Rewritten pieces others) (start config : Config) :
    pieces.foldlM applyPiece start = .ok config ↔ others.foldlM applyPiece start = .ok config := by
  rw [foldlM_eq_ok_iff, foldlM_eq_ok_iff]
  cases rewritten with
  | permuted perm order =>
    apply and_congr
    · exact forall_congr' fun piece => imp_congr_left perm.mem_iff
    · exact forall_congr' fun setting => Settles.congr (by rw [order setting])
  | again front piece later =>
    apply and_congr
    · simp
    · refine forall_congr' fun setting => Settles.congr ?_
      rw [List.filter_append, List.filter_append, List.getLast?_append, List.getLast?_append]
      -- A piece is last together with its copy, and both give the same value.
      by_cases named : Names piece setting
      · rw [filter_names_of_pos named, filter_names_of_pos named, filter_names_of_pos named, List.getLast?_cons_cons]
      · rw [filter_names_of_neg named, filter_names_of_neg named, filter_names_of_neg named]
  | @added front piece later idle =>
    have unnamed (setting : Setting) : ¬ Names piece setting := by
      rintro names
      rcases idle with rfl | ⟨-, unnamed⟩
      · exact absurd (names_iff.1 names).1 List.not_mem_nil
      · exact unnamed setting names
    have good (e : OptionError) : ¬ Faulty piece e := by
      intro fault
      cases fault with
      | missingValue written bare => exact bare (idle.resolve_left written).1
      | invalid gives => exact unnamed _ ⟨_, gives⟩
    apply and_congr
    · rw [List.forall_mem_append, List.forall_mem_append, List.forall_mem_cons]
      exact and_congr_right fun _ => (and_iff_right good).symm
    · refine forall_congr' fun setting => Settles.congr ?_
      rw [List.filter_append, List.filter_append, filter_names_of_neg (unnamed setting)]

theorem separates_intercalate {text : Text} {pieces : List Text}
    (plain : ∀ piece ∈ pieces, '&' ∉ piece ∧ piece.head? ≠ some '?')
    (written : text = ['&'].intercalate pieces ∨ text = '?' :: ['&'].intercalate pieces) : Separates text pieces := by
  refine ⟨fun piece member => (plain piece member).1, ?_⟩
  rcases written with rfl | rfl
  · refine .inr ⟨?_, rfl⟩
    cases pieces with
    | nil => nofun
    | cons first pieces =>
      have unmarked := (plain first (by simp)).2
      cases pieces with
      | nil => simpa using unmarked
      | cons second pieces =>
        rw [List.intercalate_cons_cons]
        cases first with
        | nil => simp
        | cons c first => exact unmarked
  · exact .inl rfl

theorem Settles.kept_or_read {start : Config} {pieces : List Text} {setting : Setting} {v : setting.Value}
    (settles : Settles start pieces setting v) : v = start.get setting ∨ ∃ text, setting.Reads text v := by
  unfold Settles at settles
  cases last : (pieces.filter (Names · setting)).getLast? with
  | some piece =>
    rw [last] at settles
    obtain ⟨value, -, reads⟩ := settles
    exact .inr ⟨value, reads⟩
  | none =>
    rw [last] at settles
    exact .inl settles

theorem positive_of_settles {config : Config} {pieces : List Text}
    (settled : ∀ setting, Settles default pieces setting (config.get setting)) :
    0 < config.statementCacheSize ∧ 0 < config.maxBatchRows := by
  constructor
  · rcases (settled .statementCacheSize).kept_or_read with kept | ⟨text, digits, -, -, -, -, positive, -⟩
    · exact Nat.lt_of_lt_of_eq (by decide : 0 < default.statementCacheSize) kept.symm
    · exact positive
  · rcases (settled .maxBatchRows).kept_or_read with kept | ⟨text, digits, -, -, -, -, positive, -⟩
    · exact Nat.lt_of_lt_of_eq (by decide : 0 < default.maxBatchRows) kept.symm
    · exact positive

/-- A text reports the first fault in it, whatever comes before or after. If there is none, each setting has the value
given last under any of its keys, or the one it has from the start. So the same settings can be written in several
ways, and a configuration that is read has room for a statement and for a row. -/
theorem parse_settles :
    (∀ text, ∃ pieces, Separates text pieces) ∧
    (∀ text pieces, Separates text pieces →
      (∀ e, parse text = .error e ↔ FirstFault pieces e) ∧
      ∀ config, parse text = .ok config ↔
        (∀ piece ∈ pieces, ∀ e, ¬ Faulty piece e) ∧
          ∀ setting, Settles default pieces setting (config.get setting)) ∧
    (∀ pieces others, Rewritten pieces others →
      (∀ piece ∈ pieces ++ others, '&' ∉ piece ∧ piece.head? ≠ some '?') →
      ∀ text text',
        (text = ['&'].intercalate pieces ∨ text = '?' :: ['&'].intercalate pieces) →
        (text' = ['&'].intercalate others ∨ text' = '?' :: ['&'].intercalate others) →
        ∀ config, parse text = .ok config ↔ parse text' = .ok config) ∧
    ∀ text config, parse text = .ok config → 0 < config.statementCacheSize ∧ 0 < config.maxBatchRows := by
  refine ⟨exists_separates, ?_, ?_, ?_⟩
  · intro text pieces separates
    rw [separates.parse]
    exact ⟨fun e => foldlM_eq_error_iff, fun config => foldlM_eq_ok_iff⟩
  · intro pieces others rewritten plain text text' written written' config
    rw [List.forall_mem_append] at plain
    rw [(separates_intercalate plain.1 written).parse, (separates_intercalate plain.2 written').parse]
    exact rewritten.foldlM default config
  · intro text config parsed
    obtain ⟨pieces, separates⟩ := exists_separates text
    rw [separates.parse] at parsed
    exact positive_of_settles (foldlM_eq_ok_iff.1 parsed).2

theorem parse_settles_texts :
    FirstFault ["max_batch_rows=8".toList, "".toList, "bare".toList, "max_batch_rows=0".toList]
        (.missingValue "bare".toList) ∧
      Settles default ["max_batch_rows=8".toList, "max_batch_rows=+9".toList] .maxBatchRows (9 : Nat) ∧
      (parse "?x=1&max_batch_rows=8".toList = .ok ⟨false, 256, 8⟩ ↔
        parse "max_batch_rows=8".toList = .ok ⟨false, 256, 8⟩) ∧
      0 < 256 ∧ 0 < 8 := by
  obtain ⟨-, runs, rewrites, positive⟩ := parse_settles
  refine ⟨?_, ?_, ?_, ?_⟩
  · exact ((runs "max_batch_rows=8&&bare&max_batch_rows=0".toList _ ⟨by decide, .inr ⟨by decide, rfl⟩⟩).1 _).1 rfl
  · exact (((runs "?max_batch_rows=8&max_batch_rows=+9".toList _ ⟨by decide, .inl rfl⟩).2 ⟨false, 256, 9⟩).1 rfl).2
      .maxBatchRows
  · refine (rewrites ["max_batch_rows=8".toList] ["x=1".toList, "max_batch_rows=8".toList]
      (.added [] _ (.inr ⟨by decide, ?_⟩)) (by decide) _ _ (.inl rfl) (.inr rfl) _).symm
    intro setting
    cases setting <;> decide
  · exact positive "max_batch_rows=8".toList ⟨false, 256, 8⟩ rfl

end Config

end ExtendedQuery
