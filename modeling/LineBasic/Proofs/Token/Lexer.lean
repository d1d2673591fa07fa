import LineBasic.Proofs.Token.Cut

/-!
# What a text is cut into

The blanks between tokens have no bearing on what is read, so a text is looked at as the words it is
cut into, which are its tokens but the blanks (`wordsAt`). Each kind of word is taken off the front
of a text as a whole, if what follows does not go on with it; a remark takes all of the text.

Results:
1. `Cut.sorts`, `lexed_of_mem_scan`: what can be cut off a text, and what words look like.
2. `wordsAt_blank`, `wordsAt_name`, `wordsAt_numeral`, `wordsAt_digits`, `wordsAt_string`,
   `wordsAt_symbol`: the first word of a text, by kind.
3. `solid_ofText`: the tokens of a text are its words, of which a remark has been trimmed.
4. `wordsAt_rem`, `remark_words`: what follows the word `REM` at the beginning of a text.
-/

namespace LineBasic

/-- A letter, and then letters and digits. -/
def IsName (s : String) : Prop :=
  ∃ c cs, s.toList = c :: cs ∧ c.isAlpha = true ∧ ∀ d ∈ cs, d.isAlphanum = true

theorem IsName.isAlphanum {s : String} (isName : IsName s) :
    ∀ c ∈ s.toList, c.isAlphanum = true := by
  obtain ⟨c, cs, shape, alpha, all⟩ := isName
  rw [shape, List.forall_mem_cons, Char.isAlphanum, alpha, Bool.true_or]
  exact ⟨rfl, all⟩

/-- What differs from a word of letters in its case alone is a name. -/
theorem isName_of_sameWord {a b : String} (same : Text.sameWord a b = true) (full : b ≠ "")
    (letters : b.toList.all fun c => c.toUpper.isAlpha) : IsName a := by
  have alpha : ∀ c ∈ a.toList, c.isAlpha = true := fun c => Text.isAlpha_of_sameWord same letters
  cases shape : a.toList with
  | nil =>
    rw [Text.sameWord, beq_iff_eq, shape, List.map_nil, eq_comm, List.map_eq_nil_iff] at same
    exact absurd (String.toList_eq_nil_iff.1 same) full
  | cons c cs =>
    rw [shape] at alpha
    obtain ⟨first, others⟩ := List.forall_mem_cons.1 alpha
    exact ⟨c, cs, shape, first, fun d mem => by rw [Char.isAlphanum, others d mem, Bool.true_or]⟩

/-- A remark as it is read: what it begins with is no blank, and nothing at its end is white
space. -/
def IsRemark (s : String) : Prop :=
  (∀ c, s.toList.head? = some c → Text.isBlank c = false) ∧
    ∀ c, s.toList.getLast? = some c → Text.isSpace c = false

namespace Token

/-- What a word of a text looks like: names begin with a letter, numerals with a digit or a point,
and a literal holds no quote. -/
def Lexed : Token → Prop
  | word s => IsName s
  | number s => ∃ c cs, s.toList = c :: cs ∧ (c.isDigit = true ∨ c = '.')
  | string s => '"' ∉ s.toList
  | _ => True

/-- A word of a text that is no remark. -/
def Plain : Token → Prop
  | blank _ | remark _ => False
  | t => t.Lexed

theorem Plain.lexed {t : Token} (plain : t.Plain) : t.Lexed := by
  cases t <;> first | exact plain | trivial

theorem Plain.isBlank {t : Token} (plain : t.Plain) : t.isBlank = false := by
  cases t <;> first | exact plain.elim | rfl

theorem Plain.trimRemark {t : Token} (plain : t.Plain) : t.trimRemark = t := by
  cases t <;> first | exact plain.elim | rfl

/-- The words that a text at a given place is cut into: its tokens but the blanks. -/
def wordsAt (place : Place) (cs : List Char) : List Token := solid (scan place cs)

variable {place : Place} {c : Char} {cs rest : List Char} {t : Token}

/-! ## 1. The words of a text -/

open CutLemmas

/-- All that can be cut off a text: blanks, a remark that takes all of the text, or some other
word. -/
theorem Cut.sorts (cut : Cut place cs t rest) :
    (∃ width, t = .blank width) ∨ (∃ s, t = .remark s ∧ rest = []) ∨ t.Plain := by
  have literal {s : List Char} (noQuote : '"' ∉ s) : Plain (.string (String.ofList s)) := by
    show '"' ∉ (String.ofList s).toList
    rwa [String.toList_ofList]
  cases cut with
  | blank => exact .inl ⟨_, rfl⟩
  | remark => exact .inr (.inl ⟨_, rfl, rfl⟩)
  | @numeral c others _ whole begins =>
    obtain ⟨ds, shape⟩ := text_scan_eq_cons begins others
    subst whole
    exact .inr (.inr ⟨c, ds, by rw [String.toList_ofList, shape], begins⟩)
  | word _ _ alpha all => exact .inr (.inr ⟨_, _, String.toList_ofList, alpha, all⟩)
  | closed _ _ noQuote | unclosed _ _ noQuote => exact .inr (.inr (literal noQuote))
  | symbol _ _ known =>
    refine .inr (.inr ?_)
    rcases ofChar?_cases known with ⟨_, rfl⟩ | ⟨_, rfl⟩ | ⟨_, rfl⟩ | ⟨_, _, rfl⟩ <;> trivial
  | unknown => exact .inr (.inr trivial)

theorem Cut.lexed (cut : Cut place cs t rest) : t.Lexed := by
  rcases cut.sorts with ⟨width, rfl⟩ | ⟨s, rfl, _⟩ | plain
  · trivial
  · trivial
  · exact plain.lexed

/-- Blanks are cut off where the text begins with one. -/
theorem Cut.isBlank_eq (cut : Cut place (c :: cs) t rest) : t.isBlank = Text.isBlank c := by
  cases cut with
  | blank whole first =>
    obtain ⟨rfl, _⟩ := List.cons.inj whole
    exact first.symm
  | remark _ whole visible =>
    obtain ⟨rfl, _⟩ := List.cons.inj whole
    exact visible.symm
  | numeral _ whole begins =>
    obtain ⟨rfl, _⟩ := List.cons.inj whole
    exact (visible_of_numeral begins).symm
  | word _ whole alpha =>
    obtain ⟨rfl, _⟩ := List.cons.inj whole
    exact (visible_of_isAlpha alpha).symm
  | closed _ whole | unclosed _ whole =>
    obtain ⟨rfl, _⟩ := List.cons.inj whole
    rfl
  | symbol _ whole known =>
    obtain ⟨rfl, _⟩ := List.cons.inj whole
    rw [(plain_of_symbol known).1]
    rcases ofChar?_cases known with ⟨_, rfl⟩ | ⟨_, rfl⟩ | ⟨_, rfl⟩ | ⟨_, _, rfl⟩ <;> rfl
  | unknown _ whole strange =>
    obtain ⟨rfl, _⟩ := List.cons.inj whole
    exact strange.visible.symm

/-- The words of a text look like words. -/
theorem lexed_of_mem_scan (place : Place) (cs : List Char) : ∀ t ∈ scan place cs, t.Lexed := by
  induction place, cs using scan_induction with
  | nil place =>
    rw [scan]
    exact fun t mem => absurd mem List.not_mem_nil
  | cut cut ih =>
    rw [cut.scan_eq]
    exact List.forall_mem_cons.2 ⟨cut.lexed, ih⟩

/-! ## 2. The first word of a text -/

namespace LexerLemmas

theorem wordsAt_nil : wordsAt place [] = [] := by
  rw [wordsAt, scan]
  rfl

theorem wordsAt_cons_of_blank (blank : Text.isBlank c = true) :
    wordsAt place (c :: cs) = wordsAt place (cs.dropWhile Text.isBlank) := by
  rw [wordsAt, scan, takeFirst, if_pos blank]
  rfl

end LexerLemmas

open LexerLemmas

/-- A token that is no blank is the first word of the text that it is cut off. -/
theorem Cut.wordsAt_eq (cut : Cut place cs t rest) (solid : t.isBlank = false) :
    wordsAt place cs = t :: wordsAt (placeAfter place t) rest := by
  rw [wordsAt, cut.scan_eq, Token.solid, List.filter_cons, solid, Bool.not_false, if_pos rfl]
  rfl

theorem wordsAt_blank (blank : Text.isBlank c = true) :
    wordsAt place (c :: cs) = wordsAt place cs := by
  rw [wordsAt_cons_of_blank blank]
  cases cs with
  | nil => rfl
  | cons d ds =>
    cases next : Text.isBlank d with
    | true => rw [List.dropWhile_cons_of_pos next, wordsAt_cons_of_blank next]
    | false => rw [List.dropWhile_cons_of_neg (by simp [next])]

/-- A name is cut off as a whole if no letter or digit goes on with it. -/
theorem cut_name {name : String} (isName : IsName name) (begun : place ≠ .remark)
    (stop : Stops Char.isAlphanum rest) : Cut place (name.toList ++ rest) (.word name) rest := by
  obtain ⟨c, cs, shape, alpha, all⟩ := isName
  have cut : Cut place (c :: (cs ++ rest)) (.word (String.ofList (c :: cs))) rest :=
    .word begun rfl alpha all stop
  rwa [← List.cons_append, ← shape, String.ofList_toList] at cut

theorem wordsAt_name {name : String} (isName : IsName name) (begun : place ≠ .remark)
    (apart : Text.Apart rest) :
    wordsAt place (name.toList ++ rest) =
      .word name :: wordsAt (placeAfter place (.word name)) rest :=
  (cut_name isName begun fun d first => (apart d first).1).wordsAt_eq rfl

/-- A numeral is cut off as a whole if what follows does not go on with it. -/
theorem cut_numeral {n : Numeral} (wellFormed : n.WellFormed) (holds : n.digits ≠ [])
    (begun : place ≠ .remark) (apart : Text.Apart rest) :
    Cut place (n.text ++ rest) (.number (String.ofList n.text)) rest := by
  obtain ⟨c, cs, shape, begins⟩ := Numeral.text_eq_cons wellFormed (Numeral.begun_of_holds holds)
  have whole : n.text ++ rest = c :: (cs ++ rest) := by rw [shape, List.cons_append]
  have cut : Cut place (n.text ++ rest) _ _ := .numeral begun whole begins
  rwa [Numeral.scan_text wellFormed apart] at cut

theorem wordsAt_numeral {n : Numeral} (wellFormed : n.WellFormed) (holds : n.digits ≠ [])
    (begun : place ≠ .remark) (apart : Text.Apart rest) :
    wordsAt place (n.text ++ rest) = .number (String.ofList n.text) ::
      wordsAt (placeAfter place (.number (String.ofList n.text))) rest :=
  (cut_numeral wellFormed holds begun apart).wordsAt_eq rfl

/-- Digits are a numeral of their own. -/
theorem cut_digits {digits : List Char} (all : AllDigits digits) (full : digits ≠ [])
    (begun : place ≠ .remark) (apart : Text.Apart rest) :
    Cut place (digits ++ rest) (.number (String.ofList digits)) rest := by
  have wellFormed : (⟨digits, none, none⟩ : Numeral).WellFormed :=
    ⟨all, fun _ h => (nomatch h), fun _ h => (nomatch h)⟩
  have holds : (⟨digits, none, none⟩ : Numeral).digits ≠ [] :=
    List.append_ne_nil_of_left_ne_nil full _
  have cut := cut_numeral wellFormed holds begun apart
  rwa [Numeral.text, Option.elim_none, Option.elim_none, List.append_nil, List.append_nil] at cut

/-- The statement does not begin with digits. -/
theorem placeAfter_digits {digits : String} (all : AllDigits digits.toList)
    (begun : place ≠ .remark) : placeAfter place (.number digits) = place := by
  cases place with
  | opening => rw [placeAfter, if_pos ⟨rfl, List.all_eq_true.2 all⟩]
  | inside => rfl
  | remark => exact absurd rfl begun

/-- Digits are cut off as a whole, and the statement does not begin with them. -/
theorem wordsAt_digits {digits : List Char} (all : AllDigits digits) (full : digits ≠ [])
    (begun : place ≠ .remark) (apart : Text.Apart rest) :
    wordsAt place (digits ++ rest) = .number (String.ofList digits) :: wordsAt place rest := by
  rw [(cut_digits all full begun apart).wordsAt_eq rfl,
    placeAfter_digits (by rwa [String.toList_ofList]) begun]

theorem wordsAt_string {literal : String} (closed : '"' ∉ literal.toList) (begun : place ≠ .remark) :
    wordsAt place ('"' :: (literal.toList ++ '"' :: rest)) =
      .string literal :: wordsAt .inside rest := by
  have cut : Cut place ('"' :: (literal.toList ++ '"' :: rest)) _ rest :=
    .closed begun rfl closed
  rw [cut.wordsAt_eq rfl, String.ofList_toList]
  rfl

theorem wordsAt_symbol (known : ofChar? c = some t) (begun : place ≠ .remark) :
    wordsAt place (c :: cs) = t :: wordsAt .inside cs := by
  have cut : Cut place (c :: cs) t cs := .symbol begun rfl known
  rw [cut.wordsAt_eq (cut.isBlank_eq.trans (plain_of_symbol known).1), placeAfter_symbol known]

/-! ## 3. From the text to its words -/

/-- Nothing is left behind a remark. -/
theorem Cut.trimRemark (cut : Cut place cs t rest) : t.trimRemark = t ∨ rest = [] := by
  rcases cut.sorts with ⟨width, rfl⟩ | ⟨s, rfl, all⟩ | plain
  · exact .inl rfl
  · exact .inr all
  · exact .inl plain.trimRemark

/-- Only the last token can be a remark. -/
theorem trimRemark_of_mem_dropLast (place : Place) (cs : List Char) :
    ∀ t ∈ (scan place cs).dropLast, t.trimRemark = t := by
  induction place, cs using scan_induction with
  | nil place =>
    rw [scan]
    exact fun t mem => absurd mem List.not_mem_nil
  | @cut place cs t rest cut ih =>
    rw [cut.scan_eq]
    cases others : scan (placeAfter place t) rest with
    | nil => exact fun u mem => absurd mem List.not_mem_nil
    | cons u us =>
      rw [others] at ih
      rw [List.dropLast_cons_cons]
      refine List.forall_mem_cons.2 ⟨?_, ih⟩
      rcases cut.trimRemark with kept | last
      · exact kept
      · rw [last, scan] at others
        cases others

theorem isBlank_trimRemark (t : Token) : t.trimRemark.isBlank = t.isBlank := by
  cases t <;> rfl

theorem trimLast_of_plain {tokens : List Token} (plain : ∀ t ∈ tokens, t.trimRemark = t) :
    (match tokens.getLast? with
      | some last => tokens.dropLast ++ [last.trimRemark]
      | none => tokens) = tokens := by
  rcases List.eq_nil_or_concat' tokens with rfl | ⟨front, last, rfl⟩
  · rfl
  · simp [plain last (by simp)]

/-- Trimming the end of a list of tokens trims the remark among its words. -/
theorem solid_trimLast {tokens : List Token} (plain : ∀ t ∈ tokens.dropLast, t.trimRemark = t) :
    solid (trimLast tokens) = (solid tokens).map trimRemark := by
  rcases List.eq_nil_or_concat' tokens with rfl | ⟨front, last, rfl⟩
  · rfl
  rw [List.dropLast_concat] at plain
  have same : (solid front).map trimRemark = solid front :=
    (List.map_congr_left fun t mem => plain t (List.mem_filter.1 mem).1).trans (List.map_id _)
  have append (t : Token) : solid (front ++ [t]) = solid front ++ solid [t] := List.filter_append ..
  rw [trimLast, append, List.map_append, same]
  cases blank : last.isBlank with
  | true =>
    -- Without the blank at the end no token changes.
    have none : solid [last] = [] := by simp [solid, blank]
    simp only [List.getLast?_concat, Option.any_some, blank, if_true, List.dropLast_concat]
    refine (congrArg solid (trimLast_of_plain plain)).trans ?_
    rw [none, List.map_nil, List.append_nil]
  | false =>
    have kept : solid [last] = [last] := by simp [solid, blank]
    have trimmed : solid [last.trimRemark] = [last.trimRemark] := by
      simp [solid, isBlank_trimRemark, blank]
    simp only [List.getLast?_concat, Option.any_some, blank, Bool.false_eq_true, if_false,
      List.dropLast_concat]
    rw [append, kept, trimmed]
    rfl

/-- The words of a text are those of its tokens, of which a remark has been trimmed. -/
theorem solid_ofText (s : String) :
    solid (ofText s) =
      (wordsAt .opening (Text.dropTrailing Text.isLineEnd s.toList)).map trimRemark :=
  solid_trimLast (trimRemark_of_mem_dropLast _ _)

theorem Lexed.trimRemark {t : Token} (lexed : t.Lexed) : t.trimRemark.Lexed := by
  cases t <;> exact lexed

theorem lexed_of_mem_ofText {s : String} {t : Token} (mem : t ∈ solid (ofText s)) : t.Lexed := by
  rw [solid_ofText] at mem
  obtain ⟨u, found, rfl⟩ := List.mem_map.1 mem
  exact (lexed_of_mem_scan _ _ u (List.mem_filter.1 found).1).trimRemark

/-! ## 4. Remarks -/

/-- Behind the word that makes a remark all but the blanks in front is one remark, if there is
anything else. -/
theorem wordsAt_remark {text : String} (left : text.toList = cs.dropWhile Text.isBlank) :
    wordsAt .remark cs = if text = "" then [] else [.remark text] := by
  induction cs with
  | nil => rw [wordsAt_nil, if_pos (String.toList_eq_nil_iff.1 left)]
  | cons c cs ih =>
    cases blank : Text.isBlank c with
    | true =>
      rw [List.dropWhile_cons_of_pos blank] at left
      rw [wordsAt_blank blank, ih left]
    | false =>
      rw [List.dropWhile_cons_of_neg (by simp [blank])] at left
      have full : text ≠ "" := by
        rintro rfl
        cases left
      have cut : Cut .remark (c :: cs) (.remark (String.ofList (c :: cs))) [] :=
        .remark rfl rfl blank
      rw [cut.wordsAt_eq rfl, wordsAt_nil, ← left, String.ofList_toList, if_neg full]

theorem placeAfter_rem {word : String} (rem : Text.sameWord word "REM" = true) :
    placeAfter .opening (.word word) = .remark := by
  rw [placeAfter, if_pos ⟨rfl, rem⟩]

/-- The words of a text that says `REM` first, in any case. -/
theorem wordsAt_rem {word text : String} (rem : Text.sameWord word "REM" = true)
    (stop : Stops Char.isAlphanum rest) (left : text.toList = rest.dropWhile Text.isBlank) :
    wordsAt .opening (word.toList ++ rest) =
      .word word :: if text = "" then [] else [.remark text] := by
  have isName := isName_of_sameWord rem (by decide) (by decide)
  rw [(cut_name isName (by decide) stop).wordsAt_eq rfl, placeAfter_rem rem, wordsAt_remark left]

/-- What follows a word at the beginning of a text stands at the place behind that word. -/
theorem wordsAt_tail {t : Token} {w : List Token} (shape : wordsAt place cs = t :: w) :
    ∃ rest, w = wordsAt (placeAfter place t) rest := by
  induction cs with
  | nil =>
    rw [wordsAt_nil] at shape
    cases shape
  | cons c cs ih =>
    cases blank : Text.isBlank c with
    | true =>
      rw [wordsAt_blank blank] at shape
      exact ih shape
    | false =>
      have cut := cut_takeFirst place c cs
      rw [cut.wordsAt_eq (cut.isBlank_eq.trans blank)] at shape
      obtain ⟨rfl, rfl⟩ := List.cons.inj shape
      exact ⟨_, rfl⟩

theorem isRemark_trimEnd (stop : Stops Text.isBlank cs) :
    IsRemark (String.ofList (Text.trimEnd cs)) := by
  rw [IsRemark, String.toList_ofList]
  exact ⟨stop.of_prefix Text.isPrefix_dropTrailing, fun d => Text.last_dropTrailing⟩

/-- Behind `REM` there is nothing, or one remark. -/
theorem remark_words {s word : String} {w : List Token}
    (shape : solid (ofText s) = .word word :: w) (rem : Text.sameWord word "REM" = true) :
    w = [] ∨ ∃ text, IsRemark text ∧ w = [.remark text] := by
  rw [solid_ofText, List.map_eq_cons_iff] at shape
  obtain ⟨t, others, cut, first, rfl⟩ := shape
  obtain rfl : t = .word word := by cases t <;> first | exact first | cases first
  obtain ⟨rest, behind⟩ := wordsAt_tail cut
  rw [behind, placeAfter_rem rem, wordsAt_remark String.toList_ofList]
  split
  next => exact .inl rfl
  next =>
    exact .inr ⟨_, isRemark_trimEnd (stops_dropWhile Text.isBlank rest), by
      rw [List.map_singleton, trimRemark, String.toList_ofList]⟩

end Token

end LineBasic
