import LineBasic.Proofs.Token.Cut

/-!
# Cutting a text loses nothing

The tokens of a text, put together again, are the text itself, but that tabs have become spaces
where they separate, and that a quote which is still open at the end has been closed. Where that is
so is said here of the characters alone (`Text.untab`, `Text.leavesOpen`). And what has been put
together is cut into the same tokens again.

Results:
1. `Alike`: texts that differ in such tabs and such a quote, and what can be cut off them.
2. `Cut.shown`, `concat_scan`: one cut, and all of a text.
3. `scan_shownAt`: the tokens put together are cut into the same tokens.
4. `faithful_ofText`: cutting loses nothing, and is stable.
-/

namespace LineBasic

/-! ## 1. Tabs, quotes and remarks in a text -/

namespace Text

/-- With a space for each tab outside of quotes, in a text that begins between quotes or not. -/
def untabFrom (quoted : Bool) : List Char → List Char
  | [] => []
  | c :: cs =>
    if c = '"' then c :: untabFrom (!quoted) cs
    else (if c = '\t' ∧ quoted = false then ' ' else c) :: untabFrom quoted cs

/-- Whether a quote is open at the end of a text that begins between quotes or not. -/
def openFrom (quoted : Bool) : List Char → Bool
  | [] => quoted
  | c :: cs => openFrom (if c = '"' then !quoted else quoted) cs

/-- What may stand in front of a statement. -/
def isFront (c : Char) : Bool := isBlank c || c.isDigit

/-- A text that says `REM` first, up to the remark, and the remark. -/
def splitRemark (cs : List Char) : Option (List Char × List Char) :=
  let rest := cs.dropWhile isFront
  let word := rest.takeWhile Char.isAlphanum
  let behind := rest.dropWhile Char.isAlphanum
  if sameWord (String.ofList word) "REM" then
    some (cs.takeWhile isFront ++ word ++ behind.takeWhile isBlank, behind.dropWhile isBlank)
  else none

/-- A text with a space for each tab outside of literals and of the remark. -/
def untab (s : String) : String :=
  match splitRemark s.toList with
  | some (front, remark) => String.ofList (untabFrom false front ++ remark)
  | none => String.ofList (untabFrom false s.toList)

/-- Whether a text ends in a literal that has no closing quote. -/
def leavesOpen (s : String) : Bool :=
  match splitRemark s.toList with
  | some _ => false
  | none => openFrom false s.toList

variable {quoted : Bool} {xs ys cs : List Char} {c : Char}

theorem untabFrom_append (noQuote : '"' ∉ xs) :
    untabFrom quoted (xs ++ ys) = untabFrom quoted xs ++ untabFrom quoted ys := by
  induction xs with
  | nil => rfl
  | cons c xs ih =>
    obtain ⟨other, noQuote⟩ := not_or.1 (mt List.mem_cons.2 noQuote)
    rw [List.cons_append, untabFrom, untabFrom, if_neg (Ne.symm other), if_neg (Ne.symm other),
      ih noQuote, List.cons_append]

theorem openFrom_append (noQuote : '"' ∉ xs) : openFrom quoted (xs ++ ys) = openFrom quoted ys := by
  induction xs with
  | nil => rfl
  | cons c xs ih =>
    obtain ⟨other, noQuote⟩ := not_or.1 (mt List.mem_cons.2 noQuote)
    rw [List.cons_append, openFrom, if_neg (Ne.symm other), ih noQuote]

/-- Where no tab separates, nothing changes. -/
theorem untabFrom_eq_self (noQuote : '"' ∉ xs) (kept : '\t' ∉ xs ∨ quoted = true) :
    untabFrom quoted xs = xs := by
  induction xs with
  | nil => rfl
  | cons c xs ih =>
    obtain ⟨other, noQuote⟩ := not_or.1 (mt List.mem_cons.2 noQuote)
    have same : ¬ (c = '\t' ∧ quoted = false) := by
      rintro ⟨rfl, outside⟩
      rcases kept with noTab | inside
      · exact noTab List.mem_cons_self
      · rw [outside] at inside
        cases inside
    have kept' : '\t' ∉ xs ∨ quoted = true := kept.imp_left fun noTab mem =>
      noTab (List.mem_cons_of_mem c mem)
    rw [untabFrom, if_neg (Ne.symm other), if_neg same, ih noQuote kept']

/-- Blanks become spaces. -/
theorem untabFrom_blanks (all : ∀ d ∈ xs, isBlank d = true) :
    untabFrom false xs = List.replicate xs.length ' ' := by
  induction xs with
  | nil => rfl
  | cons c xs ih =>
    obtain ⟨blank, all⟩ := List.forall_mem_cons.1 all
    rw [isBlank, Bool.or_eq_true, beq_iff_eq, beq_iff_eq] at blank
    rw [untabFrom, ih all]
    rcases blank with rfl | rfl <;> rfl

theorem noQuote_of_isFront (all : ∀ d ∈ xs, isFront d = true) : '"' ∉ xs :=
  fun mem => absurd (all _ mem) (by decide)

/-- What stands in front of a statement has no bearing on its remark. -/
theorem splitRemark_append (all : ∀ d ∈ xs, isFront d = true) (ys : List Char) :
    splitRemark (xs ++ ys) = (splitRemark ys).map fun p => (xs ++ p.1, p.2) := by
  simp only [splitRemark, List.takeWhile_append_of_pos all, List.dropWhile_append_of_pos all]
  split <;> simp

/-- A text that says something else first has no remark. -/
theorem splitRemark_of_ne (other : isFront c = false) (differs : c.toUpper ≠ 'R')
    (cs : List Char) : splitRemark (c :: cs) = none := by
  have first : sameWord (String.ofList ((c :: cs).takeWhile Char.isAlphanum)) "REM" = false := by
    refine Bool.eq_false_iff.2 fun same => ?_
    rw [sameWord, String.toList_ofList, beq_iff_eq] at same
    cases begins : c.isAlphanum with
    | false =>
      rw [List.takeWhile_cons_of_neg (by simp [begins])] at same
      cases same
    | true =>
      rw [List.takeWhile_cons_of_pos begins, List.map_cons] at same
      exact differs (List.cons.inj same).1
  rw [splitRemark, List.dropWhile_cons_of_neg (by simp [other])]
  simp only [first, Bool.false_eq_true, if_false]

/-- A text that begins with a word has a remark if the word is `REM`. -/
theorem splitRemark_word {word : List Char} (alpha : c.isAlpha = true)
    (all : ∀ d ∈ word, d.isAlphanum = true)
    (stop : ∀ d, ys.head? = some d → d.isAlphanum = false) :
    splitRemark (c :: (word ++ ys)) =
      if sameWord (String.ofList (c :: word)) "REM" then
        some (c :: word ++ ys.takeWhile isBlank, ys.dropWhile isBlank)
      else none := by
  have alphanum : c.isAlphanum = true := by rw [Char.isAlphanum, alpha, Bool.true_or]
  have other : ¬ isFront c = true := by
    simp [isFront, isBlank_of_isAlphanum alphanum, isDigit_of_isAlpha alpha]
  rw [splitRemark, List.dropWhile_cons_of_neg other, List.takeWhile_cons_of_neg other]
  simp only [List.takeWhile_cons_of_pos alphanum, List.dropWhile_cons_of_pos alphanum,
    takeWhile_append all stop, dropWhile_append all stop, List.nil_append]

/-- Nothing of the text is lost where it is split. -/
theorem splitRemark_eq_some {front remark : List Char}
    (split : splitRemark cs = some (front, remark)) : front ++ remark = cs ∧ '"' ∉ front := by
  simp only [splitRemark] at split
  split at split
  next =>
    cases split
    constructor
    · simp only [List.append_assoc, List.takeWhile_append_dropWhile]
    · intro mem
      rcases List.mem_append.1 mem with mem | blank
      · rcases List.mem_append.1 mem with front | word
        · exact absurd (List.mem_takeWhile_imp front) (by decide)
        · exact absurd (List.mem_takeWhile_imp word) (by decide)
      · exact absurd (List.mem_takeWhile_imp blank) (by decide)
  next => cases split

theorem splitRemark_of_notAlpha (visible : isBlank c = false) (notDigit : c.isDigit = false)
    (notAlpha : c.isAlpha = false) (cs : List Char) : splitRemark (c :: cs) = none := by
  refine splitRemark_of_ne (by rw [isFront, visible, notDigit, Bool.or_false]) ?_ cs
  rw [toUpper_eq_self notAlpha]
  rintro rfl
  cases notAlpha

end Text

/-! ## 2. What is shown of a text -/

/-- The second text is the first, but that a space may stand for a tab, and a quote at the end. -/
inductive Alike : List Char → List Char → Prop
  | nil : Alike [] []
  | quote : Alike [] ['"']
  | same (c : Char) {cs ds : List Char} : Alike cs ds → Alike (c :: cs) (c :: ds)
  | tab {cs ds : List Char} : Alike cs ds → Alike ('\t' :: cs) (' ' :: ds)

namespace Alike

variable {cs ds xs ys zs : List Char} {p : Char → Bool}

theorem refl (cs : List Char) : Alike cs cs := by
  induction cs with
  | nil => exact .nil
  | cons c cs ih => exact .same c ih

theorem append_left (xs : List Char) (alike : Alike ys zs) : Alike (xs ++ ys) (xs ++ zs) := by
  induction xs with
  | nil => exact alike
  | cons c xs ih => exact .same c ih

theorem untabFrom_append (quoted : Bool) (xs : List Char) (alike : Alike ys zs) :
    Alike (xs ++ ys) (Text.untabFrom quoted xs ++ zs) := by
  induction xs generalizing quoted with
  | nil => exact alike
  | cons c xs ih =>
    rw [Text.untabFrom]
    split
    next => exact .same c (ih _)
    next =>
      split
      next isTab =>
        rw [isTab.1]
        exact .tab (ih quoted)
      next => exact .same c (ih quoted)

/-- Where one text stops, the other does. -/
theorem stops (alike : Alike cs ds) (quote : p '"' = false) (blank : p '\t' = false → p ' ' = false)
    (stop : Token.Stops p cs) : Token.Stops p ds := by
  intro d first
  cases alike with
  | nil => cases first
  | quote =>
    cases first
    exact quote
  | same =>
    cases first
    exact stop _ rfl
  | tab =>
    cases first
    exact blank (stop _ rfl)

/-- Between blanks and quotes the texts are the same. -/
theorem takeWhile (alike : Alike cs ds) (quote : p '"' = false) (space : p ' ' = false)
    (tab : p '\t' = false) :
    ds.takeWhile p = cs.takeWhile p ∧ Alike (cs.dropWhile p) (ds.dropWhile p) := by
  induction alike with
  | nil => exact ⟨rfl, .nil⟩
  | quote =>
    rw [List.takeWhile_cons_of_neg (by simp [quote]), List.dropWhile_cons_of_neg (by simp [quote])]
    exact ⟨rfl, .quote⟩
  | same c alike ih =>
    by_cases inside : p c = true
    · simpa [inside] using ih
    · simpa [inside] using alike.same c
  | tab alike ih => simpa [space, tab] using alike.tab

theorem eq_nil (alike : Alike cs []) : cs = [] := by
  cases alike
  rfl

/-- The other text ends in a quote, or as the first does. -/
theorem getLast? {d : Char} (alike : Alike cs ds) (last : ds.getLast? = some d) :
    d = '"' ∨ cs.getLast? = some d ∨ d = ' ' ∧ cs.getLast? = some '\t' := by
  have behind (c : Char) {e : Char} {l : List Char} (last : l.getLast? = some e) :
      (c :: l).getLast? = some e := by rw [List.getLast?_cons, last, Option.getD_some]
  induction alike with
  | nil => cases last
  | quote => exact .inl (Option.some.inj last).symm
  | @same c cs ds alike ih =>
    cases ds with
    | nil => exact .inr (.inl (alike.eq_nil ▸ last))
    | cons e ds =>
      rw [List.getLast?_cons_cons] at last
      rcases ih last with quote | same | ⟨space, tab⟩
      · exact .inl quote
      · exact .inr (.inl (behind c same))
      · exact .inr (.inr ⟨space, behind c tab⟩)
  | @tab cs ds alike ih =>
    cases ds with
    | nil =>
      rw [alike.eq_nil]
      exact .inr (.inr ⟨(Option.some.inj last).symm, rfl⟩)
    | cons e ds =>
      rw [List.getLast?_cons_cons] at last
      rcases ih last with quote | same | ⟨space, tab⟩
      · exact .inl quote
      · exact .inr (.inl (behind '\t' same))
      · exact .inr (.inr ⟨space, behind '\t' tab⟩)

/-- The same exponent is taken off both texts. -/
theorem scanExponent (alike : Alike cs ds) : (Exponent.scan ds).1 = (Exponent.scan cs).1 := by
  have digits {xs ys : List Char} (alike : Alike xs ys) :
      ys.takeWhile Char.isDigit = xs.takeWhile Char.isDigit :=
    (alike.takeWhile rfl rfl rfl).1
  have sign {xs ys : List Char} (alike : Alike xs ys) :
      (Exponent.scanSign ys).1 = (Exponent.scanSign xs).1 ∧
        Alike (Exponent.scanSign xs).2 (Exponent.scanSign ys).2 := by
    cases alike with
    | nil => exact ⟨rfl, .nil⟩
    | quote => exact ⟨rfl, .quote⟩
    | same c alike =>
      simp only [Exponent.scanSign]
      split
      · exact ⟨rfl, alike⟩
      · exact ⟨rfl, alike.same c⟩
    | tab alike => exact ⟨rfl, alike.tab⟩
  cases alike with
  | nil => rfl
  | quote => rfl
  | same mark alike =>
    obtain ⟨signs, behind⟩ := sign alike
    simp only [Exponent.scan, signs, digits behind]
    split <;> rfl
  | tab alike =>
    simp [Exponent.scan]

theorem scanFraction (alike : Alike cs ds) :
    (Numeral.scanFraction ds).1 = (Numeral.scanFraction cs).1 ∧
      Alike (Numeral.scanFraction cs).2 (Numeral.scanFraction ds).2 := by
  cases alike with
  | nil => exact ⟨rfl, .nil⟩
  | quote => exact ⟨rfl, .quote⟩
  | same c alike =>
    by_cases point : c = '.'
    · subst point
      obtain ⟨digits, behind⟩ := alike.takeWhile (p := Char.isDigit) rfl rfl rfl
      exact ⟨congrArg some digits, behind⟩
    · have none (l : List Char) : Numeral.scanFraction (c :: l) = (none, c :: l) := by
        unfold Numeral.scanFraction
        split
        next shape => exact absurd (List.cons.inj shape).1 point
        next => rfl
      rw [none, none]
      exact ⟨rfl, alike.same c⟩
  | tab alike => exact ⟨rfl, alike.tab⟩

/-- The same numeral is taken off both texts. -/
theorem scanNumeral (alike : Alike cs ds) : (Numeral.scan ds).1 = (Numeral.scan cs).1 := by
  obtain ⟨whole, behind⟩ := alike.takeWhile (p := Char.isDigit) rfl rfl rfl
  obtain ⟨fraction, behind⟩ := behind.scanFraction
  have exponent := behind.scanExponent
  simp only [Numeral.scan, whole, fraction, exponent]

end Alike

namespace Token

/-- What is shown of a text that begins between quotes or not, and in which nothing is a remark. -/
def shownFrom (quoted : Bool) (cs : List Char) : List Char :=
  Text.untabFrom quoted cs ++ if Text.openFrom quoted cs then ['"'] else []

/-- What is shown of a text that begins at a given place. -/
def shownAt (place : Place) (cs : List Char) : List Char :=
  match place with
  | .opening =>
    match Text.splitRemark cs with
    | some (front, comment) => Text.untabFrom false front ++ comment
    | none => shownFrom false cs
  | .inside => shownFrom false cs
  | .remark => Text.untabFrom false (cs.takeWhile Text.isBlank) ++ cs.dropWhile Text.isBlank

/-- Whether a literal is open at the end of a text that begins at a given place. -/
def opensAt (place : Place) (cs : List Char) : Bool :=
  match place with
  | .opening => (Text.splitRemark cs).isNone && Text.openFrom false cs
  | .inside => Text.openFrom false cs
  | .remark => false

variable {place : Place} {c : Char} {cs rest xs ys : List Char} {t : Token} {quoted : Bool}

namespace FaithfulLemmas

theorem shownFrom_append (noQuote : '"' ∉ xs) (ys : List Char) :
    shownFrom quoted (xs ++ ys) = Text.untabFrom quoted xs ++ shownFrom quoted ys := by
  rw [shownFrom, shownFrom, Text.untabFrom_append noQuote, Text.openFrom_append noQuote,
    List.append_assoc]

theorem shownFrom_quote (cs : List Char) :
    shownFrom quoted ('"' :: cs) = '"' :: shownFrom (!quoted) cs :=
  rfl

theorem text_string (literal : List Char) :
    (string (String.ofList literal)).text.toList = '"' :: (literal ++ ['"']) := by
  simp [text, String.toList_append]

theorem shownAt_nil (place : Place) : shownAt place [] = [] := by
  cases place <;> decide +kernel

theorem shownAt_opening (plain : Text.splitRemark cs = none) :
    shownAt .opening cs = shownAt .inside cs ∧ opensAt .opening cs = opensAt .inside cs := by
  simp only [shownAt, opensAt, plain, Option.isNone_none, Bool.true_and, and_self]

theorem shownAt_front (all : ∀ d ∈ xs, Text.isFront d = true) (ys : List Char) :
    shownAt .opening (xs ++ ys) = Text.untabFrom false xs ++ shownAt .opening ys ∧
      opensAt .opening (xs ++ ys) = opensAt .opening ys := by
  have noQuote := Text.noQuote_of_isFront all
  simp only [shownAt, opensAt, Text.splitRemark_append all, Option.isNone_map,
    Text.openFrom_append noQuote, and_true]
  cases Text.splitRemark ys with
  | none => exact shownFrom_append noQuote ys
  | some p =>
    simp only [Option.map_some, Text.untabFrom_append noQuote, List.append_assoc]

end FaithfulLemmas

open FaithfulLemmas

/-- What becomes of a text when a token is cut off: the token is shown, and then the rest; and a
literal is open at the end if one is open at the end of the rest, or if the token is one. -/
structure Shown (place : Place) (cs : List Char) (t : Token) (next : Place) (rest : List Char) :
    Prop where
  shown : shownAt place cs = t.text.toList ++ shownAt next rest
  opens : opensAt place cs = true → opensAt next rest = true ∨
    rest = [] ∧ ∃ literal, t = .string literal

namespace FaithfulLemmas

/-- A token in which no quote stands is shown with spaces for its tabs. -/
theorem shown_unquoted (whole : cs = xs ++ rest) (noQuote : '"' ∉ xs)
    (written : t.text.toList = Text.untabFrom false xs) : Shown .inside cs t .inside rest := by
  subst whole
  refine ⟨?_, fun opens => .inl ?_⟩
  · rw [shownAt, shownFrom_append noQuote, written, shownAt]
  · rwa [opensAt, Text.openFrom_append noQuote] at opens

/-- A token without quotes or tabs is shown as it stands. -/
theorem shown_plain (whole : cs = t.text.toList ++ rest)
    (plain : ∀ d ∈ t.text.toList, d ≠ '"' ∧ d ≠ '\t') : Shown .inside cs t .inside rest := by
  have noQuote : '"' ∉ t.text.toList := fun mem => (plain _ mem).1 rfl
  have noTab : '\t' ∉ t.text.toList := fun mem => (plain _ mem).2 rfl
  exact shown_unquoted whole noQuote (Text.untabFrom_eq_self noQuote (.inl noTab)).symm

/-- Characters that `p` knows hold no quote and no tab, if `p` knows neither. -/
theorem plain_of_forall {p : Char → Bool} (all : ∀ d ∈ xs, p d = true) (quote : p '"' = false)
    (tab : p '\t' = false) : ∀ d ∈ xs, d ≠ '"' ∧ d ≠ '\t' := by
  intro d mem
  constructor
  · rintro rfl
    exact Bool.false_ne_true (quote.symm.trans (all _ mem))
  · rintro rfl
    exact Bool.false_ne_true (tab.symm.trans (all _ mem))

/-- Blanks are shown as spaces. -/
theorem text_blanks (blanks : ∀ d ∈ c :: xs, Text.isBlank d = true) :
    (blank (xs.length + 1)).text.toList = Text.untabFrom false (c :: xs) := by
  rw [Text.untabFrom_blanks blanks, text, String.toList_ofList, List.length_cons]

theorem shown_closed {literal : List Char} (noQuote : '"' ∉ literal) :
    Shown .inside ('"' :: (literal ++ '"' :: rest)) (.string (String.ofList literal)) .inside
      rest := by
  refine ⟨?_, fun opens => .inl ?_⟩
  · rw [shownAt, shownFrom_quote, Bool.not_false, shownFrom_append noQuote,
      Text.untabFrom_eq_self noQuote (.inr rfl), shownFrom_quote, Bool.not_true, shownAt,
      text_string, List.cons_append, List.append_assoc, List.singleton_append]
  · rwa [opensAt, Text.openFrom, if_pos rfl, Text.openFrom_append noQuote, Text.openFrom,
      if_pos rfl] at opens

theorem shown_unclosed {literal : List Char} (noQuote : '"' ∉ literal) :
    Shown .inside ('"' :: literal) (.string (String.ofList literal)) .inside [] := by
  refine ⟨?_, fun _ => .inr ⟨rfl, _, rfl⟩⟩
  have stays : Text.openFrom true (literal ++ []) = true := Text.openFrom_append noQuote
  rw [List.append_nil] at stays
  rw [shownAt, shownFrom_quote, Bool.not_false, shownFrom,
    Text.untabFrom_eq_self noQuote (.inr rfl), stays, shownAt_nil, text_string, List.append_nil]
  rfl

/-- In a statement that is no remark. -/
theorem shown_inside (cut : Cut place cs t rest) (begun : place ≠ .remark) :
    Shown .inside cs t .inside rest := by
  cases cut with
  | remark isRemark => exact absurd isRemark begun
  | @blank c others _ whole first all stop =>
    have blanks : ∀ d ∈ c :: others, Text.isBlank d = true := List.forall_mem_cons.2 ⟨first, all⟩
    have noQuote : '"' ∉ c :: others := fun mem => absurd (blanks _ mem) (by decide)
    exact shown_unquoted whole noQuote (text_blanks blanks)
  | numeral =>
    refine shown_plain ?_ ?_
    · rw [text, String.toList_ofList, Numeral.scan_append]
    · rw [text, String.toList_ofList]
      exact plain_of_forall (fun d => Numeral.mem_scan) rfl rfl
  | @word c others _ _ whole alpha all =>
    have alphanum : c.isAlphanum = true := by rw [Char.isAlphanum, alpha, Bool.true_or]
    refine shown_plain ?_ ?_
    · rw [text, String.toList_ofList, whole, List.cons_append]
    · rw [text, String.toList_ofList]
      exact plain_of_forall (List.forall_mem_cons.2 ⟨alphanum, all⟩) rfl rfl
  | closed _ whole noQuote =>
    subst whole
    exact shown_closed noQuote
  | unclosed _ whole noQuote =>
    subst whole
    exact shown_unclosed noQuote
  | symbol _ whole known =>
    obtain ⟨visible, _, _, notQuote⟩ := CutLemmas.plain_of_symbol known
    refine shown_plain ?_ ?_
    · rw [CutLemmas.text_of_symbol known, whole, List.singleton_append]
    · rw [CutLemmas.text_of_symbol known, List.forall_mem_singleton]
      refine ⟨notQuote, ?_⟩
      rintro rfl
      cases visible
  | @unknown c others _ _ whole strange all =>
    refine shown_plain ?_ ?_
    · rw [text, String.toList_ofList, whole, List.cons_append]
    · rw [text, String.toList_ofList, List.forall_mem_cons]
      refine ⟨⟨strange.notQuote, ?_⟩, plain_of_forall all rfl rfl⟩
      rintro rfl
      cases strange.visible

/-- Behind a numeral that is not of digits alone nothing is a remark. -/
theorem splitRemark_numeral (more : (Numeral.scan cs).1.text.all Char.isDigit = false) :
    Text.splitRemark cs = none := by
  have digits : ∀ d ∈ cs.takeWhile Char.isDigit, Char.isDigit d = true :=
    fun d => List.mem_takeWhile_imp
  have front : ∀ d ∈ cs.takeWhile Char.isDigit, Text.isFront d = true := fun d mem => by
    rw [Text.isFront, digits d mem, Bool.or_true]
  -- Behind the digits comes a point or the mark of an exponent.
  have noMore {l : List Char} (text : (Numeral.scan cs).1.text = cs.takeWhile Char.isDigit) :
      Text.splitRemark l = none := by
    rw [text, List.all_eq_true.2 digits] at more
    cases more
  rw [← List.takeWhile_append_dropWhile (p := Char.isDigit) (l := cs),
    Text.splitRemark_append front, Option.map_eq_none_iff]
  cases behind : cs.dropWhile Char.isDigit with
  | nil =>
    refine noMore ?_
    simp [Numeral.scan, Numeral.text, behind, Numeral.scanFraction, Exponent.scan]
  | cons d ds =>
    by_cases goesOn : d = '.' ∨ d = 'e' ∨ d = 'E'
    · rcases goesOn with rfl | rfl | rfl <;> exact Text.splitRemark_of_ne (by decide) (by decide) ds
    · obtain ⟨point, mark⟩ := not_or.1 goesOn
      refine noMore ?_
      have fraction : Numeral.scanFraction (d :: ds) = (none, d :: ds) := by
        unfold Numeral.scanFraction
        split
        next shape => exact absurd (List.cons.inj shape).1 point
        next => rfl
      have exponent : Exponent.scan (d :: ds) = (none, d :: ds) := by
        simp [Exponent.scan, mark]
      simp [Numeral.scan, Numeral.text, behind, fraction, exponent]

/-- At the beginning of a text that has no remark. -/
theorem shown_plainly (cut : Cut .opening cs t rest) (plain : Text.splitRemark cs = none) :
    Shown .opening cs t .inside rest := by
  obtain ⟨shown, opens⟩ := shown_inside cut (by decide)
  obtain ⟨same, same'⟩ := shownAt_opening plain
  exact ⟨same.trans shown, fun isOpen => opens (same'.symm.trans isOpen)⟩

/-- Behind blanks and digits at the beginning of a text there can still be a remark. -/
theorem shown_front (whole : cs = xs ++ rest) (front : ∀ d ∈ xs, Text.isFront d = true)
    (written : t.text.toList = Text.untabFrom false xs) : Shown .opening cs t .opening rest := by
  obtain ⟨shown, opens⟩ := shownAt_front front rest
  subst whole
  exact ⟨by rw [shown, written], fun isOpen => .inl (opens.symm.trans isOpen)⟩

theorem shown_blanks (whole : cs = c :: (xs ++ rest))
    (blanks : ∀ d ∈ c :: xs, Text.isBlank d = true) :
    Shown .opening cs (.blank (xs.length + 1)) .opening rest := by
  refine shown_front whole (fun d mem => ?_) (text_blanks blanks)
  rw [Text.isFront, blanks d mem, Bool.true_or]

/-- A numeral of digits alone can be a line number, so a remark may follow it. -/
theorem shown_digits (digits : (Numeral.scan cs).1.text.all Char.isDigit = true) :
    Shown .opening cs (.number (String.ofList (Numeral.scan cs).1.text)) .opening
      (Numeral.scan cs).2 := by
  rw [List.all_eq_true] at digits
  have front : ∀ d ∈ (Numeral.scan cs).1.text, Text.isFront d = true := fun d mem => by
    rw [Text.isFront, digits d mem, Bool.or_true]
  have noTab : '\t' ∉ (Numeral.scan cs).1.text := fun mem => absurd (digits _ mem) (by decide)
  refine shown_front (Numeral.scan_append cs).symm front ?_
  rw [text, String.toList_ofList,
    Text.untabFrom_eq_self (Text.noQuote_of_isFront front) (.inl noTab)]

/-- What follows the word `REM` is a remark. -/
theorem shown_rem (plain : ∀ d ∈ xs, d ≠ '"' ∧ d ≠ '\t')
    (split : Text.splitRemark cs =
      some (xs ++ rest.takeWhile Text.isBlank, rest.dropWhile Text.isBlank)) :
    Shown .opening cs (.word (String.ofList xs)) .remark rest := by
  have noQuote : '"' ∉ xs := fun mem => (plain _ mem).1 rfl
  have noTab : '\t' ∉ xs := fun mem => (plain _ mem).2 rfl
  refine ⟨?_, fun isOpen => ?_⟩
  · rw [shownAt, split, shownAt, text, String.toList_ofList, ← List.append_assoc]
    simp only
    rw [Text.untabFrom_append noQuote, Text.untabFrom_eq_self noQuote (.inl noTab)]
  · rw [opensAt, split] at isOpen
    cases isOpen

theorem shown_opening (cut : Cut .opening cs t rest) :
    Shown .opening cs t (placeAfter .opening t) rest := by
  cases cut with
  | remark isRemark => cases isRemark
  | blank whole first all => exact shown_blanks whole (List.forall_mem_cons.2 ⟨first, all⟩)
  | numeral begun whole begins =>
    rw [placeAfter, String.toList_ofList]
    by_cases digits : (Numeral.scan cs).1.text.all Char.isDigit = true
    · rw [if_pos ⟨rfl, digits⟩]
      exact shown_digits digits
    · rw [if_neg fun both => digits both.2]
      exact shown_plainly (.numeral begun whole begins)
        (splitRemark_numeral (Bool.eq_false_iff.2 digits))
  | @word c others _ begun whole alpha all stop =>
    have split := Text.splitRemark_word alpha all stop
    rw [← whole] at split
    rw [placeAfter]
    by_cases rem : Text.sameWord (String.ofList (c :: others)) "REM" = true
    · have alphanum : c.isAlphanum = true := by rw [Char.isAlphanum, alpha, Bool.true_or]
      rw [if_pos ⟨rfl, rem⟩]
      exact shown_rem (plain_of_forall (List.forall_mem_cons.2 ⟨alphanum, all⟩) rfl rfl)
        (split.trans (if_pos rem))
    · rw [if_neg fun both => rem both.2]
      exact shown_plainly (.word begun whole alpha all stop) (split.trans (if_neg rem))
  | closed begun whole noQuote =>
    refine shown_plainly (.closed begun whole noQuote) ?_
    rw [whole]
    exact Text.splitRemark_of_ne (by decide) (by decide) _
  | unclosed begun whole noQuote =>
    refine shown_plainly (.unclosed begun whole noQuote) ?_
    rw [whole]
    exact Text.splitRemark_of_ne (by decide) (by decide) _
  | symbol begun whole known =>
    obtain ⟨visible, notNumeral, notAlpha, _⟩ := CutLemmas.plain_of_symbol known
    have notDigit := Bool.eq_false_iff.2 (not_or.1 notNumeral).1
    rw [CutLemmas.placeAfter_symbol known]
    refine shown_plainly (.symbol begun whole known) ?_
    rw [whole]
    exact Text.splitRemark_of_notAlpha visible notDigit notAlpha _
  | unknown begun whole strange all stop =>
    have notDigit := Bool.eq_false_iff.2 (not_or.1 strange.notNumeral).1
    refine shown_plainly (.unknown begun whole strange all stop) ?_
    rw [whole]
    exact Text.splitRemark_of_notAlpha strange.visible notDigit strange.notAlpha _

theorem shown_remark (cut : Cut .remark cs t rest) :
    Shown .remark cs t (placeAfter .remark t) rest := by
  cases cut with
  | @blank c others _ whole first all stop =>
    have blanks : ∀ d ∈ c :: others, Text.isBlank d = true := List.forall_mem_cons.2 ⟨first, all⟩
    have noBlank : ∀ d ∈ ([] : List Char), Text.isBlank d = true :=
      fun d mem => absurd mem List.not_mem_nil
    have none : ([] ++ rest).takeWhile Text.isBlank = [] := Text.takeWhile_append noBlank stop
    have kept : ([] ++ rest).dropWhile Text.isBlank = rest := Text.dropWhile_append noBlank stop
    rw [List.nil_append] at none kept
    rw [whole, ← List.cons_append]
    refine ⟨?_, fun opens => absurd opens Bool.false_ne_true⟩
    rw [shownAt, Text.takeWhile_append blanks stop, Text.dropWhile_append blanks stop,
      Text.untabFrom_blanks blanks, placeAfter, shownAt, none, kept, text, String.toList_ofList,
      List.length_cons]
    rfl
  | remark _ whole visible =>
    refine ⟨?_, fun opens => absurd opens Bool.false_ne_true⟩
    rw [whole, shownAt, List.takeWhile_cons_of_neg (by simp [visible]),
      List.dropWhile_cons_of_neg (by simp [visible]), shownAt_nil, text, String.toList_ofList,
      List.append_nil]
    rfl
  | numeral begun | word begun | closed begun | unclosed begun | symbol begun | unknown begun =>
    exact absurd rfl begun

theorem placeAfter_inside (t : Token) : placeAfter .inside t = .inside := by
  cases t <;> simp [placeAfter]

end FaithfulLemmas

/-- What becomes of a text when a token is cut off. -/
theorem Cut.shown (cut : Cut place cs t rest) : Shown place cs t (placeAfter place t) rest := by
  cases place with
  | opening => exact shown_opening cut
  | inside =>
    rw [placeAfter_inside]
    exact shown_inside cut (by decide)
  | remark => exact shown_remark cut

/-! ## 3. All of a text -/

theorem toList_concat_cons (t : Token) (tokens : List Token) :
    (concat (t :: tokens)).toList = t.text.toList ++ (concat tokens).toList := by
  rw [concat, List.foldr_cons, String.toList_append]
  rfl

/-- The tokens of a text, put together, are what is shown of it. -/
theorem concat_scan (place : Place) (cs : List Char) :
    (concat (scan place cs)).toList = shownAt place cs := by
  induction place, cs using scan_induction with
  | nil place =>
    rw [scan, shownAt_nil]
    rfl
  | cut cut ih => rw [cut.scan_eq, toList_concat_cons, ih, cut.shown.shown]

/-- A literal that is open at the end of a text is its last token. -/
theorem last_scan (place : Place) (cs : List Char) (opens : opensAt place cs = true) :
    ∃ before literal, scan place cs = before ++ [.string literal] := by
  induction place, cs using scan_induction with
  | nil place => cases place <;> exact absurd opens (by decide +kernel)
  | @cut place cs t rest cut ih =>
    rcases cut.shown.opens opens with behind | ⟨rfl, literal, rfl⟩
    · obtain ⟨before, literal, last⟩ := ih behind
      exact ⟨t :: before, literal, by rw [cut.scan_eq, last, List.cons_append]⟩
    · exact ⟨[], literal, by rw [cut.scan_eq, scan, List.nil_append]⟩

theorem alike_shownAt (place : Place) (cs : List Char) : Alike cs (shownAt place cs) := by
  have shownFrom : Alike cs (shownFrom false cs) := by
    have atEnd : Alike [] (if Text.openFrom false cs then ['"'] else []) := by
      split
      · exact .quote
      · exact .nil
    have alike := atEnd.untabFrom_append false cs
    rwa [List.append_nil] at alike
  cases place with
  | opening =>
    rw [shownAt]
    split
    next front comment split =>
      have alike := (Alike.refl comment).untabFrom_append false front
      rwa [(Text.splitRemark_eq_some split).1] at alike
    next => exact shownFrom
  | inside => exact shownFrom
  | remark =>
    have alike := (Alike.refl (cs.dropWhile Text.isBlank)).untabFrom_append false
      (cs.takeWhile Text.isBlank)
    rwa [List.takeWhile_append_dropWhile] at alike

/-- A token can be cut off where it is shown in front of a text that is alike. -/
theorem Cut.again {more : List Char} (cut : Cut place cs t rest) (alike : Alike rest more)
    (ended : rest = [] → more = []) : Cut place (t.text.toList ++ more) t more := by
  cases cut with
  | @blank c others _ whole first all stop =>
    have spaces : (text (.blank (others.length + 1))).toList =
        ' ' :: List.replicate others.length ' ' := by
      rw [text, String.toList_ofList]
      rfl
    have again : Cut place (' ' :: (List.replicate others.length ' ' ++ more))
        (.blank ((List.replicate others.length ' ').length + 1)) more :=
      .blank rfl rfl (fun d mem => List.eq_of_mem_replicate mem ▸ rfl)
        (alike.stops rfl nofun stop)
    rw [spaces, List.cons_append]
    rwa [List.length_replicate] at again
  | remark begun whole visible =>
    rw [ended rfl, List.append_nil, text, String.toList_ofList]
    exact .remark begun whole visible
  | @numeral c others begun whole begins =>
    obtain ⟨ds, shape⟩ := CutLemmas.text_scan_eq_cons begins others
    rw [← whole] at shape
    have alikeAll := alike.append_left (Numeral.scan cs).1.text
    rw [Numeral.scan_append] at alikeAll
    have same := alikeAll.scanNumeral
    have left := Numeral.scan_append ((Numeral.scan cs).1.text ++ more)
    rw [same, List.append_cancel_left_eq] at left
    have again : Cut place ((Numeral.scan cs).1.text ++ more) _ _ :=
      .numeral begun (by rw [shape, List.cons_append]) begins
    rw [same, left] at again
    rwa [text, String.toList_ofList]
  | @word c others _ begun whole alpha all stop =>
    rw [text, String.toList_ofList, List.cons_append]
    exact .word begun rfl alpha all (alike.stops rfl (fun _ => rfl) stop)
  | closed begun whole noQuote =>
    rw [text_string, List.cons_append, List.append_assoc, List.singleton_append]
    exact .closed begun rfl noQuote
  | unclosed begun whole noQuote =>
    rw [text_string, List.cons_append, List.append_assoc, List.singleton_append]
    exact .closed begun rfl noQuote
  | symbol begun whole known =>
    rw [CutLemmas.text_of_symbol known, List.singleton_append]
    exact .symbol begun rfl known
  | @unknown c others _ begun whole strange all stop =>
    rw [text, String.toList_ofList, List.cons_append]
    exact .unknown begun rfl strange all (alike.stops rfl (fun _ => rfl) stop)

/-- What is shown of a text is cut into the same tokens. -/
theorem scan_shownAt (place : Place) (cs : List Char) :
    scan place (shownAt place cs) = scan place cs := by
  induction place, cs using scan_induction with
  | nil place => rw [shownAt_nil]
  | @cut place cs t rest cut ih =>
    have ended : rest = [] → shownAt (placeAfter place t) rest = [] := by
      rintro rfl
      exact shownAt_nil _
    rw [cut.shown.shown, (cut.again (alike_shownAt _ rest) ended).scan_eq, ih, cut.scan_eq]

/-- No token of a text is empty. -/
theorem text_ne_nil (place : Place) (cs : List Char) :
    ∀ t ∈ scan place cs, t.text.toList ≠ [] := by
  induction place, cs using scan_induction with
  | nil place =>
    rw [scan]
    exact fun t mem => absurd mem List.not_mem_nil
  | @cut place cs t rest cut ih =>
    rw [cut.scan_eq, List.forall_mem_cons]
    refine ⟨fun empty => ?_, ih⟩
    -- Otherwise nothing would be left when the token is cut off where it is shown.
    have again := (cut.again (Alike.refl rest) id).length_lt
    rw [empty, List.nil_append] at again
    exact Nat.lt_irrefl _ again

/-! ## 4. Texts without white space at their end -/

theorem toList_concat_append (front back : List Token) :
    (concat (front ++ back)).toList = (concat front).toList ++ (concat back).toList := by
  induction front with
  | nil => rfl
  | cons t front ih =>
    rw [List.cons_append, toList_concat_cons, toList_concat_cons, ih, List.append_assoc]

theorem toList_concat_singleton (t : Token) : (concat [t]).toList = t.text.toList := by
  rw [toList_concat_cons]
  exact List.append_nil _

/-- Nothing is trimmed from tokens whose text does not end in white space. -/
theorem trimLast_eq_self {tokens : List Token} (written : ∀ t ∈ tokens, t.text.toList ≠ [])
    (clean : ∀ d, (concat tokens).toList.getLast? = some d → Text.isSpace d = false) :
    trimLast tokens = tokens := by
  rcases List.eq_nil_or_concat' tokens with rfl | ⟨front, last, rfl⟩
  · rfl
  rw [toList_concat_append, toList_concat_singleton] at clean
  have full : last.text.toList ≠ [] := written last List.mem_concat_self
  have ends : ∀ d, last.text.toList.getLast? = some d → Text.isSpace d = false := fun d final =>
    clean d (by rw [List.getLast?_append_of_ne_nil _ full, final])
  have solid : last.isBlank = false := by
    cases last with
    | blank width =>
      rw [text, String.toList_ofList] at full ends
      have final := List.getLast?_eq_some_getLast full
      rw [List.getLast_replicate] at final
      cases ends ' ' final
    | _ => rfl
  have kept : last.trimRemark = last := by
    cases last with
    | remark s =>
      have same : Text.trimEnd s.toList = s.toList := Text.dropTrailing_eq_self_iff.2 ends
      rw [trimRemark, same, String.ofList_toList]
    | _ => rfl
  simp [trimLast, solid, kept]

/-- What is shown of a text ends in no white space if the text does not. -/
theorem clean_shownAt (clean : ∀ d, cs.getLast? = some d → Text.isSpace d = false)
    (place : Place) {d : Char} (last : (shownAt place cs).getLast? = some d) :
    Text.isSpace d = false := by
  rcases (alike_shownAt place cs).getLast? last with rfl | same | ⟨_, tab⟩
  · rfl
  · exact clean d same
  · cases clean '\t' tab

theorem ofText_eq_scan {s : String}
    (clean : ∀ d, s.toList.getLast? = some d → Text.isSpace d = false) :
    ofText s = scan .opening s.toList := by
  have kept : Text.dropTrailing Text.isLineEnd s.toList = s.toList := by
    refine Text.dropTrailing_eq_self_iff.2 fun d last => Bool.eq_false_iff.2 fun lineEnd => ?_
    have space := Text.isSpace_of_isLineEnd lineEnd
    rw [clean d last] at space
    cases space
  rw [ofText, kept]
  refine trimLast_eq_self (text_ne_nil _ _) fun d last => ?_
  rw [concat_scan] at last
  exact clean_shownAt clean _ last

theorem leavesOpen_eq (s : String) : Text.leavesOpen s = opensAt .opening s.toList := by
  rw [Text.leavesOpen, opensAt]
  cases Text.splitRemark s.toList <;> rfl

/-- What is shown of a whole text, in terms of its characters. -/
theorem shownAt_opening_eq (s : String) :
    shownAt .opening s.toList =
      (Text.untab s ++ if Text.leavesOpen s then "\"" else "").toList := by
  rw [shownAt, Text.untab, Text.leavesOpen, String.toList_append]
  cases Text.splitRemark s.toList with
  | none =>
    rw [shownFrom, String.toList_ofList]
    cases Text.openFrom false s.toList <;> rfl
  | some p =>
    simp only [String.toList_ofList, Bool.false_eq_true, if_false]
    exact (List.append_nil _).symm

/-- Cutting a text loses nothing, and is stable. When a text with no white space at its end is cut
and its tokens are put together again, that is the text with a space for each tab outside of
literals and of the remark, and with a closing quote at its end exactly if the last token is a
literal that has none in the text. And it is cut into the same tokens again. -/
theorem faithful_ofText {s : String}
    (clean : ∀ d, s.toList.getLast? = some d → Text.isSpace d = false) :
    concat (ofText s) = Text.untab s ++ (if Text.leavesOpen s then "\"" else "") ∧
    (Text.leavesOpen s = true ↔ ∃ before literal, ofText s = before ++ [.string literal] ∧
      Text.untab s = concat before ++ "\"" ++ literal) ∧
    ofText (concat (ofText s)) = ofText s := by
  have cut := ofText_eq_scan clean
  have shown : (concat (ofText s)).toList = shownAt .opening s.toList := by rw [cut, concat_scan]
  have whole : concat (ofText s) = Text.untab s ++ (if Text.leavesOpen s then "\"" else "") :=
    String.toList_inj.1 (shown.trans (shownAt_opening_eq s))
  have literals (before : List Token) (literal : String) :
      concat (before ++ [.string literal]) = concat before ++ "\"" ++ literal ++ "\"" := by
    rw [← String.toList_inj, toList_concat_append, toList_concat_singleton]
    simp [text]
  refine ⟨whole, ⟨fun opens => ?_, ?_⟩, ?_⟩
  · have opensAt : opensAt .opening s.toList = true := (leavesOpen_eq s).symm.trans opens
    obtain ⟨before, literal, last⟩ := last_scan .opening s.toList opensAt
    rw [cut, last, literals, opens, if_pos rfl, String.append_left_inj] at whole
    exact ⟨before, literal, cut.trans last, whole.symm⟩
  · rintro ⟨before, literal, last, untabbed⟩
    cases opens : Text.leavesOpen s with
    | true => rfl
    | false =>
      -- Without the quote the tokens would be longer than what is shown.
      rw [last, literals, ← untabbed, opens] at whole
      have lengths := congrArg String.length whole
      simp at lengths
  · have clean' : ∀ d, (concat (ofText s)).toList.getLast? = some d → Text.isSpace d = false := by
      rw [shown]
      exact fun d => clean_shownAt clean .opening
    rw [ofText_eq_scan clean', shown, scan_shownAt, cut]

/-- A text with a tab on either side of a quote that is left open. -/
theorem faithful_ofText_unclosed :
    let s := "10\tprint \"a\tb"
    (∀ d, s.toList.getLast? = some d → Text.isSpace d = false) ∧
      Text.untab s = "10 print \"a\tb" ∧ Text.leavesOpen s = true ∧
      concat (ofText s) = "10 print \"a\tb\"" ∧ ofText (concat (ofText s)) = ofText s := by
  intro s
  have clean : ∀ d, s.toList.getLast? = some d → Text.isSpace d = false := by
    intro d last
    have ends : s.toList.getLast? = some 'b' := by decide +kernel
    rw [ends] at last
    rw [← Option.some.inj last]
    rfl
  have untabbed : Text.untab s = "10 print \"a\tb" := by decide +kernel
  have opens : Text.leavesOpen s = true := by decide +kernel
  obtain ⟨whole, _, stable⟩ := faithful_ofText clean
  rw [untabbed, opens] at whole
  exact ⟨clean, untabbed, opens, whole, stable⟩

end Token

end LineBasic
