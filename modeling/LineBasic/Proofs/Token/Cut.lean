import LineBasic.Proofs.Token.Numeral

/-!
# How a token is cut off a text

`Cut` says of each kind of token in front of which text it is cut off, and what is left of the text.
There is always one way to cut a text, and it is the one the lexer takes; so what holds of each way
to cut holds of the tokens of a text.

Results:
1. `cut_takeFirst`, `Cut.takeFirst_eq`: the lexer cuts as `Cut` says, and in no other way.
2. `Cut.scan_eq`, `scan_induction`: the tokens of a text, one cut after the other.
-/

namespace LineBasic

namespace Token

/-! ## 1. Ways to cut -/

/-- A character that no other token begins with. -/
structure Strange (c : Char) : Prop where
  visible : Text.isBlank c = false
  notNumeral : ¬ (c.isDigit = true ∨ c = '.')
  notAlpha : c.isAlpha = false
  notQuote : c ≠ '"'
  notSymbol : ofChar? c = none

/-- Where a kind of character stops. -/
def Stops (p : Char → Bool) (rest : List Char) : Prop := ∀ c, rest.head? = some c → p c = false

theorem Stops.of_prefix {p : Char → Bool} {front cs : List Char} (stop : Stops p cs)
    (shorter : front <+: cs) : Stops p front := by
  intro c first
  obtain ⟨others, rfl⟩ := List.head?_eq_some_iff.1 first
  obtain ⟨more, rfl⟩ := shorter
  exact stop c rfl

/-- A token is cut off a text that begins at a given place, and the rest is left. -/
inductive Cut (place : Place) (cs : List Char) : Token → List Char → Prop
  | blank {c : Char} {others rest : List Char} (whole : cs = c :: (others ++ rest))
      (first : Text.isBlank c = true) (all : ∀ d ∈ others, Text.isBlank d = true)
      (stop : Stops Text.isBlank rest) : Cut place cs (.blank (others.length + 1)) rest
  | remark {c : Char} {others : List Char} (begun : place = .remark) (whole : cs = c :: others)
      (visible : Text.isBlank c = false) : Cut place cs (.remark (String.ofList cs)) []
  | numeral {c : Char} {others : List Char} (begun : place ≠ .remark) (whole : cs = c :: others)
      (begins : c.isDigit = true ∨ c = '.') :
      Cut place cs (.number (String.ofList (Numeral.scan cs).1.text)) (Numeral.scan cs).2
  | word {c : Char} {others rest : List Char} (begun : place ≠ .remark)
      (whole : cs = c :: (others ++ rest)) (alpha : c.isAlpha = true)
      (all : ∀ d ∈ others, d.isAlphanum = true) (stop : Stops Char.isAlphanum rest) :
      Cut place cs (.word (String.ofList (c :: others))) rest
  | closed {literal rest : List Char} (begun : place ≠ .remark)
      (whole : cs = '"' :: (literal ++ '"' :: rest)) (noQuote : '"' ∉ literal) :
      Cut place cs (.string (String.ofList literal)) rest
  | unclosed {literal : List Char} (begun : place ≠ .remark) (whole : cs = '"' :: literal)
      (noQuote : '"' ∉ literal) : Cut place cs (.string (String.ofList literal)) []
  | symbol {c : Char} {t : Token} {rest : List Char} (begun : place ≠ .remark)
      (whole : cs = c :: rest) (known : ofChar? c = some t) : Cut place cs t rest
  | unknown {c : Char} {others rest : List Char} (begun : place ≠ .remark)
      (whole : cs = c :: (others ++ rest)) (strange : Strange c)
      (all : ∀ d ∈ others, continuesUnknown d = true) (stop : Stops continuesUnknown rest) :
      Cut place cs (.unknown (String.ofList (c :: others))) rest

variable {place : Place} {c : Char} {cs rest : List Char} {t : Token}

namespace CutLemmas

theorem ofChar?_cases (known : ofChar? c = some t) :
    (c = '(' ∧ t = .leftParen) ∨ (c = ')' ∧ t = .rightParen) ∨ (c = ',' ∧ t = .comma) ∨
      ∃ op, c = Operator.symbol op ∧ t = .operator op := by
  simp only [ofChar?] at known
  split at known
  next h => exact .inl ⟨h, (Option.some.inj known).symm⟩
  next =>
    split at known
    next h => exact .inr (.inl ⟨h, (Option.some.inj known).symm⟩)
    next =>
      split at known
      next h => exact .inr (.inr (.inl ⟨h, (Option.some.inj known).symm⟩))
      next =>
        obtain ⟨op, found, rfl⟩ := Option.map_eq_some_iff.1 known
        exact .inr (.inr (.inr ⟨op, (Operator.ofChar?_eq_some_iff.1 found).symm, rfl⟩))

/-- A numeral that is taken off a text begins with the character that it is known by. -/
theorem text_scan_eq_cons (begins : c.isDigit = true ∨ c = '.') (cs : List Char) :
    ∃ ds, (Numeral.scan (c :: cs)).1.text = c :: ds := by
  have whole := Numeral.scan_append (c :: cs)
  have shorter := Numeral.length_scan_lt cs begins
  cases shape : (Numeral.scan (c :: cs)).1.text with
  | nil =>
    rw [shape, List.nil_append] at whole
    rw [whole] at shorter
    exact absurd shorter (Nat.lt_irrefl _)
  | cons d ds =>
    rw [shape] at whole
    obtain ⟨rfl, _⟩ := List.cons.inj whole
    exact ⟨ds, rfl⟩

theorem stops_dropWhile (p : Char → Bool) (cs : List Char) : Stops p (cs.dropWhile p) := by
  intro c first
  have full : cs.dropWhile p ≠ [] := by
    intro empty
    rw [empty] at first
    cases first
  rw [List.head?_eq_some_head full] at first
  rw [← Option.some.inj first]
  exact List.head_dropWhile_not p full

/-- The characters that are tokens of their own begin no other token. -/
theorem plain_of_symbol (known : ofChar? c = some t) :
    Text.isBlank c = false ∧ ¬ (c.isDigit = true ∨ c = '.') ∧ c.isAlpha = false ∧ c ≠ '"' := by
  rcases ofChar?_cases known with ⟨rfl, _⟩ | ⟨rfl, _⟩ | ⟨rfl, _⟩ | ⟨op, rfl, _⟩
  · decide
  · decide
  · decide
  · cases op <;> decide

theorem text_of_symbol (known : ofChar? c = some t) : t.text.toList = [c] := by
  rcases ofChar?_cases known with ⟨rfl, rfl⟩ | ⟨rfl, rfl⟩ | ⟨rfl, rfl⟩ | ⟨op, rfl, rfl⟩
  · rfl
  · rfl
  · rfl
  · cases op <;> rfl

theorem placeAfter_symbol (known : ofChar? c = some t) : placeAfter place t = .inside := by
  rcases ofChar?_cases known with ⟨_, rfl⟩ | ⟨_, rfl⟩ | ⟨_, rfl⟩ | ⟨_, _, rfl⟩ <;> rfl

theorem notNumeral_of_isAlpha (alpha : c.isAlpha = true) : ¬ (c.isDigit = true ∨ c = '.') := by
  rintro (digit | rfl)
  · rw [Text.isDigit_of_isAlpha alpha] at digit
    cases digit
  · cases alpha

theorem visible_of_numeral (begins : c.isDigit = true ∨ c = '.') : Text.isBlank c = false := by
  rcases begins with digit | rfl
  · exact Text.isBlank_of_isAlphanum (NumeralLemmas.isAlphanum_of_isDigit digit)
  · rfl

theorem visible_of_isAlpha (alpha : c.isAlpha = true) : Text.isBlank c = false :=
  Text.isBlank_of_isAlphanum (by rw [Char.isAlphanum, alpha, Bool.true_or])

end CutLemmas

open CutLemmas

/-- The lexer cuts a literal where its quote is, or takes all of the text. -/
theorem cut_literal (begun : place ≠ .remark) (cs : List Char) :
    Cut place ('"' :: cs) (.string (String.ofList (cs.takeWhile (· ≠ '"'))))
      (cs.dropWhile (· ≠ '"')).tail := by
  have noQuote : '"' ∉ cs.takeWhile (· ≠ '"') := by
    intro mem
    have other := List.mem_takeWhile_imp mem
    exact absurd rfl (of_decide_eq_true other)
  have whole := List.takeWhile_append_dropWhile (p := (· ≠ '"')) (l := cs)
  cases behind : cs.dropWhile (· ≠ '"') with
  | nil =>
    rw [behind, List.append_nil] at whole
    exact .unclosed begun (by rw [whole]) noQuote
  | cons d rest =>
    have quote := stops_dropWhile (· ≠ '"') cs d (by rw [behind]; rfl)
    obtain rfl : d = '"' := not_not.1 (of_decide_eq_false quote)
    rw [behind] at whole
    exact .closed begun (by rw [List.tail_cons, whole]) noQuote

/-- The first token of a text is cut off it. -/
theorem cut_takeFirst (place : Place) (c : Char) (cs : List Char) :
    Cut place (c :: cs) (takeFirst place c cs).1 (takeFirst place c cs).2 := by
  have whole (p : Char → Bool) : c :: cs = c :: (cs.takeWhile p ++ cs.dropWhile p) := by
    rw [List.takeWhile_append_dropWhile]
  unfold takeFirst
  split
  next blank =>
    exact .blank (whole _) blank (fun d => List.mem_takeWhile_imp) (stops_dropWhile _ _)
  next notBlank =>
    have visible : Text.isBlank c = false := Bool.eq_false_iff.2 notBlank
    split
    next begun => exact .remark begun rfl visible
    next begun =>
      split
      next begins =>
        rw [takeNumeral_eq begins]
        exact .numeral begun rfl begins
      next notNumeral =>
        split
        next alpha =>
          exact .word begun (whole _) alpha (fun d => List.mem_takeWhile_imp) (stops_dropWhile _ _)
        next notAlpha =>
          split
          next quote =>
            subst quote
            exact cut_literal begun cs
          next notQuote =>
            split
            next t known => exact .symbol begun rfl known
            next notSymbol =>
              exact .unknown begun (whole _)
                ⟨visible, notNumeral, Bool.eq_false_iff.2 notAlpha, notQuote, notSymbol⟩
                (fun d => List.mem_takeWhile_imp) (stops_dropWhile _ _)

/-- A text is cut in no other way. -/
theorem Cut.takeFirst_eq (cut : Cut place (c :: cs) t rest) : takeFirst place c cs = (t, rest) := by
  cases cut with
  | blank whole first all stop =>
    obtain ⟨rfl, rfl⟩ := List.cons.inj whole
    rw [takeFirst, if_pos first, Text.takeWhile_append all stop, Text.dropWhile_append all stop]
  | remark begun whole visible =>
    obtain ⟨rfl, rfl⟩ := List.cons.inj whole
    rw [takeFirst, if_neg (by simp [visible]), if_pos begun]
  | numeral begun whole begins =>
    obtain ⟨rfl, rfl⟩ := List.cons.inj whole
    rw [takeFirst, if_neg (by simp [visible_of_numeral begins]), if_neg begun, if_pos begins,
      takeNumeral_eq begins]
  | word begun whole alpha all stop =>
    obtain ⟨rfl, rfl⟩ := List.cons.inj whole
    rw [takeFirst, if_neg (by simp [visible_of_isAlpha alpha]), if_neg begun,
      if_neg (notNumeral_of_isAlpha alpha), if_pos alpha, Text.takeWhile_append all stop,
      Text.dropWhile_append all stop]
  | @closed literal rest begun whole noQuote =>
    obtain ⟨rfl, rfl⟩ := List.cons.inj whole
    have all : ∀ d ∈ literal, decide (d ≠ '"') = true :=
      fun d mem => decide_eq_true fun quote => noQuote (quote ▸ mem)
    have stop : ∀ d, ('"' :: rest).head? = some d → decide (d ≠ '"') = false := by
      intro d first
      rw [← Option.some.inj first]
      rfl
    rw [takeFirst, if_neg (by decide), if_neg begun, if_neg (by decide), if_neg (by decide),
      if_pos rfl, Text.takeWhile_append all stop, Text.dropWhile_append all stop, List.tail_cons]
  | @unclosed literal begun whole noQuote =>
    obtain ⟨rfl, rfl⟩ := List.cons.inj whole
    have all : ∀ d ∈ cs, decide (d ≠ '"') = true :=
      fun d mem => decide_eq_true fun quote => noQuote (quote ▸ mem)
    rw [takeFirst, if_neg (by decide), if_neg begun, if_neg (by decide), if_neg (by decide),
      if_pos rfl, List.takeWhile_eq_self_iff.2 all, List.dropWhile_eq_nil_iff.2 all, List.tail_nil]
  | symbol begun whole known =>
    obtain ⟨rfl, rfl⟩ := List.cons.inj whole
    obtain ⟨visible, notNumeral, notAlpha, notQuote⟩ := plain_of_symbol known
    rw [takeFirst, if_neg (by simp [visible]), if_neg begun, if_neg notNumeral,
      if_neg (by simp [notAlpha]), if_neg notQuote, known]
  | unknown begun whole strange all stop =>
    obtain ⟨rfl, rfl⟩ := List.cons.inj whole
    rw [takeFirst, if_neg (by simp [strange.visible]), if_neg begun, if_neg strange.notNumeral,
      if_neg (by simp [strange.notAlpha]), if_neg strange.notQuote, strange.notSymbol,
      Text.takeWhile_append all stop, Text.dropWhile_append all stop]

/-! ## 2. One cut after the other -/

theorem Cut.exists_cons (cut : Cut place cs t rest) : ∃ c others, cs = c :: others := by
  cases cut with
  | blank whole | remark _ whole | numeral _ whole | word _ whole | closed _ whole
  | unclosed _ whole | symbol _ whole | unknown _ whole => exact ⟨_, _, whole⟩

theorem Cut.length_lt (cut : Cut place cs t rest) : rest.length < cs.length := by
  obtain ⟨c, others, rfl⟩ := cut.exists_cons
  have shorter := length_takeFirst_lt place c others
  rwa [cut.takeFirst_eq] at shorter

/-- The token that is cut off a text is its first, and the others are those of the rest. -/
theorem Cut.scan_eq (cut : Cut place cs t rest) :
    scan place cs = t :: scan (placeAfter place t) rest := by
  obtain ⟨c, others, rfl⟩ := cut.exists_cons
  rw [scan, cut.takeFirst_eq]

/-- What holds of the empty text, and of a text if it holds of what is left when a token has been
cut off it, holds of all texts. -/
theorem scan_induction {motive : Place → List Char → Prop} (nil : ∀ place, motive place [])
    (cut : ∀ {place cs t rest}, Cut place cs t rest → motive (placeAfter place t) rest →
      motive place cs) (place : Place) (cs : List Char) : motive place cs := by
  induction place, cs using scan.induct with
  | case1 place => exact nil place
  | case2 place c cs first ih => exact cut (cut_takeFirst place c cs) ih

end Token

end LineBasic
