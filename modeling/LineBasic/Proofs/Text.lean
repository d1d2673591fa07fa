import LineBasic.Text
import Mathlib

/-!
# Trimming and cutting into lines

What is left when the end of a text has been trimmed: a beginning of the text whose last character
stays, so that trimming it once more changes nothing. And what a text is cut into: no line of it
holds a line feed.

Results:
1. `dropTrailing_eq_self_iff`, `dropTrailing_append`: which texts and fronts trimming leaves alone.
2. `noFeed_of_mem_splitLines`: lines hold no line feed.
3. `isSpace_of_isAlphanum`: letters and digits are no white space.
4. `takeWhile_append`, `dropWhile_append`: the longest beginning of a kind, when it is known.
5. `isAlpha_of_sameWord`: words that differ in their case alone.
-/

namespace LineBasic

namespace Text

variable {p : Char → Bool} {cs : List Char}

/-! ## 1. Trimming the end -/

theorem isPrefix_dropTrailing : dropTrailing p cs <+: cs := cs.rdropWhile_prefix p

theorem last_dropTrailing {c : Char} (last : (dropTrailing p cs).getLast? = some c) :
    p c = false := by
  have full : dropTrailing p cs ≠ [] := by
    intro empty
    rw [empty] at last
    cases last
  rw [List.getLast?_eq_some_getLast full] at last
  obtain rfl := Option.some.inj last
  exact Bool.eq_false_iff.2 (List.rdropWhile_last_not p cs full)

theorem dropTrailing_eq_self_iff :
    dropTrailing p cs = cs ↔ ∀ c, cs.getLast? = some c → p c = false := by
  constructor
  · intro kept c last
    rw [← kept] at last
    exact last_dropTrailing last
  · intro stays
    refine List.rdropWhile_eq_self_iff.2 fun full => ?_
    exact Bool.eq_false_iff.1 (stays _ (List.getLast?_eq_some_getLast full))

theorem dropTrailing_dropTrailing : dropTrailing p (dropTrailing p cs) = dropTrailing p cs :=
  dropTrailing_eq_self_iff.2 fun _ => last_dropTrailing

/-- What is left of a text without its end, in front of that end. -/
theorem exists_trailing (p : Char → Bool) (cs : List Char) :
    ∃ trailing, cs = dropTrailing p cs ++ trailing ∧ ∀ c ∈ trailing, p c = true := by
  refine ⟨(cs.reverse.takeWhile p).reverse, ?_, fun c mem => ?_⟩
  · rw [dropTrailing, ← List.reverse_append, List.takeWhile_append_dropWhile, List.reverse_reverse]
  · exact List.mem_takeWhile_imp (List.mem_reverse.1 mem)

/-- Trimming the end of a text leaves its front alone, if it stops before it gets there. -/
theorem dropTrailing_append {front back : List Char}
    (stops : dropTrailing p front = front ∨ dropTrailing p back ≠ []) :
    dropTrailing p (front ++ back) = front ++ dropTrailing p back := by
  unfold dropTrailing at stops ⊢
  rw [List.reverse_append, List.dropWhile_append]
  split
  next none =>
    have empty := List.isEmpty_iff.1 none
    rw [empty, List.reverse_nil, List.append_nil]
    exact stops.resolve_right fun some => some (by rw [empty, List.reverse_nil])
  next => rw [List.reverse_append, List.reverse_reverse]

theorem trimEnd_trimEnd : trimEnd (trimEnd cs) = trimEnd cs := dropTrailing_dropTrailing

/-- Nothing is left of white space alone. -/
theorem trimEnd_eq_nil (blank : cs.all isSpace = true) : trimEnd cs = [] :=
  List.rdropWhile_eq_nil_iff.2 (List.all_eq_true.1 blank)

/-- Nothing is left of a trimmed text just if it is white space alone. -/
theorem trim_eq_nil_iff : trim cs = [] ↔ cs.all isSpace = true := by
  rw [List.all_eq_true]
  refine List.rdropWhile_eq_nil_iff.trans ⟨fun all c mem => ?_, fun all c mem => ?_⟩
  · rw [← List.takeWhile_append_dropWhile (p := isSpace) (l := cs)] at mem
    exact (List.mem_append.1 mem).elim List.mem_takeWhile_imp (all c)
  · exact all c ((List.dropWhile_suffix _).subset mem)

/-- The first character of a text stays if it is none of those that go. -/
theorem dropTrailing_cons {c : Char} (stays : p c = false) (cs : List Char) :
    ∃ cs', dropTrailing p (c :: cs) = c :: cs' := by
  rcases List.prefix_cons_iff.1 (isPrefix_dropTrailing : dropTrailing p (c :: cs) <+: _) with none | some
  · have all := List.rdropWhile_eq_nil_iff.1 none c List.mem_cons_self
    rw [stays] at all
    cases all
  · obtain ⟨cs', kept, _⟩ := some
    exact ⟨cs', kept⟩

/-- The more characters go, the less is left. -/
theorem dropTrailing_mono {q : Char → Bool} (more : ∀ c, p c = true → q c = true) :
    dropTrailing q cs <+: dropTrailing p cs := by
  have twice : ∀ l : List Char, l.dropWhile q = (l.dropWhile p).dropWhile q := by
    intro l
    induction l with
    | nil => rfl
    | cons c l ih =>
      by_cases goes : p c = true
      · rw [List.dropWhile_cons_of_pos goes, List.dropWhile_cons_of_pos (more c goes), ih]
      · rw [List.dropWhile_cons_of_neg goes]
  rw [dropTrailing, twice]
  exact List.reverse_prefix.2 (List.dropWhile_suffix q)

theorem isSpace_of_isLineEnd {c : Char} (h : isLineEnd c = true) : isSpace c = true := by
  rw [isLineEnd, Bool.or_eq_true, beq_iff_eq, beq_iff_eq] at h
  rcases h with rfl | rfl <;> decide

/-! ## 2. Lines -/

/-- No line holds a line feed. -/
theorem noFeed_of_mem_splitLines {line : List Char} (mem : line ∈ splitLines cs) :
    '\n' ∉ line := by
  induction cs using splitLines.induct generalizing line with
  | case1 => cases mem
  | case2 cs ih =>
    unfold splitLines at mem
    rcases List.mem_cons.1 mem with rfl | mem
    · exact List.not_mem_nil
    · exact ih mem
  | case3 cs ih =>
    unfold splitLines at mem
    rcases List.mem_cons.1 mem with rfl | mem
    · exact List.not_mem_nil
    · exact ih mem
  | case4 c cs notReturn notFeed none ih =>
    rw [splitLines.eq_4 c cs notReturn notFeed, none] at mem
    obtain rfl := List.mem_singleton.1 mem
    simpa using Ne.symm notFeed
  | case5 c cs notReturn notFeed first lines some ih =>
    rw [splitLines.eq_4 c cs notReturn notFeed, some] at mem
    rcases List.mem_cons.1 mem with rfl | mem
    · have rest := ih (some ▸ List.mem_cons_self)
      simpa using ⟨Ne.symm notFeed, rest⟩
    · exact ih (some ▸ List.mem_cons_of_mem _ mem)

/-! ## 3. Kinds of characters -/

/-- Letters and digits lie between the ASCII white space and the others. -/
theorem toNat_of_isAlphanum {c : Char} (h : c.isAlphanum = true) :
    0x30 ≤ c.toNat ∧ c.toNat ≤ 0x7A := by
  simp only [Char.isAlphanum, Char.isAlpha, Char.isUpper, Char.isLower, Char.isDigit,
    Bool.or_eq_true, Bool.and_eq_true, decide_eq_true_eq, ge_iff_le, UInt32.le_iff_toNat_le] at h
  change ((65 ≤ c.toNat ∧ c.toNat ≤ 90) ∨ 97 ≤ c.toNat ∧ c.toNat ≤ 122) ∨
    48 ≤ c.toNat ∧ c.toNat ≤ 57 at h
  omega

theorem isSpace_of_isAlphanum {c : Char} (h : c.isAlphanum = true) : isSpace c = false := by
  have range := toNat_of_isAlphanum h
  simp only [isSpace, spaceRanges, List.any_cons, List.any_nil, Bool.or_false, Bool.or_eq_false_iff,
    Bool.and_eq_false_iff, decide_eq_false_iff_not]
  omega

theorem isDigit_of_isAlpha {c : Char} (h : c.isAlpha = true) : c.isDigit = false := by
  refine Bool.eq_false_iff.2 fun digit => ?_
  simp only [Char.isAlpha, Char.isUpper, Char.isLower, Char.isDigit, Bool.or_eq_true,
    Bool.and_eq_true, decide_eq_true_eq, ge_iff_le, UInt32.le_iff_toNat_le] at h digit
  change (65 ≤ c.toNat ∧ c.toNat ≤ 90) ∨ 97 ≤ c.toNat ∧ c.toNat ≤ 122 at h
  change 48 ≤ c.toNat ∧ c.toNat ≤ 57 at digit
  omega

theorem isBlank_of_isAlphanum {c : Char} (h : c.isAlphanum = true) : isBlank c = false := by
  refine Bool.eq_false_iff.2 fun blank => ?_
  have space := isSpace_of_isBlank blank
  rw [isSpace_of_isAlphanum h] at space
  cases space

theorem isLineEnd_of_isAlphanum {c : Char} (visible : c.isAlphanum = true) :
    isLineEnd c = false := by
  by_contra ends
  have space := isSpace_of_isLineEnd (Bool.not_eq_false _ ▸ ends)
  rw [isSpace_of_isAlphanum visible] at space
  cases space

theorem isLineEnd_of_isBlank {c : Char} (blank : isBlank c = true) : isLineEnd c = false := by
  rw [isBlank, Bool.or_eq_true, beq_iff_eq, beq_iff_eq] at blank
  rcases blank with rfl | rfl <;> decide

/-- There is nothing to trim from visible characters. -/
theorem trim_eq_self (visible : ∀ c ∈ cs, isSpace c = false) : trim cs = cs := by
  have front : cs.dropWhile isSpace = cs := by
    cases cs with
    | nil => rfl
    | cons c cs => rw [List.dropWhile_cons_of_neg (by simp [visible c List.mem_cons_self])]
  rw [trim, front]
  exact dropTrailing_eq_self_iff.2 fun c last => visible c (List.mem_of_getLast? last)

/-! ## 4. The longest beginning of a kind -/

variable {body rest : List Char}

/-- What has nothing in common with the end of a text begins the text without its end. -/
theorem prefix_of_prefix_append {front body trailing : List Char}
    (begins : front <+: body ++ trailing) (apart : ∀ c ∈ trailing, c ∉ front) : front <+: body := by
  rcases List.prefix_or_prefix_of_prefix begins (List.prefix_append body trailing)
    with inside | longer
  · exact inside
  · obtain ⟨more, rfl⟩ := longer
    have follows := (List.prefix_append_right_inj body).1 begins
    cases more with
    | nil => rw [List.append_nil]
    | cons c more => exact absurd (by simp) (apart c (follows.subset List.mem_cons_self))

theorem takeWhile_append (inside : ∀ c ∈ body, p c = true)
    (stop : ∀ c, rest.head? = some c → p c = false) : (body ++ rest).takeWhile p = body := by
  rw [List.takeWhile_append_of_pos inside]
  cases rest with
  | nil => simp
  | cons c rest => simp [stop c rfl]

theorem dropWhile_append (inside : ∀ c ∈ body, p c = true)
    (stop : ∀ c, rest.head? = some c → p c = false) : (body ++ rest).dropWhile p = rest := by
  rw [List.dropWhile_append_of_pos inside]
  cases rest with
  | nil => rfl
  | cons c rest => simp [stop c rfl]

/-! ## 5. Words in any case -/

/-- Only letters have another capital. -/
theorem toUpper_eq_self {c : Char} (notAlpha : c.isAlpha = false) : c.toUpper = c := by
  unfold Char.toUpper
  split
  next small =>
    rw [Char.isAlpha, Bool.or_eq_false_iff, Char.isLower] at notAlpha
    have lower : (decide ('a'.val ≤ c.val) && decide (c.val ≤ 'z'.val)) = false := notAlpha.2
    rw [decide_eq_true small.1, decide_eq_true small.2] at lower
    cases lower
  next => rfl

variable {a b : String}

theorem sameWord_congr (same : sameWord a b = true) (keyword : String) :
    sameWord a keyword = sameWord b keyword := by
  rw [sameWord, beq_iff_eq] at same
  rw [sameWord, sameWord, same]

/-- Only letters become capital letters. -/
theorem isAlpha_of_toUpper {c : Char} (letter : c.toUpper.isAlpha = true) : c.isAlpha = true := by
  by_contra other
  rw [toUpper_eq_self (Bool.eq_false_iff.2 other)] at letter
  exact other letter

/-- What differs from a word of letters in their case alone has no other characters either. -/
theorem isAlpha_of_sameWord (same : sameWord a b = true)
    (letters : b.toList.all fun c => c.toUpper.isAlpha) {c : Char} (mem : c ∈ a.toList) :
    c.isAlpha = true := by
  rw [sameWord, beq_iff_eq] at same
  have upper : c.toUpper ∈ b.toList.map Char.toUpper := same ▸ List.mem_map_of_mem mem
  obtain ⟨d, found, capital⟩ := List.mem_map.1 upper
  exact isAlpha_of_toUpper (capital ▸ List.all_eq_true.1 letters d found)

end Text

end LineBasic
