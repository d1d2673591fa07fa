import LineBasic.Proofs.Program.Order

/-!
# Walks through a program

A walk begins at the first line and goes on, each time, to the line that follows. It comes upon every
line that is stored, and upon each once, in the order of their numbers. The lines of a range lie side
by side on it.

Results:
1. `SortedMap.follow_eq_take`: a walk comes upon the keys, one after the other.
2. `Program.length_le_size`: there are no more lines to come upon than are stored.
3. `Program.between_eq`, `Program.between_eq_takeWhile`: the lines of a range.
4. `Program.inOrder`: what walks, steps and ranges come upon.
-/

namespace LineBasic

/-! ## 1. Walks from key to key -/

namespace SortedMap

variable {κ ν : Type} [LT κ] {map : SortedMap κ ν}

theorem keys_increasing (map : SortedMap κ ν) : map.keys.Pairwise (· < ·) :=
  List.pairwise_map.2 map.sorted

theorem length_keys (map : SortedMap κ ν) : map.keys.length = map.size := List.length_map _

variable [LE κ] [DecidableLT κ] [Std.IsLinearOrder κ] [Std.LawfulOrderLT κ]

/-- The next key is that of the entry behind. -/
theorem next?_of_split {front back : List (κ × ν)} {entry : κ × ν}
    (split : map.toList = front ++ entry :: back) :
    map.next? entry.1 = back.head?.map (·.1) := by
  have sorted := map.sorted
  rw [split] at sorted
  obtain ⟨_, behind, apart⟩ := List.pairwise_append.1 sorted
  obtain ⟨above, _⟩ := List.pairwise_cons.1 behind
  have before : front.find? (fun e => entry.1 < e.1) = none := by
    refine List.find?_eq_none.2 fun e mem less => ?_
    have below := apart e mem entry List.mem_cons_self
    exact Std.lt_irrefl (Std.lt_trans (of_decide_eq_true less) below)
  rw [next?, split, List.find?_append, before, Option.none_or,
    List.find?_cons_of_neg (by simp [Std.lt_irrefl])]
  cases back with
  | nil => rfl
  | cons next rest =>
    have less : entry.1 < next.1 := above next List.mem_cons_self
    rw [List.find?_cons_of_pos (by simpa using less), List.head?_cons]

theorem follow_of_split {front back : List (κ × ν)} (split : map.toList = front ++ back)
    (bound : Nat) : map.follow bound (back.head?.map (·.1)) = (back.map (·.1)).take bound := by
  induction bound generalizing front back with
  | zero => rfl
  | succ bound ih =>
    cases back with
    | nil => rfl
    | cons entry back =>
      have behind : map.toList = (front ++ [entry]) ++ back := by rw [split, List.append_cons]
      rw [List.head?_cons, Option.map_some, follow, next?_of_split split, ih behind]
      rfl

/-- A walk from the first key comes upon the keys, one after the other. -/
theorem follow_eq_take (map : SortedMap κ ν) (bound : Nat) :
    map.follow bound map.first? = map.keys.take bound :=
  follow_of_split (List.nil_append _).symm bound

theorem walk_eq_keys (map : SortedMap κ ν) : map.walk = map.keys := by
  rw [walk, follow_eq_take, List.take_of_length_le (le_of_eq map.length_keys)]

end SortedMap

/-! ## 2. Stored lines and their texts -/

namespace Program

variable {program : Program} {n : LineNumber}

theorem mem_keys_iff : n ∈ program.keys ↔ program.contains n = true := by
  simp [SortedMap.keys, contains_iff]

/-- No more lines are met in increasing order than are stored. -/
theorem length_le_size {lines : List LineNumber} (increasing : lines.Pairwise (· < ·))
    (stored : ∀ n ∈ lines, program.contains n = true) : lines.length ≤ program.size := by
  have distinct : lines.Nodup := increasing.imp Nat.ne_of_lt
  rw [← program.length_keys]
  exact (distinct.subperm fun n mem => mem_keys_iff.2 (stored n mem)).length_le

theorem lines_eq (program : Program) :
    program.lines = program.keys.map fun n => (n, program.text n) := by
  rw [lines, SortedMap.keys, List.map_map]
  refine List.map_congr_left fun entry mem => ?_
  have found : program.find? entry.1 = some entry.2 := (SortedMap.find?_eq_some_iff _).2 mem
  rw [Function.comp_apply, text, found]

/-! ## 3. Ranges -/

/-- The lines of a range are those whose numbers lie in it. -/
theorem between_eq (program : Program) (first last : LineNumber) :
    program.between first last =
      (program.keys.filter fun n => first ≤ n ∧ n ≤ last).map program.text := by
  rw [between, lines_eq, List.filter_map, List.map_map]
  rfl

namespace TraversalLemmas

variable {α : Type} {p : α → Bool} {l : List α}

/-- What satisfies a condition stands in front, if all satisfy it that stand before one that does. -/
theorem takeWhile_eq_filter (closed : l.Pairwise fun a b => p b = true → p a = true) :
    l.takeWhile p = l.filter p := by
  induction l with
  | nil => rfl
  | cons a l ih =>
    obtain ⟨first, closed⟩ := List.pairwise_cons.1 closed
    cases holds : p a with
    | true => rw [List.takeWhile_cons_of_pos holds, List.filter_cons_of_pos holds, ih closed]
    | false =>
      have none : ∀ b ∈ a :: l, ¬ p b = true := by
        refine List.forall_mem_cons.2 ⟨by simp [holds], fun b mem yes => ?_⟩
        rw [first b mem yes] at holds
        cases holds
      rw [List.takeWhile_cons_of_neg (by simp [holds]), List.filter_eq_nil_iff.2 none]

theorem dropWhile_eq_filter (closed : l.Pairwise fun a b => p b = true → p a = true) :
    l.dropWhile p = l.filter fun a => !p a := by
  induction l with
  | nil => rfl
  | cons a l ih =>
    obtain ⟨first, closed⟩ := List.pairwise_cons.1 closed
    cases holds : p a with
    | true =>
      rw [List.dropWhile_cons_of_pos holds, List.filter_cons_of_neg (by simp [holds]), ih closed]
    | false =>
      have all : ∀ b ∈ a :: l, (!p b) = true := by
        refine List.forall_mem_cons.2 ⟨by simp [holds], fun b mem => ?_⟩
        cases yes : p b with
        | true => rw [first b mem yes] at holds; cases holds
        | false => rfl
      rw [List.dropWhile_cons_of_neg (by simp [holds]), List.filter_eq_self.2 all]

end TraversalLemmas

open TraversalLemmas

/-- The lines of a range lie side by side: those before it are passed over, and behind the first that
is too high there is no need to look. -/
theorem between_eq_takeWhile (program : Program) (first last : LineNumber) :
    program.between first last =
      ((program.lines.dropWhile fun line => line.1 < first).takeWhile
        fun line => line.1 ≤ last).map (·.2) := by
  have sorted : program.lines.Pairwise fun a b => a.1 < b.1 :=
    List.pairwise_map.2 program.sorted
  have lower : program.lines.Pairwise fun a b =>
      decide (b.1 < first) = true → decide (a.1 < first) = true :=
    sorted.imp fun less below => decide_eq_true (Nat.lt_trans less (of_decide_eq_true below))
  have upper : program.lines.Pairwise fun a b =>
      decide (b.1 ≤ last) = true → decide (a.1 ≤ last) = true :=
    sorted.imp fun less below =>
      decide_eq_true (Nat.le_trans (Nat.le_of_lt less) (of_decide_eq_true below))
  rw [dropWhile_eq_filter lower, takeWhile_eq_filter (upper.filter _), List.filter_filter, between]
  congr 2
  funext line
  rw [Bool.decide_and, Bool.and_comm, ← decide_not, Bool.decide_congr Nat.not_lt]

/-! ## 4. Order -/

/-- A program is in order: its lines are met in the order of their numbers, by walks, by steps from
any number on, and in ranges. -/
structure InOrder (program : Program) : Prop where
  /-- A walk comes to its end behind as many lines as are stored, and no bound on it matters. -/
  ended : ∀ bound, program.size ≤ bound → program.follow bound program.first? = program.walk
  /-- It meets as many lines as are stored. -/
  length : program.walk.length = program.size
  /-- It goes up all the way, so that it meets no line twice. -/
  increasing : program.walk.Pairwise (· < ·)
  /-- It meets the lines that are stored and no others. -/
  met : ∀ n, n ∈ program.walk ↔ program.contains n = true
  /-- The listing of all lines goes the same way. -/
  listed : program.lines = program.walk.map fun n => (n, program.text n)
  /-- A step from a number, stored or not, leads to the least line above it. -/
  step : ∀ after n,
    program.next? after = some n ↔ IsLeast {k | program.contains k ∧ after < k} n
  /-- It leads nowhere just if no line lies above the number. -/
  last : ∀ after, program.next? after = none ↔ ∀ n, program.contains n → n ≤ after
  /-- A range holds the texts of the stored lines from its beginning to its end, in order. -/
  range : ∀ first last, ∃ numbers : List LineNumber,
    numbers.Pairwise (· < ·) ∧
    (∀ n, n ∈ numbers ↔ program.contains n = true ∧ first ≤ n ∧ n ≤ last) ∧
    program.between first last = numbers.map program.text
  /-- They lie side by side among all lines. -/
  adjacent : ∀ first last, program.between first last =
    ((program.lines.dropWhile fun line => line.1 < first).takeWhile
      fun line => line.1 ≤ last).map (·.2)
  /-- A range that ends before it begins holds nothing. -/
  backwards : ∀ first last, last < first → program.between first last = []

/-- Whatever lines have been stored, replaced and removed, the program is in order. -/
theorem inOrder (program : Program) : program.InOrder where
  ended bound enough := by
    rw [SortedMap.follow_eq_take, SortedMap.walk_eq_keys,
      List.take_of_length_le (program.length_keys ▸ enough)]
  length := by rw [SortedMap.walk_eq_keys, SortedMap.length_keys]
  increasing := by
    rw [SortedMap.walk_eq_keys]
    exact program.keys_increasing
  met n := by rw [SortedMap.walk_eq_keys, mem_keys_iff]
  listed := by rw [SortedMap.walk_eq_keys, lines_eq]
  step _ _ := next?_eq_some_iff
  last _ := next?_eq_none_iff
  range first last := by
    refine ⟨program.keys.filter fun n => first ≤ n ∧ n ≤ last, program.keys_increasing.filter _,
      fun n => ?_, program.between_eq first last⟩
    rw [List.mem_filter, mem_keys_iff, decide_eq_true_iff]
  adjacent := program.between_eq_takeWhile
  backwards first last less := by
    rw [between_eq, List.filter_eq_nil_iff.2, List.map_nil]
    intro n _ inside
    have inside := of_decide_eq_true inside
    exact absurd (Nat.le_trans inside.1 inside.2) (Nat.not_le_of_lt less)

end Program

end LineBasic
